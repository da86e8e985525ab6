import RouteAtlas.Proofs.Number.Decimal
import RouteAtlas.Proofs.Number.Notation
import RouteAtlas.Proofs.Settings.Answered

/-!
# Settings that were loaded

Every key is read in its own way, but whatever stands behind it, no field is left without a usable
value: no name and no marker is empty, and there is an extension. And a field knows nothing of other
keys. What stands behind its own key decides, up to the order in which mappings have their entries
(`Data.Same`).
-/

namespace RouteAtlas

theorem Numeral.ne_nil_of_decimal? {n : Int} {t : Text} (h : decimal? n = some t) : t ≠ [] := by
  obtain ⟨ds, chars, -⟩ := Digits.exists_toDigits (by decide : 2 ≤ 10) (by decide) n.natAbs
  rw [decimal?] at h
  split at h
  · cases h
  · obtain rfl := Option.some.inj h
    have digits : ds.chars ≠ [] := chars ▸ Nat.toDigits_ne_nil
    rw [ofString_toString n chars, signed, Digits.text]
    exact List.append_ne_nil_of_right_ne_nil _ (mt List.map_eq_nil_iff.mp digits)

theorem Numeral.IsNumeral.ne_nil {cs : List Char} (h : IsNumeral cs) : cs ≠ [] := by
  obtain ⟨-, whole, -, -⟩ := h
  cases whole <;> simp

theorem Binary64.toText_ne_nil (x : Binary64) : x.toText ≠ [] := by
  cases x with
  | nan => decide
  | infinity negative => cases negative <;> decide
  | finite negative m e =>
      obtain ⟨cs, text, numeral⟩ := exists_toText negative m e
      rw [text, Text.ofString, String.toList_ofList]
      simpa using numeral.ne_nil

namespace Data

/-! ## What a field takes from data -/

/-- A text that data give to a list of texts: as a text alone, as the text of an item, or as the
number of a byte. -/
inductive Offers : Data → Text → Prop
  | alone (t : Text) : Offers (.value (.text t)) t
  | item {items : List Data} {v : Value} {t : Text} (mem : .value v ∈ items) (present : v ≠ .null)
    (spelled : v.toText? = some t) : Offers (.list items) t
  | byte {bs : List UInt8} {b : UInt8} (mem : b ∈ bs) : Offers (.bytes bs) (Text.ofNat b.toNat)

theorem spell_eq_ok_iff {v : Value} {t : Text} : spell v = .ok t ↔ v.toText? = some t := by
  rw [spell]
  cases v.toText? <;> simp

theorem itemText_eq_some_iff {d : Data} {t : Text} :
    d.itemText = .ok (some t) ↔ ∃ v, d = .value v ∧ v ≠ .null ∧ v.toText? = some t := by
  have value (v : Value) (some : v ≠ .null) : (spell v).map Option.some = .ok (Option.some t) ↔
      ∃ u, Data.value v = .value u ∧ u ≠ .null ∧ u.toText? = Option.some t := by
    constructor
    · intro h
      obtain ⟨u, spelled, same⟩ := map_eq_ok h
      exact ⟨v, rfl, some, spell_eq_ok_iff.mp (Option.some.inj same ▸ spelled)⟩
    · rintro ⟨u, same, -, spelled⟩
      rw [value.inj same, spell_eq_ok_iff.mpr spelled]
      rfl
  cases d with
  | value v =>
      cases v with
      | null => simp [itemText]
      | bool b => exact value (.bool b) nofun
      | int n => exact value (.int n) nofun
      | real x => exact value (.real x) nofun
      | text u => exact value (.text u) nofun
  | bytes _ => simp [itemText]
  | moment => simp [itemText]
  | list _ => simp [itemText]
  | set => simp [itemText]
  | mapping _ => simp [itemText]

/-- The list of texts that data stand for holds what they offer. -/
theorem mem_texts_iff {d : Data} {ts : List Text} (h : d.texts = .ok ts) (t : Text) :
    t ∈ ts ↔ d.Offers t := by
  have nothing (none : ts = []) (noOffer : ¬ d.Offers t) : t ∈ ts ↔ d.Offers t := by
    rw [none]
    exact iff_of_false List.not_mem_nil noOffer
  cases d with
  | value v =>
      cases v with
      | text u =>
          obtain rfl := Except.ok.inj h
          rw [List.mem_singleton]
          exact ⟨fun same => same ▸ .alone u, fun offer => by cases offer; rfl⟩
      | null => exact nothing (Except.ok.inj h).symm nofun
      | bool _ => exact nothing (Except.ok.inj h).symm nofun
      | int _ => exact nothing (Except.ok.inj h).symm nofun
      | real _ => exact nothing (Except.ok.inj h).symm nofun
  | bytes bs =>
      obtain rfl := Except.ok.inj h
      rw [List.mem_map]
      constructor
      · rintro ⟨b, mem, rfl⟩
        exact .byte mem
      · rintro ⟨⟩
        exact ⟨_, ‹_›, rfl⟩
  | list items =>
      obtain ⟨found, read, h⟩ := bind_eq_ok h
      obtain rfl := Except.ok.inj h
      rw [List.mem_filterMap]
      simp only [id_eq, exists_eq_right, mem_of_mapM_eq_ok read, itemText_eq_some_iff]
      constructor
      · rintro ⟨_, mem, v, rfl, some, spelled⟩
        exact .item mem some spelled
      · rintro ⟨⟩
        exact ⟨_, ‹_›, _, rfl, ‹_›, ‹_›⟩
  | moment => exact nothing (Except.ok.inj h).symm nofun
  | set => exact nothing (Except.ok.inj h).symm nofun
  | mapping _ => exact nothing (Except.ok.inj h).symm nofun

/-- A text that data stand for is not empty. -/
theorem ne_nil_of_text {d : Data} {t : Text} (h : d.text = .ok (some t)) : t ≠ [] := by
  cases d with
  | value v =>
      cases v with
      | text u =>
          rw [text] at h
          split at h
          · cases h
          · next other => exact Option.some.inj (Except.ok.inj h) ▸ other
      | int n =>
          obtain ⟨u, spelled, same⟩ := map_eq_ok h
          obtain rfl := Option.some.inj same
          exact Numeral.ne_nil_of_decimal? (spell_eq_ok_iff.mp spelled)
      | real x =>
          obtain rfl := Option.some.inj (Except.ok.inj h)
          exact x.toText_ne_nil
      | null => cases h
      | bool _ => cases h
  | bytes _ => cases h
  | moment => cases h
  | list _ => cases h
  | set => cases h
  | mapping _ => cases h

theorem textAt_ne_nil {d : Data} {key standard t : Text} (some : standard ≠ [])
    (h : d.textAt key standard = .ok t) : t ≠ [] := by
  obtain ⟨found, read, h⟩ := bind_eq_ok h
  obtain rfl := Except.ok.inj h
  cases found with
  | none => exact some
  | some u => exact ne_nil_of_text read

/-! ## The same data -/

/-- The same data, up to the order and the repetition of entries in mappings: of a mapping counts
what stands behind each text. -/
inductive Same : Data → Data → Prop
  | refl (d : Data) : Same d d
  | list {items others : List Data} (each : List.Forall₂ Same items others) :
    Same (.list items) (.list others)
  | mapping {es others : List (Data × Data)}
    (each : ∀ key, Option.Rel Same (get? (.mapping es) key) (get? (.mapping others) key)) :
    Same (.mapping es) (.mapping others)

namespace Same

variable {d e : Data}

theorem itemText (h : Same d e) : e.itemText = d.itemText := by
  cases h <;> rfl

theorem texts (h : Same d e) : e.texts = d.texts := by
  cases h with
  | refl => rfl
  | list each =>
      rw [Data.texts, Data.texts, mapM_eq_of_forall₂ each fun _ _ _ same => same.itemText]
  | mapping => rfl

theorem text (h : Same d e) : e.text = d.text := by
  cases h <;> rfl

theorem truth (h : Same d e) : e.truth = d.truth := by
  cases h <;> rfl

theorem get? (h : Same d e) (key : Text) : Option.Rel Same (d.get? key) (e.get? key) := by
  cases h with
  | refl =>
      cases d.get? key with
      | none => exact .none
      | some v => exact .some (.refl v)
  | list => exact .none
  | mapping each => exact each key

end Same

/-- What is behind a key in one mapping and in the other, with null where there is nothing. -/
theorem same_getD {a b : Option Data} (h : Option.Rel Same a b) :
    Same (a.getD .null) (b.getD .null) := by
  cases h with
  | some same => exact same
  | none => exact .refl _

theorem textAt_same {d e : Data} {key : Text} (h : Option.Rel Same (d.get? key) (e.get? key))
    (standard : Text) : e.textAt key standard = d.textAt key standard := by
  rw [textAt, textAt, (same_getD h).text]

end Data

namespace Settings

open Data

/-! ## No field without a usable value -/

/-- There are extensions, each begins with a dot, and no name and no marker is empty. -/
structure WellFormed (s : Settings) : Prop where
  extensions : s.extensions ≠ []
  dotted : ∀ e ∈ s.extensions, e.startsWith "." = true
  marker : s.marker ≠ []
  factory : s.framework.factory ≠ []
  routerFactory : s.framework.routerFactory ≠ []
  json : s.output.json ≠ []
  page : s.output.html ≠ []

theorem startsWith_dotted (extension : Text) : (dotted extension).startsWith "." = true := by
  rw [dotted]
  split
  · next already => exact already
  · rfl

/-- The fields of settings are read from the data one by one. -/
theorem ofData_eq_ok {d : Data} {s : Settings} (h : ofData d = .ok s) :
    excludedOf d = .ok s.excluded ∧ extensionsOf d = .ok s.extensions ∧
      frameworkOf d = .ok s.framework ∧
      d.textAt "description_marker" standard.marker = .ok s.marker ∧
      resolveMountsOf d = s.resolveMounts ∧ outputOf d = .ok s.output := by
  obtain ⟨_, excluded, h⟩ := bind_eq_ok h
  obtain ⟨_, extensions, h⟩ := bind_eq_ok h
  obtain ⟨_, framework, h⟩ := bind_eq_ok h
  obtain ⟨_, marker, h⟩ := bind_eq_ok h
  obtain ⟨_, output, h⟩ := bind_eq_ok h
  obtain rfl := Except.ok.inj h
  exact ⟨excluded, extensions, framework, marker, rfl, output⟩

theorem wellFormed_extensionsOf {d : Data} {es : List Text} (h : extensionsOf d = .ok es) :
    es ≠ [] ∧ ∀ e ∈ es, e.startsWith "." = true := by
  obtain ⟨found, -, h⟩ := bind_eq_ok h
  obtain rfl := Except.ok.inj h
  split
  · decide
  · next some =>
      refine ⟨mt List.map_eq_nil_iff.mp some, ?_⟩
      intro e mem
      obtain ⟨t, -, rfl⟩ := List.mem_map.mp mem
      exact startsWith_dotted t

theorem wellFormed_ofData {d : Data} {s : Settings} (h : ofData d = .ok s) : s.WellFormed := by
  obtain ⟨-, extensions, framework, marker, -, output⟩ := ofData_eq_ok h
  obtain ⟨some, dotted⟩ := wellFormed_extensionsOf extensions
  obtain ⟨factory, first, framework⟩ := bind_eq_ok framework
  obtain ⟨routerFactory, second, framework⟩ := bind_eq_ok framework
  obtain ⟨json, third, output⟩ := bind_eq_ok output
  obtain ⟨page, fourth, output⟩ := bind_eq_ok output
  have framework : (⟨factory, routerFactory⟩ : Framework) = s.framework := Except.ok.inj framework
  have output : (⟨json, page⟩ : OutputNames) = s.output := Except.ok.inj output
  refine ⟨some, dotted, textAt_ne_nil (by decide) marker, ?_, ?_, ?_, ?_⟩
  · rw [← framework]
    exact textAt_ne_nil (by decide) first
  · rw [← framework]
    exact textAt_ne_nil (by decide) second
  · rw [← output]
    exact textAt_ne_nil (by decide) third
  · rw [← output]
    exact textAt_ne_nil (by decide) fourth

/-! ## A field and its key -/

/-- A key of a settings file. -/
inductive Key
  | excluded
  | extensions
  | framework
  | marker
  | resolveMounts
  | output

namespace Key

/-- How the key is written. -/
def name : Key → Text
  | excluded => "excluded"
  | extensions => "extensions"
  | framework => "framework"
  | marker => "description_marker"
  | resolveMounts => "resolve_mounts"
  | output => "output"

/-- What the field of the key holds. -/
def Field : Key → Type
  | excluded => List Text
  | extensions => List Text
  | framework => Framework
  | marker => Text
  | resolveMounts => Bool
  | output => OutputNames

end Key

/-- The field of a key. -/
def get (s : Settings) : (k : Key) → k.Field
  | .excluded => s.excluded
  | .extensions => s.extensions
  | .framework => s.framework
  | .marker => s.marker
  | .resolveMounts => s.resolveMounts
  | .output => s.output

/-- What data give for the field of a key. -/
def fieldOf (d : Data) : (k : Key) → Except FieldError k.Field
  | .excluded => excludedOf d
  | .extensions => extensionsOf d
  | .framework => frameworkOf d
  | .marker => d.textAt "description_marker" standard.marker
  | .resolveMounts => .ok (resolveMountsOf d)
  | .output => outputOf d

theorem fieldOf_eq_ok {d : Data} {s : Settings} (h : ofData d = .ok s) (k : Key) :
    fieldOf d k = .ok (s.get k) := by
  obtain ⟨excluded, extensions, framework, marker, resolveMounts, output⟩ := ofData_eq_ok h
  cases k with
  | excluded => exact excluded
  | extensions => exact extensions
  | framework => exact framework
  | marker => exact marker
  | resolveMounts => exact congrArg Except.ok resolveMounts
  | output => exact output

/-- What stands behind a key decides on its field. -/
theorem fieldOf_same {d e : Data} {k : Key}
    (h : Option.Rel Same (d.get? k.name) (e.get? k.name)) : fieldOf e k = fieldOf d k := by
  have inside := same_getD h
  cases k with
  | excluded =>
      rw [fieldOf, fieldOf, excludedOf, excludedOf]
      rw [Key.name] at h
      generalize d.get? "excluded" = first, e.get? "excluded" = second at h
      cases h with
      | some same => exact same.texts
      | none => rfl
  | extensions =>
      rw [Key.name] at inside
      rw [fieldOf, fieldOf, extensionsOf, extensionsOf, inside.texts]
  | framework =>
      rw [Key.name] at inside
      rw [fieldOf, fieldOf, frameworkOf, frameworkOf]
      rw [textAt_same (inside.get? "factory"), textAt_same (inside.get? "router_factory")]
  | marker => exact textAt_same h _
  | resolveMounts =>
      rw [Key.name] at inside
      rw [fieldOf, fieldOf, resolveMountsOf, resolveMountsOf, inside.truth]
  | output =>
      rw [Key.name] at inside
      rw [fieldOf, fieldOf, outputOf, outputOf]
      rw [textAt_same (inside.get? "json"), textAt_same (inside.get? "html")]

/-! ## Settings files -/

/-- The settings file holds these entries. -/
def HoldsMapping (d : Disk) (given : Option Text) (es : List (Data × Data)) : Prop :=
  ∃ p bytes, place d given = .ok p ∧ d.read p.toText = .ok bytes ∧
    data (p.headD []) bytes = .ok (.mapping es)

section Files

variable {d : Disk} {given : Option Text} {es : List (Data × Data)}

/-- The settings of a file that holds entries are those of the entries. -/
theorem HoldsMapping.load_eq (h : HoldsMapping d given es) : ∃ p,
    load d given = (ofParsed (p.headD []) (.ok (.mapping es))).map fun s => ⟨s, some p⟩ := by
  obtain ⟨p, bytes, there, read, holds⟩ := h
  exact ⟨p, by rw [Settings.load_eq there read, ofBytes_eq, holds]⟩

theorem HoldsMapping.ofData_eq_ok {found : Found} (h : HoldsMapping d given es)
    (loaded : load d given = .ok found) : ofData (.mapping es) = .ok found.settings := by
  obtain ⟨p, same⟩ := h.load_eq
  obtain ⟨s, read, rfl⟩ := map_eq_ok (same.symm.trans loaded)
  rw [ofParsed] at read
  split at read
  · next settings =>
      obtain rfl := Except.ok.inj read
      exact settings
  · cases read

theorem HoldsMapping.exists_load_iff (h : HoldsMapping d given es) :
    (∃ found, load d given = .ok found) ↔ (Data.mapping es).AsksShort := by
  obtain ⟨p, same⟩ := h.load_eq
  rw [same, exists_map_ok, ofParsed, ← exists_ofData_iff]
  cases ofData (.mapping es) with
  | ok s => exact iff_of_true ⟨s, rfl⟩ ⟨s, rfl⟩
  | error e =>
      obtain ⟨⟩ := e
      exact iff_of_false (by rintro ⟨_, ⟨⟩⟩) (by rintro ⟨_, ⟨⟩⟩)

/-- A settings file that holds a mapping is loaded unless an integer beyond the digit limit is asked
for its text. Then no field is left without a usable value, and the excluded texts are the standard
ones if their key is absent, and the texts that its value offers otherwise. Another file gives the
same for a field if the same stands behind its key, or nothing in both files, whatever they hold
besides. -/
theorem wellFormed_of_load (holds : HoldsMapping d given es) :
    ((∃ found, load d given = .ok found) ↔ (Data.mapping es).AsksShort) ∧
    ∀ found, load d given = .ok found →
      found.settings.WellFormed ∧
      ((Data.mapping es).get? "excluded" = none → found.settings.excluded = standard.excluded) ∧
      (∀ value, (Data.mapping es).get? "excluded" = some value →
        ∀ t, t ∈ found.settings.excluded ↔ value.Offers t) ∧
      ∀ other given' es' found', HoldsMapping other given' es' → load other given' = .ok found' →
        ∀ k : Key, Option.Rel Data.Same ((Data.mapping es).get? k.name)
            ((Data.mapping es').get? k.name) →
          found'.settings.get k = found.settings.get k := by
  refine ⟨holds.exists_load_iff, fun found loaded => ?_⟩
  have fields := holds.ofData_eq_ok loaded
  have excluded := (Settings.ofData_eq_ok fields).1
  rw [excludedOf] at excluded
  refine ⟨wellFormed_ofData fields, fun absent => ?_, fun value there t => ?_, ?_⟩
  · rw [absent] at excluded
    exact (Except.ok.inj excluded).symm
  · rw [there] at excluded
    exact mem_texts_iff excluded t
  · intro other given' es' found' holds' loaded' k same
    have fields' := holds'.ofData_eq_ok loaded'
    have first := fieldOf_eq_ok fields k
    have second := fieldOf_eq_ok fields' k
    rw [fieldOf_same same] at second
    exact Except.ok.inj (second.symm.trans first)

end Files

/-- Names for the output: one is a number, the other is empty. -/
def outputEntries : List (Data × Data) := Data.ofMembers [("json", .int 7), ("html", .text "")]

/-- A file that holds these names, and nothing else. -/
def namedOutput : Disk := Command.settingsFolder "settings.json"
  "\x7b\"output\":\x7b\"json\":7,\"html\":\"\"\x7d\x7d".toUTF8

/-- A file that holds the same names, in another order, and says what to leave out. -/
def reorderedOutput : Disk := Command.settingsFolder "settings.json"
  "\x7b\"excluded\":[true],\"output\":\x7b\"html\":\"\",\"json\":7\x7d\x7d".toUTF8

theorem holds_namedOutput : HoldsMapping namedOutput (some "settings.json")
    [(.value (.text "output"), .mapping outputEntries)] :=
  ⟨["settings.json", "p"], _, rfl, rfl, by rfl⟩

set_option maxRecDepth 1000 in
theorem holds_reorderedOutput : HoldsMapping reorderedOutput (some "settings.json")
    [(.value (.text "excluded"), .list [.value (.bool true)]),
      (.value (.text "output"), .mapping outputEntries.reverse)] :=
  ⟨["settings.json", "p"], _, rfl, rfl, by rfl⟩

theorem same_outputEntries :
    Data.Same (.mapping outputEntries) (.mapping outputEntries.reverse) := by
  refine .mapping fun key => ?_
  by_cases json : key = "json"
  · subst json
    exact .some (.refl _)
  · by_cases html : key = "html"
    · subst html
      exact .some (.refl _)
    · have absent (es : List (Data × Data)) (h : es ⊆ outputEntries) :
          (Data.mapping es).get? key = none := by
        rw [get?, Option.map_eq_none_iff, List.find?_eq_none]
        intro e mem
        have among := h (List.mem_reverse.mp mem)
        simp only [outputEntries, ofMembers, List.mem_cons, List.not_mem_nil, or_false] at among
        obtain rfl | rfl := among
        · simpa [isText] using json
        · simpa [isText] using html
      rw [absent _ (List.Subset.refl _), absent _ (List.reverse_subset.mpr (List.Subset.refl _))]
      exact .none

/-- Both files are loaded, and they name the same output; only one of them leaves something out. -/
theorem wellFormed_of_load_output : ∃ found found',
    load namedOutput (some "settings.json") = .ok found ∧
      load reorderedOutput (some "settings.json") = .ok found' ∧ found.settings.WellFormed ∧
      found.settings.excluded = standard.excluded ∧ ("True" : Text) ∈ found'.settings.excluded ∧
      found'.settings.output = found.settings.output := by
  obtain ⟨returns, fields⟩ := wellFormed_of_load holds_namedOutput
  obtain ⟨returns', fields'⟩ := wellFormed_of_load holds_reorderedOutput
  obtain ⟨found, loaded⟩ := returns.mpr ((exists_ofData_iff _).mp ⟨_, rfl⟩)
  obtain ⟨found', loaded'⟩ := returns'.mpr ((exists_ofData_iff _).mp ⟨_, rfl⟩)
  obtain ⟨wellFormed, absent, -, agrees⟩ := fields found loaded
  obtain ⟨-, -, present, -⟩ := fields' found' loaded'
  have offered : Data.Offers (.list [.value (.bool true)]) "True" :=
    .item List.mem_cons_self (by simp) rfl
  have output := agrees _ _ _ _ holds_reorderedOutput loaded' .output (.some same_outputEntries)
  exact ⟨found, found', loaded, loaded', wellFormed, absent rfl, (present _ rfl _).mpr offered,
    output⟩

end Settings

end RouteAtlas
