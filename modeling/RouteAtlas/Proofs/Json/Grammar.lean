import RouteAtlas.Proofs.Json.Printed
import RouteAtlas.Proofs.Json.Values
import RouteAtlas.Proofs.Number.Notation
import RouteAtlas.Proofs.Results

/-!
# The grammar of JSON

The grammar is stated on its own, as in the standard: what is derived says nothing of a reader or a
printer. Every printed value is derived, unless the value holds a number that is infinite or no
number at all. These are printed as words that have an `I` or an `N` in them, and nothing derived
has one of these letters outside of quotes.
-/

namespace RouteAtlas

/-- The value is no real that is infinite or no number. -/
def Value.IsFinite : Value → Prop
  | real .nan => False
  | real (.infinity _) => False
  | _ => True

namespace Json

/-- Blanks, as they may stand around tokens. -/
def AreBlanks (cs : List Char) : Prop := ∀ c ∈ cs, c ∈ [' ', '\t', '\n', '\r']

/-- What stands for one unit between quotes. -/
inductive IsUnit : List Char → Prop
  | self {c : Char} (visible : 0x20 ≤ c.toNat) (h : c ≠ '"' ∧ c ≠ '\\') : IsUnit [c]
  | letter {l : Char} (h : l ∈ ['"', '\\', '/', 'b', 'f', 'n', 'r', 't']) : IsUnit ['\\', l]
  | digits {ds : List Char} (four : ds.length = 4)
    (h : ∀ d ∈ ds, (hexDigit? (CodePoint.ofChar d)).isSome) : IsUnit ('\\' :: 'u' :: ds)

/-- Units between quotes. -/
inductive IsQuoted : List Char → Prop
  | mk {units : List (List Char)} (h : ∀ u ∈ units, IsUnit u) :
    IsQuoted ('"' :: units.flatten ++ ['"'])

/-- The symbols of the grammar. An element is a value between blanks. -/
inductive Symbol
  | value
  | element
  | elements
  | member
  | members

/-- What the symbols of the grammar derive. -/
inductive Derives : Symbol → List Char → Prop
  | word {cs : List Char} (h : cs ∈ ["null".toList, "true".toList, "false".toList]) :
    Derives .value cs
  | number {cs : List Char} (h : Numeral.IsNumeral cs) : Derives .value cs
  | text {cs : List Char} (h : IsQuoted cs) : Derives .value cs
  | emptyArray {gap : List Char} (h : AreBlanks gap) : Derives .value ('[' :: gap ++ [']'])
  | array {cs : List Char} (h : Derives .elements cs) : Derives .value ('[' :: cs ++ [']'])
  | emptyObject {gap : List Char} (h : AreBlanks gap) : Derives .value ('\x7b' :: gap ++ ['\x7d'])
  | object {cs : List Char} (h : Derives .members cs) : Derives .value ('\x7b' :: cs ++ ['\x7d'])
  | element {before cs behind : List Char} (hBefore : AreBlanks before) (h : Derives .value cs)
    (hBehind : AreBlanks behind) : Derives .element (before ++ cs ++ behind)
  | single {cs : List Char} (h : Derives .element cs) : Derives .elements cs
  | elements {cs rest : List Char} (h : Derives .element cs) (later : Derives .elements rest) :
    Derives .elements (cs ++ ',' :: rest)
  | member {before key behind cs : List Char} (hBefore : AreBlanks before) (hKey : IsQuoted key)
    (hBehind : AreBlanks behind) (h : Derives .element cs) :
    Derives .member (before ++ key ++ behind ++ ':' :: cs)
  | singleMember {cs : List Char} (h : Derives .member cs) : Derives .members cs
  | members {cs rest : List Char} (h : Derives .member cs) (later : Derives .members rest) :
    Derives .members (cs ++ ',' :: rest)

/-- A text of JSON holds one value, with blanks around it. -/
def IsText (cs : List Char) : Prop := Derives .element cs

/-! ## What is printed is derived -/

theorem areBlanks_nil : AreBlanks [] := nofun

theorem areBlanks_newline (level : Nat) : AreBlanks (newline level) := by
  intro c mem
  rcases mem_newline mem with rfl | rfl <;> decide

theorem isUnit_unitEscape (n : Nat) : IsUnit (unitEscape n) := by
  refine .digits (by simp [hex4]) fun d mem => ?_
  obtain ⟨k, inList, rfl⟩ := List.mem_map.mp mem
  have small : k < 16 := by
    simp only [List.mem_cons, List.not_mem_nil, or_false] at inList
    omega
  rw [hexDigit?_digitChar ⟨k, small⟩]
  rfl

/-- A code point is written as units between quotes. -/
theorem exists_units_escapePoint (c : CodePoint) :
    ∃ units : List (List Char), escapePoint c = units.flatten ∧ ∀ u ∈ units, IsUnit u := by
  have one {cs : List Char} (h : IsUnit cs) :
      ∃ units : List (List Char), cs = units.flatten ∧ ∀ u ∈ units, IsUnit u :=
    ⟨[cs], by simp, List.forall_mem_singleton.mpr h⟩
  have written := escaped_escapePoint c
  generalize escapePoint c = cs at written
  cases written with
  | @letter l _ ascii _ h =>
      have letters : ∀ n : Fin 0x80, (escapedPoint? (CodePoint.ofChar (Char.ofNat n))).isSome →
          Char.ofNat n ∈ ['"', '\\', '/', 'b', 'f', 'n', 'r', 't'] := by decide
      have known := letters ⟨l.toNat, ascii⟩
      rw [Char.ofNat_toNat] at known
      exact one (.letter (known (h ▸ rfl)))
  | self printable =>
      have number := toNat_ofNat (n := c.val) (by omega)
      have other {l : Char} (ne : c.val ≠ l.toNat) : Char.ofNat c.val ≠ l := fun same =>
        ne (by rw [← number, same])
      exact one (.self (by omega) ⟨other printable.2.2.1, other printable.2.2.2⟩)
  | unit _ => exact one (isUnit_unitEscape _)
  | pair _ =>
      refine ⟨[unitEscape (highUnit c).val, unitEscape (lowUnit c).val], by simp, ?_⟩
      exact List.forall_mem_cons.mpr
        ⟨isUnit_unitEscape _, List.forall_mem_singleton.mpr (isUnit_unitEscape _)⟩

theorem isQuoted_quote (t : Text) : IsQuoted (quote t) := by
  have inside : ∃ units : List (List Char),
      t.flatMap escapePoint = units.flatten ∧ ∀ u ∈ units, IsUnit u := by
    induction t with
    | nil => exact ⟨[], rfl, nofun⟩
    | cons c r ih =>
        obtain ⟨first, here, isUnit⟩ := exists_units_escapePoint c
        obtain ⟨rest, later, areUnits⟩ := ih
        refine ⟨first ++ rest, ?_, List.forall_mem_append.mpr ⟨isUnit, areUnits⟩⟩
        rw [List.flatMap_cons, here, later, List.flatten_append]
  obtain ⟨units, written, areUnits⟩ := inside
  rw [quote, written]
  exact .mk areUnits

theorem isNumeral_of_printInt {n : Int} {cs : List Char} (h : printInt n = .ok cs) :
    Numeral.IsNumeral cs := by
  obtain ⟨ds, chars, -⟩ := Numeral.Digits.exists_toDigits (by decide : 2 ≤ 10) (by decide)
    n.natAbs
  have short : (Nat.toDigits 10 n.natAbs).length ≤ Numeral.digitLimit := by
    by_contra long
    rw [printInt, Numeral.decimal?, if_pos (Nat.not_le.mp long)] at h
    cases h
  obtain rfl : signedChars (decide (n < 0)) ds = cs :=
    Except.ok.inj ((printInt_eq short chars).symm.trans h)
  have whole := Numeral.isWhole_toDigits n.natAbs
  rw [← chars] at whole
  rw [signedChars, ← List.append_nil (_ ++ _), ← List.append_nil (_ ++ _)]
  refine .mk ?_ whole .none .none
  split <;> decide

theorem isNumeral_printReal (negative : Bool) (m : Nat) (e : Int) :
    Numeral.IsNumeral (printReal (.finite negative m e)) := by
  obtain ⟨cs, text, isNumeral⟩ := Binary64.exists_toText negative m e
  have chars : printReal (.finite negative m e) = cs := by
    change (Binary64.finite negative m e).toText.filterMap CodePoint.toChar? = cs
    rw [text, Text.ofString, String.toList_ofList]
    exact filterMap_toChar?_points cs
  rw [chars]
  exact isNumeral

/-- No real in the value is infinite or no number. -/
def IsFinite (j : Json) : Prop := j.All Value.IsFinite

theorem exists_of_printElements {level : Nat} {e : Json} {es : List Json} {cs : List Char}
    (h : printElements level (e :: es) = .ok cs) :
    ∃ first rest, printAt level e = .ok first ∧ printElements level es = .ok rest ∧
      cs = ',' :: newline level ++ first ++ rest := by
  rw [printElements] at h
  obtain ⟨first, here, h⟩ := bind_eq_ok h
  obtain ⟨rest, later, h⟩ := bind_eq_ok h
  exact ⟨first, rest, here, later, (Except.ok.inj h).symm⟩

theorem exists_of_printMembers {level : Nat} {m : Text × Json} {ms : List (Text × Json)}
    {cs : List Char} (h : printMembers level (m :: ms) = .ok cs) :
    ∃ first rest, printAt level m.2 = .ok first ∧ printMembers level ms = .ok rest ∧
      cs = ',' :: newline level ++ memberText m.1 first ++ rest := by
  rw [printMembers] at h
  obtain ⟨first, here, h⟩ := bind_eq_ok h
  obtain ⟨rest, later, h⟩ := bind_eq_ok h
  refine ⟨first, rest, here, later, ?_⟩
  rw [← Except.ok.inj h]
  simp [memberText]

theorem exists_of_printArray {level : Nat} {e : Json} {es : List Json} {cs : List Char}
    (h : printAt level (.array (e :: es)) = .ok cs) :
    ∃ first rest, printAt (level + 1) e = .ok first ∧ printElements (level + 1) es = .ok rest ∧
      cs = '[' :: (newline (level + 1) ++ first ++ (rest ++ newline level)) ++ [']'] := by
  rw [printAt] at h
  obtain ⟨first, here, h⟩ := bind_eq_ok h
  obtain ⟨rest, later, h⟩ := bind_eq_ok h
  refine ⟨first, rest, here, later, ?_⟩
  rw [← Except.ok.inj h]
  simp

theorem exists_of_printObject {level : Nat} {m : Text × Json} {ms : List (Text × Json)}
    {cs : List Char} (h : printAt level (.object (m :: ms)) = .ok cs) :
    ∃ first rest, printAt (level + 1) m.2 = .ok first ∧ printMembers (level + 1) ms = .ok rest ∧
      cs = '\x7b' :: (newline (level + 1) ++ memberText m.1 first ++ (rest ++ newline level)) ++
        ['\x7d'] := by
  rw [printAt] at h
  obtain ⟨first, here, h⟩ := bind_eq_ok h
  obtain ⟨rest, later, h⟩ := bind_eq_ok h
  refine ⟨first, rest, here, later, ?_⟩
  rw [← Except.ok.inj h]
  simp [memberText]

/-- The elements behind a first one are derived together with it. -/
theorem derives_printElements {level : Nat} {es : List Json}
    (h : ∀ e ∈ es, ∀ cs, printAt level e = .ok cs → Derives .value cs) {rest : List Char}
    (printed : printElements level es = .ok rest) {first : List Char}
    (derived : Derives .value first) (outer : Nat) :
    Derives .elements (newline level ++ first ++ (rest ++ newline outer)) := by
  induction es generalizing rest first with
  | nil =>
      obtain rfl := Except.ok.inj printed
      exact .single (.element (areBlanks_newline level) derived (areBlanks_newline outer))
  | cons e es ih =>
      obtain ⟨here, below⟩ := List.forall_mem_cons.mp h
      obtain ⟨cs, ds, printedHere, later, rfl⟩ := exists_of_printElements printed
      have element := Derives.element (areBlanks_newline level) derived areBlanks_nil
      have both := element.elements (ih below later (here cs printedHere))
      simpa using both

/-- A member in the form in which it is printed. -/
theorem derives_memberText (level : Nat) (k : Text) {first : List Char}
    (derived : Derives .value first) {behind : List Char} (blanks : AreBlanks behind) :
    Derives .member (newline level ++ memberText k first ++ behind) := by
  have gap : AreBlanks [' '] := List.forall_mem_singleton.mpr (by decide)
  have value := Derives.element gap derived blanks
  have member := value.member (areBlanks_newline level) (isQuoted_quote k) areBlanks_nil
  simpa [memberText] using member

/-- The members behind a first one are derived together with it. -/
theorem derives_printMembers {level : Nat} {ms : List (Text × Json)}
    (h : ∀ m ∈ ms, ∀ cs, printAt level m.2 = .ok cs → Derives .value cs) {rest : List Char}
    (printed : printMembers level ms = .ok rest) (k : Text) {first : List Char}
    (derived : Derives .value first) (outer : Nat) :
    Derives .members (newline level ++ memberText k first ++ (rest ++ newline outer)) := by
  induction ms generalizing rest k first with
  | nil =>
      obtain rfl := Except.ok.inj printed
      exact .singleMember (derives_memberText level k derived (areBlanks_newline outer))
  | cons m ms ih =>
      obtain ⟨here, below⟩ := List.forall_mem_cons.mp h
      obtain ⟨cs, ds, printedHere, later, rfl⟩ := exists_of_printMembers printed
      have member := derives_memberText level k derived areBlanks_nil
      have both := member.members (ih below later m.1 (here cs printedHere))
      simpa using both

/-- What is printed for a value without infinite numbers is derived. -/
theorem IsFinite.derives {j : Json} (h : j.IsFinite) {level : Nat} {cs : List Char}
    (printed : printAt level j = .ok cs) : Derives .value cs := by
  induction h generalizing level cs with
  | null =>
      obtain rfl := Except.ok.inj printed
      exact .word (by decide)
  | @bool b =>
      obtain rfl := Except.ok.inj printed
      exact .word (by cases b <;> decide)
  | int => exact .number (isNumeral_of_printInt printed)
  | @real x finite =>
      obtain rfl := Except.ok.inj printed
      cases x with
      | nan => exact finite.elim
      | infinity negative => exact finite.elim
      | finite negative m e => exact .number (isNumeral_printReal negative m e)
  | text =>
      obtain rfl := Except.ok.inj printed
      exact .text (isQuoted_quote _)
  | @array es _ ih =>
      cases es with
      | nil =>
          obtain rfl := Except.ok.inj printed
          exact .emptyArray areBlanks_nil
      | cons e es =>
          obtain ⟨here, below⟩ := List.forall_mem_cons.mp fun e mem cs => @ih e mem (level + 1) cs
          obtain ⟨first, rest, printedHere, later, rfl⟩ := exists_of_printArray printed
          exact .array (derives_printElements below later (here first printedHere) level)
  | @object ms _ ih =>
      cases ms with
      | nil =>
          obtain rfl := Except.ok.inj printed
          exact .emptyObject areBlanks_nil
      | cons m ms =>
          obtain ⟨here, below⟩ := List.forall_mem_cons.mp fun m mem cs => @ih m mem (level + 1) cs
          obtain ⟨first, rest, printedHere, later, rfl⟩ := exists_of_printObject printed
          exact .object (derives_printMembers below later m.1 (here first printedHere) level)

/-! ## What is derived has no mark of an infinite number -/

/-- Where a character stands: outside of quotes, between them, or behind a backslash there. -/
inductive Zone
  | outside
  | inside
  | escaped

/-- The characters outside of quotes, the quotes left out. -/
def bareIn : Zone → List Char → List Char
  | _, [] => []
  | .outside, c :: r => if c = '"' then bareIn .inside r else c :: bareIn .outside r
  | .inside, c :: r =>
    if c = '\\' then bareIn .escaped r
    else if c = '"' then bareIn .outside r
    else bareIn .inside r
  | .escaped, _ :: r => bareIn .inside r

/-- The characters end outside of quotes again, and `out` are those of them that stand there. -/
def Bares (cs out : List Char) : Prop :=
  ∀ rest, bareIn .outside (cs ++ rest) = out ++ bareIn .outside rest

/-- None of the characters is a quote or begins a word for an infinite number or for none. -/
def IsUnmarked (cs : List Char) : Prop := ∀ c ∈ cs, c ∉ ['"', 'I', 'N']

instance (cs : List Char) : Decidable (IsUnmarked cs) :=
  List.decidableBAll (fun c : Char => c ∉ ['"', 'I', 'N']) cs

/-- Outside of quotes no character is marked. -/
def IsClean (cs : List Char) : Prop := ∃ out, Bares cs out ∧ IsUnmarked out

/-- Outside of quotes a character is marked, unless `P` holds. -/
def IsMarkedUnless (P : Prop) (cs : List Char) : Prop := ∃ out, Bares cs out ∧ (IsUnmarked out → P)

theorem isUnmarked_append {cs ds : List Char} :
    IsUnmarked (cs ++ ds) ↔ IsUnmarked cs ∧ IsUnmarked ds :=
  List.forall_mem_append

theorem Bares.append {cs ds out more : List Char} (h : Bares cs out) (k : Bares ds more) :
    Bares (cs ++ ds) (out ++ more) := fun rest => by
  rw [List.append_assoc, h, k, List.append_assoc]

/-- Without quotes all stand outside of them. -/
theorem Bares.self {cs : List Char} (h : '"' ∉ cs) : Bares cs cs := by
  intro rest
  induction cs with
  | nil => rfl
  | cons c r ih =>
      rw [List.mem_cons, not_or] at h
      rw [List.cons_append, bareIn, if_neg (Ne.symm h.1), ih h.2, List.cons_append]

theorem Bares.unique {cs out other : List Char} (h : Bares cs out) (k : Bares cs other) :
    out = other := by
  simpa [bareIn] using (h []).symm.trans (k [])

theorem bareIn_unit {u : List Char} (h : IsUnit u) (rest : List Char) :
    bareIn .inside (u ++ rest) = bareIn .inside rest := by
  have plain {cs : List Char} (h : ∀ c ∈ cs, c ≠ '"' ∧ c ≠ '\\') :
      bareIn .inside (cs ++ rest) = bareIn .inside rest := by
    induction cs with
    | nil => rfl
    | cons c r ih =>
        obtain ⟨here, later⟩ := List.forall_mem_cons.mp h
        rw [List.cons_append, bareIn, if_neg here.2, if_neg here.1, ih later]
  cases h with
  | self _ h => exact plain (List.forall_mem_singleton.mpr h)
  | letter _ => rfl
  | @digits ds _ h =>
      -- the backslash hides the letter behind it, and the digits are as they stand
      change bareIn .inside (ds ++ rest) = bareIn .inside rest
      refine plain fun d mem => ?_
      have hex := h d mem
      constructor <;>
      · rintro rfl
        exact absurd hex (by decide)

theorem IsQuoted.bares {cs : List Char} (h : IsQuoted cs) : Bares cs [] := by
  obtain ⟨areUnits⟩ := h
  rename_i units
  intro rest
  have inside : bareIn .inside (units.flatten ++ '"' :: rest) = bareIn .outside rest := by
    induction units with
    | nil => rfl
    | cons u us ih =>
        obtain ⟨here, later⟩ := List.forall_mem_cons.mp areUnits
        rw [List.flatten_cons, List.append_assoc, bareIn_unit here, ih later]
  rw [List.append_assoc]
  exact inside

theorem IsClean.append {cs ds : List Char} (h : IsClean cs) (k : IsClean ds) :
    IsClean (cs ++ ds) := by
  obtain ⟨out, bares, unmarked⟩ := h
  obtain ⟨more, later, rest⟩ := k
  exact ⟨out ++ more, bares.append later, isUnmarked_append.mpr ⟨unmarked, rest⟩⟩

theorem IsUnmarked.isClean {cs : List Char} (h : IsUnmarked cs) : IsClean cs :=
  ⟨cs, .self fun mem => h _ mem (by decide), h⟩

theorem isClean_nil : IsClean [] := IsUnmarked.isClean nofun

theorem IsClean.cons {c : Char} {cs : List Char} (h : c ∉ ['"', 'I', 'N']) (k : IsClean cs) :
    IsClean (c :: cs) :=
  (IsUnmarked.isClean (List.forall_mem_singleton.mpr h)).append k

/-- Brackets around what is clean. -/
theorem IsClean.bracketed {l r : Char} {cs : List Char} (h : IsClean cs)
    (hl : l ∉ ['"', 'I', 'N']) (hr : r ∉ ['"', 'I', 'N']) : IsClean (l :: cs ++ [r]) :=
  (h.cons hl).append (IsUnmarked.isClean (List.forall_mem_singleton.mpr hr))

theorem IsQuoted.isClean {cs : List Char} (h : IsQuoted cs) : IsClean cs := ⟨[], h.bares, nofun⟩

theorem AreBlanks.isClean {cs : List Char} (h : AreBlanks cs) : IsClean cs := by
  have blank : IsUnmarked [' ', '\t', '\n', '\r'] := by decide
  exact IsUnmarked.isClean fun c mem => blank c (h c mem)

theorem isUnmarked_digits {cs : List Char} (h : ∀ c ∈ cs, c.isDigit = true) : IsUnmarked cs := by
  intro c mem mark
  simp only [List.mem_cons, List.not_mem_nil, or_false] at mark
  obtain rfl | rfl | rfl := mark <;> exact absurd (h _ mem) (by decide)

theorem isUnmarked_numeral {cs : List Char} (h : Numeral.IsNumeral cs) : IsUnmarked cs := by
  obtain ⟨hSign, hWhole, hFraction, hExponent⟩ := h
  have signs : ∀ cs ∈ [[], ['+'], ['-']], IsUnmarked cs := by decide
  refine isUnmarked_append.mpr ⟨isUnmarked_append.mpr ⟨isUnmarked_append.mpr ⟨?_, ?_⟩, ?_⟩, ?_⟩
  · have minus : [[], ['-']] ⊆ [[], ['+'], ['-']] := by decide
    exact signs _ (minus hSign)
  · cases hWhole with
    | zero => decide
    | digits _ h => exact isUnmarked_digits h.2
  · cases hFraction with
    | none => nofun
    | digits h =>
        have point : IsUnmarked ['.'] := by decide
        exact isUnmarked_append.mpr ⟨point, isUnmarked_digits h.2⟩
  · cases hExponent with
    | none => nofun
    | @digits letter _ _ hLetter hSign h =>
        have letters : IsUnmarked ['e', 'E'] := by decide
        have unmarked : IsUnmarked [letter] :=
          List.forall_mem_singleton.mpr (letters letter hLetter)
        have front := isUnmarked_append.mpr ⟨unmarked, signs _ hSign⟩
        exact isUnmarked_append.mpr ⟨front, isUnmarked_digits h.2⟩

/-- Outside of quotes nothing derived has a marked character. -/
theorem Derives.isClean {s : Symbol} {cs : List Char} (h : Derives s cs) : IsClean cs := by
  induction h with
  | word h =>
      have words : ∀ w ∈ ["null".toList, "true".toList, "false".toList], IsUnmarked w := by decide
      exact (words _ h).isClean
  | number h => exact (isUnmarked_numeral h).isClean
  | text h => exact h.isClean
  | emptyArray h => exact h.isClean.bracketed (by decide) (by decide)
  | array _ ih => exact ih.bracketed (by decide) (by decide)
  | emptyObject h => exact h.isClean.bracketed (by decide) (by decide)
  | object _ ih => exact ih.bracketed (by decide) (by decide)
  | element hBefore _ hBehind ih => exact (hBefore.isClean.append ih).append hBehind.isClean
  | single _ ih => exact ih
  | elements _ _ ih later => exact ih.append (later.cons (by decide))
  | member hBefore hKey hBehind _ ih =>
      have key := (hBefore.isClean.append hKey.isClean).append hBehind.isClean
      exact key.append (ih.cons (by decide))
  | singleMember _ ih => exact ih
  | members _ _ ih later => exact ih.append (later.cons (by decide))

/-! ## A text is derived from no other value -/

theorem IsClean.elim {P : Prop} {cs : List Char} (h : IsClean cs) (k : IsMarkedUnless P cs) :
    P := by
  obtain ⟨out, bares, unmarked⟩ := h
  obtain ⟨other, again, marked⟩ := k
  exact marked (bares.unique again ▸ unmarked)

theorem IsClean.isMarkedUnless {P : Prop} {cs : List Char} (h : IsClean cs) (holds : P) :
    IsMarkedUnless P cs := by
  obtain ⟨out, bares, -⟩ := h
  exact ⟨out, bares, fun _ => holds⟩

theorem IsMarkedUnless.append {P Q : Prop} {cs ds : List Char} (h : IsMarkedUnless P cs)
    (k : IsMarkedUnless Q ds) : IsMarkedUnless (P ∧ Q) (cs ++ ds) := by
  obtain ⟨out, bares, marked⟩ := h
  obtain ⟨more, later, rest⟩ := k
  refine ⟨out ++ more, bares.append later, fun unmarked => ?_⟩
  obtain ⟨here, behind⟩ := isUnmarked_append.mp unmarked
  exact ⟨marked here, rest behind⟩

/-- Clean characters around the others leave their marks. -/
theorem IsMarkedUnless.between {P : Prop} {before cs behind : List Char} (h : IsMarkedUnless P cs)
    (hBefore : IsClean before) (hBehind : IsClean behind) :
    IsMarkedUnless P (before ++ (cs ++ behind)) := by
  obtain ⟨out, bares, marked⟩ := (hBefore.isMarkedUnless trivial).append
    (h.append (hBehind.isMarkedUnless trivial))
  exact ⟨out, bares, fun unmarked => (marked unmarked).2.1⟩

theorem IsMarkedUnless.imp {P Q : Prop} {cs : List Char} (h : IsMarkedUnless P cs) (k : P → Q) :
    IsMarkedUnless Q cs := by
  obtain ⟨out, bares, marked⟩ := h
  exact ⟨out, bares, fun unmarked => k (marked unmarked)⟩

theorem isMarkedUnless_printReal (x : Binary64) :
    IsMarkedUnless (IsFinite (.real x)) (printReal x) := by
  have word {cs : List Char} (quoteless : '"' ∉ cs) (marked : ¬ IsUnmarked cs) :
      IsMarkedUnless (IsFinite (.real x)) cs :=
    ⟨cs, .self quoteless, fun unmarked => absurd unmarked marked⟩
  cases x with
  | nan => exact word (by decide) (by decide)
  | infinity negative => cases negative <;> exact word (by decide) (by decide)
  | finite negative m e =>
      have numeral := isUnmarked_numeral (isNumeral_printReal negative m e)
      exact numeral.isClean.isMarkedUnless (.real trivial)

theorem isClean_newline (level : Nat) : IsClean (newline level) := (areBlanks_newline level).isClean

/-- A key, its colon and the blank in front of the value. -/
theorem isClean_key (k : Text) : IsClean (quote k ++ [':', ' ']) :=
  (isQuoted_quote k).isClean.append (IsUnmarked.isClean (by decide))

mutual

/-- What is printed for a value is marked, unless all reals in the value are finite. -/
theorem isMarkedUnless_printAt (level : Nat) (j : Json) {cs : List Char}
    (h : printAt level j = .ok cs) : IsMarkedUnless j.IsFinite cs := by
  match j with
  | .null =>
      obtain rfl := Except.ok.inj h
      exact IsClean.isMarkedUnless (IsUnmarked.isClean (by decide)) (.null trivial)
  | .bool b =>
      obtain rfl := Except.ok.inj h
      exact IsClean.isMarkedUnless (IsUnmarked.isClean (by cases b <;> decide)) (.bool trivial)
  | .int n =>
      have numeral := isUnmarked_numeral (isNumeral_of_printInt h)
      exact numeral.isClean.isMarkedUnless (.int trivial)
  | .real x =>
      obtain rfl := Except.ok.inj h
      exact isMarkedUnless_printReal x
  | .text t =>
      obtain rfl := Except.ok.inj h
      exact (isQuoted_quote t).isClean.isMarkedUnless (.text trivial)
  | .array [] =>
      obtain rfl := Except.ok.inj h
      exact IsClean.isMarkedUnless (IsUnmarked.isClean (by decide)) (.array nofun)
  | .object [] =>
      obtain rfl := Except.ok.inj h
      exact IsClean.isMarkedUnless (IsUnmarked.isClean (by decide)) (.object nofun)
  | .array (e :: es) =>
      obtain ⟨first, rest, here, later, rfl⟩ := exists_of_printArray h
      have both := (isMarkedUnless_printAt (level + 1) e here).append
        (isMarkedUnless_printElements (level + 1) es later)
      have around := both.between (isClean_newline (level + 1)) (isClean_newline level)
      have bracketed := around.between (.cons (c := '[') (by decide) isClean_nil)
        (.cons (c := ']') (by decide) isClean_nil)
      simpa using bracketed.imp fun both => .array (List.forall_mem_cons.mpr both)
  | .object ((k, v) :: ms) =>
      obtain ⟨first, rest, here, later, rfl⟩ := exists_of_printObject h
      have both := (isMarkedUnless_printAt (level + 1) v here).append
        (isMarkedUnless_printMembers (level + 1) ms later)
      have front := (isClean_newline (level + 1)).append (isClean_key k)
      have around := both.between front (isClean_newline level)
      have bracketed := around.between (.cons (c := '\x7b') (by decide) isClean_nil)
        (.cons (c := '\x7d') (by decide) isClean_nil)
      simpa [memberText] using bracketed.imp fun both => .object (List.forall_mem_cons.mpr both)

theorem isMarkedUnless_printElements (level : Nat) (es : List Json) {cs : List Char}
    (h : printElements level es = .ok cs) : IsMarkedUnless (∀ e ∈ es, e.IsFinite) cs := by
  match es with
  | [] =>
      obtain rfl := Except.ok.inj h
      exact isClean_nil.isMarkedUnless nofun
  | e :: es =>
      obtain ⟨first, rest, here, later, rfl⟩ := exists_of_printElements h
      have both := (isMarkedUnless_printAt level e here).append
        (isMarkedUnless_printElements level es later)
      have behind := both.between ((isClean_newline level).cons (c := ',') (by decide)) isClean_nil
      simpa using behind.imp List.forall_mem_cons.mpr

theorem isMarkedUnless_printMembers (level : Nat) (ms : List (Text × Json)) {cs : List Char}
    (h : printMembers level ms = .ok cs) : IsMarkedUnless (∀ m ∈ ms, m.2.IsFinite) cs := by
  match ms with
  | [] =>
      obtain rfl := Except.ok.inj h
      exact isClean_nil.isMarkedUnless nofun
  | (k, v) :: ms =>
      obtain ⟨first, rest, here, later, rfl⟩ := exists_of_printMembers h
      have both := (isMarkedUnless_printAt level v here).append
        (isMarkedUnless_printMembers level ms later)
      have front := ((isClean_newline level).cons (c := ',') (by decide)).append (isClean_key k)
      have behind := both.between front isClean_nil
      have all : IsMarkedUnless (∀ m ∈ (k, v) :: ms, m.2.IsFinite) _ :=
        behind.imp fun both => List.forall_mem_cons.mpr both
      simpa [memberText] using all

end

/-- What is printed for a value is JSON exactly when all reals in the value are finite. -/
theorem isText_print_iff {j : Json} {s : String} (h : j.print = .ok s) :
    IsText s.toList ↔ j.IsFinite := by
  cases printed : printAt 0 j with
  | error e =>
      rw [print, printed] at h
      cases h
  | ok cs =>
      rw [print, printed] at h
      obtain rfl : String.ofList cs = s := Except.ok.inj h
      rw [String.toList_ofList]
      constructor
      · intro isText
        exact isText.isClean.elim (isMarkedUnless_printAt 0 j printed)
      · intro finite
        simpa [IsText] using Derives.element areBlanks_nil (finite.derives printed) areBlanks_nil

end Json

end RouteAtlas
