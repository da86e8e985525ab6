import Mathlib.Data.List.Induction
import Mathlib.Data.List.Perm.Basic
import RouteAtlas.Assoc

/-!
# What association lists hold

A list of entries, entered one after the other, makes an association list. For each key the last of
its values counts (`get?_putAll`), and the keys stand in the order of their first entries
(`keys_putAll`). Instead the values of a key can be collected in a list; then none is lost, and each
list has the order of the entries (`collect_eq`).
-/

namespace RouteAtlas

namespace Assoc

variable {κ ν ω : Type} [DecidableEq κ]

/-! ## Lookups -/

theorem get?_append (key : κ) (a b : Assoc κ ν) :
    get? key (a ++ b) = (get? key a).or (get? key b) := by
  induction a with
  | nil => rfl
  | cons e rest ih =>
      rw [List.cons_append, get?, get?]
      split
      · rfl
      · exact ih

theorem get?_map (key : κ) (f : κ → ν → ω) (a : Assoc κ ν) :
    get? key (a.map fun e => (e.1, f e.1 e.2)) = (get? key a).map (f key) := by
  induction a with
  | nil => rfl
  | cons e rest ih =>
      rw [List.map_cons, get?, get?]
      split
      · next same => rw [same, Option.map_some]
      · exact ih

theorem get?_filter (key : κ) (keep : κ → Bool) (a : Assoc κ ν) :
    get? key (a.filter fun e => keep e.1) = if keep key then get? key a else none := by
  induction a with
  | nil => simp [get?]
  | cons e rest ih =>
      rw [List.filter_cons]
      by_cases same : e.1 = key
      · cases kept : keep e.1 with
        | true => simp [get?, same, ← same ▸ kept]
        | false => simpa [← same, kept] using ih
      · cases kept : keep e.1 with
        | true => simp [get?, same, ih]
        | false => simp [get?, same, ih]

/-! ## Entries, one after the other -/

/-- The values that entries give to a key, in their order. -/
def given (key : κ) (entries : List (κ × ν)) : List ν :=
  (entries.filter fun e => e.1 = key).map Prod.snd

theorem given_concat (key : κ) (entries : List (κ × ν)) (last : κ × ν) :
    given key (entries ++ [last]) =
      given key entries ++ if last.1 = key then [last.2] else [] := by
  by_cases same : last.1 = key <;> simp [given, same]

theorem given_eq_nil_iff {key : κ} {entries : List (κ × ν)} :
    given key entries = [] ↔ key ∉ entries.map Prod.fst := by
  rw [given, List.map_eq_nil_iff, List.filter_eq_nil_iff, List.mem_map, not_exists]
  exact forall_congr' fun e => by rw [not_and, decide_eq_true_eq]

/-- Of two lists of entries the later one decides, if it has the key at all. -/
theorem getLast?_given_append (key : κ) (entries later : List (κ × ν)) :
    (given key (entries ++ later)).getLast? =
      if key ∈ later.map Prod.fst then (given key later).getLast?
      else (given key entries).getLast? := by
  have both : given key (entries ++ later) = given key entries ++ given key later := by
    simp [given]
  rw [both, List.getLast?_append]
  split
  · next mem =>
      have some : given key later ≠ [] := mt given_eq_nil_iff.mp (not_not.mpr mem)
      rw [List.getLast?_eq_some_getLast some, Option.some_or]
  · next absent => rw [given_eq_nil_iff.mpr absent, List.getLast?_nil, Option.none_or]

/-- A key that does not come again holds its value. -/
theorem getLast?_given_of_nodup {a : Assoc κ ν} (h : (a.map Prod.fst).Nodup) (key : κ) :
    (given key a).getLast? = get? key a := by
  induction a with
  | nil => rfl
  | cons e rest ih =>
      rw [List.map_cons, List.nodup_cons] at h
      obtain ⟨new, nodup⟩ := h
      rw [← List.singleton_append, getLast?_given_append, ih nodup, List.singleton_append, get?]
      by_cases same : e.1 = key
      · rw [if_neg (same ▸ new), if_pos same]
        simp [given, same]
      · rw [if_neg same]
        split
        · rfl
        · next absent =>
            have none : get? key rest = Option.none := by
              rw [← ih nodup, given_eq_nil_iff.mpr absent, List.getLast?_nil]
            simp [given, same, none]

theorem given_perm {entries others : List (κ × ν)} (h : entries.Perm others) (key : κ) :
    (given key entries).Perm (given key others) :=
  (h.filter _).map _

theorem putAll_cons (e : κ × ν) (rest : List (κ × ν)) (a : Assoc κ ν) :
    putAll (e :: rest) a = putAll rest (put e.1 e.2 a) := rfl

theorem putAll_concat (entries : List (κ × ν)) (last : κ × ν) (a : Assoc κ ν) :
    putAll (entries ++ [last]) a = put last.1 last.2 (putAll entries a) := by
  simp [putAll]

/-- Of several values for a key the last one counts. -/
theorem get?_putAll (key : κ) (entries : List (κ × ν)) (a : Assoc κ ν) :
    get? key (putAll entries a) = (given key entries).getLast?.or (get? key a) := by
  induction entries using List.reverseRecOn with
  | nil => rfl
  | append_singleton earlier last ih =>
      rw [putAll_concat, get?_put, ih, given_concat]
      by_cases same : last.1 = key <;> simp [same]

/-- One more entry leaves the keys in the order in which they were first entered. -/
theorem keys_alter_eq_eraseDups [BEq κ] [LawfulBEq κ] {a : Assoc κ ν} {keys : List κ}
    (h : a.map Prod.fst = keys.eraseDups) (key : κ) (f : Option ν → ν) :
    (alter key f a).map Prod.fst = (keys ++ [key]).eraseDups := by
  have new : [key].removeAll keys = if key ∈ keys then [] else [key] := by
    by_cases old : key ∈ keys <;> simp [List.removeAll, old]
  rw [keys_alter, h, List.eraseDups_append, new]
  simp only [List.mem_eraseDups]
  split
  · rw [List.eraseDups_nil, List.append_nil]
  · rw [List.eraseDups_cons]
    rfl

/-- Keys stand in the order in which they were first entered. -/
theorem keys_putAll [BEq κ] [LawfulBEq κ] (entries : List (κ × ν)) :
    (putAll entries []).map Prod.fst = (entries.map Prod.fst).eraseDups := by
  induction entries using List.reverseRecOn with
  | nil => rfl
  | append_singleton earlier last ih =>
      rw [putAll_concat, List.map_append]
      exact keys_alter_eq_eraseDups ih last.1 _

theorem mem_keys_put (key other : κ) (value : ν) (a : Assoc κ ν) :
    key ∈ (put other value a).map Prod.fst ↔ key ∈ a.map Prod.fst ∨ key = other := by
  rw [put, keys_alter]
  by_cases old : other ∈ a.map Prod.fst
  · rw [if_pos old]
    exact ⟨.inl, fun h => h.elim id fun same => same ▸ old⟩
  · rw [if_neg old, List.mem_append, List.mem_singleton]

theorem mem_keys_putAll (key : κ) (entries : List (κ × ν)) (a : Assoc κ ν) :
    key ∈ (putAll entries a).map Prod.fst ↔
      key ∈ a.map Prod.fst ∨ key ∈ entries.map Prod.fst := by
  induction entries generalizing a with
  | nil => simp [putAll]
  | cons e rest ih => rw [putAll_cons, ih, mem_keys_put, List.map_cons, List.mem_cons, or_assoc]

theorem nodup_keys_alter {key : κ} {f : Option ν → ν} {a : Assoc κ ν}
    (h : (a.map Prod.fst).Nodup) : ((alter key f a).map Prod.fst).Nodup := by
  rw [keys_alter]
  split
  · exact h
  · next new =>
      rw [List.nodup_append]
      refine ⟨h, List.pairwise_singleton _ key, ?_⟩
      rintro k old _ last rfl
      exact new (List.mem_singleton.mp last ▸ old)

theorem nodup_keys_putAll (entries : List (κ × ν)) {a : Assoc κ ν}
    (h : (a.map Prod.fst).Nodup) : ((putAll entries a).map Prod.fst).Nodup := by
  induction entries generalizing a with
  | nil => exact h
  | cons e rest ih => exact ih (nodup_keys_alter h)

/-- The same entries in another order enter the same keys. -/
theorem keys_putAll_perm {entries others : List (κ × ν)} (h : entries.Perm others) :
    ((putAll entries []).map Prod.fst).Perm ((putAll others []).map Prod.fst) := by
  have nodup (es : List (κ × ν)) : ((putAll es []).map Prod.fst).Nodup :=
    nodup_keys_putAll es List.nodup_nil
  rw [List.perm_ext_iff_of_nodup (nodup entries) (nodup others)]
  intro key
  rw [mem_keys_putAll, mem_keys_putAll, (h.map Prod.fst).mem_iff]

/-! ## Values collected by key -/

section Collect

variable {α : Type}

/-- Collects the values of each key, entry after entry. -/
def collect (entries : List (κ × α)) : Assoc κ (List α) :=
  entries.foldl (fun a e => extend e.1 [e.2] a) []

theorem collect_concat (entries : List (κ × α)) (last : κ × α) :
    collect (entries ++ [last]) = extend last.1 [last.2] (collect entries) := by
  simp [collect]

theorem keys_collect [BEq κ] [LawfulBEq κ] (entries : List (κ × α)) :
    (collect entries).map Prod.fst = (entries.map Prod.fst).eraseDups := by
  induction entries using List.reverseRecOn with
  | nil => rfl
  | append_singleton earlier last ih =>
      rw [collect_concat, List.map_append]
      exact keys_alter_eq_eraseDups ih last.1 _

theorem nodup_keys_collect (entries : List (κ × α)) :
    ((collect entries).map Prod.fst).Nodup := by
  induction entries using List.reverseRecOn with
  | nil => exact List.nodup_nil
  | append_singleton earlier last ih =>
      rw [collect_concat]
      exact nodup_keys_alter ih

/-- A key holds the values that the entries give to it, in their order. -/
theorem getD_collect (key : κ) (entries : List (κ × α)) :
    (get? key (collect entries)).getD [] = given key entries := by
  induction entries using List.reverseRecOn with
  | nil => rfl
  | append_singleton earlier last ih => rw [collect_concat, getD_extend, ih, given_concat]

/-- Without repeated keys, an association list is known by its keys and its lookups. -/
theorem eq_map_keys {a : Assoc κ ν} (h : (a.map Prod.fst).Nodup) (default : ν) :
    a = (a.map Prod.fst).map fun k => (k, (get? k a).getD default) := by
  induction a with
  | nil => rfl
  | cons e rest ih =>
      rw [List.map_cons, List.nodup_cons] at h
      obtain ⟨new, nodup⟩ := h
      have later : (rest.map Prod.fst).map (fun k => (k, (get? k (e :: rest)).getD default)) =
          (rest.map Prod.fst).map fun k => (k, (get? k rest).getD default) := by
        apply List.map_congr_left
        intro k mem
        have other : e.1 ≠ k := fun same => new (same ▸ mem)
        rw [get?, if_neg other]
      rw [List.map_cons, List.map_cons, later, ← ih nodup, get?, if_pos rfl]
      rfl

/-- Collected values stand under their keys, which come in the order of their first entries. -/
theorem collect_eq [BEq κ] [LawfulBEq κ] (entries : List (κ × α)) :
    collect entries = (entries.map Prod.fst).eraseDups.map fun k => (k, given k entries) := by
  calc collect entries
      = ((collect entries).map Prod.fst).map fun k => (k, (get? k (collect entries)).getD []) :=
        eq_map_keys (nodup_keys_collect entries) []
    _ = (entries.map Prod.fst).eraseDups.map fun k => (k, given k entries) := by
        simp only [keys_collect, getD_collect]

variable (keep : κ → Prop) [DecidablePred keep]

/-- The members of some of the keys grow by those of one key, if it is among them. -/
theorem perm_flatMap_extend (key : κ) (members : List α) (a : Assoc κ (List α)) :
    ((extend key members a).flatMap fun e => if keep e.1 then e.2 else []).Perm
      ((a.flatMap fun e => if keep e.1 then e.2 else []) ++ if keep key then members else []) := by
  induction a with
  | nil => simp [extend, alter]
  | cons e rest ih =>
      obtain ⟨k, v⟩ := e
      by_cases same : k = key
      · subst same
        by_cases kept : keep k
        · simpa [extend, alter, kept] using List.perm_append_comm.append_left v
        · simp [extend, alter, kept]
      · have moved : extend key members ((k, v) :: rest) = (k, v) :: extend key members rest := by
          simp [extend, alter, same]
        rw [moved, List.flatMap_cons, List.flatMap_cons, List.append_assoc]
        exact ih.append_left _

/-- What is collected under some of the keys are the values of their entries. -/
theorem perm_flatMap_collect (entries : List (κ × α)) :
    ((collect entries).flatMap fun e => if keep e.1 then e.2 else []).Perm
      ((entries.filter fun e => keep e.1).map Prod.snd) := by
  induction entries using List.reverseRecOn with
  | nil => exact .refl _
  | append_singleton earlier last ih =>
      have entered : ((earlier ++ [last]).filter fun e => keep e.1).map Prod.snd =
          (earlier.filter fun e => keep e.1).map Prod.snd ++
            if keep last.1 then [last.2] else [] := by
        by_cases kept : keep last.1 <;> simp [kept]
      rw [collect_concat, entered]
      exact (perm_flatMap_extend keep last.1 [last.2] _).trans (ih.append_right _)

end Collect

end Assoc

end RouteAtlas
