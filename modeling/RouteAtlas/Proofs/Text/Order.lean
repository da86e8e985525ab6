import RouteAtlas.Text

/-!
# The order of texts

Texts are ordered by code point, and a text comes after its beginnings. The order is total, so
sorting different texts puts each strictly before the next.
-/

namespace RouteAtlas.Text

/-- The text `s` comes strictly before `t`. -/
def Precedes (s t : Text) : Prop := le s t = true ∧ s ≠ t

theorem le_cons_iff {a b : CodePoint} {s t : Text} :
    le (a :: s) (b :: t) = true ↔ a.val < b.val ∨ a = b ∧ le s t = true := by
  rw [le, CodePoint.ext_iff]
  split
  · next less => simp [less]
  · next notLess =>
      split
      · next greater =>
          have different : a.val ≠ b.val := by omega
          simp [notLess, different]
      · next notGreater =>
          have same : a.val = b.val := by omega
          simp [same]

theorem le_total (s t : Text) : (le s t || le t s) = true := by
  induction s generalizing t with
  | nil => simp [le]
  | cons a s ih =>
      cases t with
      | nil => simp [le]
      | cons b t =>
          rw [Bool.or_eq_true, le_cons_iff, le_cons_iff]
          rcases Nat.lt_trichotomy a.val b.val with less | same | greater
          · exact .inl (.inl less)
          · obtain rfl : a = b := CodePoint.ext same
            rcases Bool.or_eq_true_iff.mp (ih t) with h | h
            · exact .inl (.inr ⟨rfl, h⟩)
            · exact .inr (.inr ⟨rfl, h⟩)
          · exact .inr (.inl greater)

theorem le_trans (s t u : Text) (h : le s t = true) (k : le t u = true) : le s u = true := by
  induction s generalizing t u with
  | nil => simp [le]
  | cons a s ih =>
      cases t with
      | nil => simp [le] at h
      | cons b t =>
          cases u with
          | nil => simp [le] at k
          | cons c u =>
              rw [le_cons_iff] at h k ⊢
              rcases h with less | ⟨rfl, h⟩
              · rcases k with less' | ⟨rfl, -⟩
                · exact .inl (Nat.lt_trans less less')
                · exact .inl less
              · rcases k with less' | ⟨rfl, k⟩
                · exact .inl less'
                · exact .inr ⟨rfl, ih t u h k⟩

theorem le_antisymm (s t : Text) (h : le s t = true) (k : le t s = true) : s = t := by
  induction s generalizing t with
  | nil =>
      cases t with
      | nil => rfl
      | cons b t => simp [le] at k
  | cons a s ih =>
      cases t with
      | nil => simp [le] at h
      | cons b t =>
          rw [le_cons_iff] at h k
          rcases h with less | ⟨rfl, h⟩
          · rcases k with less' | ⟨rfl, -⟩
            · omega
            · omega
          · rcases k with less' | ⟨-, k⟩
            · omega
            · rw [ih t h k]

theorem Precedes.irrefl (s : Text) : ¬ s.Precedes s := fun h => h.2 rfl

theorem Precedes.asymm {s t : Text} (h : s.Precedes t) : ¬ t.Precedes s :=
  fun k => h.2 (le_antisymm s t h.1 k.1)

/-- Items sorted by texts that all differ stand in strict order. -/
theorem pairwise_precedes_mergeSort {α : Type} (key : α → Text) {xs : List α}
    (different : (xs.map key).Nodup) :
    (xs.mergeSort fun a b => le (key a) (key b)).Pairwise fun a b => (key a).Precedes (key b) := by
  have sorted := List.pairwise_mergeSort (fun a b c => le_trans (key a) (key b) (key c))
    (fun a b => le_total (key a) (key b)) xs
  have distinct : ((xs.mergeSort fun a b => le (key a) (key b)).map key).Nodup :=
    ((List.mergeSort_perm xs _).map key).nodup_iff.mpr different
  exact sorted.and (List.pairwise_map.mp distinct)

theorem sort_eq_of_perm {ts us : List Text} (perm : ts.Perm us)
    (inOrder : us.Pairwise fun s t => le s t = true) : sort ts = us :=
  ((List.mergeSort_perm ts le).trans perm).eq_of_pairwise (fun s t _ _ => le_antisymm s t)
    (List.pairwise_mergeSort le_trans le_total ts) inOrder

end RouteAtlas.Text
