import RouteAtlas.Code.Literal
import RouteAtlas.Proofs.Number.Digits

/-!
# Escape sequences

An escape sequence is read in every case but one: it names a number beyond the bound of those that
are tried as code points. For digits in braces, that is a number of two to the 31 or more.
-/

namespace RouteAtlas

namespace Literal

/-- An escape that names a number beyond the bound of those that are tried as code points. -/
def IsOversized (sequence : Text) : Prop :=
  ∃ head digits n, sequence.drop 1 = head :: digits ∧ (head = 'u' ∨ head = 'x') ∧
    Numeral.integer 16 (Text.trimBy isBrace digits) = .ok n ∧ (n < -escapeBound ∨ escapeBound ≤ n)

/-- An escape is read unless it is oversized. -/
theorem escape_ok_iff (sequence : Text) :
    (∃ t, escape sequence = .ok t) ↔ ¬ IsOversized sequence := by
  constructor
  · rintro ⟨t, h⟩ ⟨head, digits, n, text, hexadecimal, number, oversized⟩
    simp only [escape, text, hexadecimal, if_true, number, oversized] at h
    cases h
  · intro small
    unfold escape
    split
    · exact ⟨_, rfl⟩
    · next head digits text =>
        split
        · next hexadecimal =>
            split
            · exact ⟨_, rfl⟩
            · next n number =>
                split
                · next oversized =>
                    exact absurd ⟨head, digits, n, text, hexadecimal, number, oversized⟩ small
                · split
                  · exact ⟨_, rfl⟩
                  · split <;> exact ⟨_, rfl⟩
        · split
          · exact ⟨_, rfl⟩
          · split <;> exact ⟨_, rfl⟩

/-- The escape `u` with digits in braces. -/
def braced (ds : Numeral.Digits) : Text :=
  CodePoint.ofChar '\\' :: CodePoint.ofChar 'u' :: CodePoint.ofChar '\x7b' ::
    (ds.text ++ [CodePoint.ofChar '\x7d'])

theorem isBrace_digitChar (d : Fin 16) (upper : Bool) :
    isBrace (CodePoint.ofChar (Numeral.digitChar d upper)) = false := by
  revert d upper
  decide

theorem isBrace_of_mem_text {ds : Numeral.Digits} {c : CodePoint} (h : c ∈ ds.text) :
    isBrace c = false := by
  obtain ⟨char, hc, rfl⟩ := List.mem_map.mp h
  obtain ⟨d, upper, rfl⟩ := Numeral.Digits.mem_chars hc
  exact isBrace_digitChar d upper

/-- Taking the braces away leaves the digits. -/
theorem trimBy_braced (ds : Numeral.Digits) :
    Text.trimBy isBrace (CodePoint.ofChar '\x7b' :: (ds.text ++ [CodePoint.ofChar '\x7d'])) =
      ds.text := by
  have plain : ∀ c ∈ ds.text, isBrace c = false := fun _ => isBrace_of_mem_text
  have reversed : ∀ c ∈ ds.text.reverse, isBrace c = false :=
    fun c hc => plain c (List.mem_reverse.mp hc)
  have opening : isBrace (CodePoint.ofChar '\x7b') = true := by decide
  have closing : isBrace (CodePoint.ofChar '\x7d') = true := by decide
  rw [Text.trimBy, List.dropWhile_cons_of_pos opening, List.dropWhile_append,
    Numeral.dropWhile_eq_self plain, List.dropWhile_cons_of_pos closing]
  split
  · next empty =>
      rw [List.isEmpty_iff.mp empty]
      rfl
  · rw [List.reverse_append, List.reverse_singleton, List.singleton_append,
      List.dropWhile_cons_of_pos closing, Numeral.dropWhile_eq_self reversed, List.reverse_reverse]

/-- An escape with digits in braces is read exactly when its number is less than two to the 31. -/
theorem escape_braced_ok_iff (ds : Numeral.Digits) :
    (∃ t, escape (braced ds) = .ok t) ↔ ds.value 16 < 0x80000000 := by
  have tail : (braced ds).drop 1 = CodePoint.ofChar 'u' :: CodePoint.ofChar '\x7b' ::
      (ds.text ++ [CodePoint.ofChar '\x7d']) := rfl
  rw [escape_ok_iff]
  cases ds with
  | nil =>
      have small : Numeral.Digits.value 16 [] < 0x80000000 := by decide
      refine iff_of_true ?_ small
      rintro ⟨head, digits, n, text, _, number, _⟩
      obtain ⟨_, rfl⟩ := List.cons.inj (tail.symm.trans text)
      rw [trimBy_braced] at number
      cases number
  | cons d rest =>
      have read := Numeral.Digits.integer_text (d :: rest) (List.cons_ne_nil d rest)
      constructor
      · intro small
        apply Nat.lt_of_not_le
        intro large
        have bound : escapeBound ≤ (Numeral.Digits.value 16 (d :: rest) : Int) := by
          simp only [escapeBound]
          omega
        refine small ⟨_, _, _, tail, .inl rfl, ?_, .inr bound⟩
        rw [trimBy_braced, read]
      · rintro small ⟨head, digits, n, text, _, number, oversized⟩
        obtain ⟨_, rfl⟩ := List.cons.inj (tail.symm.trans text)
        rw [trimBy_braced, read] at number
        cases number
        simp only [escapeBound] at oversized
        omega

end Literal

end RouteAtlas
