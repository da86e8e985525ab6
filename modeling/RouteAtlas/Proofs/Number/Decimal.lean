import RouteAtlas.Proofs.Number.Digits

/-!
# Decimal integers

The decimal text of an integer is a sign, if it is negative, and the digits of its magnitude without
leading zeros. Within the digit limit it is read back as the integer.
-/

namespace RouteAtlas.Numeral

namespace Digits

theorem value_concat (base : Nat) (ds : Digits) (d : Fin 16 × Bool) :
    value base (ds ++ [d]) = ds.value base * base + d.1 := by
  simp [value, valueAfter]

/-- The digits of a number in a base stand for it, and a leading zero stands alone. -/
theorem exists_toDigits {base : Nat} (two : 2 ≤ base) (sixteen : base ≤ 16) (n : Nat) :
    ∃ ds : Digits, ds.chars = Nat.toDigits base n ∧ (∀ d ∈ ds, d.1.val < base) ∧
      ds.value base = n ∧ ∀ d tail, ds = d :: tail → d.1.val = 0 → tail = [] := by
  induction n using Nat.strongRecOn with
  | ind n ih =>
    by_cases small : n < base
    · refine ⟨[(⟨n, by omega⟩, false)], ?_, ?_, ?_, ?_⟩
      · rw [Nat.toDigits_of_lt_base small]
        rfl
      · simpa using small
      · simp [value, valueAfter]
      · rintro d tail eq -
        exact (List.cons.inj eq).2.symm
    · have some : 0 < n / base := Nat.div_pos (by omega) (by omega)
      obtain ⟨ds, chars, inBase, value, alone⟩ := ih (n / base) (Nat.div_lt_self (by omega) two)
      have last : n % base < base := Nat.mod_lt n (by omega)
      refine ⟨ds ++ [(⟨n % base, by omega⟩, false)], ?_, ?_, ?_, ?_⟩
      · rw [Nat.toDigits_of_base_le two (by omega), ← chars]
        simp [Digits.chars, digitChar]
      · intro d mem
        rcases List.mem_append.mp mem with earlier | new
        · exact inBase d earlier
        · obtain rfl := List.mem_singleton.mp new
          exact last
      · rw [value_concat, value]
        exact Nat.div_add_mod' n base
      · intro d tail eq zero
        cases ds with
        | nil => exact absurd chars.symm Nat.toDigits_ne_nil
        | cons e front =>
            -- a zero in front of other digits would make the number less than the base
            obtain rfl := (List.cons.inj eq).1
            obtain rfl := alone e front rfl zero
            simp only [Digits.value, valueAfter, List.foldl_cons, List.foldl_nil, zero] at value
            omega

end Digits

/-- A sign, if there is one, in front of digits. -/
def signed (negative : Bool) (ds : Digits) : Text :=
  (if negative then [CodePoint.ofChar '-'] else []) ++ ds.text

/-- The decimal text of an integer is its sign and the digits of its magnitude. -/
theorem ofString_toString (n : Int) {ds : Digits} (h : ds.chars = Nat.toDigits 10 n.natAbs) :
    Text.ofString (toString n) = signed (decide (n < 0)) ds := by
  have chars (m : Nat) : m.repr.toList = Nat.toDigits 10 m := by
    rw [Nat.repr_eq_ofList_toDigits, String.toList_ofList]
  rw [Int.toString_eq_repr, Int.repr_eq_if, Text.ofString, signed, Digits.text, h]
  by_cases negative : n < 0
  · have below : ¬ 0 ≤ n := by omega
    have magnitude : (-n).toNat = n.natAbs := by omega
    simp [negative, below, magnitude, String.toList_append, chars]
  · have above : 0 ≤ n := by omega
    have magnitude : n.toNat = n.natAbs := by omega
    simp [negative, above, magnitude, chars]

theorem withoutBaseName_ten (cs : List Char) : withoutBaseName 10 cs = cs := by
  unfold withoutBaseName
  split
  · next c r =>
      have other : namedBase? c ≠ some 10 := by
        unfold namedBase?
        repeat' split
        all_goals decide
      rw [if_neg other]
  · rfl

/-- Signed decimal digits within the limit are read as the integer that they stand for. -/
theorem integer_signed (negative : Bool) {ds : Digits} (decimal : ∀ d ∈ ds, d.1.val < 10)
    (ne : ds ≠ []) (short : ds.length ≤ digitLimit) :
    integer 10 (signed negative ds) =
      .ok (if negative then -(ds.value 10 : Int) else ds.value 10) := by
  have read : magnitude 10 ds.chars = .ok (ds.value 10) := by
    have notLong : ¬ digitLimit < ds.length := Nat.not_lt.mpr short
    simp [magnitude, Digits.digits?_chars 10 ds decimal ne, notLong]
  cases negative with
  | false =>
      simp only [signed, Bool.false_eq_true, if_false, List.nil_append, integer,
        Digits.toAscii_text, Digits.trim_chars, Digits.splitSign_chars, withoutBaseName_ten, read]
      rfl
  | true =>
      have ascii : toAscii (CodePoint.ofChar '-' :: ds.text) = '-' :: ds.chars :=
        congrArg ('-' :: ·) (Digits.toAscii_text ds)
      have trimmed : trim ('-' :: ds.chars) = '-' :: ds.chars := by
        apply trim_eq_self
        rw [List.forall_mem_cons]
        exact ⟨by decide, fun _ => Digits.isAsciiBlank_of_mem_chars⟩
      simp only [signed, if_true, List.singleton_append, integer, ascii, trimmed, splitSign,
        withoutBaseName_ten, read]
      rfl

end RouteAtlas.Numeral
