import Mathlib.Tactic.Linarith
import RouteAtlas.Number.Numeral
import RouteAtlas.Number.Shortest

/-!
# Decimal notation

A numeral is a sign, a whole part without superfluous zeros, and perhaps a fraction and an exponent.
The decimal text of an integer is one. So is that of a finite floating point number: its first digit
is zero only where a zero may stand, because the search for digits never ends with none, or ends
where the exponent is written out.
-/

namespace RouteAtlas.Numeral

/-- Decimal digits, at least one. -/
def AreDigits (cs : List Char) : Prop := cs ≠ [] ∧ ∀ c ∈ cs, c.isDigit = true

/-- The digits before a point: a zero comes first only if it stands alone. -/
inductive IsWhole : List Char → Prop
  | zero : IsWhole ['0']
  | digits {c : Char} {cs : List Char} (nonzero : c ≠ '0') (h : AreDigits (c :: cs)) :
    IsWhole (c :: cs)

/-- A point with digits behind it, or nothing. -/
inductive IsFraction : List Char → Prop
  | none : IsFraction []
  | digits {cs : List Char} (h : AreDigits cs) : IsFraction ('.' :: cs)

/-- A letter for the exponent, perhaps a sign, and digits; or nothing. -/
inductive IsExponent : List Char → Prop
  | none : IsExponent []
  | digits {letter : Char} {sign cs : List Char} (hLetter : letter ∈ ['e', 'E'])
    (hSign : sign ∈ [[], ['+'], ['-']]) (h : AreDigits cs) : IsExponent (letter :: sign ++ cs)

/-- A number in decimal notation. -/
inductive IsNumeral : List Char → Prop
  | mk {sign whole fraction exponent : List Char} (hSign : sign ∈ [[], ['-']])
    (hWhole : IsWhole whole) (hFraction : IsFraction fraction) (hExponent : IsExponent exponent) :
    IsNumeral (sign ++ whole ++ fraction ++ exponent)

theorem areDigits_zero : AreDigits ['0'] := ⟨by simp, List.forall_mem_singleton.mpr (by decide)⟩

theorem areDigits_toDigits (n : Nat) : AreDigits (Nat.toDigits 10 n) :=
  ⟨Nat.toDigits_ne_nil, fun _ => Nat.isDigit_of_mem_toDigits (by decide) (by decide)⟩

/-- A number other than zero does not begin with a zero. -/
theorem head?_toDigits {n : Nat} (h : n ≠ 0) : (Nat.toDigits 10 n).head? ≠ some '0' := by
  induction n using Nat.strongRecOn with
  | ind n ih =>
    by_cases small : n < 10
    · rw [Nat.toDigits_of_lt_base small]
      have digit : ∀ d : Fin 10, d.val ≠ 0 → Nat.digitChar d ≠ '0' := by decide
      simpa using digit ⟨n, small⟩ h
    · rw [Nat.toDigits_of_base_le (by decide) (by omega),
        List.head?_append]
      intro zero
      cases front : (Nat.toDigits 10 (n / 10)).head? with
      | none => exact Nat.toDigits_ne_nil (List.head?_eq_none_iff.mp front)
      | some c =>
          rw [front, Option.some_or] at zero
          exact ih (n / 10) (by omega) (by omega) (front.trans zero)

theorem isWhole_of_head? {cs : List Char} (h : AreDigits cs) (nonzero : cs.head? ≠ some '0') :
    IsWhole cs := by
  cases cs with
  | nil => exact absurd rfl h.1
  | cons c r => exact .digits (fun zero => nonzero (congrArg some zero)) h

theorem isWhole_toDigits (n : Nat) : IsWhole (Nat.toDigits 10 n) := by
  by_cases zero : n = 0
  · subst zero
    exact .zero
  · exact isWhole_of_head? (areDigits_toDigits n) (head?_toDigits zero)

end RouteAtlas.Numeral

namespace RouteAtlas.Binary64

open Numeral

/-- Digits whose text has no superfluous zero in front: if they are zero, either the exponent is
written out or at most one digit stands before the point. -/
def Digits.IsProper (d : Digits) : Prop := d.digits ≠ 0 ∨ d.point ≤ 1 ∨ 16 < d.point

/-- Digits in front of the point, with zeros up to it. -/
theorem Digits.isWhole_take {d : Digits} (h : d.IsProper) {n : Nat} (before : d.point = n)
    (pos : n ≠ 0) (few : n ≤ 16) :
    IsWhole ((Nat.toDigits 10 d.digits).take n ++
      List.replicate (n - (Nat.toDigits 10 d.digits).length) '0') := by
  by_cases zero : d.digits = 0
  · have alone : n = 1 := by
      rcases h with nonzero | low | high
      · exact absurd zero nonzero
      · omega
      · omega
    rw [zero, alone]
    exact .zero
  · have digits := areDigits_toDigits d.digits
    have nonzero := head?_toDigits zero
    generalize Nat.toDigits 10 d.digits = cs at digits nonzero ⊢
    cases cs with
    | nil => exact absurd rfl digits.1
    | cons c r =>
        obtain ⟨n, rfl⟩ := Nat.exists_eq_succ_of_ne_zero pos
        rw [List.take_succ_cons]
        refine .digits (fun zero => nonzero (congrArg some zero)) ⟨by simp, ?_⟩
        refine List.forall_mem_cons.mpr ⟨digits.2 c List.mem_cons_self, ?_⟩
        refine List.forall_mem_append.mpr ⟨fun x mem => ?_, fun x mem => ?_⟩
        · exact digits.2 x (List.mem_cons_of_mem c (List.mem_of_mem_take mem))
        · rw [(List.mem_replicate.mp mem).2]
          decide

/-- Digits behind the point, where a zero stands for none. -/
theorem areDigits_part {cs : List Char} (digits : ∀ c ∈ cs, c.isDigit = true) :
    AreDigits (if cs.isEmpty then ['0'] else cs) := by
  split
  · exact areDigits_zero
  · next some => exact ⟨by simpa using some, digits⟩

/-- One digit before the point and the others behind it. -/
theorem exists_mantissa (n : Nat) : ∃ whole fraction,
    (match Nat.toDigits 10 n with
      | [] => ['0']
      | [c] => [c]
      | c :: rest => c :: '.' :: rest) = whole ++ fraction ∧
    IsWhole whole ∧ IsFraction fraction := by
  have whole := isWhole_toDigits n
  have digits := areDigits_toDigits n
  generalize Nat.toDigits 10 n = cs at whole digits
  match cs with
  | [] => exact absurd rfl digits.1
  | [c] => exact ⟨[c], [], rfl, whole, .none⟩
  | c :: e :: rest =>
      obtain ⟨here, later⟩ := List.forall_mem_cons.mp digits.2
      cases whole with
      | digits nonzero _ =>
          have one : AreDigits [c] := ⟨by simp, List.forall_mem_singleton.mpr here⟩
          exact ⟨[c], '.' :: e :: rest, rfl, .digits nonzero one, .digits ⟨by simp, later⟩⟩

/-- An exponent has at least two digits. -/
theorem isExponent_padded (p : Prop) [Decidable p] (n : Nat) :
    IsExponent ('e' :: (if p then '-' else '+') ::
      (if (Nat.toDigits 10 n).length < 2 then '0' :: Nat.toDigits 10 n
        else Nat.toDigits 10 n)) := by
  have digits := areDigits_toDigits n
  have padded : AreDigits
      (if (Nat.toDigits 10 n).length < 2 then '0' :: Nat.toDigits 10 n else Nat.toDigits 10 n) := by
    split
    · exact ⟨by simp, List.forall_mem_cons.mpr ⟨by decide, digits.2⟩⟩
    · exact digits
  have minus : ['-'] ∈ [[], ['+'], ['-']] := by decide
  have plus : ['+'] ∈ [[], ['+'], ['-']] := by decide
  by_cases negative : p
  · rw [if_pos negative]
    exact .digits (by decide) minus padded
  · rw [if_neg negative]
    exact .digits (by decide) plus padded

/-- The text of proper digits is a whole part, a fraction and an exponent. -/
theorem Digits.exists_toString {d : Digits} (h : d.IsProper) :
    ∃ whole fraction exponent, d.toString = String.ofList (whole ++ fraction ++ exponent) ∧
      IsWhole whole ∧ IsFraction fraction ∧ IsExponent exponent := by
  have digits := areDigits_toDigits d.digits
  unfold toString
  dsimp only
  by_cases positional : -4 < d.point ∧ d.point ≤ 16
  · rw [if_pos positional]
    by_cases small : d.point ≤ 0
    · rw [if_pos small]
      have zeros : ∀ c ∈ List.replicate (-d.point).toNat '0', c.isDigit = true := by
        intro c mem
        rw [(List.mem_replicate.mp mem).2]
        decide
      have part : AreDigits (List.replicate (-d.point).toNat '0' ++ Nat.toDigits 10 d.digits) :=
        ⟨by simp [digits.1], List.forall_mem_append.mpr ⟨zeros, digits.2⟩⟩
      exact ⟨['0'], _, [], by simp, .zero, .digits part, .none⟩
    · rw [if_neg small]
      have whole := Digits.isWhole_take h (n := d.point.toNat) (by omega) (by omega) (by omega)
      have later : ∀ c ∈ (Nat.toDigits 10 d.digits).drop d.point.toNat, c.isDigit = true :=
        fun c mem => digits.2 c (List.mem_of_mem_drop mem)
      have part := areDigits_part later
      exact ⟨_, _, [], by rw [List.append_nil], whole, .digits part, .none⟩
  · rw [if_neg positional]
    obtain ⟨whole, fraction, mantissa, isWhole, isFraction⟩ := exists_mantissa d.digits
    have exponent := isExponent_padded (d.point - 1 < 0) (d.point - 1).natAbs
    refine ⟨whole, fraction, _, ?_, isWhole, isFraction, exponent⟩
    exact congrArg (fun cs => String.ofList (cs ++ _)) mantissa

/-! ## The search for digits -/

theorem scale_pos (base : Nat) (h : 0 < base) (e : Int) :
    0 < (scale base e).1 ∧ 0 < (scale base e).2 := by
  unfold scale
  split
  · exact ⟨Nat.pow_pos h, Nat.one_pos⟩
  · exact ⟨Nat.one_pos, Nat.pow_pos h⟩

theorem scale_of_nonneg (base n : Nat) : scale base (n : Int) = (base ^ n, 1) := by
  simp [scale]

/-- No grid point that reads back as a positive number is zero. -/
theorem onGrid?_ne_zero {m c : Nat} {e k : Int} (pos : m ≠ 0) (h : onGrid? m e k = some c) :
    c ≠ 0 := by
  have step := (scale_pos 2 (by decide) (e - 2)).1
  have unit := (scale_pos 10 (by decide) k).2
  have low : 0 < (4 * m - (if m = hiddenBit ∧ -1074 < e then 1 else 2)) *
      ((scale 2 (e - 2)).1 * (scale 10 k).2) := by
    apply Nat.mul_pos _ (Nat.mul_pos step unit)
    split <;> omega
  simp only [onGrid?] at h
  generalize (4 * m - (if m = hiddenBit ∧ -1074 < e then 1 else 2)) *
      ((scale 2 (e - 2)).1 * (scale 10 k).2) = least at low h
  generalize 4 * m * ((scale 2 (e - 2)).1 * (scale 10 k).2) /
      ((scale 2 (e - 2)).2 * (scale 10 k).1) = q at h
  generalize (scale 2 (e - 2)).2 * (scale 10 k).1 = b at h
  -- a grid point that fits is at least the least number that fits, which is positive
  have fits {n high : Nat} (fit : (if m % 2 = 0 then decide (least ≤ n * b) && decide (n * b ≤ high)
      else decide (least < n * b) && decide (n * b < high)) = true) : n ≠ 0 := by
    rintro rfl
    split at fit
    · simp at fit
      omega
    · simp at fit
  split at h
  · next here above =>
      obtain rfl := Option.some.inj h
      have := fits here
      split
      · exact this
      · split <;> omega
  · next here _ =>
      obtain rfl := Option.some.inj h
      exact fits here
  · next _ above =>
      obtain rfl := Option.some.inj h
      exact Nat.succ_ne_zero q
  · cases h

/-- The search ends with no digits only on its last grid. -/
theorem searchGrid_eq_zero {m : Nat} {e order : Int} (pos : m ≠ 0) {tries n : Nat}
    (h : (searchGrid m e order tries n).1 = 0) :
    (searchGrid m e order tries n).2 = order - (n + tries : Nat) ∧
      roundRatio ((ratio m e).1 * (scale 10 (order - (n + tries : Nat))).2)
        ((ratio m e).2 * (scale 10 (order - (n + tries : Nat))).1) = 0 := by
  induction tries generalizing n with
  | zero => exact ⟨rfl, h⟩
  | succ tries ih =>
      rw [searchGrid] at h ⊢
      cases found : onGrid? m e (order - n) with
      | some c =>
          rw [found] at h
          exact absurd h (onGrid?_ne_zero pos found)
      | none =>
          rw [found] at h
          dsimp only at h ⊢
          obtain ⟨grid, none⟩ := ih h
          have count : n + 1 + tries = n + (tries + 1) := by omega
          rw [count] at grid none
          exact ⟨grid, none⟩

theorem dropZeros_of_ne_zero {fuel c : Nat} {k : Int} (h : c ≠ 0) : (dropZeros fuel c k).1 ≠ 0 := by
  induction fuel generalizing c k with
  | zero => exact h
  | succ fuel ih =>
      rw [dropZeros]
      split
      · exact ih (by omega)
      · exact h

theorem dropZeros_zero (fuel : Nat) (k : Int) : dropZeros fuel 0 k = (0, k) := by
  cases fuel <;> rfl

theorem roundRatio_eq_zero {num den : Nat} (pos : 0 < den) (h : roundRatio num den = 0) :
    num < den := by
  by_contra large
  have quotient : 1 ≤ num / den := (Nat.one_le_div_iff pos).mpr (Nat.not_lt.mp large)
  unfold roundRatio at h
  dsimp only at h
  split at h
  · omega
  · split at h <;> omega

/-- The binary order of a ratio of at least one is the order of a power below it. -/
theorem pow_binaryOrder_le {num den : Nat} (hnum : num ≠ 0) {n : Nat}
    (h : binaryOrder num den = n) : den * 2 ^ n ≤ num := by
  unfold binaryOrder at h
  dsimp only at h
  split at h
  · next fits =>
      rw [h, scale_of_nonneg, Nat.mul_one] at fits
      exact fits
  · have order : num.log2 = den.log2 + 1 + n := by omega
    calc
      den * 2 ^ n ≤ 2 ^ (den.log2 + 1) * 2 ^ n :=
        Nat.mul_le_mul_right _ (Nat.le_of_lt Nat.lt_log2_self)
      _ = 2 ^ num.log2 := by rw [order, Nat.pow_add _ (den.log2 + 1)]
      _ ≤ num := Nat.log2_self_le hnum

/-- The decimal order of a ratio exceeds that of a power below it by less than seventeen, as long as
it is at most thirty-two. -/
theorem pow_decimalOrder_le {num den : Nat} (hnum : num ≠ 0) {n : Nat} (few : n ≤ 15)
    (h : decimalOrder num den = (n + 17 : Nat)) : den * 10 ^ n ≤ num := by
  -- an estimate that is too low has a power of ten between it and the ratio
  have above {p k : Nat} (notBelow : ¬ num * (scale 10 (p : Int)).2 < den * (scale 10 (p : Int)).1)
      (le : k ≤ p) : den * 10 ^ k ≤ num := by
    rw [scale_of_nonneg, Nat.mul_one, Nat.not_lt] at notBelow
    exact (Nat.mul_le_mul_left den (Nat.pow_le_pow_right (by decide) le)).trans notBelow
  unfold decimalOrder at h
  simp only [decide_eq_true_eq] at h
  rw [Int.fdiv_eq_ediv_of_nonneg _ (by decide)] at h
  split at h
  · have order : binaryOrder num den = (binaryOrder num den).toNat := by omega
    have large : 50 ≤ (binaryOrder num den).toNat := by omega
    calc
      den * 10 ^ n ≤ den * 2 ^ (binaryOrder num den).toNat := by
        apply Nat.mul_le_mul_left
        calc
          10 ^ n ≤ 10 ^ 15 := Nat.pow_le_pow_right (by decide) few
          _ ≤ 2 ^ 50 := by decide
          _ ≤ 2 ^ (binaryOrder num den).toNat := Nat.pow_le_pow_right (by decide) large
      _ ≤ num := pow_binaryOrder_le hnum order
  · next notBelow =>
      split at h
      · have estimate : binaryOrder num den * 30103 / 100000 = (n + 16 : Nat) := by omega
        rw [estimate] at notBelow
        exact above notBelow (by omega)
      · next notBelow =>
          have estimate : binaryOrder num den * 30103 / 100000 + 1 = (n + 16 : Nat) := by omega
          rw [estimate] at notBelow
          exact above notBelow (by omega)

/-- No digits are found only for a number whose exponent is written out. -/
theorem isProper_shortest {m : Nat} {e : Int} (pos : m ≠ 0) : (shortest m e).IsProper := by
  have num : (ratio m e).1 ≠ 0 := Nat.mul_ne_zero pos (scale_pos 2 (by decide) e).1.ne'
  have den : 0 < (ratio m e).2 := (scale_pos 2 (by decide) e).2
  unfold shortest
  dsimp only
  cases found : searchGrid m e (decimalOrder (ratio m e).1 (ratio m e).2) 16 1 with
  | mk c k =>
      by_cases zero : c = 0
      · subst zero
        obtain ⟨grid, none⟩ := searchGrid_eq_zero pos (congrArg Prod.fst found)
        rw [found] at grid
        dsimp only at grid ⊢
        rw [← grid] at none
        rw [dropZeros_zero]
        right
        by_contra inside
        have small : 1 < k + 1 ∧ k + 1 ≤ 16 := by
          have single : (Nat.toDigits 10 0).length = 1 := rfl
          simp only [single] at inside
          omega
        obtain ⟨n, rfl⟩ := Int.eq_ofNat_of_zero_le (a := k) (by omega)
        have order : decimalOrder (ratio m e).1 (ratio m e).2 = (n + 17 : Nat) := by omega
        have reached := pow_decimalOrder_le num (by omega) order
        have below := roundRatio_eq_zero (Nat.mul_pos den (scale_pos 10 (by decide) n).1) none
        rw [scale_of_nonneg, Nat.mul_one] at below
        exact absurd reached (Nat.not_le.mpr below)
      · exact .inl (dropZeros_of_ne_zero zero)

/-- The text of a finite number is a numeral. -/
theorem exists_toText (negative : Bool) (m : Nat) (e : Int) :
    ∃ cs, (finite negative m e).toText = Text.ofString (String.ofList cs) ∧ IsNumeral cs := by
  have unsigned : ∃ whole fraction exponent,
      (if m = 0 then "0.0" else (shortest m e).toString) =
        String.ofList (whole ++ fraction ++ exponent) ∧
      IsWhole whole ∧ IsFraction fraction ∧ IsExponent exponent := by
    split
    · exact ⟨['0'], ['.', '0'], [], rfl, .zero, .digits areDigits_zero, .none⟩
    · next pos => exact Digits.exists_toString (isProper_shortest pos)
  obtain ⟨whole, fraction, exponent, text, isWhole, isFraction, isExponent⟩ := unsigned
  unfold toText
  dsimp only
  rw [text]
  have none : [] ∈ [[], ['-']] := by decide
  have minus : ['-'] ∈ [[], ['-']] := by decide
  cases negative with
  | false => exact ⟨_, rfl, .mk none isWhole isFraction isExponent⟩
  | true =>
      refine ⟨_, ?_, .mk minus isWhole isFraction isExponent⟩
      simp [Text.ofString]

end RouteAtlas.Binary64
