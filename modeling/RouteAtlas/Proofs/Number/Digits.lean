import RouteAtlas.Number.Numeral

/-!
# Written digits

Digits of a base up to sixteen are written one after the other, letters in either case. They are
read back as the number that they stand for, however many there are.
-/

namespace RouteAtlas.Numeral

/-- Digits of bases up to sixteen; each letter has a case. -/
abbrev Digits := List (Fin 16 × Bool)

/-- The character of a digit, a letter in upper case if `upper` says so. -/
def digitChar (d : Nat) (upper : Bool) : Char :=
  if upper then (Nat.digitChar d).toUpper else Nat.digitChar d

theorem digitValue?_digitChar (d : Fin 16) (upper : Bool) :
    digitValue? (digitChar d upper) = some d.val := by
  revert d upper
  decide

theorem digitChar_ne_underscore (d : Fin 16) (upper : Bool) : digitChar d upper ≠ '_' := by
  revert d upper
  decide

theorem isAsciiBlank_digitChar (d : Fin 16) (upper : Bool) :
    isAsciiBlank (digitChar d upper) = false := by
  revert d upper
  decide

theorem digitChar_ne_sign (d : Fin 16) (upper : Bool) :
    digitChar d upper ≠ '-' ∧ digitChar d upper ≠ '+' := by
  revert d upper
  decide

theorem namedBase?_digitChar (d : Fin 16) (upper : Bool) :
    namedBase? (digitChar d upper) ≠ some 16 := by
  revert d upper
  decide

theorem toAscii_digitChar (d : Fin 16) (upper : Bool) :
    toAscii [CodePoint.ofChar (digitChar d upper)] = [digitChar d upper] := by
  revert d upper
  decide

theorem dropWhile_eq_self {α : Type} {p : α → Bool} {xs : List α} (h : ∀ x ∈ xs, p x = false) :
    xs.dropWhile p = xs := by
  cases xs with
  | nil => rfl
  | cons x rest => simp [h x List.mem_cons_self]

/-- Without blanks there is nothing to trim. -/
theorem trim_eq_self {cs : List Char} (visible : ∀ c ∈ cs, isAsciiBlank c = false) :
    trim cs = cs := by
  have reversed : ∀ c ∈ cs.reverse, isAsciiBlank c = false :=
    fun c hc => visible c (List.mem_reverse.mp hc)
  rw [trim, dropWhile_eq_self visible, dropWhile_eq_self reversed, List.reverse_reverse]

namespace Digits

/-- The digits as they are written. -/
def chars (ds : Digits) : List Char := ds.map fun d => digitChar d.1 d.2

/-- The digits as a text. -/
def text (ds : Digits) : Text := ds.chars.map CodePoint.ofChar

/-- The number that digits stand for in `base`, after digits that stand for `front`. -/
def valueAfter (base front : Nat) (ds : Digits) : Nat :=
  ds.foldl (fun value d => value * base + d.1) front

/-- The number that digits stand for in `base`. -/
def value (base : Nat) (ds : Digits) : Nat := ds.valueAfter base 0

theorem chars_cons (d : Fin 16 × Bool) (rest : Digits) :
    chars (d :: rest) = digitChar d.1 d.2 :: rest.chars := rfl

theorem valueAfter_cons (base front : Nat) (d : Fin 16 × Bool) (rest : Digits) :
    valueAfter base front (d :: rest) = rest.valueAfter base (front * base + d.1) := rfl

theorem mem_chars {ds : Digits} {c : Char} (h : c ∈ ds.chars) :
    ∃ (d : Fin 16) (upper : Bool), c = digitChar d upper := by
  obtain ⟨d, _, rfl⟩ := List.mem_map.mp h
  exact ⟨d.1, d.2, rfl⟩

theorem toAscii_text (ds : Digits) : toAscii ds.text = ds.chars := by
  induction ds with
  | nil => rfl
  | cons d rest ih =>
      have first := toAscii_digitChar d.1 d.2
      simp only [text, chars, toAscii, List.map_cons, List.map_nil, List.cons.injEq, and_true]
        at first ih ⊢
      exact ⟨first, ih⟩

theorem isAsciiBlank_of_mem_chars {ds : Digits} {c : Char} (h : c ∈ ds.chars) :
    isAsciiBlank c = false := by
  obtain ⟨d, upper, rfl⟩ := mem_chars h
  exact isAsciiBlank_digitChar d upper

theorem trim_chars (ds : Digits) : trim ds.chars = ds.chars :=
  trim_eq_self fun _ => isAsciiBlank_of_mem_chars

theorem splitSign_chars (ds : Digits) : splitSign ds.chars = (false, ds.chars) := by
  cases ds with
  | nil => rfl
  | cons d rest =>
      obtain ⟨minus, plus⟩ := digitChar_ne_sign d.1 d.2
      rw [chars_cons, splitSign]
      · exact fun r h => minus (List.cons.inj h).1
      · exact fun r h => plus (List.cons.inj h).1

/-- Reading goes on over digits and counts them. -/
theorem go_chars (base front count : Nat) (ds : Digits) (h : ∀ d ∈ ds, d.1.val < base) :
    digits?.go base ds.chars front count =
      some (ds.valueAfter base front, count + ds.length) := by
  induction ds generalizing front count with
  | nil => rfl
  | cons d rest ih =>
      have small := h d List.mem_cons_self
      have others := fun e he => h e (List.mem_cons_of_mem d he)
      rw [chars_cons, digits?.go]
      · simp only [digitValue?_digitChar, small, if_true]
        rw [ih (front * base + d.1) (count + 1) others, valueAfter_cons, List.length_cons,
          Nat.add_assoc, Nat.add_comm 1]
      · exact fun _ _ underscore _ => digitChar_ne_underscore d.1 d.2 underscore

/-- Digits are read as the number that they stand for. -/
theorem digits?_chars (base : Nat) (ds : Digits) (h : ∀ d ∈ ds, d.1.val < base) (ne : ds ≠ []) :
    digits? base ds.chars = some (ds.value base, ds.length) := by
  cases ds with
  | nil => exact absurd rfl ne
  | cons d rest =>
      have small := h d List.mem_cons_self
      have others := fun e he => h e (List.mem_cons_of_mem d he)
      have read := go_chars base d.1 1 rest others
      simp only [chars_cons, digits?, digitValue?_digitChar, small, if_true]
      rw [read, value, valueAfter_cons, Nat.zero_mul, Nat.zero_add, List.length_cons,
        Nat.add_comm 1]

/-- No digit is a letter that names the base sixteen. -/
theorem withoutBaseName_chars (ds : Digits) : withoutBaseName 16 ds.chars = ds.chars := by
  unfold withoutBaseName
  split
  · next c r h =>
      have mem : c ∈ ds.chars := by simp [h]
      obtain ⟨d, upper, rfl⟩ := mem_chars mem
      rw [if_neg (namedBase?_digitChar d upper), h]
  · rfl

/-- A hexadecimal numeral of any length and in any case is read as its number. -/
theorem integer_text (ds : Digits) (ne : ds ≠ []) :
    integer 16 ds.text = .ok (ds.value 16 : Int) := by
  have read : magnitude 16 ds.chars = .ok (ds.value 16) := by
    simp [magnitude, digits?_chars 16 ds (fun d _ => d.1.isLt) ne]
  simp only [integer, toAscii_text, trim_chars, splitSign_chars, withoutBaseName_chars, read]
  rfl

end Digits

end RouteAtlas.Numeral
