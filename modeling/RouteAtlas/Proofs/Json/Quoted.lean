import RouteAtlas.Json.Print
import RouteAtlas.Json.Read

/-!
# Quoted texts

A text is quoted unit by unit of UTF-16: a code point beyond the first plane becomes the two halves
of a surrogate pair, each with an escape of its own. Reading gives back the units and joins the
pairs. That is the text itself if it holds no surrogate.
-/

namespace RouteAtlas

/-- No code point of the text is a surrogate. -/
def Text.HasNoSurrogate (t : Text) : Prop := ∀ c ∈ t, ¬ c.IsSurrogate

instance (t : Text) : Decidable t.HasNoSurrogate :=
  List.decidableBAll (fun c : CodePoint => ¬ c.IsSurrogate) t

namespace Json

/-- Characters as code points. -/
def points (cs : List Char) : Text := cs.map CodePoint.ofChar

theorem points_append (cs ds : List Char) : points (cs ++ ds) = points cs ++ points ds :=
  List.map_append

theorem points_cons (c : Char) (cs : List Char) :
    points (c :: cs) = CodePoint.ofChar c :: points cs := rfl

/-- The first half of the pair for a code point beyond the first plane. -/
def highUnit (c : CodePoint) : CodePoint :=
  ⟨0xD800 + (c.val - 0x10000) / 0x400, by have := c.lt; omega⟩

/-- The second half of the pair for a code point beyond the first plane. -/
def lowUnit (c : CodePoint) : CodePoint := ⟨0xDC00 + (c.val - 0x10000) % 0x400, by omega⟩

/-- The units of UTF-16 for a code point. -/
def units (c : CodePoint) : Text := if c.val < 0x10000 then [c] else [highUnit c, lowUnit c]

/-- The ways in which a code point is written between quotes. -/
inductive Escaped (c : CodePoint) : List Char → Prop
  | letter {l : Char} (small : c.val < 0x10000) (ascii : l.toNat < 0x80)
    (notUnit : CodePoint.ofChar l ≠ 'u') (h : escapedPoint? l = some c) : Escaped c ['\\', l]
  | self (h : 0x20 ≤ c.val ∧ c.val ≤ 0x7E ∧ c.val ≠ 0x22 ∧ c.val ≠ 0x5C) :
    Escaped c [Char.ofNat c.val]
  | unit (h : c.val < 0x10000) : Escaped c (unitEscape c.val)
  | pair (h : ¬ c.val < 0x10000) :
    Escaped c (unitEscape (highUnit c).val ++ unitEscape (lowUnit c).val)

theorem escaped_escapePoint (c : CodePoint) : Escaped c (escapePoint c) := by
  have letter {n : Nat} (h : c.val = n) {l : Char} (ascii : l.toNat < 0x80)
      (notUnit : CodePoint.ofChar l ≠ 'u')
      (number : (escapedPoint? l).map CodePoint.val = some n) (small : n < 0x10000) :
      Escaped c ['\\', l] := by
    obtain ⟨d, isPoint, rfl⟩ := Option.map_eq_some_iff.mp number
    rw [← CodePoint.ext h] at isPoint
    exact .letter (h ▸ small) ascii notUnit isPoint
  simp only [escapePoint]
  by_cases quote : c.val = 0x22
  · rw [if_pos quote]
    exact letter quote (l := '"') (by decide) (by decide) rfl (by decide)
  rw [if_neg quote]
  by_cases backslash : c.val = 0x5C
  · rw [if_pos backslash]
    exact letter backslash (l := '\\') (by decide) (by decide) rfl (by decide)
  rw [if_neg backslash]
  by_cases lineFeed : c.val = 0x0A
  · rw [if_pos lineFeed]
    exact letter lineFeed (l := 'n') (by decide) (by decide) rfl (by decide)
  rw [if_neg lineFeed]
  by_cases carriageReturn : c.val = 0x0D
  · rw [if_pos carriageReturn]
    exact letter carriageReturn (l := 'r') (by decide) (by decide) rfl (by decide)
  rw [if_neg carriageReturn]
  by_cases tab : c.val = 0x09
  · rw [if_pos tab]
    exact letter tab (l := 't') (by decide) (by decide) rfl (by decide)
  rw [if_neg tab]
  by_cases formFeed : c.val = 0x0C
  · rw [if_pos formFeed]
    exact letter formFeed (l := 'f') (by decide) (by decide) rfl (by decide)
  rw [if_neg formFeed]
  by_cases backspace : c.val = 0x08
  · rw [if_pos backspace]
    exact letter backspace (l := 'b') (by decide) (by decide) rfl (by decide)
  rw [if_neg backspace]
  by_cases printable : 0x20 ≤ c.val ∧ c.val ≤ 0x7E
  · rw [if_pos printable]
    exact .self ⟨printable.1, printable.2, quote, backslash⟩
  rw [if_neg printable]
  by_cases small : c.val < 0x10000
  · rw [if_pos small]
    exact .unit small
  · rw [if_neg small]
    exact .pair small

section Reading

theorem hexDigit?_digitChar : ∀ d : Fin 16,
    hexDigit? (CodePoint.ofChar (Nat.digitChar d)) = some d.val := by
  decide

theorem hexDigit?_digitChar_mod (n : Nat) :
    hexDigit? (CodePoint.ofChar (Nat.digitChar (n % 16))) = some (n % 16) :=
  hexDigit?_digitChar ⟨n % 16, Nat.mod_lt n (by decide)⟩

/-- An escape of four digits is read as the code point with that number. -/
theorem readQuoted_unitEscape {n : Nat} (small : n < 0x10000) (rest : Text) :
    readQuoted .plain (points (unitEscape n) ++ rest) =
      prepend ⟨n, by omega⟩ (readQuoted .plain rest) := by
  have number : CodePoint.ofNat? (((n / 0x1000 % 16 * 16 + n / 0x100 % 16) * 16 + n / 0x10 % 16)
      * 16 + n % 16) = some ⟨n, by omega⟩ := by
    have same : ((n / 0x1000 % 16 * 16 + n / 0x100 % 16) * 16 + n / 0x10 % 16) * 16 + n % 16 = n :=
      by omega
    have inRange : n < 0x110000 := by omega
    simp [CodePoint.ofNat?, same, inRange]
  have backslash : CodePoint.ofChar '\\' ≠ CodePoint.ofChar '"' := by decide
  simp only [unitEscape, hex4, points, List.map_cons, List.map_nil, List.cons_append,
    List.nil_append, readQuoted, backslash, if_true, if_false, hexDigit?_digitChar_mod,
    Nat.reduceLeDiff, Nat.reduceSub, Nat.zero_mul, Nat.zero_add, number]

theorem toNat_ofNat {n : Nat} (small : n < 0x80) : (Char.ofNat n).toNat = n := by
  have valid : n.isValidChar := .inl (by omega)
  rw [Char.ofNat, dif_pos valid]
  rfl

/-- A code point that stands for itself between quotes. -/
theorem readQuoted_cons {c : CodePoint} (h : 0x20 ≤ c.val ∧ c.val ≠ 0x22 ∧ c.val ≠ 0x5C)
    (rest : Text) : readQuoted .plain (c :: rest) = prepend c (readQuoted .plain rest) := by
  have notQuote : c ≠ '"' := fun same => h.2.1 (congrArg CodePoint.val same)
  have notBackslash : c ≠ '\\' := fun same => h.2.2 (congrArg CodePoint.val same)
  have visible : ¬ c.val < 0x20 := Nat.not_lt.mpr h.1
  simp only [readQuoted, notQuote, notBackslash, visible, if_false]

theorem readQuoted_letter {c : CodePoint} {l : Char} (notUnit : CodePoint.ofChar l ≠ 'u')
    (h : escapedPoint? l = some c) (rest : Text) :
    readQuoted .plain (points ['\\', l] ++ rest) = prepend c (readQuoted .plain rest) := by
  have backslash : CodePoint.ofChar '\\' ≠ CodePoint.ofChar '"' := by decide
  simp only [points, List.map_cons, List.map_nil, List.cons_append, List.nil_append, readQuoted,
    backslash, notUnit, h, if_true, if_false]

/-- What is written for a code point is read as its units. -/
theorem readQuoted_escapePoint (c : CodePoint) (rest : Text) :
    readQuoted .plain (points (escapePoint c) ++ rest) =
      (readQuoted .plain rest).map fun r => (units c ++ r.1, r.2) := by
  have one (small : c.val < 0x10000) :
      prepend c (readQuoted .plain rest) =
        (readQuoted .plain rest).map fun r => (units c ++ r.1, r.2) := by
    simp [prepend, units, small]
  have written := escaped_escapePoint c
  generalize escapePoint c = cs at written
  cases written with
  | letter small _ notUnit h => rw [readQuoted_letter notUnit h, one small]
  | self printable =>
      have same : points [Char.ofNat c.val] = [c] := by
        simp [points, CodePoint.ofChar, toNat_ofNat (n := c.val) (by omega)]
      rw [same, List.singleton_append, readQuoted_cons (by omega), one (by omega)]
  | unit small => rw [readQuoted_unitEscape small, one small]
  | pair large =>
      have high : (highUnit c).val < 0x10000 := by
        have bound := c.lt
        simp only [highUnit]
        omega
      have low : (lowUnit c).val < 0x10000 := by
        simp only [lowUnit]
        omega
      rw [points_append, List.append_assoc, readQuoted_unitEscape high,
        readQuoted_unitEscape low, units, if_neg large]
      cases readQuoted .plain rest <;> rfl

/-- A quoted text is read as its units, up to the closing quote. -/
theorem readQuoted_flatMap_escapePoint (t rest : Text) :
    readQuoted .plain (points (t.flatMap escapePoint) ++ CodePoint.ofChar '"' :: rest) =
      .ok (t.flatMap units, rest) := by
  induction t with
  | nil => rfl
  | cons c r ih =>
      rw [List.flatMap_cons, points_append, List.append_assoc, readQuoted_escapePoint, ih]
      rfl

/-- Only the first half of a pair waits for another unit. -/
theorem joinPairs_cons {c : CodePoint} (h : ¬ c.IsSurrogate) (t : Text) :
    joinPairs (c :: t) = c :: joinPairs t := by
  cases t with
  | nil => rfl
  | cons d r =>
      have none : pair? c d = none := by
        apply if_neg
        rintro ⟨low, high, -⟩
        exact h ⟨low, by omega⟩
      rw [joinPairs, none]

theorem pair?_units {c : CodePoint} (large : ¬ c.val < 0x10000) :
    pair? (highUnit c) (lowUnit c) = some c := by
  have bound := c.lt
  have number : 0x10000 + (0xD800 + (c.val - 0x10000) / 0x400 - 0xD800) * 0x400
      + (0xDC00 + (c.val - 0x10000) % 0x400 - 0xDC00) = c.val := by omega
  simp only [pair?, highUnit, lowUnit, number, CodePoint.ofNat?, bound, dite_true]
  exact if_pos (by omega)

/-- The units of a text without surrogates are joined to the text again. -/
theorem joinPairs_units {t : Text} (h : t.HasNoSurrogate) : joinPairs (t.flatMap units) = t := by
  induction t with
  | nil => rfl
  | cons c r ih =>
      obtain ⟨here, below⟩ := List.forall_mem_cons.mp h
      rw [List.flatMap_cons, units]
      split
      · rw [List.singleton_append, joinPairs_cons here, ih below]
      · next large =>
          rw [List.cons_append, List.singleton_append, joinPairs, pair?_units large]
          exact congrArg (c :: ·) (ih below)

end Reading

section Ascii

/-- The characters are all in ASCII. -/
def IsAscii (cs : List Char) : Prop := ∀ c ∈ cs, c.toNat < 0x80

instance (cs : List Char) : Decidable (IsAscii cs) :=
  List.decidableBAll (fun c : Char => c.toNat < 0x80) cs

theorem IsAscii.append {cs ds : List Char} (hc : IsAscii cs) (hd : IsAscii ds) :
    IsAscii (cs ++ ds) := fun c mem => (List.mem_append.mp mem).elim (hc c) (hd c)

theorem IsAscii.cons {c : Char} {cs : List Char} (hc : c.toNat < 0x80) (hcs : IsAscii cs) :
    IsAscii (c :: cs) := List.forall_mem_cons.mpr ⟨hc, hcs⟩

theorem isAscii_unitEscape (n : Nat) : IsAscii (unitEscape n) := by
  have digit : ∀ d : Fin 16, (Nat.digitChar d).toNat < 0x80 := by decide
  have digits : IsAscii (hex4 n) := by
    intro c mem
    obtain ⟨d, inList, rfl⟩ := List.mem_map.mp mem
    have small : d < 16 := by
      simp only [List.mem_cons, List.not_mem_nil, or_false] at inList
      omega
    exact digit ⟨d, small⟩
  exact .cons (by decide) (.cons (by decide) digits)

theorem isAscii_escapePoint (c : CodePoint) : IsAscii (escapePoint c) := by
  have written := escaped_escapePoint c
  generalize escapePoint c = cs at written
  cases written with
  | letter _ ascii _ _ => exact .cons (by decide) (.cons ascii (by decide))
  | self printable =>
      have number := toNat_ofNat (n := c.val) (by omega)
      exact .cons (by omega) (by decide)
  | unit _ => exact isAscii_unitEscape _
  | pair _ => exact (isAscii_unitEscape _).append (isAscii_unitEscape _)

theorem isAscii_quote (t : Text) : IsAscii (quote t) := by
  have inside : IsAscii (t.flatMap escapePoint) := by
    intro c mem
    obtain ⟨d, -, inPoint⟩ := List.mem_flatMap.mp mem
    exact isAscii_escapePoint d c inPoint
  exact .cons (by decide) (inside.append (by decide))

end Ascii

end Json

end RouteAtlas
