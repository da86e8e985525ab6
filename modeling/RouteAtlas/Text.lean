/-!
# Text as code points

Text is a list of code points. A surrogate is a code point like any other here, since an escape in
a string literal can name one; only writing text as UTF-8 tells the difference.
-/

namespace RouteAtlas

/-- A Unicode code point, surrogates included. -/
@[ext]
structure CodePoint where
  val : Nat
  lt : val < 0x110000
deriving DecidableEq

/-- A text is the list of its code points. -/
abbrev Text := List CodePoint

namespace CodePoint

instance : Inhabited CodePoint := ⟨⟨0, by decide⟩⟩

/-- The code point with number `n`, if there is one. -/
def ofNat? (n : Nat) : Option CodePoint := if h : n < 0x110000 then some ⟨n, h⟩ else none

/-- The code point of a character. -/
def ofChar (c : Char) : CodePoint :=
  ⟨c.toNat, by
    have h := c.valid
    simp only [UInt32.isValidChar, Nat.isValidChar] at h
    show c.val.toNat < 0x110000
    omega⟩

instance : Coe Char CodePoint := ⟨ofChar⟩

/-- A surrogate stands for no character of its own. -/
def IsSurrogate (c : CodePoint) : Prop := 0xD800 ≤ c.val ∧ c.val ≤ 0xDFFF

instance (c : CodePoint) : Decidable c.IsSurrogate := inferInstanceAs (Decidable (_ ∧ _))

/-- The character of a code point that is no surrogate. -/
def toChar? (c : CodePoint) : Option Char :=
  if h : c.val.isValidChar then some (Char.ofNatAux c.val h) else none

/-- Lower case of the letters `A` to `Z`; every other code point stays as it is. -/
def asciiLower (c : CodePoint) : CodePoint :=
  if h : 0x41 ≤ c.val ∧ c.val ≤ 0x5A then ⟨c.val + 0x20, by omega⟩ else c

/-- The value of an ASCII decimal digit. -/
def asciiDigit? (c : CodePoint) : Option Nat :=
  if 0x30 ≤ c.val ∧ c.val ≤ 0x39 then some (c.val - 0x30) else none

end CodePoint

namespace Text

/-- The code points of a string. -/
def ofString (s : String) : Text := s.toList.map CodePoint.ofChar

instance : Coe String Text := ⟨ofString⟩

/-- The string with these code points, when none of them is a surrogate. -/
def toString? (t : Text) : Option String :=
  (t.mapM CodePoint.toChar?).map String.ofList

/-- The text `part` begins `t`. -/
def startsWith (t part : Text) : Bool := part.isPrefixOf t

/-- The text `part` ends `t`. -/
def endsWith (t part : Text) : Bool := part.isSuffixOf t

/-- The text `part` occurs somewhere in `t`; the empty text occurs everywhere. -/
def hasPart (part : Text) : Text → Bool
  | [] => part.isEmpty
  | c :: r => part.isPrefixOf (c :: r) || hasPart part r

/-- Removes the first occurrence of `part`. -/
def dropFirst (part : Text) : Text → Text
  | [] => []
  | c :: r => if part.isPrefixOf (c :: r) then (c :: r).drop part.length else c :: dropFirst part r

/-- Cuts a text at every `sep`; the pieces are one more than the separators. -/
def splitAt (sep : CodePoint) : Text → List Text
  | [] => [[]]
  | c :: r =>
    if c = sep then [] :: splitAt sep r
    else
      match splitAt sep r with
      | [] => [[c]]
      | piece :: pieces => (c :: piece) :: pieces

/-- Joins texts with `sep` between them. -/
def join (sep : Text) : List Text → Text
  | [] => []
  | [t] => t
  | t :: ts => t ++ sep ++ join sep ts

/-- Drops code points with property `p` at both ends. -/
def trimBy (p : CodePoint → Bool) (t : Text) : Text :=
  ((t.dropWhile p).reverse.dropWhile p).reverse

/-- The order of texts is by code point; a text comes after its beginnings. -/
def le : Text → Text → Bool
  | [], _ => true
  | _ :: _, [] => false
  | a :: s, b :: t => if a.val < b.val then true else if b.val < a.val then false else le s t

/-- Texts in ascending order. -/
def sort (ts : List Text) : List Text := ts.mergeSort le

/-- Lower case of the letters `A` to `Z`. -/
def asciiLower (t : Text) : Text := t.map CodePoint.asciiLower

/-- The digits of a natural number. -/
def ofNat (n : Nat) : Text := ofString (toString n)

/-- Every line end, written as CR LF, CR or LF, becomes LF. -/
def unifyLineEnds : Text → Text
  | [] => []
  | c :: r =>
    if c = '\r' then
      CodePoint.ofChar '\n' :: match r with
        | [] => []
        | d :: r' => if d = '\n' then unifyLineEnds r' else unifyLineEnds (d :: r')
    else c :: unifyLineEnds r

/-- Cutting loses nothing: the pieces joined again are the text. -/
theorem join_splitAt (sep : CodePoint) (t : Text) : join [sep] (splitAt sep t) = t := by
  have ne : ∀ s : Text, splitAt sep s ≠ [] := by
    intro s
    cases s with
    | nil => simp [splitAt]
    | cons c r =>
      by_cases h : c = sep
      · simp [splitAt, h]
      · simp only [splitAt, h, if_false]
        split <;> simp
  induction t with
  | nil => rfl
  | cons c r ih =>
    cases hs : splitAt sep r with
    | nil => exact absurd hs (ne r)
    | cons p ps =>
      rw [hs] at ih
      by_cases h : c = sep
      · simp only [splitAt, h, if_pos, hs, join, ih, List.nil_append, List.singleton_append]
      · simp only [splitAt, h, if_false, hs]
        cases ps with
        | nil => simp only [join] at ih ⊢; rw [ih]
        | cons q qs => simp only [join, List.cons_append] at ih ⊢; rw [ih]

end Text

end RouteAtlas
