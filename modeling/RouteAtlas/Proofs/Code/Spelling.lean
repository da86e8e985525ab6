import RouteAtlas.Code.Lowering
import RouteAtlas.Proofs.Code.Escape

/-!
# Spelling of texts

A text can be written as a string literal in many ways: each code point as it is, or as an escape of
one of several forms, and the lines of the literal may be broken anywhere. All spellings are read as
the text that they spell, surrogates included, which only an escape can name.
-/

namespace RouteAtlas

open Numeral

namespace Literal

/-- The letters that stand for control characters, with these. -/
def controls : List (CodePoint × CodePoint) :=
  [('n', '\n'), ('t', '\t'), ('r', '\r'), ('b', '\x08'), ('f', '\x0c'), ('v', '\x0b'),
    ('0', '\x00')]

/-- The code points that end a line. -/
def lineEnds : List CodePoint := ['\n', '\r', '\u2028', '\u2029']

/-- A backslash before the code point changes nothing. -/
structure IsPlain (c : CodePoint) : Prop where
  noSurrogate : ¬ c.IsSurrogate
  noControl : c ∉ controls.map Prod.fst
  noNumber : c ≠ 'x' ∧ c ≠ 'u'
  noDigit : c.asciiDigit? = none
  noLineEnd : c ∉ lineEnds

/-- An escape sequence spells a code point, or nothing where it breaks a line. -/
inductive Escapes : Text → Text → Prop
  | control {letter value : CodePoint} (h : (letter, value) ∈ controls) :
    Escapes [CodePoint.ofChar '\\', letter] [value]
  | plain {c : CodePoint} (h : IsPlain c) : Escapes [CodePoint.ofChar '\\', c] [c]
  | byte (ds : Digits) {c : CodePoint} (length : ds.length = 2) (value : ds.value 16 = c.val) :
    Escapes (CodePoint.ofChar '\\' :: CodePoint.ofChar 'x' :: ds.text) [c]
  | unit (ds : Digits) {c : CodePoint} (length : ds.length = 4) (value : ds.value 16 = c.val) :
    Escapes (CodePoint.ofChar '\\' :: CodePoint.ofChar 'u' :: ds.text) [c]
  | braced (ds : Digits) {c : CodePoint} (ne : ds ≠ []) (value : ds.value 16 = c.val) :
    Escapes (braced ds) [c]
  | lineBreak {lineEnd : Text} (h : lineEnd ∈ (["\n", "\r", "\r\n"] : List Text)) :
    Escapes (CodePoint.ofChar '\\' :: lineEnd) []

/-- Without braces there is nothing to trim. -/
theorem trimBy_text (ds : Digits) : Text.trimBy isBrace ds.text = ds.text := by
  have plain : ∀ c ∈ ds.text, isBrace c = false := fun _ => isBrace_of_mem_text
  have reversed : ∀ c ∈ ds.text.reverse, isBrace c = false :=
    fun c mem => plain c (List.mem_reverse.mp mem)
  rw [Text.trimBy, dropWhile_eq_self plain, dropWhile_eq_self reversed, List.reverse_reverse]

/-- Digits behind `x` or `u` name a code point, in braces or not. -/
theorem escape_number {head : CodePoint} (hexadecimal : head = 'u' ∨ head = 'x') {rest : Text}
    {ds : Digits} (digits : Text.trimBy isBrace rest = ds.text) (ne : ds ≠ []) {c : CodePoint}
    (value : ds.value 16 = c.val) :
    escape (CodePoint.ofChar '\\' :: head :: rest) = .ok [c] := by
  have point : CodePoint.ofNat? c.val = some c := dif_pos c.lt
  have inRange : ¬ ((c.val : Int) < -escapeBound ∨ escapeBound ≤ c.val) := by
    have := c.lt
    unfold escapeBound
    omega
  have positive : ¬ (c.val : Int) < 0 := by omega
  simp only [escape, List.drop_succ_cons, List.drop_zero, if_pos hexadecimal, digits,
    Digits.integer_text ds ne, value, if_neg inRange, if_neg positive, Int.toNat_natCast, point]

/-- Any other code point stands for a control character or for itself. -/
theorem escape_single {c : CodePoint} (noNumber : ¬ (c = 'u' ∨ c = 'x'))
    (noLineEnd : ¬ (c = '\n' ∨ c = '\r')) :
    escape [CodePoint.ofChar '\\', c] = .ok [(controlEscape? c).getD c] := by
  simp only [escape, List.drop_succ_cons, List.drop_zero, if_neg noNumber, if_neg noLineEnd]
  cases controlEscape? c <;> rfl

theorem IsPlain.escape_eq {c : CodePoint} (h : IsPlain c) :
    escape [CodePoint.ofChar '\\', c] = .ok [c] := by
  have noControl : controlEscape? c = none := by
    have letters := h.noControl
    simp only [controls, List.map_cons, List.map_nil, List.mem_cons, not_or] at letters
    simp [controlEscape?, letters]
  have noNumber : ¬ (c = 'u' ∨ c = 'x') := not_or.mpr h.noNumber.symm
  have noLineEnd : ¬ (c = '\n' ∨ c = '\r') := by
    rintro (rfl | rfl)
    · exact h.noLineEnd (by decide)
    · exact h.noLineEnd (by decide)
  rw [escape_single noNumber noLineEnd, noControl]
  rfl

/-- An escape sequence is read as what it spells. -/
theorem Escapes.escape_eq {sequence value : Text} (h : Escapes sequence value) :
    escape sequence = .ok value := by
  cases h with
  | control h =>
      have all : ∀ p ∈ controls, ¬ (p.1 = 'u' ∨ p.1 = 'x') ∧ ¬ (p.1 = '\n' ∨ p.1 = '\r') ∧
          controlEscape? p.1 = some p.2 := by decide
      obtain ⟨noNumber, noLineEnd, control⟩ := all _ h
      rw [escape_single noNumber noLineEnd, control]
      rfl
  | plain h => exact h.escape_eq
  | byte ds length value =>
      exact escape_number (.inr rfl) (trimBy_text _) (List.ne_nil_of_length_pos (by omega)) value
  | unit ds length value =>
      exact escape_number (.inl rfl) (trimBy_text _) (List.ne_nil_of_length_pos (by omega)) value
  | braced ds ne value => exact escape_number (.inl rfl) (trimBy_braced _) ne value
  | lineBreak h =>
      simp only [List.mem_cons, List.not_mem_nil, or_false] at h
      rcases h with rfl | rfl | rfl <;> rfl

end Literal

namespace Tree

variable (source : ByteArray)

/-- The children of a string node spell a text: each fragment is a piece of it, and each escape
sequence stands for what it spells. -/
inductive Spells : List Tree → Text → Prop
  | nil : Spells [] []
  | fragment {t rest value} (kind : t.kind = "string_fragment") (later : Spells rest value) :
    Spells (t :: rest) (t.text source ++ value)
  | escape {t rest here value} (kind : t.kind = "escape_sequence")
    (sequence : Literal.Escapes (t.text source) here) (later : Spells rest value) :
    Spells (t :: rest) (here ++ value)

/-- A string node is read as the text that its children spell. -/
theorem stringText_of_spells {t : Tree} {value : Text} (h : Spells source t.namedChildren value) :
    t.stringText source = .ok value ∧
      (t.kind = "string" → Expr.ofTree source t = .ok (.text value)) := by
  have pieces {ts : List Tree} (spells : Spells source ts value) : ∃ ps : List Text,
      (ts.mapM fun c =>
        if c.kind == "string_fragment" then .ok (c.text source)
        else if c.kind == "escape_sequence" then Literal.escape (c.text source)
        else .ok []) = .ok ps ∧ ps.flatten = value := by
    clear h
    induction spells with
    | nil => exact ⟨[], rfl, rfl⟩
    | @fragment c _ _ kind _ ih =>
        obtain ⟨ps, later, rfl⟩ := ih
        refine ⟨c.text source :: ps, ?_, List.flatten_cons⟩
        rw [List.mapM_cons, later]
        simp [kind, bind, Except.bind, pure, Except.pure]
    | @escape c _ here _ kind sequence _ ih =>
        obtain ⟨ps, later, rfl⟩ := ih
        refine ⟨here :: ps, ?_, List.flatten_cons⟩
        rw [List.mapM_cons, later]
        simp [kind, sequence.escape_eq, bind, Except.bind, pure, Except.pure]
  have read : t.stringText source = .ok value := by
    obtain ⟨ps, made, rfl⟩ := pieces h
    rw [stringText, made]
    rfl
  refine ⟨read, fun kind => ?_⟩
  obtain ⟨kind', named, role, start, stop, children⟩ := t
  obtain rfl : kind' = "string" := kind
  rw [Expr.ofTree]
  simp [read, Except.map]

/-- A string literal with a spelling of every kind. -/
def spelledSource : ByteArray := "'a\\n\\/\\x4a\\uD83D\\u\x7b0041\x7d\\\r\né'".toUTF8

def spelledString : Tree :=
  let child (kind : String) (start stop : Nat) : Tree := ⟨kind, true, none, start, stop, []⟩
  ⟨"string", true, none, 0, 30, [⟨"'", false, none, 0, 1, []⟩, child "string_fragment" 1 2,
    child "escape_sequence" 2 4, child "escape_sequence" 4 6, child "escape_sequence" 6 10,
    child "escape_sequence" 10 16, child "escape_sequence" 16 24, child "escape_sequence" 24 27,
    child "string_fragment" 27 29, ⟨"'", false, none, 29, 30, []⟩]⟩

theorem stringText_spelledString :
    Expr.ofTree spelledSource spelledString =
      .ok (.text (Text.ofString "a\n/J" ++ [⟨0xD83D, by decide⟩] ++ Text.ofString "Aé")) := by
  have named : Literal.Escapes (Text.ofString "\\n") (Text.ofString "\n") := .control (by decide)
  have slash : Literal.Escapes (Text.ofString "\\/") (Text.ofString "/") :=
    .plain ⟨by decide, by decide, by decide, by decide, by decide⟩
  have byte : Literal.Escapes (Text.ofString "\\x4a") (Text.ofString "J") :=
    .byte [(4, false), (10, false)] rfl rfl
  have unit : Literal.Escapes (Text.ofString "\\uD83D") [⟨0xD83D, by decide⟩] :=
    .unit [(13, true), (8, false), (3, false), (13, true)] rfl rfl
  have braced : Literal.Escapes (Text.ofString "\\u\x7b0041\x7d") (Text.ofString "A") :=
    .braced [(0, false), (0, false), (4, false), (1, false)] (by decide) rfl
  have lineBreak : Literal.Escapes (Text.ofString "\\\r\n") [] := .lineBreak (by decide)
  have escape {t : Tree} {rest : List Tree} {sequence here value : Text}
      (escapes : Literal.Escapes sequence here) (kind : t.kind = "escape_sequence")
      (text : t.text spelledSource = sequence) (later : Spells spelledSource rest value) :
      Spells spelledSource (t :: rest) (here ++ value) := .escape kind (text ▸ escapes) later
  have spells : Spells spelledSource spelledString.namedChildren _ :=
    .fragment rfl <| escape named rfl (by decide +kernel) <| escape slash rfl (by decide +kernel) <|
      escape byte rfl (by decide +kernel) <| escape unit rfl (by decide +kernel) <|
      escape braced rfl (by decide +kernel) <| escape lineBreak rfl (by decide +kernel) <|
      .fragment rfl .nil
  rw [(stringText_of_spells spelledSource spells).2 rfl]
  exact congrArg (fun value => Except.ok (Expr.text value)) (by decide +kernel)

end Tree

end RouteAtlas
