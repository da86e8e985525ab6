import Mathlib.Data.Nat.Digits.Defs
import RouteAtlas.Code.Lowering
import RouteAtlas.Proofs.Number.Decimal

/-!
# Integer literals

An integer is written in one of four bases, with separators between its digits and perhaps an `n`
behind them. Whatever the base and however many digits there are, the literal keeps its exact value;
only in base ten there is a limit on the digits.
-/

namespace RouteAtlas

open Numeral

/-- The bases of integer literals. All but ten are named by a letter, in either case. -/
inductive Radix
  | decimal
  | hexadecimal (upper : Bool)
  | octal (upper : Bool)
  | binary (upper : Bool)

namespace Radix

def base : Radix → Nat
  | decimal => 10
  | hexadecimal _ => 16
  | octal _ => 8
  | binary _ => 2

/-- What names the base in front of the digits. -/
def mark : Radix → List Char
  | decimal => []
  | hexadecimal upper => ['0', if upper then 'X' else 'x']
  | octal upper => ['0', if upper then 'O' else 'o']
  | binary upper => ['0', if upper then 'B' else 'b']

/-- The mark of a base is plain ASCII. -/
theorem plain_mark (r : Radix) :
    ∀ c ∈ r.mark, CodePoint.ofChar c ≠ CodePoint.ofChar '_' ∧
      CodePoint.ofChar c ≠ CodePoint.ofChar 'n' ∧ toAscii [CodePoint.ofChar c] = [c] ∧
      isAsciiBlank c = false := by
  cases r with
  | decimal => nofun
  | hexadecimal upper | octal upper | binary upper =>
      refine List.forall_mem_cons.mpr ⟨by decide, List.forall_mem_singleton.mpr ?_⟩
      cases upper <;> decide

/-- All bases but ten are read off their marks. -/
theorem eq_decimal_or (r : Radix) : r = decimal ∨
    ∃ letter, r.mark = ['0', letter] ∧ namedBase? letter = some r.base := by
  cases r with
  | decimal => exact .inl rfl
  | hexadecimal upper => exact .inr ⟨_, rfl, by cases upper <;> rfl⟩
  | octal upper => exact .inr ⟨_, rfl, by cases upper <;> rfl⟩
  | binary upper => exact .inr ⟨_, rfl, by cases upper <;> rfl⟩

theorem base_bounds (r : Radix) : 2 ≤ r.base ∧ r.base ≤ 16 := by
  cases r <;> simp [base]

end Radix

/-- An integer literal: the first digit, the others with a separator before them or none, and
whether an `n` ends the literal. Without a base name a zero comes first only if it stands alone, and
the digits keep to the limit. -/
structure IntegerLiteral where
  radix : Radix
  first : Fin 16 × Bool
  rest : List (Bool × Fin 16 × Bool)
  isBig : Bool
  inBase : ∀ d ∈ first :: rest.map Prod.snd, d.1.val < radix.base
  unpadded : radix = .decimal → first.1.val = 0 → rest = []
  short : radix = .decimal → rest.length < digitLimit

namespace IntegerLiteral

/-- The digits with the separators before them. -/
def separated (l : IntegerLiteral) : List (Bool × Fin 16 × Bool) := (false, l.first) :: l.rest

def digits (l : IntegerLiteral) : Digits := l.separated.map Prod.snd

/-- The `n` at the end, if there is one. -/
def suffix (l : IntegerLiteral) : List Char := if l.isBig then ['n'] else []

/-- The literal as it is written. -/
def text (l : IntegerLiteral) : Text :=
  (l.radix.mark
    ++ l.separated.flatMap (fun d => (if d.1 then ['_'] else []) ++ [digitChar d.2.1 d.2.2])
    ++ l.suffix).map CodePoint.ofChar

/-- The number that the literal is written for. -/
def value (l : IntegerLiteral) : Nat :=
  Nat.ofDigits l.radix.base (l.digits.map (·.1.val)).reverse

/-- Reading digits from the left gives the number that they stand for. -/
theorem value_digits (l : IntegerLiteral) : l.digits.value l.radix.base = l.value := by
  rw [value, Nat.ofDigits_eq_foldr, List.foldr_reverse, List.foldl_map, Digits.value,
    Digits.valueAfter]
  congr 1
  funext value d
  exact (Nat.add_comm _ _).trans (congrArg _ (Nat.mul_comm _ _))

/-- Without separators the digits stand directly behind one another. -/
theorem filter_text (l : IntegerLiteral) :
    l.text.filter (· ≠ CodePoint.ofChar '_') =
      (l.radix.mark ++ l.digits.chars ++ l.suffix).map CodePoint.ofChar := by
  have digit (d : Fin 16) (upper : Bool) :
      CodePoint.ofChar (digitChar d upper) ≠ CodePoint.ofChar '_' := by
    revert d upper
    decide
  have suffix : ∀ c ∈ l.suffix, CodePoint.ofChar c ≠ CodePoint.ofChar '_' := by
    unfold suffix
    split
    · exact List.forall_mem_singleton.mpr (by decide)
    · nofun
  have kept {cs : List Char} (h : ∀ c ∈ cs, CodePoint.ofChar c ≠ CodePoint.ofChar '_') :
      (cs.map CodePoint.ofChar).filter (· ≠ CodePoint.ofChar '_') = cs.map CodePoint.ofChar := by
    rw [List.filter_eq_self, List.forall_mem_map]
    exact fun c mem => decide_eq_true (h c mem)
  have digits (ds : List (Bool × Fin 16 × Bool)) :
      ((ds.flatMap fun d => (if d.1 then ['_'] else []) ++ [digitChar d.2.1 d.2.2]).map
        CodePoint.ofChar).filter (· ≠ CodePoint.ofChar '_') =
          (Digits.chars (ds.map Prod.snd)).map CodePoint.ofChar := by
    induction ds with
    | nil => rfl
    | cons d rest ih =>
        obtain ⟨separated, d⟩ := d
        rw [List.flatMap_cons, List.map_append, List.filter_append, ih]
        cases separated <;> simp [digit, Digits.chars]
  rw [text, List.map_append, List.map_append, List.filter_append, List.filter_append, digits,
    kept fun c mem => (l.radix.plain_mark c mem).1, kept suffix, List.map_append, List.map_append]
  rfl

/-- Neither a base name nor a digit looks like the `n` at the end. -/
theorem getLast?_digits (l : IntegerLiteral) :
    ((l.radix.mark ++ l.digits.chars).map CodePoint.ofChar).getLast? ≠
      some (CodePoint.ofChar 'n') := by
  have digit (d : Fin 16) (upper : Bool) :
      CodePoint.ofChar (digitChar d upper) ≠ CodePoint.ofChar 'n' := by
    revert d upper
    decide
  intro last
  obtain ⟨c, mem, eq⟩ := List.mem_map.mp (List.mem_of_getLast? last)
  rcases List.mem_append.mp mem with inMark | inDigits
  · exact (l.radix.plain_mark c inMark).2.1 eq
  · obtain ⟨d, upper, rfl⟩ := Digits.mem_chars inDigits
    exact digit d upper eq

/-- The digits are read as the number that they stand for. -/
theorem magnitude_digits (l : IntegerLiteral) :
    magnitude l.radix.base l.digits.chars = .ok l.value := by
  have few : ¬ (l.radix.base = 10 ∧ digitLimit < l.digits.length) := by
    rintro ⟨ten, many⟩
    have decimal : l.radix = .decimal := by
      cases radix : l.radix with
      | decimal => rfl
      | hexadecimal _ | octal _ | binary _ =>
          rw [radix] at ten
          cases ten
    have short := l.short decimal
    simp only [digits, separated, List.length_cons, List.length_map] at many
    omega
  have read := Digits.digits?_chars l.radix.base l.digits l.inBase (List.cons_ne_nil _ _)
  rw [magnitude, read]
  simp only [if_neg few, value_digits]

theorem toAscii_map {cs : List Char} (h : ∀ c ∈ cs, toAscii [CodePoint.ofChar c] = [c]) :
    toAscii (cs.map CodePoint.ofChar) = cs := by
  induction cs with
  | nil => rfl
  | cons c rest ih =>
      obtain ⟨first, rest⟩ := List.forall_mem_cons.mp h
      exact congrArg₂ (· ++ ·) first (ih rest)

/-- Without a suffix, blanks or a sign the literal is read from the name of its base on. -/
theorem anyInteger_digits (l : IntegerLiteral) :
    anyInteger ((l.radix.mark ++ l.digits.chars).map CodePoint.ofChar) = .ok (l.value : Int) := by
  have visible : ∀ c ∈ l.radix.mark ++ l.digits.chars, isAsciiBlank c = false :=
    List.forall_mem_append.mpr ⟨fun c mem => (l.radix.plain_mark c mem).2.2.2,
      fun c mem => Digits.isAsciiBlank_of_mem_chars mem⟩
  have ascii : toAscii ((l.radix.mark ++ l.digits.chars).map CodePoint.ofChar) =
      l.radix.mark ++ l.digits.chars := by
    refine toAscii_map (List.forall_mem_append.mpr
      ⟨fun c mem => (l.radix.plain_mark c mem).2.2.1, fun c mem => ?_⟩)
    obtain ⟨d, upper, rfl⟩ := Digits.mem_chars mem
    exact toAscii_digitChar d upper
  have noSeparator : afterBase l.digits.chars = l.digits.chars := by
    unfold afterBase
    split
    · next start =>
        exact absurd (List.cons.inj start).1 (digitChar_ne_underscore l.first.1 l.first.2)
    · rfl
  have unsigned : splitSign (l.radix.mark ++ l.digits.chars) =
      (false, l.radix.mark ++ l.digits.chars) := by
    cases l.radix with
    | decimal => exact Digits.splitSign_chars l.digits
    | hexadecimal _ | octal _ | binary _ => rfl
  have read := l.magnitude_digits
  rw [anyInteger, ascii, trim_eq_self visible, unsigned]
  rcases l.radix.eq_decimal_or with decimal | ⟨letter, mark, name⟩
  · rw [decimal] at read ⊢
    simp only [Radix.mark, List.nil_append, Bool.false_eq_true, if_false]
    split
    · next c r start =>
        -- a zero would stand in front of another digit
        obtain ⟨zero, more⟩ := List.cons.inj start
        have first : ∀ (d : Fin 16) (upper : Bool), digitChar d upper = '0' → d.val = 0 := by
          decide
        have alone := l.unpadded decimal (first _ _ zero)
        rw [alone] at more
        cases more
    · rw [show magnitude 10 l.digits.chars = .ok l.value from read]
      rfl
  · simp only [mark, List.cons_append, List.nil_append, name, noSeparator]
    rw [read]
    rfl

/-- An integer literal is lowered to the integer that it is written for. -/
theorem number_text (l : IntegerLiteral) :
    Literal.number l.text = .int l.value ∧
      ∀ (source : ByteArray) (t : Tree), t.kind = "number" → t.text source = l.text →
        Expr.ofTree source t = .ok (.literal .number (.int l.value)) := by
  have number : Literal.number l.text = .int l.value := by
    have cut : (if ((l.radix.mark ++ l.digits.chars ++ l.suffix).map CodePoint.ofChar).getLast? =
          some (CodePoint.ofChar 'n') then
        ((l.radix.mark ++ l.digits.chars ++ l.suffix).map CodePoint.ofChar).dropLast
        else (l.radix.mark ++ l.digits.chars ++ l.suffix).map CodePoint.ofChar) =
        (l.radix.mark ++ l.digits.chars).map CodePoint.ofChar := by
      unfold suffix
      cases l.isBig with
      | false => simp only [Bool.false_eq_true, if_false, List.append_nil, l.getLast?_digits]
      | true =>
          simp only [if_true, List.map_append, List.map_singleton, List.getLast?_concat,
            List.dropLast_concat]
    simp only [Literal.number, filter_text, cut, anyInteger_digits]
  refine ⟨number, fun source t kind text => ?_⟩
  obtain ⟨kind', named, role, start, stop, children⟩ := t
  obtain rfl : kind' = "number" := kind
  rw [Expr.ofTree]
  simp [text, number]

/-- Every natural number has a literal in every base, but in base ten only up to the limit. -/
theorem exists_value (r : Radix) (n : Nat)
    (short : r = .decimal → (Nat.toDigits 10 n).length ≤ digitLimit) :
    ∃ l : IntegerLiteral, l.radix = r ∧ l.value = n := by
  obtain ⟨ds, chars, inBase, value, alone⟩ :=
    Digits.exists_toDigits r.base_bounds.1 r.base_bounds.2 n
  cases ds with
  | nil => exact absurd chars.symm Nat.toDigits_ne_nil
  | cons first rest =>
      have plain : (rest.map (Prod.mk false)).map Prod.snd = rest := by
        rw [List.map_map]
        exact List.map_id rest
      let l : IntegerLiteral :=
        { radix := r, first := first, rest := rest.map (Prod.mk false), isBig := false
          inBase := by rwa [plain]
          unpadded := fun _ zero => by rw [alone first rest rfl zero, List.map_nil]
          short := fun decimal => by
            have length := congrArg List.length chars
            have limit := short decimal
            rw [decimal] at length
            simp only [Digits.chars, List.length_map, List.length_cons, Radix.base] at length ⊢
            omega }
      have digits : l.digits = first :: rest := congrArg (first :: ·) plain
      refine ⟨l, rfl, ?_⟩
      rw [← l.value_digits, digits]
      exact value

/-- The least positive integer that is no 64 bit floating point number, in a spelling with
everything that a spelling may have. -/
def precise : IntegerLiteral where
  radix := .hexadecimal true
  first := (0, false)
  rest := [(true, 2, false), (false, 0, false), (true, 0, false), (false, 0, false),
    (false, 0, false), (false, 0, false), (true, 0, false), (false, 0, false), (false, 0, false),
    (false, 0, false), (true, 0, false), (false, 0, false), (false, 0, false), (false, 1, false)]
  isBig := true
  inBase := by decide
  unpadded := nofun
  short := nofun

theorem number_text_precise :
    Expr.ofTree "0X0_20_0000_0000_0001n".toUTF8 ⟨"number", true, none, 0, 22, []⟩ =
      .ok (.literal .number (.int 9007199254740993)) := by
  have value : precise.value = 9007199254740993 := by decide +kernel
  have lowered := (number_text precise).2 "0X0_20_0000_0000_0001n".toUTF8
    ⟨"number", true, none, 0, 22, []⟩ rfl (by decide +kernel)
  rw [value] at lowered
  exact lowered

end IntegerLiteral

end RouteAtlas
