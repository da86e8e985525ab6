import RouteAtlas.Proofs.Json.Quoted
import RouteAtlas.Proofs.Number.Decimal

/-!
# Printed values are read back

What is printed for a value is ASCII, begins with no blank, and is read as that value, whatever
stands behind it, as long as that does not go on with a number. This holds for every value without
surrogates, reals and integers of too many digits, at every level of indentation.
-/

namespace RouteAtlas.Json

/-- Values that keep their meaning in the text of JSON. -/
inductive IsPortable : Json → Prop
  | null : IsPortable .null
  | bool (b : Bool) : IsPortable (.bool b)
  | int {n : Int} (short : (Nat.toDigits 10 n.natAbs).length ≤ Numeral.digitLimit) :
    IsPortable (.int n)
  | text {t : Text} (h : t.HasNoSurrogate) : IsPortable (.text t)
  | array {es : List Json} (h : ∀ e ∈ es, IsPortable e) : IsPortable (.array es)
  | object {ms : List (Text × Json)} (keys : ∀ m ∈ ms, m.1.HasNoSurrogate)
    (values : ∀ m ∈ ms, IsPortable m.2) : IsPortable (.object ms)

/-- A number does not go on with this text. -/
def EndsNumber (rest : Text) : Prop :=
  ∀ c ∈ rest.head?, isDigit c = false ∧ c ≠ '.' ∧ c ≠ 'e' ∧ c ≠ 'E'

/-- The characters are read as the value. -/
structure Written (j : Json) (cs : List Char) : Prop where
  ascii : IsAscii cs
  start : ∃ c rest, cs = c :: rest ∧ isGap c = false ∧ CodePoint.ofChar c ≠ ']'
  read : ∀ fuel rest, 2 * cs.length ≤ fuel → EndsNumber rest →
    readValue fuel (points cs ++ rest) = .ok (j, rest)

section Gaps

theorem mem_newline {level : Nat} {c : Char} (h : c ∈ newline level) : c = '\n' ∨ c = ' ' := by
  rcases List.mem_cons.mp h with first | blank
  · exact .inl first
  · exact .inr (List.mem_replicate.mp blank).2

theorem isGap_of_mem_newline {level : Nat} {c : CodePoint} (h : c ∈ points (newline level)) :
    isGap c = true := by
  obtain ⟨d, mem, rfl⟩ := List.mem_map.mp h
  rcases mem_newline mem with rfl | rfl <;> decide

theorem isAscii_newline (level : Nat) : IsAscii (newline level) := by
  intro c mem
  rcases mem_newline mem with rfl | rfl <;> decide

theorem skipGap_cons {c : CodePoint} (h : isGap c = false) (rest : Text) :
    skipGap (c :: rest) = c :: rest :=
  List.dropWhile_cons_of_neg (by simp [h])

/-- The blanks of a new line are skipped. -/
theorem skipGap_newline (level : Nat) {c : CodePoint} (h : isGap c = false) (rest : Text) :
    skipGap (points (newline level) ++ c :: rest) = c :: rest := by
  rw [skipGap, List.dropWhile_append_of_pos fun _ => isGap_of_mem_newline]
  exact skipGap_cons h rest

theorem endsNumber_newline (level : Nat) (rest : Text) :
    EndsNumber (points (newline level) ++ rest) := by
  intro c isHead
  obtain rfl : CodePoint.ofChar '\n' = c := Option.some.inj isHead
  decide

/-- A mark is found behind blanks, and only where it stands. -/
theorem readMark_newline (level : Nat) {c : CodePoint} (h : isGap c = false) (mark : CodePoint)
    (rest : Text) : readMark mark (points (newline level) ++ c :: rest) =
      if c = mark then .ok ((), rest) else .error .malformed := by
  rw [readMark, skipGap_newline level h]

end Gaps

section Numbers

theorem isDigit_digitChar : ∀ (d : Fin 16) (upper : Bool), d.val < 10 →
    isDigit (CodePoint.ofChar (Numeral.digitChar d upper)) = true := by
  decide

theorem isDigit_of_mem_text {ds : Numeral.Digits} (decimal : ∀ d ∈ ds, d.1.val < 10)
    {c : CodePoint} (h : c ∈ ds.text) : isDigit c = true := by
  obtain ⟨char, inChars, rfl⟩ := List.mem_map.mp h
  obtain ⟨d, mem, rfl⟩ := List.mem_map.mp inChars
  exact isDigit_digitChar d.1 d.2 (decimal d mem)

theorem digit_eq_zero : ∀ (d : Fin 16) (upper : Bool),
    CodePoint.ofChar (Numeral.digitChar d upper) = '0' → d.val = 0 := by
  decide

theorem takeWhile_text {ds : Numeral.Digits} (decimal : ∀ d ∈ ds, d.1.val < 10) {rest : Text}
    (ends : EndsNumber rest) :
    (ds.text ++ rest).takeWhile isDigit = ds.text ∧ (ds.text ++ rest).dropWhile isDigit = rest := by
  have digits : ∀ c ∈ ds.text, isDigit c = true := fun _ => isDigit_of_mem_text decimal
  rw [List.takeWhile_append_of_pos digits, List.dropWhile_append_of_pos digits]
  cases rest with
  | nil => simp
  | cons c r => simp [(ends c rfl).1]

/-- All digits of a number are taken: a leading zero stands alone. -/
theorem takeWhole_text {ds : Numeral.Digits} (decimal : ∀ d ∈ ds, d.1.val < 10)
    (alone : ∀ d tail, ds = d :: tail → d.1.val = 0 → tail = []) (ne : ds ≠ []) {rest : Text}
    (ends : EndsNumber rest) : takeWhole (ds.text ++ rest) = (ds.text, rest) := by
  obtain ⟨taken, left⟩ := takeWhile_text decimal ends
  cases ds with
  | nil => exact absurd rfl ne
  | cons d tail =>
      have cons : Numeral.Digits.text (d :: tail) ++ rest =
          CodePoint.ofChar (Numeral.digitChar d.1 d.2) :: (Numeral.Digits.text tail ++ rest) := rfl
      rw [cons] at taken left ⊢
      rw [takeWhole]
      split
      · next zero =>
          obtain rfl := alone d tail rfl (digit_eq_zero d.1 d.2 zero)
          rfl
      · rw [taken, left]

theorem takeFraction_of_endsNumber {rest : Text} (ends : EndsNumber rest) :
    takeFraction rest = ([], rest) := by
  cases rest with
  | nil => rfl
  | cons c r => simp [takeFraction, (ends c rfl).2.1]

theorem takeExponent_of_endsNumber {rest : Text} (ends : EndsNumber rest) :
    takeExponent rest = ([], rest) := by
  cases rest with
  | nil => rfl
  | cons c r => simp [takeExponent, (ends c rfl).2.2.1, (ends c rfl).2.2.2]

/-- Neither of the first two letters of a word is a digit. -/
theorem words_shape : ∀ w ∈ words, (w.1.take 2).length = 2 ∧
    ∀ c ∈ w.1.take 2, isDigit c = false := by
  decide +kernel

/-- The digits of a number begin with no word for another value. -/
theorem readPlain_signed (negative : Bool) {ds : Numeral.Digits}
    (decimal : ∀ d ∈ ds, d.1.val < 10) (ne : ds ≠ []) (rest : Text) :
    readPlain (Numeral.signed negative ds ++ rest) =
      readNumber (Numeral.signed negative ds ++ rest) := by
  have none : words.find? (fun w => (Numeral.signed negative ds ++ rest).startsWith w.1) =
      none := by
    rw [List.find?_eq_none]
    intro w mem begins
    -- one of the first two characters of a number is a digit
    obtain ⟨two, noDigit⟩ := words_shape w mem
    have early : w.1.take 2 <+: Numeral.signed negative ds ++ rest :=
      (List.take_prefix 2 w.1).trans (List.isPrefixOf_iff_prefix.mp begins)
    obtain ⟨a, b, first⟩ : ∃ a b, w.1.take 2 = [a, b] := by
      match w.1.take 2, two with
      | [a, b], _ => exact ⟨a, b, rfl⟩
    rw [first] at early noDigit
    cases ds with
    | nil => exact absurd rfl ne
    | cons d tail =>
        have digit := isDigit_digitChar d.1 d.2 (decimal d List.mem_cons_self)
        have same : a = CodePoint.ofChar (Numeral.digitChar d.1 d.2) ∨
            b = CodePoint.ofChar (Numeral.digitChar d.1 d.2) := by
          cases negative with
          | true => exact .inr (List.cons_prefix_cons.mp (List.cons_prefix_cons.mp early).2).1
          | false => exact .inl (List.cons_prefix_cons.mp early).1
        rcases same with rfl | rfl
        · exact absurd digit (by simp [noDigit])
        · exact absurd digit (by simp [noDigit])
  rw [readPlain, none]

theorem digit_ne_minus : ∀ (d : Fin 16) (upper : Bool),
    CodePoint.ofChar (Numeral.digitChar d upper) ≠ '-' := by
  decide

/-- The text of an integer within the digit limit is read as the integer. -/
theorem readNumber_signed (negative : Bool) {ds : Numeral.Digits}
    (decimal : ∀ d ∈ ds, d.1.val < 10)
    (alone : ∀ d tail, ds = d :: tail → d.1.val = 0 → tail = []) (ne : ds ≠ [])
    (short : ds.length ≤ Numeral.digitLimit) {rest : Text} (ends : EndsNumber rest) :
    readNumber (Numeral.signed negative ds ++ rest) =
      .ok (.int (if negative then -(ds.value 10 : Int) else ds.value 10), rest) := by
  have whole := takeWhole_text decimal alone ne ends
  have textNe : ds.text ≠ [] := by
    simpa [Numeral.Digits.text, Numeral.Digits.chars] using ne
  have value := Numeral.integer_signed negative decimal ne short
  cases negative with
  | true =>
      have shape : Numeral.signed true ds ++ rest =
          CodePoint.ofChar '-' :: (ds.text ++ rest) := rfl
      have value : Numeral.integer 10 ([CodePoint.ofChar '-'] ++ ds.text) = _ := value
      simp only [readNumber, shape, if_true, whole, textNe, if_false,
        takeFraction_of_endsNumber ends, takeExponent_of_endsNumber ends, and_self, value]
  | false =>
      have shape : Numeral.signed false ds ++ rest = ds.text ++ rest := rfl
      have value : Numeral.integer 10 ([] ++ ds.text) = _ := value
      cases ds with
      | nil => exact absurd rfl ne
      | cons d tail =>
          have first : Numeral.Digits.text (d :: tail) ++ rest =
              CodePoint.ofChar (Numeral.digitChar d.1 d.2) :: (Numeral.Digits.text tail ++ rest) :=
            rfl
          rw [first] at shape whole
          simp only [readNumber, shape, digit_ne_minus, whole, textNe, if_true, if_false,
            takeFraction_of_endsNumber ends, takeExponent_of_endsNumber ends, and_self, value]

end Numbers

section Leaves

/-- A character that begins no text, array or object leaves the value to words and numbers. -/
theorem readValue_plain {c : CodePoint} (h : c ≠ '"' ∧ c ≠ '[' ∧ c ≠ '\x7b') (fuel : Nat)
    (rest : Text) : readValue (fuel + 1) (c :: rest) = readPlain (c :: rest) := by
  simp only [readValue, h, if_false]

theorem toChar?_ofChar (c : Char) : (CodePoint.ofChar c).toChar? = some c := by
  have valid : (CodePoint.ofChar c).val.isValidChar := c.valid
  rw [CodePoint.toChar?, dif_pos valid]
  rfl

theorem filterMap_toChar?_points (cs : List Char) :
    (points cs).filterMap CodePoint.toChar? = cs := by
  induction cs with
  | nil => rfl
  | cons c r ih => rw [points_cons, List.filterMap_cons_some (toChar?_ofChar c), ih]

/-- A visible ASCII character that begins no text, array or object, and ends no array. -/
def IsPlain (c : Char) : Prop :=
  c.toNat < 0x80 ∧ isGap c = false ∧ CodePoint.ofChar c ≠ ']' ∧
    CodePoint.ofChar c ≠ '"' ∧ CodePoint.ofChar c ≠ '[' ∧ CodePoint.ofChar c ≠ '\x7b'

instance (c : Char) : Decidable (IsPlain c) := inferInstanceAs (Decidable (_ ∧ _))

instance (cs : List Char) : Decidable (∀ c ∈ cs, IsPlain c) := List.decidableBAll IsPlain cs

theorem isPlain_digitChar : ∀ (d : Fin 16) (upper : Bool), IsPlain (Numeral.digitChar d upper) := by
  decide

/-- What begins plainly and is read as a word or a number is read as a value. -/
theorem Written.of_readPlain {j : Json} {cs : List Char} (ne : cs ≠ [])
    (plain : ∀ c ∈ cs, IsPlain c)
    (read : ∀ rest, EndsNumber rest → readPlain (points cs ++ rest) = .ok (j, rest)) :
    Written j cs := by
  cases cs with
  | nil => exact absurd rfl ne
  | cons c r =>
      obtain ⟨-, noGap, noEnd, noText, noArray, noObject⟩ := plain c List.mem_cons_self
      refine ⟨fun d mem => (plain d mem).1, ⟨c, r, rfl, noGap, noEnd⟩, ?_⟩
      intro fuel rest enough ends
      cases fuel with
      | zero => simp at enough
      | succ fuel =>
          rw [← read rest ends]
          exact readValue_plain ⟨noText, noArray, noObject⟩ fuel _

theorem written_null : Written .null "null".toList :=
  .of_readPlain (by decide) (by decide) fun _ _ => rfl

theorem written_bool (b : Bool) : Written (.bool b) (if b then "true" else "false").toList := by
  cases b with
  | true => exact .of_readPlain (by decide) (by decide) fun _ _ => rfl
  | false => exact .of_readPlain (by decide) (by decide) fun _ _ => rfl

/-- A sign, if there is one, in front of digits. -/
def signedChars (negative : Bool) (ds : Numeral.Digits) : List Char :=
  (if negative then ['-'] else []) ++ ds.chars

theorem points_signedChars (negative : Bool) (ds : Numeral.Digits) :
    points (signedChars negative ds) = Numeral.signed negative ds := by
  cases negative <;> rfl

theorem isPlain_of_mem_signedChars {negative : Bool} {ds : Numeral.Digits} {c : Char}
    (h : c ∈ signedChars negative ds) : IsPlain c := by
  rcases List.mem_append.mp h with sign | digit
  · split at sign
    · obtain rfl := List.mem_singleton.mp sign
      decide
    · exact absurd sign List.not_mem_nil
  · obtain ⟨d, -, rfl⟩ := List.mem_map.mp digit
    exact isPlain_digitChar d.1 d.2

theorem printInt_eq {n : Int} (short : (Nat.toDigits 10 n.natAbs).length ≤ Numeral.digitLimit)
    {ds : Numeral.Digits} (chars : ds.chars = Nat.toDigits 10 n.natAbs) :
    printInt n = .ok (signedChars (decide (n < 0)) ds) := by
  have fits : ¬ Numeral.digitLimit < (Nat.toDigits 10 n.natAbs).length := Nat.not_lt.mpr short
  rw [printInt, Numeral.decimal?, if_neg fits, Numeral.ofString_toString n chars,
    ← points_signedChars]
  exact congrArg Except.ok (filterMap_toChar?_points _)

theorem sign_natAbs (n : Int) : (if decide (n < 0) then -(n.natAbs : Int) else n.natAbs) = n := by
  by_cases negative : n < 0
  · rw [if_pos (decide_eq_true negative)]
    omega
  · rw [if_neg (by simpa using negative)]
    omega

theorem written_int {n : Int} (short : (Nat.toDigits 10 n.natAbs).length ≤ Numeral.digitLimit) :
    ∃ cs, printInt n = .ok cs ∧ Written (.int n) cs := by
  obtain ⟨ds, chars, decimal, value, alone⟩ :=
    Numeral.Digits.exists_toDigits (by decide : 2 ≤ 10) (by decide) n.natAbs
  have ne : ds ≠ [] := by
    rintro rfl
    exact Nat.toDigits_ne_nil chars.symm
  have few : ds.length ≤ Numeral.digitLimit := by
    rwa [← chars, Numeral.Digits.chars, List.length_map] at short
  refine ⟨_, printInt_eq short chars, .of_readPlain ?_ ?_ ?_⟩
  · simp [signedChars, Numeral.Digits.chars, ne]
  · exact fun _ => isPlain_of_mem_signedChars
  · intro rest ends
    rw [points_signedChars, readPlain_signed _ decimal ne,
      readNumber_signed _ decimal alone ne few ends, value, sign_natAbs]

theorem points_quote (t rest : Text) : points (quote t) ++ rest =
    CodePoint.ofChar '"' :: (points (t.flatMap escapePoint) ++ CodePoint.ofChar '"' :: rest) := by
  simp [quote, points]

theorem written_text {t : Text} (h : t.HasNoSurrogate) : Written (.text t) (quote t) where
  ascii := isAscii_quote t
  start := ⟨_, _, rfl, by decide, by decide⟩
  read
    | 0, _, enough, _ => absurd enough (by simp [quote])
    | fuel + 1, rest, _, _ => by
      rw [points_quote, readValue, if_pos rfl, readQuoted_flatMap_escapePoint]
      simp only [Except.map, joinPairs_units h]

end Leaves

section Containers

/-- A character that ends no number, and is no blank. -/
def IsMark (c : Char) : Prop :=
  isGap c = false ∧ isDigit c = false ∧
    CodePoint.ofChar c ≠ '.' ∧ CodePoint.ofChar c ≠ 'e' ∧ CodePoint.ofChar c ≠ 'E'

instance (c : Char) : Decidable (IsMark c) := inferInstanceAs (Decidable (_ ∧ _))

theorem endsNumber_cons {c : Char} (h : IsMark c) (rest : Text) :
    EndsNumber (CodePoint.ofChar c :: rest) := by
  intro d isHead
  obtain rfl : CodePoint.ofChar c = d := Option.some.inj isHead
  exact h.2

theorem readMark_self (c : Char) (h : isGap c = false) (rest : Text) :
    readMark c (CodePoint.ofChar c :: rest) = .ok ((), rest) := by
  rw [readMark, skipGap_cons h]
  exact if_pos rfl

/-- Blanks in front of what is written are skipped, and no array ends there. -/
theorem Written.skipGap_newline {j : Json} {cs : List Char} (h : Written j cs) (level : Nat)
    (rest : Text) :
    skipGap (points (newline level) ++ (points cs ++ rest)) = points cs ++ rest := by
  obtain ⟨c, r, rfl, noGap, -⟩ := h.start
  exact Json.skipGap_newline level noGap _

theorem Written.readMark_newline {j : Json} {cs : List Char} (h : Written j cs) (level : Nat)
    (rest : Text) :
    readMark ']' (points (newline level) ++ (points cs ++ rest)) = .error .malformed := by
  obtain ⟨c, r, rfl, noGap, noEnd⟩ := h.start
  exact (Json.readMark_newline level noGap _ _).trans (if_neg noEnd)

/-- What follows an element decides whether it is the last one. -/
theorem readElements_written {fuel : Nat} {behind : Text} {e : Json} {first : List Char}
    (written : Written e first) (enough : 2 * first.length ≤ fuel) (ends : EndsNumber behind) :
    readElements (fuel + 1) (points first ++ behind) =
      match readMark ',' behind with
      | .ok (_, rest) => (readElements fuel (skipGap rest)).map fun (es, rest) => (e :: es, rest)
      | .error _ => (readMark ']' behind).map fun (_, rest) => ([e], rest) := by
  simp only [readElements, bind, Except.bind, written.read fuel behind enough ends]
  cases readMark (CodePoint.ofChar ',') behind <;> rfl

/-- The elements behind a first one are read together with it, up to the closing bracket. -/
theorem readElements_printElements (level : Nat) {es : List Json}
    (h : ∀ e ∈ es, ∃ cs, printAt level e = .ok cs ∧ Written e cs) :
    ∃ cs, printElements level es = .ok cs ∧ IsAscii cs ∧
      ∀ fuel e first outer rest, Written e first → 2 * first.length + 2 * cs.length + 1 ≤ fuel →
        readElements fuel (points first ++ (points cs ++ (points (newline outer) ++
          CodePoint.ofChar ']' :: rest))) = .ok (e :: es, rest) := by
  have bracket : isGap (CodePoint.ofChar ']') = false := by decide
  -- the first element is any, so that the next one can take its place
  induction es with
  | nil =>
      refine ⟨[], rfl, by decide, ?_⟩
      intro fuel e first outer rest written enough
      obtain ⟨fuel, rfl⟩ : ∃ n, fuel = n + 1 := ⟨fuel - 1, by omega⟩
      have noComma := readMark_newline outer bracket ',' rest
      have close := readMark_newline outer bracket ']' rest
      rw [if_neg (by decide)] at noComma
      rw [if_pos rfl] at close
      have enough : 2 * first.length ≤ fuel := by omega
      have step := readElements_written written enough
        (endsNumber_newline outer (CodePoint.ofChar ']' :: rest))
      rw [noComma, close] at step
      exact step
  | cons e' es ih =>
      obtain ⟨⟨first', printed', written'⟩, below⟩ := List.forall_mem_cons.mp h
      obtain ⟨cs, printed, ascii, reads⟩ := ih below
      refine ⟨',' :: newline level ++ first' ++ cs, ?_, ?_, ?_⟩
      · rw [printElements, printed', printed]
        rfl
      · exact .append (.append (.cons (by decide) (isAscii_newline level)) written'.ascii) ascii
      intro fuel e first outer rest written enough
      obtain ⟨fuel, rfl⟩ : ∃ n, fuel = n + 1 := ⟨fuel - 1, by omega⟩
      simp only [List.length_append, List.length_cons] at enough
      simp only [points_append, points_cons, List.cons_append, List.append_assoc]
      rw [readElements_written written (by omega) (endsNumber_cons (by decide) _),
        readMark_self ',' (by decide)]
      simp only [written'.skipGap_newline]
      rw [reads fuel e' first' outer rest written' (by omega)]
      rfl

/-- A key, a colon and what is written for a value. -/
def memberText (k : Text) (first : List Char) : List Char := quote k ++ ':' :: ' ' :: first

theorem isAscii_memberText (k : Text) {v : Json} {first : List Char} (written : Written v first) :
    IsAscii (memberText k first) :=
  (isAscii_quote k).append (.cons (by decide) (.cons (by decide) written.ascii))

theorem points_memberText (k : Text) (first : List Char) (rest : Text) :
    points (memberText k first) ++ rest =
      CodePoint.ofChar '"' :: (points (k.flatMap escapePoint) ++ CodePoint.ofChar '"' ::
        CodePoint.ofChar ':' :: CodePoint.ofChar ' ' :: (points first ++ rest)) := by
  simp [memberText, points_append, points_cons, points_quote]

/-- What follows a member decides whether it is the last one. -/
theorem readMembers_written {fuel : Nat} {k behind : Text} {v : Json} {first : List Char}
    (key : k.HasNoSurrogate) (written : Written v first) (enough : 2 * first.length ≤ fuel)
    (ends : EndsNumber behind) :
    readMembers (fuel + 1) (points (memberText k first) ++ behind) =
      match readMark ',' behind with
      | .ok (_, rest) =>
        (readMembers fuel (skipGap rest)).map fun (ms, rest) => ((k, v) :: ms, rest)
      | .error _ => (readMark '\x7d' behind).map fun (_, rest) => ([(k, v)], rest) := by
  have blank : skipGap (CodePoint.ofChar ' ' :: (points first ++ behind)) =
      points first ++ behind := by
    obtain ⟨c, r, rfl, noGap, -⟩ := written.start
    exact skipGap_cons (c := CodePoint.ofChar c) noGap _
  simp only [points_memberText, readMembers, bind, Except.bind, readMark_self '"' (by decide),
    readQuoted_flatMap_escapePoint, readMark_self ':' (by decide), blank,
    written.read fuel behind enough ends, joinPairs_units key]
  cases readMark (CodePoint.ofChar ',') behind <;> rfl

/-- The members behind a first one are read together with it, up to the closing brace. -/
theorem readMembers_printMembers (level : Nat) {ms : List (Text × Json)}
    (keys : ∀ m ∈ ms, m.1.HasNoSurrogate)
    (h : ∀ m ∈ ms, ∃ cs, printAt level m.2 = .ok cs ∧ Written m.2 cs) :
    ∃ cs, printMembers level ms = .ok cs ∧ IsAscii cs ∧
      ∀ fuel k v first outer rest, k.HasNoSurrogate → Written v first →
        2 * first.length + 2 * cs.length + 1 ≤ fuel →
          readMembers fuel (points (memberText k first) ++ (points cs ++ (points (newline outer) ++
            CodePoint.ofChar '\x7d' :: rest))) = .ok ((k, v) :: ms, rest) := by
  have brace : isGap (CodePoint.ofChar '\x7d') = false := by decide
  have quoteMark : isGap (CodePoint.ofChar '"') = false := by decide
  induction ms with
  | nil =>
      refine ⟨[], rfl, by decide, ?_⟩
      intro fuel k v first outer rest key written enough
      obtain ⟨fuel, rfl⟩ : ∃ n, fuel = n + 1 := ⟨fuel - 1, by omega⟩
      have noComma := readMark_newline outer brace ',' rest
      have close := readMark_newline outer brace '\x7d' rest
      rw [if_neg (by decide)] at noComma
      rw [if_pos rfl] at close
      have enough : 2 * first.length ≤ fuel := by omega
      have step := readMembers_written key written enough
        (endsNumber_newline outer (CodePoint.ofChar '\x7d' :: rest))
      rw [noComma, close] at step
      exact step
  | cons m ms ih =>
      obtain ⟨⟨first', printed', written'⟩, below⟩ := List.forall_mem_cons.mp h
      obtain ⟨key', keysBelow⟩ := List.forall_mem_cons.mp keys
      obtain ⟨cs, printed, ascii, reads⟩ := ih keysBelow below
      refine ⟨',' :: newline level ++ memberText m.1 first' ++ cs, ?_, ?_, ?_⟩
      · rw [printMembers, printed', printed]
        simp only [memberText, List.append_assoc]
        rfl
      · exact .append (.append (.cons (by decide) (isAscii_newline level))
          (isAscii_memberText m.1 written')) ascii
      intro fuel k v first outer rest key written enough
      obtain ⟨fuel, rfl⟩ : ∃ n, fuel = n + 1 := ⟨fuel - 1, by omega⟩
      simp only [List.length_append, List.length_cons, memberText] at enough
      simp only [points_append, points_cons, List.cons_append, List.append_assoc]
      rw [readMembers_written key written (by omega) (endsNumber_cons (by decide) _),
        readMark_self ',' (by decide)]
      have next (behind : Text) :
          skipGap (points (newline level) ++ (points (memberText m.1 first') ++ behind)) =
            points (memberText m.1 first') ++ behind := by
        rw [points_memberText]
        exact skipGap_newline level quoteMark _
      simp only [next]
      rw [reads fuel m.1 m.2 first' outer rest key' written' (by omega)]
      rfl

theorem written_array {level : Nat} {es : List Json}
    (h : ∀ e ∈ es, ∃ cs, printAt (level + 1) e = .ok cs ∧ Written e cs) :
    ∃ cs, printAt level (.array es) = .ok cs ∧ Written (.array es) cs := by
  cases es with
  | nil =>
      refine ⟨_, rfl, by decide, ⟨_, _, rfl, by decide, by decide⟩, ?_⟩
      intro fuel rest enough _
      obtain ⟨fuel, rfl⟩ : ∃ n, fuel = n + 1 := ⟨fuel - 1, by simp at enough; omega⟩
      rfl
  | cons e es =>
      obtain ⟨⟨first, printed, written⟩, below⟩ := List.forall_mem_cons.mp h
      obtain ⟨cs, printedAll, ascii, reads⟩ := readElements_printElements (level + 1) below
      have bracket : IsAscii [']'] := by decide
      refine ⟨'[' :: newline (level + 1) ++ first ++ cs ++ newline level ++ [']'], ?_, ?_,
        ⟨_, _, rfl, by decide, by decide⟩, ?_⟩
      · rw [printAt, printed, printedAll]
        rfl
      · exact .append (.append (.append (.append (.cons (by decide) (isAscii_newline _))
          written.ascii) ascii) (isAscii_newline _)) bracket
      intro fuel rest enough _
      obtain ⟨fuel, rfl⟩ : ∃ n, fuel = n + 1 := ⟨fuel - 1, by simp at enough; omega⟩
      simp only [List.length_append, List.length_cons] at enough
      -- the array does not end at once: its first element begins with another character
      have mark : CodePoint.ofChar '[' ≠ CodePoint.ofChar '"' := by decide
      have elements := reads fuel e first level rest written (by omega)
      simp only [points_append, points_cons, List.cons_append, List.append_assoc, readValue, mark,
        if_true, if_false, written.readMark_newline, written.skipGap_newline]
      exact congrArg (Except.map fun (es, rest) => (Json.array es, rest)) elements

theorem written_object {level : Nat} {ms : List (Text × Json)}
    (keys : ∀ m ∈ ms, m.1.HasNoSurrogate)
    (h : ∀ m ∈ ms, ∃ cs, printAt (level + 1) m.2 = .ok cs ∧ Written m.2 cs) :
    ∃ cs, printAt level (.object ms) = .ok cs ∧ Written (.object ms) cs := by
  cases ms with
  | nil =>
      refine ⟨_, rfl, by decide, ⟨_, _, rfl, by decide, by decide⟩, ?_⟩
      intro fuel rest enough _
      obtain ⟨fuel, rfl⟩ : ∃ n, fuel = n + 1 := ⟨fuel - 1, by simp at enough; omega⟩
      rfl
  | cons m ms =>
      obtain ⟨⟨first, printed, written⟩, below⟩ := List.forall_mem_cons.mp h
      obtain ⟨key, keysBelow⟩ := List.forall_mem_cons.mp keys
      obtain ⟨cs, printedAll, ascii, reads⟩ :=
        readMembers_printMembers (level + 1) keysBelow below
      have brace : IsAscii ['\x7d'] := by decide
      refine ⟨'\x7b' :: newline (level + 1) ++ memberText m.1 first ++ cs ++ newline level ++
        ['\x7d'], ?_, ?_, ⟨_, _, rfl, by decide, by decide⟩, ?_⟩
      · rw [printAt, printed, printedAll]
        simp only [memberText, List.append_assoc]
        rfl
      · exact .append (.append (.append (.append (.cons (by decide) (isAscii_newline _))
          (isAscii_memberText m.1 written)) ascii) (isAscii_newline _)) brace
      intro fuel rest enough _
      obtain ⟨fuel, rfl⟩ : ∃ n, fuel = n + 1 := ⟨fuel - 1, by simp at enough; omega⟩
      simp only [List.length_append, List.length_cons, memberText] at enough
      have noText : CodePoint.ofChar '\x7b' ≠ CodePoint.ofChar '"' := by decide
      have noArray : CodePoint.ofChar '\x7b' ≠ CodePoint.ofChar '[' := by decide
      have noEnd : CodePoint.ofChar '"' ≠ CodePoint.ofChar '\x7d' := by decide
      have members := reads fuel m.1 m.2 first level rest key written (by omega)
      have quoteMark : isGap (CodePoint.ofChar '"') = false := by decide
      rw [points_memberText] at members
      simp only [points_append, points_cons, List.cons_append, List.append_assoc, readValue, noText,
        noArray, if_true, if_false, points_memberText, readMark_newline _ quoteMark,
        skipGap_newline _ quoteMark, noEnd]
      exact congrArg (Except.map fun (ms, rest) => (Json.object ms, rest)) members

end Containers

/-- A portable value is printed at every level, and what is printed is read as the value. -/
theorem IsPortable.written {j : Json} (h : IsPortable j) (level : Nat) :
    ∃ cs, printAt level j = .ok cs ∧ Written j cs := by
  induction h generalizing level with
  | null => exact ⟨_, rfl, written_null⟩
  | bool b => exact ⟨_, rfl, written_bool b⟩
  | int short => exact written_int short
  | text h => exact ⟨_, rfl, written_text h⟩
  | array _ ih => exact written_array fun e mem => ih e mem (level + 1)
  | object keys _ ih => exact written_object keys fun m mem => ih m mem (level + 1)

/-- A portable value is printed in ASCII, and reading what is printed gives it back. -/
theorem IsPortable.read_print {j : Json} (h : IsPortable j) :
    ∃ s, j.print = .ok s ∧ IsAscii s.toList ∧ read (Text.ofString s) = .ok j := by
  obtain ⟨cs, printed, written⟩ := h.written 0
  refine ⟨String.ofList cs, ?_, ?_, ?_⟩
  · rw [print, printed]
    rfl
  · rw [String.toList_ofList]
    exact written.ascii
  · obtain ⟨c, r, shape, noGap, -⟩ := written.start
    have start : skipGap (points cs) = points cs := by
      rw [shape]
      exact skipGap_cons noGap _
    have whole := written.read (2 * (points cs).length + 1) [] (by simp [points]) nofun
    rw [List.append_nil] at whole
    rw [Text.ofString, String.toList_ofList]
    change read (points cs) = _
    simp only [read, start, whole, bind, Except.bind]
    rfl

end RouteAtlas.Json
