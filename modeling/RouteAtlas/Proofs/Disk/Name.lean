import Mathlib.Algebra.GroupWithZero.Nat
import Mathlib.Tactic.Tauto
import RouteAtlas.Disk
import RouteAtlas.Proofs.Text.Pieces

/-!
# Names and their spelling

Spelling a text anew touches only escapes. It goes piece by piece, since a code point that is no
escape breaks off whatever escapes came before it, and it never makes an ASCII code point, since the
bytes of escapes are the long encodings of UTF-8.
-/

namespace RouteAtlas

/-- A text that a file tree can have as a name. -/
structure Name.IsProper (n : Text) : Prop where
  ne_nil : n ≠ []
  ne_dot : n ≠ Text.ofString "."
  ne_dots : n ≠ Text.ofString ".."
  slash : slash ∉ n
  nul : CodePoint.ofChar '\x00' ∉ n
  bytes : ∀ c ∈ n, c.hasBytes = true
  spelled : Name.respell n = n
  short : Name.size n ≤ Name.limit

instance (n : Text) : Decidable (Name.IsProper n) :=
  decidable_of_iff
    (n ≠ [] ∧ n ≠ Text.ofString "." ∧ n ≠ Text.ofString ".." ∧ slash ∉ n ∧
      CodePoint.ofChar '\x00' ∉ n ∧ (∀ c ∈ n, c.hasBytes = true) ∧ Name.respell n = n ∧
      Name.size n ≤ Name.limit)
    ⟨fun ⟨a, b, c, d, e, f, g, h⟩ => ⟨a, b, c, d, e, f, g, h⟩,
      fun ⟨a, b, c, d, e, f, g, h⟩ => ⟨a, b, c, d, e, f, g, h⟩⟩

namespace Utf8

/-- What is pending will be no ASCII code point: its bits, followed by the least bits that may come,
have more than seven digits. -/
def Pending.IsLong (p : Pending) : Prop :=
  0x80 ≤ p.least.toNat ∧ 0x80 ≤ (p.bits * 0x40 + (p.least.toNat - 0x80)) * 0x40 ^ (p.missing - 1)

theorem Pending.isLong_mk {missing bits : Nat} (greatest : UInt8)
    (h : 0x80 ≤ bits * 0x40 * 0x40 ^ (missing - 1)) :
    Pending.IsLong ⟨missing, 0x80, greatest, bits⟩ := by
  have least : (0x80 : UInt8).toNat - 0x80 = 0 := rfl
  refine ⟨Nat.le_refl _, ?_⟩
  rw [least, Nat.add_zero]
  exact h

theorem isLong_of_lead? {b : UInt8} {p : Pending} (h : lead? b = some p) : p.IsLong := by
  simp only [lead?, Bool.and_eq_true, decide_eq_true_eq, UInt8.le_iff_toNat_le, beq_iff_eq] at h
  split at h
  · next range =>
      have low : 0xC2 ≤ b.toNat := range.1
      obtain rfl := Option.some.inj h
      exact Pending.isLong_mk _ (by omega)
  · split at h
    · obtain rfl := Option.some.inj h
      exact ⟨by decide, by decide⟩
    · split at h
      · obtain rfl := Option.some.inj h
        exact ⟨by decide, by decide⟩
      · split at h
        · next range =>
            have low : 0xE1 ≤ b.toNat := range.1
            obtain rfl := Option.some.inj h
            exact Pending.isLong_mk _ (by omega)
        · split at h
          · obtain rfl := Option.some.inj h
            exact ⟨by decide, by decide⟩
          · split at h
            · obtain rfl := Option.some.inj h
              exact ⟨by decide, by decide⟩
            · split at h
              · next range =>
                  have low : 0xF1 ≤ b.toNat := range.1
                  obtain rfl := Option.some.inj h
                  exact Pending.isLong_mk _ (by omega)
              · simp at h

theorem start_long {b : UInt8} (high : 0x80 ≤ b.toNat) :
    (∀ p ∈ (start b).1, p.IsLong) ∧ ∀ point, some point ∉ (start b).2 := by
  have notAscii : ¬ b < 0x80 := by
    rw [UInt8.lt_iff_toNat_lt]
    exact Nat.not_lt.mpr high
  unfold start
  rw [if_neg notAscii]
  split
  · next p lead =>
      refine ⟨?_, by simp⟩
      intro q pending
      obtain rfl := Option.some.inj pending
      exact isLong_of_lead? lead
  · simp

/-- One more byte moves the bits on by six digits. -/
theorem Pending.IsLong.shift {p : Pending} (long : p.IsLong) (more : 1 < p.missing)
    (greatest : UInt8) {bits : Nat} (grown : p.bits * 0x40 + (p.least.toNat - 0x80) ≤ bits) :
    Pending.IsLong ⟨p.missing - 1, 0x80, greatest, bits⟩ := by
  obtain ⟨k, missing⟩ : ∃ k, p.missing = k + 2 := ⟨p.missing - 2, by omega⟩
  have enough := long.2
  rw [missing] at enough ⊢
  apply isLong_mk
  calc 0x80 ≤ (p.bits * 0x40 + (p.least.toNat - 0x80)) * 0x40 ^ (k + 1) := enough
    _ ≤ bits * 0x40 ^ (k + 1) := Nat.mul_le_mul_right _ grown
    _ = bits * 0x40 * 0x40 ^ k := by rw [Nat.pow_succ', Nat.mul_assoc]

/-- Bytes above ASCII make no ASCII code point. -/
theorem step_long {state : Option Pending} (long : ∀ p ∈ state, p.IsLong) {b : UInt8}
    (high : 0x80 ≤ b.toNat) :
    (∀ p ∈ (step state b).1, p.IsLong) ∧
      ∀ point, some point ∈ (step state b).2 → 0x80 ≤ point.val := by
  obtain ⟨longAfter, nothing⟩ := start_long high
  cases state with
  | none => exact ⟨longAfter, fun point out => absurd out (nothing point)⟩
  | some p =>
      have longBefore := long p rfl
      simp only [step]
      split
      · next range =>
          simp only [Bool.and_eq_true, decide_eq_true_eq, UInt8.le_iff_toNat_le] at range
          have grown :
              p.bits * 0x40 + (p.least.toNat - 0x80) ≤ p.bits * 0x40 + (b.toNat - 0x80) := by
            omega
          split
          · next last =>
              refine ⟨by simp, ?_⟩
              intro point out
              have bits : point.val = p.bits * 0x40 + (b.toNat - 0x80) := by
                simp only [List.mem_singleton, pointOfBits, CodePoint.ofNat?] at out
                split at out
                · obtain rfl := Option.some.inj out
                  rfl
                · simp at out
              have enough := longBefore.2
              have one : p.missing - 1 = 0 := by omega
              rw [one, Nat.pow_zero, Nat.mul_one] at enough
              omega
          · next notLast =>
              refine ⟨?_, by simp⟩
              intro q pending
              obtain rfl := Option.some.inj pending
              exact longBefore.shift (by omega) _ grown
      · refine ⟨longAfter, ?_⟩
        intro point out
        rcases List.mem_cons.mp out with broken | new
        · simp at broken
        · exact absurd new (nothing point)

end Utf8

namespace Name

theorem le_of_escapedByte? {c : CodePoint} {b : UInt8} (h : c.escapedByte? = some b) :
    0x80 ≤ b.toNat ∧ 0x80 ≤ c.val := by
  unfold CodePoint.escapedByte? at h
  split at h
  · next range =>
      obtain rfl := Option.some.inj h
      refine ⟨?_, by omega⟩
      rw [Nat.toUInt8_eq, UInt8.toNat_ofNat']
      omega
  · simp at h

theorem escapedByte?_of_lt {c : CodePoint} (h : c.val < 0x80) : c.escapedByte? = none := by
  unfold CodePoint.escapedByte?
  rw [if_neg]
  omega

section Respell

variable {state : Option Utf8.Pending} {held : Text}

/-- A code point that is no escape separates what is before it from what is after it. -/
theorem respellAfter_append (s : Text) {c : CodePoint} (plain : c.escapedByte? = none) (t : Text) :
    respellAfter state held (s ++ c :: t) = respellAfter state held s ++ c :: respell t := by
  induction s generalizing state held with
  | nil => simp [respellAfter, plain, respell]
  | cons d s ih =>
      rw [List.cons_append, respellAfter, respellAfter]
      split
      · simp [ih]
      · split <;> simp [ih]

theorem respell_append (s : Text) {c : CodePoint} (plain : c.escapedByte? = none) (t : Text) :
    respell (s ++ c :: t) = respell s ++ c :: respell t :=
  respellAfter_append s plain t

/-- A text without escapes is spelled as it is. -/
theorem respell_of_plain {t : Text} (plain : ∀ c ∈ t, c.escapedByte? = none) : respell t = t := by
  induction t with
  | nil => rfl
  | cons c t ih =>
      rw [List.forall_mem_cons] at plain
      have first := respell_append [] plain.1 t
      rw [List.nil_append, ih plain.2] at first
      exact first

/-- Plain code points after a text change nothing in its spelling. -/
theorem respell_append_plain (s : Text) {t : Text} (plain : ∀ c ∈ t, c.escapedByte? = none) :
    respell (s ++ t) = respell s ++ t := by
  cases t with
  | nil => simp
  | cons c t =>
      rw [List.forall_mem_cons] at plain
      rw [respell_append s plain.1, respell_of_plain plain.2]

/-- ASCII code points of a new spelling were there before. -/
theorem mem_of_mem_respellAfter (long : ∀ p ∈ state, p.IsLong) {t : Text} {x : CodePoint}
    (ascii : x.val < 0x80) (h : x ∈ respellAfter state held t) : x ∈ held ++ t := by
  induction t generalizing state held with
  | nil => simpa [respellAfter] using h
  | cons c t ih =>
      rw [respellAfter] at h
      split at h
      · rcases List.mem_append.mp h with h | h
        · exact List.mem_append_left _ h
        · rcases List.mem_cons.mp h with rfl | h
          · simp
          · have later := ih (by simp) h
            simp only [List.mem_append, List.mem_cons] at later ⊢
            tauto
      · next b escape =>
          obtain ⟨longAfter, points⟩ := Utf8.step_long long (le_of_escapedByte? escape).1
          split at h
          · next point step =>
              rcases List.mem_cons.mp h with rfl | h
              · have := points x (by simp [step])
                omega
              · have later := ih (by simp) h
                simp only [List.mem_append, List.mem_cons] at later ⊢
                tauto
          · rcases List.mem_append.mp h with h | h
            · exact List.mem_append_left _ h
            · rcases List.mem_cons.mp h with rfl | h
              · simp
              · have later := ih (by simp) h
                simp only [List.mem_append, List.mem_cons] at later ⊢
                tauto
          · next p step =>
              have later := ih (fun q pending => longAfter q (by rw [step]; exact pending)) h
              simp only [List.mem_append, List.mem_cons] at later ⊢
              tauto
          · next p out _ step =>
              rcases List.mem_append.mp h with h | h
              · exact List.mem_append_left _ h
              · have later := ih (fun q pending => longAfter q (by rw [step]; exact pending)) h
                simp only [List.mem_append, List.mem_cons] at later ⊢
                tauto

/-- Escapes leave something above ASCII behind. -/
theorem exists_mem_respellAfter (long : ∀ p ∈ state, p.IsLong) {t : Text} {x : CodePoint}
    (escape : x.escapedByte? ≠ none) (h : x ∈ held ++ t) :
    ∃ y ∈ respellAfter state held t, 0x80 ≤ y.val := by
  have above {c : CodePoint} (escape : c.escapedByte? ≠ none) : 0x80 ≤ c.val := by
    obtain ⟨b, escape⟩ := Option.ne_none_iff_exists'.mp escape
    exact (le_of_escapedByte? escape).2
  induction t generalizing state held with
  | nil => exact ⟨x, by simpa [respellAfter] using h, above escape⟩
  | cons c t ih =>
      rw [respellAfter]
      split
      · next plain =>
          rcases List.mem_append.mp h with inHeld | later
          · exact ⟨x, List.mem_append_left _ inHeld, above escape⟩
          · rcases List.mem_cons.mp later with rfl | later
            · exact absurd plain escape
            · obtain ⟨y, mem, high⟩ := @ih none [] (by simp) later
              exact ⟨y, List.mem_append_right _ (List.mem_cons_of_mem _ mem), high⟩
      · next b isEscape =>
          have high := (le_of_escapedByte? isEscape).2
          obtain ⟨longAfter, points⟩ := Utf8.step_long long (le_of_escapedByte? isEscape).1
          split
          · next point step => exact ⟨point, List.mem_cons_self, points point (by simp [step])⟩
          · exact ⟨c, by simp, high⟩
          · next p step =>
              apply ih (fun q pending => longAfter q (by rw [step]; exact pending))
              simpa using h
          · next p out _ step =>
              rcases List.mem_append.mp h with inHeld | later
              · exact ⟨x, List.mem_append_left _ inHeld, above escape⟩
              · have longNow : ∀ q ∈ some p, q.IsLong := fun q pending =>
                  longAfter q (by rw [step]; exact pending)
                obtain ⟨y, mem, high⟩ := @ih (some p) [c] longNow (by simpa using later)
                exact ⟨y, List.mem_append_right _ mem, high⟩

/-- A text whose new spelling is ASCII was spelled so. -/
theorem respell_of_ascii {t : Text} (ascii : ∀ c ∈ respell t, c.val < 0x80) : respell t = t := by
  apply respell_of_plain
  intro c mem
  cases escape : c.escapedByte? with
  | none => rfl
  | some b =>
      have isEscape : c.escapedByte? ≠ none := by simp [escape]
      obtain ⟨y, inText, high⟩ :=
        @exists_mem_respellAfter none [] (by simp) t c isEscape mem
      have low := ascii y inText
      omega

/-- Code points that are no escapes stay in a text. -/
theorem mem_respell_of_plain {t : Text} {c : CodePoint} (plain : c.escapedByte? = none)
    (mem : c ∈ t) : c ∈ respell t := by
  obtain ⟨s, r, rfl⟩ := List.append_of_mem mem
  rw [respell_append s plain]
  exact List.mem_append_right _ List.mem_cons_self

/-- Only an ASCII text itself is spelled so. -/
theorem respell_eq_iff_of_ascii {s t : Text} (ascii : ∀ c ∈ s, c.val < 0x80) :
    respell t = s ↔ t = s := by
  constructor
  · intro h
    rw [← h] at ascii
    exact (respell_of_ascii ascii).symm.trans h
  · rintro rfl
    exact respell_of_plain fun c mem => escapedByte?_of_lt (ascii c mem)

end Respell

/-- The name leads from a folder to something in it. -/
def IsPlain (n : Text) : Prop :=
  ¬ (n = [] ∨ n = Text.ofString ".") ∧ n ≠ Text.ofString ".."

theorem IsProper.isPlain {n : Text} (h : IsProper n) : IsPlain n :=
  ⟨not_or.mpr ⟨h.ne_nil, h.ne_dot⟩, h.ne_dots⟩

/-- How a name is spelled does not change where it leads from a folder. -/
theorem respell_stays_iff {n : Text} :
    (respell n = [] ∨ respell n = Text.ofString ".") ↔ n = [] ∨ n = Text.ofString "." := by
  rw [respell_eq_iff_of_ascii (by decide), respell_eq_iff_of_ascii (by decide)]

theorem isPlain_respell_iff {n : Text} : IsPlain (respell n) ↔ IsPlain n := by
  unfold IsPlain
  rw [respell_stays_iff, Ne, respell_eq_iff_of_ascii (by decide)]

end Name

end RouteAtlas
