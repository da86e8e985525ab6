import Mathlib.Algebra.GroupWithZero.Nat
import RouteAtlas.Proofs.Json.Quoted
import RouteAtlas.Text.Upper
import RouteAtlas.Text.Utf8

/-!
# Texts without surrogates

A text can be written as UTF-8 exactly when it holds no surrogate. Reading bytes never makes one,
however broken they are: whatever is pending, no way to go on leads to a surrogate.
-/

namespace RouteAtlas

theorem CodePoint.not_isSurrogate_ofChar (c : Char) : ¬ (CodePoint.ofChar c).IsSurrogate := by
  have valid := c.valid
  simp only [UInt32.isValidChar, Nat.isValidChar] at valid
  show ¬ (0xD800 ≤ c.val.toNat ∧ c.val.toNat ≤ 0xDFFF)
  omega

namespace Text

theorem hasNoSurrogate_ofString (s : String) : (ofString s).HasNoSurrogate := by
  intro c mem
  obtain ⟨char, -, rfl⟩ := List.mem_map.mp mem
  exact CodePoint.not_isSurrogate_ofChar char

theorem hasNoSurrogate_cons {c : CodePoint} {t : Text} :
    HasNoSurrogate (c :: t) ↔ ¬ c.IsSurrogate ∧ t.HasNoSurrogate :=
  List.forall_mem_cons

theorem hasNoSurrogate_append {s t : Text} :
    HasNoSurrogate (s ++ t) ↔ s.HasNoSurrogate ∧ t.HasNoSurrogate :=
  List.forall_mem_append

theorem HasNoSurrogate.of_subset {s t : Text} (h : t.HasNoSurrogate) (sub : s ⊆ t) :
    s.HasNoSurrogate :=
  fun c mem => h c (sub mem)

end Text

namespace Utf8

theorem exists_encode?_iff (t : Text) : (∃ bytes, encode? t = some bytes) ↔ t.HasNoSurrogate := by
  simp only [encode?, Text.HasNoSurrogate]
  split
  · next surrogate => simpa using surrogate
  · next none => simpa using none

/-- The bytes of two texts, one after the other, are those of the whole text. -/
theorem encode?_append {s t : Text} {a b : ByteArray} (first : encode? s = some a)
    (second : encode? t = some b) : encode? (s ++ t) = some (a ++ b) := by
  have bytes {t : Text} {a : ByteArray} (h : encode? t = some a) : a = encodeLoose t := by
    unfold encode? at h
    split at h
    · cases h
    · exact (Option.some.inj h).symm
  obtain ⟨all, encoded⟩ := (exists_encode?_iff (s ++ t)).mpr (Text.hasNoSurrogate_append.mpr
    ⟨(exists_encode?_iff s).mp ⟨a, first⟩, (exists_encode?_iff t).mp ⟨b, second⟩⟩)
  rw [encoded, bytes encoded, bytes first, bytes second]
  refine congrArg some (ByteArray.ext ?_)
  rw [ByteArray.data_append]
  simp only [encodeLoose, List.flatMap_append, List.append_toArray]

/-! ## Reading -/

/-- However the pending bits go on, no surrogate comes out: the greatest way to go on stays below
the surrogates, or the least is above them. -/
def Pending.Avoids (p : Pending) : Prop :=
  (p.bits * 0x40 + (p.greatest.toNat - 0x80) + 1) * 0x40 ^ (p.missing - 1) ≤ 0xD800 ∨
    0xE000 ≤ (p.bits * 0x40 + (p.least.toNat - 0x80)) * 0x40 ^ (p.missing - 1)

instance : DecidablePred Pending.Avoids := fun _ => inferInstanceAs (Decidable (_ ∨ _))

theorem avoids_of_lead? {b : UInt8} {p : Pending} (h : lead? b = some p) : p.Avoids := by
  have all : ∀ n : Fin 256, ∀ p ∈ lead? (UInt8.ofNat n), p.Avoids := by decide +kernel
  have same : UInt8.ofNat b.toNat = b := UInt8.ofNat_toNat
  exact all ⟨b.toNat, b.toNat_lt⟩ p (by rw [same]; exact h)

/-- A state whose pending bits avoid the surrogates, and pieces without them. -/
def IsClean (r : Option Pending × List Piece) : Prop :=
  (∀ p ∈ r.1, p.Avoids) ∧ ∀ c, some c ∈ r.2 → ¬ c.IsSurrogate

theorem val_of_pointOfBits {n : Nat} {c : CodePoint} (h : pointOfBits n = some c) : c.val = n := by
  unfold pointOfBits CodePoint.ofNat? at h
  split at h
  · obtain rfl := Option.some.inj h
    rfl
  · cases h

theorem isClean_start (b : UInt8) : IsClean (start b) := by
  unfold start
  split
  · next ascii =>
      refine ⟨by simp, fun c mem surrogate => ?_⟩
      have number := val_of_pointOfBits (List.mem_singleton.mp mem).symm
      rw [UInt8.lt_iff_toNat_lt] at ascii
      have low : b.toNat < 0x80 := ascii
      have high := surrogate.1
      omega
  · split
    · next p lead =>
        refine ⟨fun q pending => ?_, by simp⟩
        obtain rfl := Option.some.inj pending
        exact avoids_of_lead? lead
    · exact ⟨by simp, by simp⟩

/-- Six more bits narrow the ways to go on. -/
theorem Pending.Avoids.shift {p : Pending} (h : p.Avoids) (more : 1 < p.missing) {next : Nat}
    (least : p.least.toNat - 0x80 ≤ next) (greatest : next ≤ p.greatest.toNat - 0x80) :
    Pending.Avoids ⟨p.missing - 1, 0x80, 0xBF, p.bits * 0x40 + next⟩ := by
  obtain ⟨k, missing⟩ : ∃ k, p.missing = k + 2 := ⟨p.missing - 2, by omega⟩
  have power : 0x40 ^ (p.missing - 1) = 0x40 * 0x40 ^ (p.missing - 1 - 1) := by
    rw [missing]
    exact Nat.pow_succ'
  have tail : (0xBF : UInt8).toNat - 0x80 = 0x3F ∧ (0x80 : UInt8).toNat - 0x80 = 0 := ⟨rfl, rfl⟩
  simp only [Avoids, tail, power] at h ⊢
  generalize 0x40 ^ (p.missing - 1 - 1) = scale at h
  refine h.imp (fun below => ?_) fun above => ?_
  · calc ((p.bits * 0x40 + next) * 0x40 + 0x3F + 1) * scale
        = (p.bits * 0x40 + next + 1) * (0x40 * scale) := by
          rw [← Nat.mul_assoc]
          congr 1
          omega
      _ ≤ (p.bits * 0x40 + (p.greatest.toNat - 0x80) + 1) * (0x40 * scale) :=
          Nat.mul_le_mul_right _ (by omega)
      _ ≤ 0xD800 := below
  · calc 0xE000 ≤ (p.bits * 0x40 + (p.least.toNat - 0x80)) * (0x40 * scale) := above
      _ ≤ (p.bits * 0x40 + next) * (0x40 * scale) := Nat.mul_le_mul_right _ (by omega)
      _ = ((p.bits * 0x40 + next) * 0x40 + 0) * scale := by rw [← Nat.mul_assoc, Nat.add_zero]

theorem isClean_step {state : Option Pending} (h : ∀ p ∈ state, p.Avoids) (b : UInt8) :
    IsClean (step state b) := by
  cases state with
  | none => exact isClean_start b
  | some p =>
      have avoids := h p rfl
      simp only [step]
      split
      · next range =>
          simp only [Bool.and_eq_true, decide_eq_true_eq, UInt8.le_iff_toNat_le] at range
          split
          · next last =>
              refine ⟨by simp, fun c mem surrogate => ?_⟩
              have number := val_of_pointOfBits (List.mem_singleton.mp mem).symm
              have one : p.missing - 1 = 0 := by omega
              unfold Pending.Avoids at avoids
              rw [one, Nat.pow_zero, Nat.mul_one, Nat.mul_one] at avoids
              have low := surrogate.1
              have high := surrogate.2
              omega
          · next notLast =>
              refine ⟨fun q pending => ?_, by simp⟩
              obtain rfl := Option.some.inj pending
              exact avoids.shift (by omega) (by omega) (by omega)
      · obtain ⟨pending, points⟩ := isClean_start b
        exact ⟨pending, by simpa using points⟩

theorem foldl_invariant {β : Type} {P : β → Prop} {f : β → UInt8 → β}
    (step : ∀ acc b, P acc → P (f acc b)) (bytes : ByteArray) {acc : β} (h : P acc) :
    P (bytes.foldl f acc) := by
  have loop (stop : Nat) (inside : stop ≤ bytes.size) (i j : Nat) (acc : β) (h : P acc) :
      P (ByteArray.foldlM.loop (m := Id) f bytes stop inside i j acc) := by
    induction i generalizing j acc with
    | zero =>
        unfold ByteArray.foldlM.loop
        split <;> exact h
    | succ i ih =>
        unfold ByteArray.foldlM.loop
        split
        · exact ih _ _ (step _ _ h)
        · exact h
  unfold ByteArray.foldl ByteArray.foldlM
  split
  · exact loop _ _ _ _ _ h
  · exact loop _ _ _ _ _ h

theorem not_isSurrogate_of_mem_pieces {bytes : ByteArray} {c : CodePoint}
    (h : some c ∈ pieces bytes) : ¬ c.IsSurrogate := by
  let add (acc : Option Pending × Array Piece) (b : UInt8) : Option Pending × Array Piece :=
    ((step acc.1 b).1, (step acc.1 b).2.foldl Array.push acc.2)
  have kept (acc : Option Pending × Array Piece) (b : UInt8)
      (h : IsClean (acc.1, acc.2.toList)) : IsClean ((add acc b).1, (add acc b).2.toList) := by
    obtain ⟨pending, points⟩ := isClean_step h.1 b
    refine ⟨pending, fun c mem => ?_⟩
    have added : some c ∈ acc.2.toList ∨ some c ∈ (step acc.1 b).2 := by simpa [add] using mem
    exact added.elim (h.2 c) (points c)
  have start : IsClean (none, (#[] : Array Piece).toList) := ⟨by simp, by simp⟩
  have clean : IsClean ((bytes.foldl add (none, #[])).1, (bytes.foldl add (none, #[])).2.toList) :=
    foldl_invariant (β := Option Pending × Array Piece)
      (P := fun acc => IsClean (acc.1, acc.2.toList)) kept bytes start
  refine clean.2 c ?_
  rcases List.mem_append.mp h with point | broken
  · exact point
  · split at broken <;> simp at broken

theorem hasNoSurrogate_decodeDropping (bytes : ByteArray) :
    (decodeDropping bytes).HasNoSurrogate := by
  intro c mem
  obtain ⟨piece, inPieces, mem⟩ := List.mem_flatMap.mp mem
  cases piece with
  | none => cases mem
  | some d =>
      obtain rfl := List.mem_singleton.mp mem
      exact not_isSurrogate_of_mem_pieces inPieces

end Utf8

end RouteAtlas
