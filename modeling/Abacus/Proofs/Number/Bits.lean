import Abacus.Number
import Mathlib

/-!
# Numbers and their patterns

A number is known from its sign and its pattern. The bits of a number up to infinity are the only
ones that stand for it, and only those above it are many patterns for no value. Negation changes
the sign and keeps the pattern.

## Main results

* `Abacus.Number.ofPattern_pattern` — a number without a sign is the number of its pattern.
* `Abacus.Number.pattern_ofPattern` — the number of a pattern has this pattern.
* `Abacus.Number.eq_iff` — a number is known from its sign and its pattern.
* `Abacus.Number.pattern_neg`, `Abacus.Number.isNegative_neg` — what negation does.
-/

namespace Abacus.Number

open Float.Model (Format)
open Float.Model.UnpackedFloat

/-! ## Bits -/

/-- The exponent stands behind the sign. -/
lemma unpackExponent_toNat (b : BitVec Format.binary64.numBits) :
    (unpackExponent b).toNat = b.toNat / 2 ^ 52 % 2 ^ 11 := by
  show (b.toNat >>> 52) % 2 ^ 11 = _
  rw [Nat.shiftRight_eq_div_pow]

/-- The mantissa is what the bits end with. -/
lemma unpackMantissa_toNat (b : BitVec Format.binary64.numBits) :
    (unpackMantissa b).toNat = b.toNat % 2 ^ 52 := by
  show (b.toNat >>> 0) % 2 ^ 52 = _
  rw [Nat.shiftRight_zero]

/-! ## Patterns -/

variable {x y : Float} {p : Nat}

/-- Valid bits are the bits of their number. -/
lemma toBits_ofBits {bits : UInt64} (h : Format.binary64.Valid bits.toBitVec) :
    (Float.ofBits bits).toBits = bits := by
  show UInt64.ofBitVec (pack .binary64 (unpack .binary64 bits.toBitVec)) = bits
  rw [pack_unpack_of_valid h]

/-- The bits of a pattern up to infinity are valid, since larger patterns only stand for no
value. -/
lemma valid_of_le {b : BitVec Format.binary64.numBits} (hb : b.toNat ≤ infinitePattern) :
    Format.binary64.Valid b := by
  refine ⟨fun hexp hmant => absurd (BitVec.eq_of_toNat_eq ?_) hmant⟩
  have he : b.toNat / 2 ^ 52 % 2 ^ 11 = 2 ^ 11 - 1 := by
    rw [← unpackExponent_toNat, hexp]
    rfl
  rw [unpackMantissa_toNat]
  rw [infinitePattern] at hb
  show b.toNat % 2 ^ 52 = 0
  omega

/-- The number of a pattern up to infinity has the pattern as its bits. -/
lemma toNat_toBits_ofPattern (hp : p ≤ infinitePattern) : (ofPattern p).toBits.toNat = p := by
  have hbits : (UInt64.ofNat p).toNat = p := by
    rw [infinitePattern] at hp
    rw [UInt64.toNat_ofNat']
    omega
  have hvalid : Format.binary64.Valid (UInt64.ofNat p).toBitVec :=
    valid_of_le (hbits.symm ▸ hp : (UInt64.ofNat p).toNat ≤ infinitePattern)
  rw [ofPattern, toBits_ofBits hvalid, hbits]

/-- The number of a pattern up to infinity has this pattern. -/
theorem pattern_ofPattern (hp : p ≤ infinitePattern) : pattern (ofPattern p) = p := by
  rw [pattern, toNat_toBits_ofPattern hp]
  rw [infinitePattern] at hp
  omega

/-- The number of a pattern up to infinity has no sign. -/
theorem isNegative_ofPattern (hp : p ≤ infinitePattern) : isNegative (ofPattern p) = false := by
  rw [isNegative, toNat_toBits_ofPattern hp, decide_eq_false_iff_not]
  rw [infinitePattern] at hp
  omega

/-- A number without a sign is the number of its pattern. -/
theorem ofPattern_pattern (hx : isNegative x = false) : ofPattern (pattern x) = x := by
  rw [isNegative, decide_eq_false_iff_not] at hx
  rw [pattern, Nat.mod_eq_of_lt (by omega), ofPattern, UInt64.ofNat_toNat, Float.ofBits_toBits]

/-! ## Signs -/

/-- The bits of a number are its sign and its pattern. -/
lemma toBits_toNat (x : Float) :
    x.toBits.toNat = (if isNegative x then 2 ^ 63 else 0) + pattern x := by
  have hlt : x.toBits.toNat < 2 ^ 64 := x.toBits.toNat_lt
  rw [pattern, isNegative]
  split <;> rename_i h <;> rw [decide_eq_true_eq] at h <;> omega

/-- A number is known from its sign and its pattern. -/
theorem eq_iff : x = y ↔ isNegative x = isNegative y ∧ pattern x = pattern y := by
  refine ⟨fun h => h ▸ ⟨rfl, rfl⟩, fun ⟨hsign, hpattern⟩ => ?_⟩
  rw [← Float.toBits_inj, ← UInt64.toNat_inj, toBits_toNat, toBits_toNat, hsign, hpattern]

/-- The sign stands before all other bits. -/
lemma packComponents_toNat (s : Sign) (exponent : BitVec 11) (mantissa : BitVec 52) :
    (packComponents .binary64 s exponent mantissa).toNat =
      s.toBitVec.toNat * 2 ^ 63 + (exponent.toNat * 2 ^ 52 + mantissa.toNat) := by
  have hmantissa : mantissa.toNat < 2 ^ 52 := mantissa.isLt
  have hexponent : exponent.toNat < 2 ^ 11 := exponent.isLt
  show ((s.toBitVec ++ exponent) ++ mantissa).toNat = _
  rw [BitVec.toNat_append, BitVec.toNat_append, ← Nat.shiftLeft_add_eq_or_of_lt hmantissa,
    ← Nat.shiftLeft_add_eq_or_of_lt hexponent, Nat.shiftLeft_eq, Nat.shiftLeft_eq]
  omega

/-- What has a value is packed with its sign before bits that do not depend on it. -/
lemma exists_packComponents_neg {u : Float.Model.UnpackedFloat} (h : u ≠ .notANumber) :
    ∃ s exponent mantissa, pack .binary64 u = packComponents .binary64 s exponent mantissa ∧
      pack .binary64 u.neg = packComponents .binary64 (-s) exponent mantissa := by
  cases u with
  | notANumber => exact absurd rfl h
  | infinity s => exact ⟨s, _, _, rfl, rfl⟩
  | zero s => exact ⟨s, _, _, rfl, rfl⟩
  | finite s m e hm =>
    rw [neg, pack, pack]
    dsimp only
    split
    · exact ⟨s, _, _, rfl, rfl⟩
    · split
      · exact ⟨s, _, _, rfl, rfl⟩
      · exact ⟨s, _, _, rfl, rfl⟩

/-- Negation changes the first bit of what has a value. -/
lemma toBits_neg_toNat (hx : x.isNaN = false) :
    (-x).toBits.toNat = (x.toBits.toNat + 2 ^ 63) % 2 ^ 64 := by
  have hvalue : unpack .binary64 x.toBits.toBitVec ≠ .notANumber := by
    intro h
    rw [← isNaN_iff] at h
    exact Bool.false_ne_true (hx.symm.trans h)
  obtain ⟨s, exponent, mantissa, hbits, hneg⟩ := exists_packComponents_neg hvalue
  have hvalid : Format.binary64.Valid x.toBits.toBitVec := x.toModel.valid
  have hx' : x.toBits.toNat = (packComponents .binary64 s exponent mantissa).toNat := by
    rw [← hbits, pack_unpack_of_valid hvalid]
    rfl
  have hneg' : (-x).toBits.toNat = (packComponents .binary64 (-s) exponent mantissa).toNat := by
    rw [← hneg]
    rfl
  have hmantissa : mantissa.toNat < 2 ^ 52 := mantissa.isLt
  have hexponent : exponent.toNat < 2 ^ 11 := exponent.isLt
  rw [hx', hneg', packComponents_toNat, packComponents_toNat]
  cases s with
  | negative =>
    show 0 * 2 ^ 63 + _ = (1 * 2 ^ 63 + _ + _) % _
    omega
  | positive =>
    show 1 * 2 ^ 63 + _ = (0 * 2 ^ 63 + _ + _) % _
    omega

/-- What has no value has a pattern beyond infinity. -/
theorem isNaN_eq_true_iff : x.isNaN = true ↔ infinitePattern < pattern x := by
  rw [Float.isNaN_eq_decide_eq_nan, decide_eq_true_eq]
  constructor
  · rintro rfl
    decide
  · intro h
    rw [← Float.toBits_inj, ← UInt64.toBitVec_inj]
    have hlt : pattern x < 2 ^ 63 := Nat.mod_lt _ (by omega)
    have hpattern : pattern x = x.toBits.toBitVec.toNat % 2 ^ 63 := rfl
    rw [infinitePattern] at h
    refine x.toModel.valid.eq_packedNaN ?_ ?_
    · apply BitVec.eq_of_toNat_eq
      rw [unpackExponent_toNat]
      show x.toBits.toBitVec.toNat / 2 ^ 52 % 2 ^ 11 = 2 ^ 11 - 1
      omega
    · intro hzero
      have hmantissa := unpackMantissa_toNat x.toModel.toBits.toBitVec
      rw [hzero] at hmantissa
      have : 0 = x.toBits.toBitVec.toNat % 2 ^ 52 := hmantissa
      omega

/-- What has no value is its own negation. -/
lemma neg_of_isNaN (hx : x.isNaN = true) : -x = x := by
  rw [Float.isNaN_eq_decide_eq_nan, decide_eq_true_eq] at hx
  subst hx
  rfl

/-- Negation keeps the pattern. -/
@[simp]
theorem pattern_neg (x : Float) : pattern (-x) = pattern x := by
  cases hx : x.isNaN with
  | true => rw [neg_of_isNaN hx]
  | false =>
    rw [pattern, pattern, toBits_neg_toNat hx]
    omega

/-- Negation changes the sign of what has a value. -/
theorem isNegative_neg (hx : x.isNaN = false) : isNegative (-x) = !isNegative x := by
  have hlt : x.toBits.toNat < 2 ^ 64 := x.toBits.toNat_lt
  rw [isNegative, isNegative, toBits_neg_toNat hx, ← decide_not, decide_eq_decide]
  omega

/-- Negation keeps whether there is a value. -/
@[simp]
lemma isNaN_neg (x : Float) : (-x).isNaN = x.isNaN := by
  rw [Bool.eq_iff_iff, isNaN_eq_true_iff, isNaN_eq_true_iff, pattern_neg]

/-- Two negations cancel out. -/
instance involutiveNegFloat : InvolutiveNeg Float where
  neg_neg x := by
    cases hx : x.isNaN with
    | true => rw [neg_of_isNaN hx, neg_of_isNaN hx]
    | false =>
      have hneg : (-x).isNaN = false := (isNaN_neg x).trans hx
      rw [eq_iff, isNegative_neg hneg, isNegative_neg hx, Bool.not_not, pattern_neg, pattern_neg]
      exact ⟨rfl, rfl⟩

/-- A number with a sign that stands for a value, or is infinity, is the negation of the number of
its pattern. -/
theorem neg_ofPattern_pattern (hx : isNegative x = true) (hp : pattern x ≤ infinitePattern) :
    -ofPattern (pattern x) = x := by
  have hvalue : (ofPattern (pattern x)).isNaN = false := by
    rw [← Bool.not_eq_true, isNaN_eq_true_iff, pattern_ofPattern hp]
    omega
  rw [eq_iff, isNegative_neg hvalue, isNegative_ofPattern hp, pattern_neg, pattern_ofPattern hp, hx]
  exact ⟨rfl, rfl⟩

end Abacus.Number
