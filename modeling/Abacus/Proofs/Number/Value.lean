import Abacus.Proofs.Number.Bits

/-!
# The values of numbers

The exact value of a number as a fraction, and what it means that a number is the nearest one to a
fraction. A pattern counts the numbers below it, so the values grow with the patterns. Of two
numbers that are equally near, only one has an even pattern: there is another number between two
even patterns.

## Main definitions

* `Abacus.Number.patternValue` — the value of a number without a sign.
* `Abacus.Number.value` — the value of a number.
* `Abacus.Number.IsNearest` — that a number is the nearest one to a fraction.

## Main results

* `Abacus.Number.units_strictMono` — the values grow with the patterns.
* `Abacus.Number.value_eq_iff` — only the two zeros have the same value.
* `Abacus.Number.IsNearest.eq` — there is only one number that is nearest.
-/

namespace Abacus.Number

variable {x y : Float} {p : Nat} {q : ℚ}

/-! ## Patterns in units -/

/-- A mantissa of 53 bits, or one more, is counted from where its exponent begins. -/
lemma units_add {m s : Nat} (hm : m ≤ 2 ^ 53) (hs : s = 0 ∨ 2 ^ 52 ≤ m) :
    units (m + s * 2 ^ 52) = m * 2 ^ s := by
  unfold units
  rcases Nat.lt_or_ge m (2 ^ 52) with hsmall | hlarge
  · obtain rfl : s = 0 := by omega
    rw [if_pos (by omega), Nat.mod_eq_of_lt (by omega)]
    omega
  · rcases Nat.lt_or_eq_of_le hm with hlt | rfl
    · have hexponent : (m + s * 2 ^ 52) / 2 ^ 52 = s + 1 := by omega
      have hfraction : (m + s * 2 ^ 52) % 2 ^ 52 = m - 2 ^ 52 := by omega
      rw [hexponent, hfraction, if_neg (by omega), Nat.add_sub_cancel, Nat.add_sub_cancel' hlarge]
    · -- One more than all 53 bits carries into the exponent.
      have hexponent : (2 ^ 53 + s * 2 ^ 52) / 2 ^ 52 = s + 2 := by omega
      have hfraction : (2 ^ 53 + s * 2 ^ 52) % 2 ^ 52 = 0 := by omega
      rw [hexponent, hfraction, if_neg (by omega), show s + 2 - 1 = s + 1 by omega, Nat.pow_succ]
      omega

/-- Every pattern is a mantissa of 53 bits behind an exponent. -/
lemma exists_mantissa (p : Nat) :
    ∃ m s, p = m + s * 2 ^ 52 ∧ m < 2 ^ 53 ∧ (s = 0 ∨ 2 ^ 52 ≤ m) := by
  rcases Nat.lt_or_ge p (2 ^ 52) with h | h
  · exact ⟨p, 0, by omega, by omega, by omega⟩
  · exact ⟨2 ^ 52 + p % 2 ^ 52, p / 2 ^ 52 - 1, by omega, by omega, by omega⟩

/-- The next pattern stands for a larger number. -/
lemma units_lt_units_succ (p : Nat) : units p < units (p + 1) := by
  obtain ⟨m, s, rfl, hm, hs⟩ := exists_mantissa p
  rw [units_add (by omega) hs, show m + s * 2 ^ 52 + 1 = m + 1 + s * 2 ^ 52 by omega,
    units_add (by omega) (by omega)]
  exact Nat.mul_lt_mul_of_pos_right (by omega) (Nat.two_pow_pos s)

/-- The values grow with the patterns. -/
theorem units_strictMono : StrictMono units := strictMono_nat_of_lt_succ units_lt_units_succ

/-- Only the pattern zero stands for zero. -/
lemma units_eq_zero_iff : units p = 0 ↔ p = 0 := by
  have hzero : units 0 = 0 := rfl
  exact units_strictMono.injective.eq_iff' hzero

/-! ## Values -/

/-- The value of a finite pattern. The pattern of infinity is given the value of the number that
would come after the largest one. -/
def patternValue (p : Nat) : ℚ := units p / 2 ^ 1074

/-- The value of a finite number. -/
def value (x : Float) : ℚ :=
  if isNegative x then -patternValue (pattern x) else patternValue (pattern x)

/-- The values grow with the patterns. -/
lemma patternValue_strictMono : StrictMono patternValue := by
  intro p p' h
  unfold patternValue
  have hunit : (0 : ℚ) < 2 ^ 1074 := by positivity
  rw [div_lt_div_iff_of_pos_right hunit, Nat.cast_lt]
  exact units_strictMono h

/-- The pattern zero has the value zero. -/
lemma patternValue_zero : patternValue 0 = 0 := by
  rw [patternValue, units_eq_zero_iff.mpr rfl, Nat.cast_zero, zero_div]

/-- The value of a pattern is not negative. -/
lemma patternValue_nonneg (p : Nat) : 0 ≤ patternValue p := by
  rw [← patternValue_zero]
  exact patternValue_strictMono.monotone (Nat.zero_le p)

/-- Only the pattern zero has no positive value. -/
lemma patternValue_pos (hp : p ≠ 0) : 0 < patternValue p := by
  rw [← patternValue_zero]
  exact patternValue_strictMono (Nat.pos_of_ne_zero hp)

/-- A value is compared with a fraction by cross multiplication. -/
lemma natCast_le_patternValue_mul_iff {a b : Nat} :
    (a : ℚ) ≤ patternValue p * b ↔ a * 2 ^ 1074 ≤ units p * b := by
  have hunit : ∀ e : Nat, ((2 ^ e : Nat) : ℚ) = 2 ^ e := Nat.cast_pow 2
  rw [patternValue, div_mul_eq_mul_div, le_div_iff₀ (by positivity), ← hunit, ← Nat.cast_mul,
    ← Nat.cast_mul, Nat.cast_le]

/-- A value is whole if its units are. -/
lemma patternValue_eq_natCast_iff {n : Nat} : patternValue p = n ↔ units p = n * 2 ^ 1074 := by
  have hunit : ∀ e : Nat, ((2 ^ e : Nat) : ℚ) = 2 ^ e := Nat.cast_pow 2
  rw [patternValue, div_eq_iff (by positivity), ← hunit, ← Nat.cast_mul, Nat.cast_inj]

/-- The value has the pattern as its magnitude. -/
lemma abs_value (x : Float) : |value x| = patternValue (pattern x) := by
  unfold value
  split
  · rw [abs_neg, abs_of_nonneg (patternValue_nonneg _)]
  · rw [abs_of_nonneg (patternValue_nonneg _)]

/-- The value is zero for the two zeros only. -/
lemma value_eq_zero_iff : value x = 0 ↔ pattern x = 0 := by
  rw [← abs_eq_zero, abs_value]
  exact patternValue_strictMono.injective.eq_iff' patternValue_zero

/-- The value is below zero for a number with a sign that is not zero. -/
lemma value_neg_iff : value x < 0 ↔ isNegative x = true ∧ pattern x ≠ 0 := by
  have hnonneg := patternValue_nonneg (pattern x)
  rw [ne_eq, ← value_eq_zero_iff]
  unfold value
  split <;> rename_i h
  · rw [Left.neg_neg_iff, neg_eq_zero]
    exact ⟨fun hpos => ⟨h, hpos.ne'⟩, fun hne => lt_of_le_of_ne hnonneg (Ne.symm hne.2)⟩
  · exact ⟨fun hneg => absurd hnonneg (not_le.mpr hneg), fun hsign => absurd hsign.1 h⟩

/-- Only the two zeros have the same value. -/
theorem value_eq_iff : value x = value y ↔ x = y ∨ (pattern x = 0 ∧ pattern y = 0) := by
  constructor
  · intro h
    have hpattern : pattern x = pattern y := by
      apply patternValue_strictMono.injective
      rw [← abs_value, ← abs_value, h]
    rcases Nat.eq_zero_or_pos (pattern y) with hzero | hpos
    · exact .inr ⟨hpattern.trans hzero, hzero⟩
    · -- A value that is not zero tells the sign.
      have hlt := patternValue_pos hpos.ne'
      unfold value at h
      rw [hpattern] at h
      refine .inl (eq_iff.mpr ⟨?_, hpattern⟩)
      cases hx : isNegative x <;> cases hy : isNegative y <;> rw [hx, hy] at h <;>
        simp at h ⊢ <;> linarith
  · rintro (rfl | ⟨hx, hy⟩)
    · rfl
    · rw [value_eq_zero_iff.mpr hx, value_eq_zero_iff.mpr hy]

/-! ## Whole values -/

/-- Every whole number of 53 bits is the value of a pattern, in smaller units too. -/
lemma exists_units_eq {k e : Nat} (hk : k ≤ 2 ^ 53) (he : 52 ≤ e) (he' : e ≤ 2000) :
    ∃ p ≤ infinitePattern, units p = k * 2 ^ e := by
  rcases Nat.eq_zero_or_pos k with rfl | hpos
  · exact ⟨0, Nat.zero_le _, by rw [Nat.zero_mul]; rfl⟩
  · -- The mantissa is filled up to 53 bits.
    have hle : 2 ^ k.log2 ≤ k := Nat.log2_self_le (by omega)
    have hlt : k < 2 ^ (k.log2 + 1) := Nat.lt_log2_self
    have hlower : 2 ^ 52 ≤ k * 2 ^ (52 - k.log2) := by
      refine Nat.le_trans ?_ (Nat.mul_le_mul_right _ hle)
      rw [← Nat.pow_add]
      exact Nat.pow_le_pow_right (by omega) (by omega)
    have hupper : k * 2 ^ (52 - k.log2) ≤ 2 ^ 53 := by
      rcases Nat.le_total k.log2 52 with hlog | hlog
      · refine Nat.le_trans (Nat.mul_le_mul_right _ hlt.le) ?_
        rw [← Nat.pow_add]
        exact Nat.pow_le_pow_right (by omega) (by omega)
      · rw [Nat.sub_eq_zero_of_le hlog, Nat.pow_zero, Nat.mul_one]
        exact hk
    refine ⟨k * 2 ^ (52 - k.log2) + (e - (52 - k.log2)) * 2 ^ 52, ?_, ?_⟩
    · rw [infinitePattern]
      omega
    · rw [units_add hupper (.inr hlower), Nat.mul_assoc, ← Nat.pow_add]
      congr 2
      omega

/-- A number with more than 52 bits before a place is whole at this place. -/
lemma dvd_units {e : Nat} (h : 2 ^ 52 * 2 ^ e ≤ units p) : 2 ^ e ∣ units p := by
  obtain ⟨m, s, rfl, hm, hs⟩ := exists_mantissa p
  rw [units_add hm.le hs] at h ⊢
  rw [← Nat.pow_add] at h
  have hlt : 2 ^ (52 + e) < 2 ^ (53 + s) := by
    rw [Nat.pow_add 2 53]
    exact h.trans_lt (Nat.mul_lt_mul_of_pos_right hm (Nat.two_pow_pos s))
  rw [Nat.pow_lt_pow_iff_right (by omega)] at hlt
  exact Dvd.dvd.mul_left (Nat.pow_dvd_pow 2 (by omega)) m

/-- That a pattern stands for a whole number. -/
lemma exists_natCast_iff : (∃ n : Nat, patternValue p = n) ↔ units p % 2 ^ 1074 = 0 := by
  simp only [patternValue_eq_natCast_iff]
  constructor
  · rintro ⟨n, hn⟩
    rw [hn, Nat.mul_mod_left]
  · intro h
    exact ⟨units p / 2 ^ 1074, (Nat.div_mul_cancel (Nat.dvd_of_mod_eq_zero h)).symm⟩

/-- From `2 ^ 52` on all numbers are whole. -/
lemma exists_natCast_of_le (h : 2 ^ 52 ≤ patternValue p) : ∃ n : Nat, patternValue p = n := by
  have hle : ((2 ^ 52 : Nat) : ℚ) ≤ patternValue p * (1 : Nat) := by
    rw [Nat.cast_one, mul_one]
    exact_mod_cast h
  rw [natCast_le_patternValue_mul_iff, Nat.mul_one] at hle
  exact exists_natCast_iff.mpr (Nat.mod_eq_zero_of_dvd (dvd_units (e := 1074) hle))

/-! ## The nearest number -/

/-- That `x` is the number nearest to `q`, and of two that are equally near the one with the even
pattern. Infinity is nearest to what is beyond the middle between the largest number and the next
one. -/
structure IsNearest (q : ℚ) (x : Float) : Prop where
  /-- A fraction below zero has a number with a sign. -/
  sign : isNegative x = decide (q < 0)
  /-- The nearest number stands for a value, or is infinity. -/
  le_infinite : pattern x ≤ infinitePattern
  /-- No number is nearer. -/
  nearest : ∀ p ≤ infinitePattern, |(|q| - patternValue (pattern x))| ≤ |(|q| - patternValue p)|
  /-- If another one is as near, the pattern is even. -/
  even : ∀ p ≤ infinitePattern, p ≠ pattern x →
    |(|q| - patternValue p)| = |(|q| - patternValue (pattern x))| → pattern x % 2 = 0

namespace IsNearest

/-- What is equally near to two different values is in the middle between them. -/
lemma eq_middle {a b c : ℚ} (hab : a ≠ b) (h : |c - a| = |c - b|) : 2 * c = a + b := by
  rcases abs_eq_abs.mp h with h | h
  · exact absurd (by linarith) hab
  · linarith

/-- Of two nearest numbers none has a smaller pattern.

**Proof sketch.** Two different patterns would both be even, with the fraction in the middle
between their values. The pattern after the smaller one is between them, so its value is nearer. -/
lemma pattern_le (hx : IsNearest q x) (hy : IsNearest q y) : pattern y ≤ pattern x := by
  by_contra! hlt
  have hle := hy.le_infinite
  have hsame : |(|q| - patternValue (pattern x))| = |(|q| - patternValue (pattern y))| :=
    le_antisymm (hx.nearest _ hle) (hy.nearest _ hx.le_infinite)
  have hmiddle := eq_middle (patternValue_strictMono hlt).ne hsame
  have hevenx := hx.even _ hle hlt.ne' hsame.symm
  have heveny := hy.even _ hx.le_infinite hlt.ne hsame
  have hbefore := patternValue_strictMono (Nat.lt_succ_self (pattern x))
  have hafter := patternValue_strictMono (show pattern x + 1 < pattern y by omega)
  have hnearest := hx.nearest (pattern x + 1) (by omega)
  rw [abs_of_nonneg (a := |q| - patternValue (pattern x)) (by linarith)] at hnearest
  rcases abs_cases (|q| - patternValue (pattern x + 1)) with ⟨habs, -⟩ | ⟨habs, -⟩
  · rw [habs] at hnearest
    linarith
  · rw [habs] at hnearest
    linarith

/-- There is only one number that is nearest. -/
theorem eq (hx : IsNearest q x) (hy : IsNearest q y) : x = y :=
  eq_iff.mpr ⟨hx.sign.trans hy.sign.symm, Nat.le_antisymm (hy.pattern_le hx) (hx.pattern_le hy)⟩

/-- A value is nearest to itself. -/
lemma pattern_eq (hx : IsNearest q x) (hp : p ≤ infinitePattern) (hq : |q| = patternValue p) :
    pattern x = p := by
  have hnearest := hx.nearest p hp
  rw [hq, sub_self, abs_zero, abs_nonpos_iff, sub_eq_zero] at hnearest
  exact (patternValue_strictMono.injective hnearest).symm

/-- The number nearest to a whole fraction is whole. -/
lemma exists_natCast (h : IsNearest q x) {k : Nat} (hq : |q| = k) :
    ∃ n : Nat, patternValue (pattern x) = n := by
  rcases Nat.le_total k (2 ^ 53) with hk | hk
  · obtain ⟨p, hp, hunits⟩ := exists_units_eq (e := 1074) hk (by omega) (by omega)
    rw [← patternValue_eq_natCast_iff] at hunits
    exact ⟨k, by rw [h.pattern_eq hp (hq.trans hunits.symm), hunits]⟩
  · -- A smaller number would have the number `2 ^ 53` nearer.
    apply exists_natCast_of_le
    obtain ⟨p, hp, hunits⟩ :=
      exists_units_eq (k := 2 ^ 53) (e := 1074) (by omega) (by omega) (by omega)
    rw [← patternValue_eq_natCast_iff] at hunits
    have hnearest := h.nearest p hp
    have hk' : ((2 ^ 53 : Nat) : ℚ) ≤ k := Nat.cast_le.mpr hk
    rw [Nat.cast_pow, Nat.cast_ofNat] at hunits hk'
    by_contra! hlt
    rw [hq, hunits, abs_of_nonneg (by linarith), abs_of_nonneg (by linarith)] at hnearest
    linarith

/-- Negation goes to the other side of zero. -/
theorem neg (hx : IsNearest q x) (hq : q ≠ 0) : IsNearest (-q) (-x) := by
  have hnan : x.isNaN = false := by
    rw [← Bool.not_eq_true, isNaN_eq_true_iff, Nat.not_lt]
    exact hx.le_infinite
  constructor
  · rw [isNegative_neg hnan, hx.sign, ← decide_not, decide_eq_decide, not_lt, neg_lt_zero]
    exact ⟨fun h => lt_of_le_of_ne h hq.symm, le_of_lt⟩
  · rw [pattern_neg]
    exact hx.le_infinite
  · rw [abs_neg, pattern_neg]
    exact hx.nearest
  · rw [abs_neg, pattern_neg]
    exact hx.even

end IsNearest

end Abacus.Number
