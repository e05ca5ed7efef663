import Abacus.Proofs.Number.Nearest
import Abacus.Proofs.Number.Value

/-!
# Decimals are rounded to the nearest number

The pattern nearest to a quotient is compared with the patterns before and after it, since the
values grow with the patterns. The rounded quotient is at most one half away, and one half only if
it is even. So nothing nearer is found, and in the middle between two patterns the even one is
taken.

## Main definitions

* `Abacus.Number.IsNearestUnits` — that a pattern is nearest to a quotient of units.
* `Abacus.Number.Decimal.value` — the value of a decimal.

## Main results

* `Abacus.Number.isNearestUnits_nearestPattern` — the pattern nearest to a quotient is nearest.
* `Abacus.Number.nearestPattern_mono` — a larger quotient has no smaller pattern.
* `Abacus.Number.Decimal.isNearest_nearest` — the number nearest to a decimal is nearest to its
  value.
-/

namespace Abacus.Number

variable {num den num' den' p : Nat}

/-! ## The rounded quotient -/

/-- A rounded quotient is off by at most one half, and by one half only if it is even. -/
lemma exists_roundQuotient (num : Nat) (hden : 0 < den) :
    ∃ r, 2 * r ≤ den ∧ (2 * r = den → roundQuotient num den % 2 = 0) ∧
      (num = roundQuotient num den * den + r ∨ num + r = roundQuotient num den * den) := by
  have hdiv := Nat.div_add_mod num den
  have hlt := Nat.mod_lt num hden
  rw [Nat.mul_comm] at hdiv
  unfold roundQuotient
  dsimp only
  generalize num / den = q at *
  generalize num % den = r at *
  split
  · rename_i hdown
    exact ⟨r, by omega, by omega, .inl (by omega)⟩
  · rename_i hup
    refine ⟨den - r, by omega, by omega, .inr ?_⟩
    rw [Nat.add_mul]
    omega

/-- The shift leaves 53 bits of a quotient, and not fewer if there is one. -/
lemma shifted_bounds (num : Nat) (hden : 0 < den) {s : Nat} (hs : (num / den).log2 - 52 = s) :
    num < 2 ^ 53 * (den * 2 ^ s) ∧ (s = 0 ∨ 2 ^ 52 * (den * 2 ^ s) ≤ num) := by
  have hscale : ∀ e, 2 ^ e * (den * 2 ^ s) = 2 ^ (e + s) * den := by
    intro e
    rw [Nat.pow_add]
    ac_rfl
  rw [hscale, hscale]
  constructor
  · rw [← Nat.div_lt_iff_lt_mul hden]
    rcases Nat.eq_zero_or_pos (num / den) with hzero | hpos
    · rw [hzero]
      exact Nat.two_pow_pos _
    · rw [← Nat.log2_lt (by omega)]
      omega
  · rcases Nat.eq_zero_or_pos s with hzero | hpos
    · exact .inl hzero
    · right
      rw [← Nat.le_div_iff_mul_le hden]
      have hne : num / den ≠ 0 := by
        intro hzero
        rw [hzero] at hs
        have : Nat.log2 0 = 0 := rfl
        omega
      rw [← Nat.le_log2 hne]
      omega

/-- A quotient below a whole number is not rounded above it. -/
lemma roundQuotient_le (hden : 0 < den) {k : Nat} (hlt : num < k * den) :
    roundQuotient num den ≤ k := by
  obtain ⟨r, hr, -, hnum⟩ := exists_roundQuotient num hden
  have hmul : roundQuotient num den * den < (k + 1) * den := by
    rw [Nat.add_mul]
    omega
  have := Nat.lt_of_mul_lt_mul_right hmul
  omega

/-- A quotient from a whole number on is not rounded below it. -/
lemma le_roundQuotient (hden : 0 < den) {k : Nat} (hle : k * den ≤ num) :
    k ≤ roundQuotient num den := by
  obtain ⟨r, hr, -, hnum⟩ := exists_roundQuotient num hden
  have hmul : k * den < (roundQuotient num den + 1) * den := by
    rw [Nat.add_mul]
    omega
  have := Nat.lt_of_mul_lt_mul_right hmul
  omega

/-! ## The nearest pattern -/

/-- That the value of `p` is nearest to `num / den` units among the values up to infinity: what is
before it is on the other side of a middle, and so is what is after it. In the middle the pattern
is even. -/
structure IsNearestUnits (num den p : Nat) : Prop where
  /-- The pattern stands for a value, or is infinity. -/
  le_infinite : p ≤ infinitePattern
  /-- No pattern before is nearer. -/
  before : ∀ p' < p, (units p' + units p) * den ≤ 2 * num
  /-- No pattern after is nearer. -/
  after : ∀ p' ≤ infinitePattern, p < p' → 2 * num ≤ (units p' + units p) * den
  /-- If another pattern is as near, this one is even. -/
  even : ∀ p' ≤ infinitePattern, p' ≠ p → 2 * num = (units p' + units p) * den → p % 2 = 0

/-- The pattern that a quotient is rounded to if there were no infinity. -/
def unboundedPattern (num den : Nat) : Nat :=
  let shift := (num / den).log2 - 52
  roundQuotient num (den * 2 ^ shift) + shift * 2 ^ 52

/-- The nearest pattern ends at infinity. -/
lemma nearestPattern_eq_min (num den : Nat) :
    nearestPattern num den = min infinitePattern (unboundedPattern num den) := rfl

/-- What a quotient is rounded to: a mantissa and an exponent, and how far the quotient is away. -/
lemma exists_unboundedPattern (num : Nat) (hden : 0 < den) : ∃ m s r,
    unboundedPattern num den = m + s * 2 ^ 52 ∧ m ≤ 2 ^ 53 ∧
      (s = 0 ∨ 2 ^ 52 ≤ m ∧ 2 ^ 52 * (den * 2 ^ s) ≤ num) ∧
      2 * r ≤ den * 2 ^ s ∧ (2 * r = den * 2 ^ s → m % 2 = 0) ∧
      (num = m * (den * 2 ^ s) + r ∨ num + r = m * (den * 2 ^ s)) := by
  obtain ⟨hlt, hle⟩ := shifted_bounds num hden rfl
  have hpos : 0 < den * 2 ^ ((num / den).log2 - 52) := Nat.mul_pos hden (Nat.two_pow_pos _)
  obtain ⟨r, hr, heven, hnum⟩ := exists_roundQuotient num hpos
  exact ⟨_, _, r, rfl, roundQuotient_le hpos hlt,
    hle.imp_right fun h => ⟨le_roundQuotient hpos h, h⟩, hr, heven, hnum⟩

/-- The pattern after a mantissa is at least one further. -/
lemma mul_le_units_succ {m s : Nat} (hm : m ≤ 2 ^ 53) (hs : s = 0 ∨ 2 ^ 52 ≤ m) :
    (m + 1) * 2 ^ s ≤ units (m + s * 2 ^ 52 + 1) := by
  rcases Nat.lt_or_eq_of_le hm with hlt | rfl
  · rw [show m + s * 2 ^ 52 + 1 = m + 1 + s * 2 ^ 52 by omega, units_add (by omega) (by omega)]
  · rw [show 2 ^ 53 + s * 2 ^ 52 + 1 = 2 ^ 52 + 1 + (s + 1) * 2 ^ 52 by omega,
      units_add (by omega) (by omega), Nat.pow_succ]
    omega

/-- The middle between a rounded quotient and the next pattern is not passed, and reached only if
the pattern is even. -/
lemma unboundedPattern_after (num : Nat) (hden : 0 < den) (h : unboundedPattern num den = p) :
    2 * num ≤ (units (p + 1) + units p) * den ∧
      (2 * num = (units (p + 1) + units p) * den → p % 2 = 0) := by
  obtain ⟨m, s, r, hpattern, hm, hs, hr, heven, hnum⟩ := exists_unboundedPattern num hden
  obtain rfl : p = m + s * 2 ^ 52 := h.symm.trans hpattern
  have hmantissa : s = 0 ∨ 2 ^ 52 ≤ m := hs.imp_right And.left
  have hmiddle : (2 * m + 1) * (den * 2 ^ s) ≤
      (units (m + s * 2 ^ 52 + 1) + units (m + s * 2 ^ 52)) * den := by
    rw [Nat.mul_comm den, ← Nat.mul_assoc, units_add hm hmantissa]
    apply Nat.mul_le_mul_right
    have := mul_le_units_succ hm hmantissa
    rw [Nat.add_mul] at this ⊢
    rw [Nat.mul_assoc]
    omega
  rw [Nat.add_mul, Nat.mul_assoc] at hmiddle
  generalize hD : den * 2 ^ s = D at *
  generalize hmD : m * D = mD at *
  refine ⟨by omega, fun htie => ?_⟩
  have := heven (by omega)
  omega

/-- The middle between a rounded quotient and the pattern before it is not passed, and reached
only if the pattern is even. -/
lemma unboundedPattern_before (num : Nat) (hden : 0 < den) (h : unboundedPattern num den = p + 1) :
    (units p + units (p + 1)) * den ≤ 2 * num ∧
      (2 * num = (units p + units (p + 1)) * den → (p + 1) % 2 = 0) := by
  obtain ⟨m, s, r, hpattern, hm, hs, hr, heven, hnum⟩ := exists_unboundedPattern num hden
  rw [h] at hpattern
  have hmantissa : s = 0 ∨ 2 ^ 52 ≤ m := hs.imp_right And.left
  by_cases hfirst : s = 0 ∨ 2 ^ 52 < m
  · -- The pattern before has the same exponent.
    obtain ⟨m, rfl⟩ : ∃ k, m = k + 1 := ⟨m - 1, by omega⟩
    have hp : p = m + s * 2 ^ 52 := by omega
    have hmiddle : (units p + units (p + 1)) * den = (2 * m + 1) * (den * 2 ^ s) := by
      rw [hpattern, hp, units_add hm hmantissa, units_add (by omega) (by omega), Nat.mul_comm den,
        ← Nat.mul_assoc, ← Nat.add_mul]
      congr 2
      omega
    rw [hmiddle]
    rw [Nat.add_mul] at hnum ⊢
    rw [Nat.mul_assoc]
    generalize hD : den * 2 ^ s = D at *
    generalize hmD : m * D = mD at *
    refine ⟨by omega, fun htie => ?_⟩
    have := heven (by omega)
    omega
  · -- The mantissa is the least one of its exponent, and the quotient is not below it.
    have hleast : m = 2 ^ 52 := by omega
    have hle : units (p + 1) * den ≤ num := by
      rw [hpattern, units_add hm hmantissa, hleast, Nat.mul_assoc, Nat.mul_comm _ den]
      omega
    have hlt : units p * den < units (p + 1) * den :=
      Nat.mul_lt_mul_of_pos_right (units_lt_units_succ p) hden
    rw [Nat.add_mul]
    exact ⟨by omega, fun htie => absurd htie (by omega)⟩

/-- Without a bound the rounded pattern is nearest. -/
lemma unboundedPattern_nearest (num : Nat) (hden : 0 < den) (h : unboundedPattern num den = p) :
    (∀ p' < p, (units p' + units p) * den ≤ 2 * num) ∧
      (∀ p', p < p' → 2 * num ≤ (units p' + units p) * den) ∧
      ∀ p', p' ≠ p → 2 * num = (units p' + units p) * den → p % 2 = 0 := by
  have hmono := units_strictMono.monotone
  have hbefore : ∀ p' < p, (units p' + units p) * den ≤ 2 * num ∧
      (2 * num = (units p' + units p) * den → p % 2 = 0) := by
    intro p' hlt
    obtain ⟨k, rfl⟩ : ∃ k, p = k + 1 := ⟨p - 1, by omega⟩
    obtain ⟨hle, heven⟩ := unboundedPattern_before num hden h
    have hk : (units p' + units (k + 1)) * den ≤ (units k + units (k + 1)) * den :=
      Nat.mul_le_mul_right den (Nat.add_le_add_right (hmono (by omega)) _)
    exact ⟨hk.trans hle, fun htie => heven (by omega)⟩
  have hafter : ∀ p', p < p' → 2 * num ≤ (units p' + units p) * den ∧
      (2 * num = (units p' + units p) * den → p % 2 = 0) := by
    intro p' hlt
    obtain ⟨hle, heven⟩ := unboundedPattern_after num hden h
    have hk : (units (p + 1) + units p) * den ≤ (units p' + units p) * den :=
      Nat.mul_le_mul_right den (Nat.add_le_add_right (hmono (by omega)) _)
    exact ⟨hle.trans hk, fun htie => heven (by omega)⟩
  refine ⟨fun p' hlt => (hbefore p' hlt).1, fun p' hlt => (hafter p' hlt).1, fun p' hne => ?_⟩
  rcases Nat.lt_or_gt_of_ne hne with hlt | hlt
  · exact (hbefore p' hlt).2
  · exact (hafter p' hlt).2

/-- The pattern nearest to a quotient is nearest. -/
theorem isNearestUnits_nearestPattern (num : Nat) (hden : 0 < den) :
    IsNearestUnits num den (nearestPattern num den) := by
  obtain ⟨hbefore, hafter, heven⟩ := unboundedPattern_nearest num hden rfl
  rw [nearestPattern_eq_min]
  rcases Nat.le_total (unboundedPattern num den) infinitePattern with hle | hle
  · rw [Nat.min_eq_right hle]
    exact ⟨hle, hbefore, fun p' _ => hafter p', fun p' _ => heven p'⟩
  · rw [Nat.min_eq_left hle]
    refine ⟨Nat.le_refl _, fun p' hlt => ?_, fun p' hp' hlt => by omega, fun _ _ _ _ => rfl⟩
    -- The middle before infinity is not after the middle before the unbounded pattern.
    have hmono := units_strictMono.monotone hle
    exact (Nat.mul_le_mul_right den (Nat.add_le_add_left hmono _)).trans (hbefore p' (by omega))

/-- A larger quotient has no smaller pattern. -/
theorem nearestPattern_mono (hden : 0 < den) (hden' : 0 < den') (h : num * den' ≤ num' * den) :
    nearestPattern num den ≤ nearestPattern num' den' := by
  have hnear := isNearestUnits_nearestPattern num hden
  have hnear' := isNearestUnits_nearestPattern num' hden'
  by_contra! hlt
  have hbefore := Nat.mul_le_mul_right den' (hnear.before _ hlt)
  have hafter := Nat.mul_le_mul_right den (hnear'.after _ hnear.le_infinite hlt)
  -- Both quotients are in the same middle, so they are equal.
  have hequal : num * den' = num' * den := by
    rw [Nat.mul_right_comm, Nat.mul_assoc 2] at hbefore
    rw [Nat.mul_assoc 2, Nat.add_comm (units _)] at hafter
    omega
  have := nearestPattern_congr hden hden' hequal
  omega

/-! ## The nearest number -/

section Middle

variable {p' : Nat}

/-- The middle between two patterns is compared with a quotient by cross multiplication. -/
lemma middle_le_iff (hden : 0 < den) :
    patternValue p' + patternValue p ≤ 2 * (num / den / 2 ^ 1074) ↔
    (units p' + units p) * den ≤ 2 * num := by
  have hunit : (0 : ℚ) < 2 ^ 1074 := by positivity
  have hden' : (0 : ℚ) < den := Nat.cast_pos.mpr hden
  unfold patternValue
  rw [← add_div, ← mul_div_assoc, div_le_div_iff_of_pos_right hunit, ← mul_div_assoc,
    le_div_iff₀ hden']
  exact_mod_cast Iff.rfl

/-- A quotient is compared with the middle between two patterns by cross multiplication. -/
lemma le_middle_iff (hden : 0 < den) :
    2 * (num / den / 2 ^ 1074) ≤ patternValue p' + patternValue p ↔
    2 * num ≤ (units p' + units p) * den := by
  have hunit : (0 : ℚ) < 2 ^ 1074 := by positivity
  have hden' : (0 : ℚ) < den := Nat.cast_pos.mpr hden
  unfold patternValue
  rw [← add_div, ← mul_div_assoc, div_le_div_iff_of_pos_right hunit, ← mul_div_assoc,
    div_le_iff₀ hden']
  exact_mod_cast Iff.rfl

end Middle

/-- What is above a middle is nearer to the larger side. -/
lemma abs_sub_le_of_middle_le {a b c : ℚ} (hab : a ≤ b) (h : a + b ≤ 2 * c) : |c - b| ≤ |c - a| :=
  (abs_le.mpr ⟨by linarith, by linarith⟩).trans (le_abs_self (c - a))

/-- What is below a middle is nearer to the smaller side. -/
lemma abs_sub_le_of_le_middle {a b c : ℚ} (hab : a ≤ b) (h : 2 * c ≤ a + b) :
    |c - a| ≤ |c - b| := by
  rw [abs_sub_comm c b]
  exact (abs_le.mpr ⟨by linarith, by linarith⟩).trans (le_abs_self (b - c))

/-- A pattern that is nearest in units is the pattern of the nearest number. -/
theorem IsNearestUnits.isNearest (h : IsNearestUnits num den p) (hden : 0 < den) :
    IsNearest (num / den / 2 ^ 1074) (ofPattern p) := by
  have hnonneg : (0 : ℚ) ≤ num / den / 2 ^ 1074 := by positivity
  have hmono := patternValue_strictMono.monotone
  constructor
  · rw [isNegative_ofPattern h.le_infinite, eq_comm, decide_eq_false_iff_not, not_lt]
    exact hnonneg
  · rw [pattern_ofPattern h.le_infinite]
    exact h.le_infinite
  · intro p' hp'
    rw [pattern_ofPattern h.le_infinite, abs_of_nonneg hnonneg]
    rcases Nat.lt_trichotomy p' p with hlt | rfl | hlt
    · exact abs_sub_le_of_middle_le (hmono hlt.le) ((middle_le_iff hden).mpr (h.before p' hlt))
    · exact le_rfl
    · have hmiddle := h.after p' hp' hlt
      rw [← le_middle_iff hden, add_comm] at hmiddle
      exact abs_sub_le_of_le_middle (hmono hlt.le) hmiddle
  · intro p' hp' hne htie
    rw [pattern_ofPattern h.le_infinite] at *
    rw [abs_of_nonneg hnonneg] at htie
    have hmiddle := IsNearest.eq_middle (patternValue_strictMono.injective.ne hne) htie
    exact h.even p' hp' hne
      (Nat.le_antisymm ((le_middle_iff hden).mp hmiddle.le) ((middle_le_iff hden).mp hmiddle.ge))

namespace Decimal

/-- The value of a decimal. -/
def value (d : Decimal) : ℚ := d.coefficient * 10 ^ d.exponent

variable {d d' : Decimal}

/-- The pattern of a decimal is that of a quotient of units, which is its value. -/
lemma exists_quotient (d : Decimal) : ∃ num den, 0 < den ∧ d.pattern = nearestPattern num den ∧
    d.value = num / den / 2 ^ 1074 := by
  have hten : 0 < 10 ^ (-d.exponent).toNat := Nat.pow_pos (by omega)
  have hexponent : d.exponent = (d.exponent.toNat : Int) - (-d.exponent).toNat := by omega
  have hunit : ∀ e : Nat, ((2 ^ e : Nat) : ℚ) = 2 ^ e := Nat.cast_pow 2
  refine ⟨_, _, hten, pattern_eq hexponent, ?_⟩
  unfold value
  rw [Nat.cast_mul, hunit, mul_div_right_comm, mul_div_cancel_right₀ _ (by positivity)]
  conv_lhs => rw [hexponent]
  rw [zpow_sub₀ (by norm_num), zpow_natCast, zpow_natCast]
  push_cast
  ring

/-- The number nearest to a decimal is nearest to its value. -/
theorem isNearest_nearest (d : Decimal) : IsNearest d.value d.nearest := by
  obtain ⟨num, den, hden, hpattern, hvalue⟩ := d.exists_quotient
  rw [hvalue, nearest, hpattern]
  exact (isNearestUnits_nearestPattern num hden).isNearest hden

/-- A larger decimal has no smaller pattern. -/
theorem pattern_mono (h : d.value ≤ d'.value) : d.pattern ≤ d'.pattern := by
  obtain ⟨num, den, hden, hpattern, hvalue⟩ := d.exists_quotient
  obtain ⟨num', den', hden', hpattern', hvalue'⟩ := d'.exists_quotient
  rw [hpattern, hpattern']
  apply nearestPattern_mono hden hden'
  rw [hvalue, hvalue', div_le_div_iff_of_pos_right (by positivity),
    div_le_div_iff₀ (Nat.cast_pos.mpr hden) (Nat.cast_pos.mpr hden')] at h
  exact_mod_cast h

end Decimal

end Abacus.Number
