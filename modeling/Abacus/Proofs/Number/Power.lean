import Abacus.Number.Operator
import Abacus.Proofs.Number.Value

/-!
# Powers of numbers with a sign

A power has a result for all numbers, although the bounded power is refused where it overflows or
is undefined. An exponent that is an even number forgets the sign of the base. An odd one keeps
it, also when the power overflows, but not when it is a negative power of zero: that is infinity
for both zeros.

## Main definitions

* `Abacus.Number.IsOdd`, `Abacus.Number.IsEven` — the numbers whose value is an odd or even whole
  number.

## Main results

* `Abacus.Number.parity_eq_odd_iff`, `Abacus.Number.parity_eq_even_iff` — the parity is that of
  the value.
* `Abacus.Number.boundedPower_eq_overflow_iff`, `Abacus.Number.boundedPower_eq_undefined_iff` —
  when a power is refused.
* `Abacus.Number.power_neg` — what the sign of the base does to a power.
-/

namespace Abacus.Number

variable {left right x : Float}

/-! ## Whole numbers -/

/-- That the value is an odd whole number. -/
def IsOdd (x : Float) : Prop := pattern x < infinitePattern ∧ ∃ k : ℤ, Odd k ∧ value x = k

/-- That the value is an even whole number. -/
def IsEven (x : Float) : Prop := pattern x < infinitePattern ∧ ∃ k : ℤ, Even k ∧ value x = k

/-- A value is whole, with a property that does not depend on its sign, if its magnitude is. -/
lemma exists_int_iff {P : ℤ → Prop} (hneg : ∀ k, P (-k) ↔ P k) :
    (∃ k : ℤ, P k ∧ value x = k) ↔ ∃ n : Nat, P n ∧ |value x| = n := by
  constructor
  · rintro ⟨k, hk, hvalue⟩
    refine ⟨k.natAbs, ?_, by rw [hvalue, Nat.cast_natAbs, Int.cast_abs]⟩
    rcases k.natAbs_eq with h | h
    · exact h ▸ hk
    · exact (hneg _).mp (h ▸ hk)
  · rintro ⟨n, hn, habs⟩
    rcases eq_or_eq_neg_of_abs_eq habs with h | h
    · exact ⟨n, hn, by rw [h, Int.cast_natCast]⟩
    · exact ⟨-n, (hneg n).mpr hn, by rw [h, Int.cast_neg, Int.cast_natCast]⟩

/-- The parity of a finite number with a whole value is that of its magnitude. -/
lemma parity_of_abs_value {n : Nat} (hfinite : pattern x < infinitePattern) (h : |value x| = n) :
    parity x = if n % 2 = 0 then .even else .odd := by
  have hunit : 0 < 2 ^ 1074 := by positivity
  rw [abs_value, patternValue_eq_natCast_iff] at h
  unfold parity
  dsimp only
  generalize 2 ^ 1074 = unit at *
  rw [if_neg (by omega), if_neg (by omega), h, Nat.mul_mod_left, if_neg (not_not.mpr rfl),
    Nat.mul_div_cancel n hunit]

/-- What is even or odd is infinity, which is even, or a whole number. -/
lemma exists_of_parity (h : parity x ≠ .fractional) :
    pattern x = infinitePattern ∧ parity x = .even ∨
      pattern x < infinitePattern ∧ ∃ n : Nat, |value x| = n := by
  unfold parity at h ⊢
  dsimp only at h ⊢
  split at h
  · exact absurd rfl h
  · rename_i hnan
    split at h
    · rename_i hinfinite
      exact .inl ⟨hinfinite, by rw [if_neg hnan, if_pos hinfinite]⟩
    · split at h
      · exact absurd rfl h
      · rename_i hwhole
        refine .inr ⟨by omega, ?_⟩
        rw [abs_value, exists_natCast_iff]
        exact not_not.mp hwhole

/-- A number is odd if its value is. -/
theorem parity_eq_odd_iff : parity x = .odd ↔ IsOdd x := by
  unfold IsOdd
  rw [exists_int_iff (fun k => odd_neg)]
  constructor
  · intro h
    rcases exists_of_parity (x := x) (by simp [h]) with ⟨-, heven⟩ | ⟨hfinite, n, hn⟩
    · exact absurd (h.symm.trans heven) (by simp)
    · refine ⟨hfinite, n, ?_, hn⟩
      rw [parity_of_abs_value hfinite hn] at h
      split at h
      · exact absurd h (by simp)
      · rw [Int.odd_coe_nat, Nat.odd_iff]
        omega
  · rintro ⟨hfinite, n, hodd, hn⟩
    rw [Int.odd_coe_nat, Nat.odd_iff] at hodd
    rw [parity_of_abs_value hfinite hn, if_neg (by omega)]

/-- A number is even if its value is, or if it is infinity. -/
theorem parity_eq_even_iff : parity x = .even ↔ pattern x = infinitePattern ∨ IsEven x := by
  unfold IsEven
  rw [exists_int_iff (fun k => even_neg)]
  constructor
  · intro h
    rcases exists_of_parity (x := x) (by simp [h]) with ⟨hinfinite, -⟩ | ⟨hfinite, n, hn⟩
    · exact .inl hinfinite
    · refine .inr ⟨hfinite, n, ?_, hn⟩
      rw [parity_of_abs_value hfinite hn] at h
      split at h
      · rename_i heven
        rw [Int.even_coe_nat, Nat.even_iff, heven]
      · exact absurd h (by simp)
  · rintro (hinfinite | ⟨hfinite, n, heven, hn⟩)
    · unfold parity
      rw [hinfinite, if_neg (Nat.lt_irrefl _), if_pos rfl]
    · rw [Int.even_coe_nat, Nat.even_iff] at heven
      rw [parity_of_abs_value hfinite hn, if_pos heven]

/-! ## Refused powers -/

/-- A power overflows exactly if it is infinite for two finite numbers, and defined. -/
theorem boundedPower_eq_overflow_iff : boundedPower left right = .error .overflow ↔
    (pattern left < infinitePattern ∧ pattern right < infinitePattern) ∧
      isUndefinedPower left right = false ∧
        pattern (unboundedPower left right) = infinitePattern := by
  unfold boundedPower
  split <;> rename_i hfinite
  · split <;> rename_i hundefined
    · simp [hundefined]
    · split <;> rename_i hinfinite <;> simp [hfinite, hundefined, hinfinite]
  · simp [hfinite]

/-- A power is undefined exactly for a zero base with a finite exponent below zero, and for a
finite base below zero with a finite exponent that is not whole. -/
theorem boundedPower_eq_undefined_iff : boundedPower left right = .error .undefined ↔
    (pattern left < infinitePattern ∧ pattern right < infinitePattern) ∧
      (value left = 0 ∧ value right < 0 ∨ value left < 0 ∧ parity right = .fractional) := by
  rw [value_eq_zero_iff, value_neg_iff, value_neg_iff]
  unfold boundedPower isUndefinedPower
  split <;> rename_i hfinite
  · by_cases hzero : pattern left = 0
    · rw [if_pos hzero]
      split <;> rename_i hundefined
      · simp_all
      · split <;> simp_all
    · rw [if_neg hzero]
      split <;> rename_i hundefined
      · simp_all
      · split <;> simp_all
  · simp [hfinite]

/-! ## The sign of the base -/

/-- Negation keeps the magnitude. -/
lemma magnitude_neg (x : Float) : magnitude (-x) = magnitude x := by
  unfold magnitude
  rw [pattern_neg]

/-- An even exponent gives the power of the magnitude. -/
lemma unboundedPower_of_even (hright : parity right = .even) (hleft : left.isNaN = false) :
    unboundedPower left right = (magnitude left).pow right := by
  unfold unboundedPower
  split
  · unfold negativePower
    rw [hright]
  · rename_i hsign
    rw [hleft, Bool.not_false, Bool.and_true, Bool.not_eq_true] at hsign
    rw [magnitude, ofPattern_pattern hsign]

/-- An odd exponent gives the power of the magnitude with the sign of the base. -/
lemma unboundedPower_of_odd (hright : parity right = .odd) (hleft : left.isNaN = false) :
    unboundedPower left right =
      if isNegative left then -(magnitude left).pow right else (magnitude left).pow right := by
  unfold unboundedPower
  rw [hleft, Bool.not_false, Bool.and_true]
  split
  · unfold negativePower
    rw [hright]
  · rename_i hsign
    rw [Bool.not_eq_true] at hsign
    rw [magnitude, ofPattern_pattern hsign]

/-- With an even exponent the sign of the base does not matter. -/
lemma unboundedPower_neg_of_even (hright : parity right = .even) (hleft : left.isNaN = false) :
    unboundedPower (-left) right = unboundedPower left right := by
  rw [unboundedPower_of_even hright hleft,
    unboundedPower_of_even hright ((isNaN_neg left).trans hleft), magnitude_neg]

/-- With an odd exponent the sign of the base is that of the power. -/
lemma unboundedPower_neg_of_odd (hright : parity right = .odd) (hleft : left.isNaN = false) :
    unboundedPower (-left) right = -unboundedPower left right := by
  rw [unboundedPower_of_odd hright hleft,
    unboundedPower_of_odd hright ((isNaN_neg left).trans hleft),
    magnitude_neg, isNegative_neg hleft]
  cases isNegative left
  · rfl
  · exact (neg_neg _).symm

/-- Whether a power is undefined does not depend on the sign of the base, if the exponent is
whole. -/
lemma isUndefinedPower_neg (hright : parity right ≠ .fractional) :
    isUndefinedPower (-left) right = isUndefinedPower left right := by
  have hparity : (parity right == .fractional) = false := beq_eq_false_iff_ne.mpr hright
  unfold isUndefinedPower
  rw [pattern_neg, hparity, Bool.and_false, Bool.and_false]

/-- With an even exponent the bounded power does not see the sign of the base. -/
lemma boundedPower_neg_of_even (hright : parity right = .even) (hleft : left.isNaN = false) :
    boundedPower (-left) right = boundedPower left right := by
  unfold boundedPower
  rw [unboundedPower_neg_of_even hright hleft, isUndefinedPower_neg (by simp [hright]), pattern_neg]

/-- With an odd exponent the bounded power is refused with both signs, or has the sign of the
base. -/
lemma boundedPower_neg_of_odd (hright : parity right = .odd) (hleft : left.isNaN = false) :
    boundedPower (-left) right = (boundedPower left right).map (fun result => -result) := by
  unfold boundedPower
  rw [unboundedPower_neg_of_odd hright hleft, isUndefinedPower_neg (by simp [hright]), pattern_neg,
    pattern_neg]
  split
  · split
    · rfl
    · split <;> rfl
  · rfl

/-- An even exponent forgets the sign of the base. -/
lemma power_neg_of_even (hright : parity right = .even) (hleft : left.isNaN = false) :
    power (-left) right = power left right := by
  have hparity : (parity right == .odd) = false := by rw [hright]; rfl
  unfold power
  rw [boundedPower_neg_of_even hright hleft, hparity, Bool.and_false, Bool.and_false, pattern_neg]

/-- An odd exponent keeps the sign of the base, unless the power is undefined. -/
lemma power_neg_of_odd (hright : parity right = .odd) (hleft : left.isNaN = false)
    (hdefined : boundedPower left right ≠ .error .undefined) :
    power (-left) right = -power left right := by
  have hparity : (parity right == .odd) = true := by rw [hright]; rfl
  unfold power
  rw [boundedPower_neg_of_odd hright hleft, hparity, Bool.and_true, Bool.and_true,
    isNegative_neg hleft]
  generalize boundedPower left right = bounded at *
  match bounded with
  | .ok result => rfl
  | .error .undefined => exact absurd rfl hdefined
  | .error .overflow =>
    show (if (!isNegative left) = true then -infinity else infinity) =
      -(if isNegative left = true then -infinity else infinity)
    cases isNegative left
    · rfl
    · exact (neg_neg infinity).symm

/-- A power of zero that is undefined is infinity. -/
lemma power_of_undefined (hbounded : boundedPower left right = .error .undefined)
    (hzero : pattern left = 0) :
    power left right = infinity := by
  unfold power
  rw [hbounded]
  exact if_pos hzero

/-- **The sign of a power.** There is a result for all numbers. If the base has a value, its sign
does not matter for an even exponent. An odd exponent gives the power this sign, with one
exception: a zero of either sign with an exponent below zero gives infinity.

**Proof sketch.** The power of the magnitude is taken in all cases, and the sign is put on it for an
odd exponent only (`unboundedPower_neg_of_even`, `unboundedPower_neg_of_odd`). Whether it overflows
or is undefined depends on the magnitude too, and an overflow has the sign of an odd power. So only
where a power is undefined the sign is lost, and with a whole exponent that is a zero base with an
exponent below zero (`boundedPower_eq_undefined_iff`). -/
theorem power_neg (left right : Float) :
    Operator.pow.result? left right = some (power left right) ∧
    (left.isNaN = false →
      (IsEven right → power (-left) right = power left right) ∧
      (IsOdd right →
        if value left = 0 ∧ value right < 0 then
          power (-left) right = infinity ∧ power left right = infinity
        else power (-left) right = -power left right)) := by
  refine ⟨rfl, fun hleft => ⟨fun heven => ?_, fun hodd => ?_⟩⟩
  · exact power_neg_of_even (parity_eq_even_iff.mpr (.inr heven)) hleft
  · have hright := parity_eq_odd_iff.mpr hodd
    split
    · rename_i hzero
      have hpattern := value_eq_zero_iff.mp hzero.1
      have hbounded : boundedPower left right = .error .undefined := by
        rw [boundedPower_eq_undefined_iff]
        exact ⟨⟨hpattern ▸ by decide, hodd.1⟩, .inl hzero⟩
      have hneg : boundedPower (-left) right = .error .undefined := by
        rw [boundedPower_neg_of_odd hright hleft, hbounded]
        rfl
      exact ⟨power_of_undefined hneg ((pattern_neg left).trans hpattern),
        power_of_undefined hbounded hpattern⟩
    · rename_i hdefined
      apply power_neg_of_odd hright hleft
      intro hbounded
      rw [boundedPower_eq_undefined_iff] at hbounded
      rcases hbounded.2 with hzero | ⟨-, hfractional⟩
      · exact hdefined hzero
      · exact absurd (hright.symm.trans hfractional) (by simp)

/-- Two and minus two have the same square, and inverses with opposite signs. -/
theorem power_neg_two :
    (2 : Float).isNaN = false ∧ IsEven 2 ∧ IsOdd (-1) ∧
      power (-2) 2 = power 2 2 ∧ power (-2) (-1) = -power 2 (-1) := by
  have hvalue : (2 : Float).isNaN = false := by decide +kernel
  have heven : IsEven 2 :=
    (parity_eq_even_iff.mp (by decide +kernel)).resolve_left (by decide +kernel)
  have hodd : IsOdd (-1) := parity_eq_odd_iff.mp (by decide +kernel)
  have hnonzero : ¬(value 2 = 0 ∧ value (-1) < 0) := by
    rw [value_eq_zero_iff]
    exact fun h => absurd h.1 (by decide +kernel)
  have hinverse := ((power_neg 2 (-1)).2 hvalue).2 hodd
  rw [if_neg hnonzero] at hinverse
  exact ⟨hvalue, heven, hodd, ((power_neg 2 2).2 hvalue).1 heven, hinverse⟩

/-- The inverses of the two zeros are not opposite to each other: both are infinity. -/
theorem power_neg_zero_ne :
    (ofPattern 0).isNaN = false ∧ IsOdd (-1) ∧
      power (-ofPattern 0) (-1) ≠ -power (ofPattern 0) (-1) :=
  ⟨by decide +kernel, parity_eq_odd_iff.mp (by decide +kernel), by decide +kernel⟩

end Abacus.Number
