import Abacus.Number
import Mathlib.Tactic.Lemma

/-!
# Decimals that read back

The number nearest to a decimal depends only on the value of the decimal, and a number is the
nearest one to its own value. So the shortest decimal of a number reads back as that number.

## Main results

* `Abacus.Number.nearestPattern_congr` — equal quotients are rounded to the same pattern.
* `Abacus.Number.nearestPattern_units` — the value of a finite pattern is rounded to the pattern.
* `Abacus.Number.Decimal.pattern_shift` — zeros at the end of a coefficient may go to the exponent.
* `Abacus.Number.Decimal.pattern_shortest` — the shortest decimal of a pattern reads back.
-/

namespace Abacus.Number

variable {num den num' den' k p : Nat}

/-! ## Rounding quotients -/

/-- A quotient that is rounded does not change with a common factor. -/
lemma roundQuotient_scale (num den : Nat) (hk : 0 < k) :
    roundQuotient (num * k) (den * k) = roundQuotient num den := by
  have hquotient : num * k / (den * k) = num / den := Nat.mul_div_mul_right num den hk
  have hrest : num * k % (den * k) = num % den * k := Nat.mul_mod_mul_right k num den
  have hlt : 2 * (num % den * k) < den * k ↔ 2 * (num % den) < den := by
    rw [← Nat.mul_assoc]
    exact Nat.mul_lt_mul_right hk
  have heq : 2 * (num % den * k) = den * k ↔ 2 * (num % den) = den := by
    rw [← Nat.mul_assoc]
    exact Nat.mul_left_inj (by omega)
  simp only [roundQuotient, hquotient, hrest, hlt, heq]

/-- A pattern does not change with a common factor. -/
lemma nearestPattern_scale (num den : Nat) (hk : 0 < k) :
    nearestPattern (num * k) (den * k) = nearestPattern num den := by
  have hquotient : num * k / (den * k) = num / den := Nat.mul_div_mul_right num den hk
  have hround := roundQuotient_scale num (den * 2 ^ ((num / den).log2 - 52)) hk
  rw [Nat.mul_right_comm] at hround
  simp only [nearestPattern, hquotient, hround]

/-- Equal quotients are rounded to the same pattern. -/
theorem nearestPattern_congr (hden : 0 < den) (hden' : 0 < den') (h : num * den' = num' * den) :
    nearestPattern num den = nearestPattern num' den' := by
  rw [← nearestPattern_scale num den hden', h, Nat.mul_comm den den',
    nearestPattern_scale num' den' hden]

/-- The value of a finite pattern is rounded to the pattern itself.

**Proof sketch.** With exponent zero or one the value has at most 53 bits and nothing is rounded
off. Any further exponent puts zeros behind the 53 bits of the mantissa, as many as are rounded
off. -/
theorem nearestPattern_units (hp : p < infinitePattern) : nearestPattern (units p) 1 = p := by
  have hdiv := Nat.div_add_mod p (2 ^ 52)
  have hmod : p % 2 ^ 52 < 2 ^ 52 := Nat.mod_lt p (by omega)
  rw [nearestPattern, Nat.div_one, Nat.one_mul, units]
  split
  · rename_i hexp
    have hlog : (p % 2 ^ 52).log2 - 52 = 0 := by
      rcases Nat.eq_zero_or_pos (p % 2 ^ 52) with h | h
      · rw [h]
        rfl
      · have := (Nat.log2_lt (by omega)).mpr hmod
        omega
    have hround := roundQuotient_mul_right (p % 2 ^ 52) Nat.one_pos
    rw [Nat.mul_one] at hround
    rw [hlog, Nat.pow_zero, hround]
    omega
  · rename_i hexp
    generalize p / 2 ^ 52 = e at *
    generalize p % 2 ^ 52 = f at *
    obtain ⟨e, rfl⟩ : ∃ e', e = e' + 1 := ⟨e - 1, by omega⟩
    have hlog : ((2 ^ 52 + f) * 2 ^ e).log2 = 52 + e := by
      have hpos : 0 < 2 ^ e := Nat.two_pow_pos e
      rw [Nat.log2_eq_iff (Nat.mul_ne_zero (by omega) (by omega))]
      constructor
      · rw [Nat.pow_add]
        exact Nat.mul_le_mul_right _ (by omega)
      · rw [show 52 + e + 1 = 53 + e by omega, Nat.pow_add]
        exact Nat.mul_lt_mul_of_pos_right (by omega) hpos
    rw [Nat.add_sub_cancel, hlog, Nat.add_sub_cancel_left,
      roundQuotient_mul_right _ (Nat.two_pow_pos e)]
    omega

/-! ## The pattern of a decimal -/

namespace Decimal

variable {d : Decimal}

/-- The pattern of a decimal, with its exponent as any difference. -/
lemma pattern_eq {a b : Nat} (h : d.exponent = (a : Int) - b) :
    d.pattern = nearestPattern (d.coefficient * 10 ^ a * 2 ^ 1074) (10 ^ b) := by
  have hten : ∀ n : Nat, 0 < 10 ^ n := fun n => Nat.pow_pos (by omega)
  rw [pattern]
  generalize 2 ^ 1074 = unit
  cases hexp : d.exponent with
  | ofNat e =>
    obtain rfl : a = e + b := by
      rw [hexp, Int.ofNat_eq_natCast] at h
      omega
    refine nearestPattern_congr Nat.one_pos (hten b) ?_
    rw [Nat.pow_add]
    ac_rfl
  | negSucc e =>
    obtain rfl : b = a + (e + 1) := by
      rw [hexp] at h
      omega
    refine nearestPattern_congr (hten _) (hten _) ?_
    rw [Nat.pow_add]
    ac_rfl

/-- Zeros at the end of a coefficient may go to the exponent. -/
theorem pattern_shift (c k : Nat) (e : Int) :
    (⟨c * 10 ^ k, e⟩ : Decimal).pattern = (⟨c, e + k⟩ : Decimal).pattern := by
  have he : e = (e.toNat : Int) - (-e).toNat := by omega
  have hk : e + k = ((e.toNat + k : Nat) : Int) - (-e).toNat := by omega
  rw [pattern_eq (d := ⟨c * 10 ^ k, e⟩) he, pattern_eq (d := ⟨c, e + k⟩) hk, Nat.pow_add]
  generalize 2 ^ 1074 = unit
  dsimp only
  congr 1
  ac_rfl

/-- Digits are followed by as many zeros as they end with. -/
lemma exists_append_zeros (cs : List Char) :
    ∃ ds, cs = ds ++ List.replicate (cs.reverse.takeWhile (· == '0')).length '0' := by
  have hzeros : cs.reverse.takeWhile (· == '0') =
      List.replicate (cs.reverse.takeWhile (· == '0')).length '0' := by
    rw [List.eq_replicate_iff]
    refine ⟨rfl, fun c hc => ?_⟩
    have hall := List.all_takeWhile (p := (· == '0')) (l := cs.reverse)
    rw [List.all_eq_true] at hall
    simpa using hall c hc
  refine ⟨(cs.reverse.dropWhile (· == '0')).reverse, ?_⟩
  rw [← List.reverse_replicate, ← hzeros, ← List.reverse_append, List.takeWhile_append_dropWhile,
    List.reverse_reverse]

/-- The zeros that a decimal is trimmed of are factors of its coefficient. -/
lemma exists_trim (d : Decimal) :
    ∃ k : Nat, d.coefficient = d.trim.coefficient * 10 ^ k ∧ d.trim.exponent = d.exponent + k := by
  obtain ⟨ds, hds⟩ := exists_append_zeros d.digits
  refine ⟨(d.digits.reverse.takeWhile (· == '0')).length, ?_, rfl⟩
  rw [trim]
  generalize (d.digits.reverse.takeWhile (· == '0')).length = k at *
  have hcoefficient : d.coefficient = 10 ^ k * Nat.ofDigitChars 10 ds 0 := by
    rw [← Nat.ofDigitChars_replicate_zero, ← Nat.ofDigitChars_append, ← hds, digits,
      Nat.ofDigitChars_ten_toDigits]
  rw [Nat.div_mul_cancel ⟨_, hcoefficient⟩]

/-- A decimal that is trimmed reads as before. -/
lemma pattern_trim (d : Decimal) : d.trim.pattern = d.pattern := by
  obtain ⟨k, hcoefficient, hexponent⟩ := d.exists_trim
  have hshift := pattern_shift d.trim.coefficient k d.exponent
  rw [← hcoefficient, ← hexponent] at hshift
  exact hshift.symm

/-- The whole expansion of a number reads back. -/
lemma pattern_exact (hp : p < infinitePattern) : (exact p).pattern = p := by
  have hscaled : ∀ n : Nat, nearestPattern (units p * 5 ^ n * 10 ^ 0 * 2 ^ n) (10 ^ n) = p := by
    intro n
    have hten : 10 ^ n = 5 ^ n * 2 ^ n := Nat.mul_pow 5 2 n
    refine Eq.trans (nearestPattern_congr (Nat.pow_pos (by omega)) Nat.one_pos ?_)
      (nearestPattern_units hp)
    rw [hten, Nat.pow_zero, Nat.mul_one, Nat.mul_one, Nat.mul_assoc]
  have hexp : (exact p).exponent = ((0 : Nat) : Int) - (1074 : Nat) := rfl
  rw [pattern_eq hexp]
  exact hscaled 1074

/-- The shortest decimal of a number reads back. -/
theorem pattern_shortest (hp : p < infinitePattern) : (shortest p).pattern = p := by
  rw [shortest]
  generalize hfound : List.findSome? _ _ = found
  cases found with
  | none => rw [Option.getD_none, pattern_trim, pattern_exact hp]
  | some d =>
    obtain ⟨i, -, hd⟩ := List.exists_of_findSome?_eq_some hfound
    exact pattern_of_onGrid hd

end Decimal

end Abacus.Number
