import Abacus.Proofs.Number.Numeral

/-!
# What the characters of a number say

The characters that show a number denote a decimal, also those with an exponent. The number
nearest to it is the number that is shown.

## Main definitions

* `Abacus.Number.Decimal.ofDisplay` — the decimal that is shown by characters.

## Main results

* `Abacus.Number.Decimal.pattern_ofDisplay` — what shows a finite number reads back as its pattern.
-/

namespace Abacus.Number

variable {cs digits : List Char} {p : Nat} {x : Float}

namespace Decimal

/-- The decimal that is shown by characters: digits with at most one point, and perhaps the letter
of an exponent with a sign and more digits behind it. -/
def ofDisplay (cs : List Char) : Decimal :=
  let d := ofNumeral (cs.takeWhile (· != 'e'))
  match cs.dropWhile (· != 'e') with
  | _ :: sign :: ds =>
    let power : Int := Nat.ofDigitChars 10 ds 0
    ⟨d.coefficient, d.exponent + if sign = '-' then -power else power⟩
  | _ => d

/-- Without the letter of an exponent a numeral is shown. -/
lemma ofDisplay_of_notMem (h : 'e' ∉ cs) : ofDisplay cs = ofNumeral cs := by
  have hsplit : (cs ++ []).takeWhile (· != 'e') = cs ∧ (cs ++ []).dropWhile (· != 'e') = [] :=
    takeWhile_append_of_notMem h (by simp)
  rw [List.append_nil] at hsplit
  simp only [ofDisplay, hsplit.1, hsplit.2]

/-- The letter of an exponent ends the digits, and what is behind it counts powers of ten. -/
lemma ofDisplay_exponentMark (h : 'e' ∉ cs) (e : Int) :
    ofDisplay (cs ++ exponentMark e) =
      ⟨(ofNumeral cs).coefficient, (ofNumeral cs).exponent + e⟩ := by
  obtain ⟨ds, hmark, hvalue⟩ : ∃ ds, exponentMark e = 'e' :: (if e < 0 then '-' else '+') :: ds ∧
      Nat.ofDigitChars 10 ds 0 = e.natAbs := by
    refine ⟨_, rfl, ?_⟩
    have hdigits := Nat.ofDigitChars_ten_toDigits (n := e.natAbs)
    split
    · -- A zero in front does not change the value.
      exact hdigits
    · exact hdigits
  rw [hmark]
  generalize hsign : (if e < 0 then '-' else '+') = sign
  have hsplit : (cs ++ 'e' :: sign :: ds).takeWhile (· != 'e') = cs ∧
      (cs ++ 'e' :: sign :: ds).dropWhile (· != 'e') = 'e' :: sign :: ds :=
    takeWhile_append_of_notMem h (by simp)
  simp only [ofDisplay, hsplit.1, hsplit.2, hvalue]
  congr 2
  by_cases hneg : e < 0
  · rw [if_pos hneg] at hsign
    rw [if_pos hsign.symm]
    omega
  · rw [if_neg hneg] at hsign
    rw [if_neg (hsign ▸ by decide)]
    omega

/-- Digits with an exponent have the point behind the first one. -/
lemma ofDisplay_scientific (hne : digits ≠ []) (hdigits : ∀ c ∈ digits, c.isDigit = true)
    (e : Int) :
    ofDisplay (scientific digits e) = ⟨Nat.ofDigitChars 10 digits 0, e + 1 - digits.length⟩ := by
  have hletter : ∀ cs : List Char, (∀ c ∈ cs, c.isDigit = true) → 'e' ∉ cs :=
    fun cs hcs hmem => absurd (hcs 'e' hmem) (by decide)
  obtain ⟨c, cs, rfl⟩ := List.exists_cons_of_ne_nil hne
  cases cs with
  | nil =>
    rw [scientific, ofDisplay_exponentMark (hletter _ hdigits), ofNumeral_whole hdigits]
    simp
  | cons d ds =>
    rw [List.forall_mem_cons] at hdigits
    have hone : ∀ c' ∈ [c], c'.isDigit = true := List.forall_mem_singleton.mpr hdigits.1
    have hmem : 'e' ∉ c :: '.' :: d :: ds := by
      rw [List.mem_cons, List.mem_cons]
      rintro (rfl | h | h)
      · exact absurd hdigits.1 (by decide)
      · exact absurd h (by decide)
      · exact hletter _ hdigits.2 h
    have hpoint := ofNumeral_point hone (d :: ds)
    rw [List.singleton_append, List.singleton_append] at hpoint
    rw [scientific, ofDisplay_exponentMark hmem, hpoint]
    · simp only [List.length_cons]
      congr 1
      omega
    · simp

/-- The form of a decimal shows a decimal with the same pattern. -/
lemma pattern_ofDisplay_form (d : Decimal) : (ofDisplay d.form).pattern = d.pattern := by
  rw [form]
  split
  · have hplain := d.plain_positional
    rw [ofDisplay_of_notMem hplain.no_exponent, hplain.reads]
  · rw [ofDisplay_scientific d.digits_ne_nil d.isDigit_of_mem, d.ofDigitChars_digits]
    congr 2
    omega

/-- What shows a finite number reads back as the pattern of the number. -/
theorem pattern_ofDisplay (hp : p < infinitePattern) :
    (ofDisplay (unsignedNumeral p)).pattern = p := by
  rw [unsignedNumeral]
  split
  · rename_i h
    have hplain := whole_plain hp h.1
    rw [ofDisplay_of_notMem hplain.no_exponent, hplain.reads]
  · rw [pattern_ofDisplay_form, pattern_shortest hp]

end Decimal

/-- What shows a finite literal reads back as the literal. -/
lemma IsLiteral.ofPattern_ofDisplay (hx : IsLiteral x) (hfinite : pattern x ≠ infinitePattern) :
    ofPattern (Decimal.ofDisplay (numeral x)).pattern = x := by
  rw [hx.numeral_eq, if_neg hfinite, Decimal.pattern_ofDisplay (Nat.lt_of_le_of_ne hx.2 hfinite),
    ofPattern_pattern hx.1]

end Abacus.Number
