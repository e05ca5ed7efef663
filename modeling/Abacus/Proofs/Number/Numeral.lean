import Abacus.Number
import Abacus.Proofs.Lexemes
import Abacus.Proofs.Number.Bits
import Abacus.Proofs.Number.Nearest

/-!
# Numerals that read back

A number without a sign is shown as digits with at most one point, which read back as that number,
or with an exponent, which falls apart into two numerals with a letter and an operator between
them. The only other one is infinity, which is shown as a name.

## Main definitions

* `Abacus.Number.Plain` — the characters that read back as the number of a pattern.
* `Abacus.Number.Split` — the characters of a numeral with an exponent.

## Main results

* `Abacus.Number.unsignedNumeral_cases` — how a finite number is shown.
* `Abacus.Number.IsLiteral.numeral_cases` — how a literal is shown.
* `Abacus.Number.Plain.nearest` — what is shown without an exponent reads back.
-/

namespace Abacus.Number

variable {cs w f digits : List Char} {p : Nat} {place : Int}

/-! ## Digits and a point -/

/-- Characters that are digits and at most one point, and whose value is nearest to the number
with the given pattern. -/
structure Plain (cs : List Char) (p : Nat) : Prop where
  starts : ∃ c cs', cs = c :: cs' ∧ c.isDigit = true
  all : ∀ c ∈ cs, isNumeralChar c = true
  points : cs.count '.' ≤ 1
  reads : (Decimal.ofNumeral cs).pattern = p

/-- No digit is a point. -/
lemma ne_point_of_isDigit {c : Char} (h : c.isDigit = true) : c ≠ '.' := by
  rintro rfl
  exact absurd h (by decide)

/-- Digits go on a numeral. -/
lemma isNumeralChar_of_isDigit {c : Char} (h : c.isDigit = true) : isNumeralChar c = true := by
  rw [isNumeralChar_iff]
  exact .inl h

/-- Digits have no point. -/
lemma point_notMem (hw : ∀ c ∈ w, c.isDigit = true) : '.' ∉ w :=
  fun hmem => ne_point_of_isDigit (hw _ hmem) rfl

/-- Digits without a point denote their value. -/
lemma ofNumeral_whole (hw : ∀ c ∈ w, c.isDigit = true) :
    Decimal.ofNumeral w = ⟨Nat.ofDigitChars 10 w 0, 0⟩ := by
  have hsplit : (w ++ []).takeWhile (· != '.') = w ∧ (w ++ []).dropWhile (· != '.') = [] :=
    takeWhile_append_of_notMem (point_notMem hw) (by simp)
  rw [List.append_nil] at hsplit
  simp [Decimal.ofNumeral, hsplit.1, hsplit.2]

/-- Behind a point every digit counts one power of ten less. -/
lemma ofNumeral_point (hw : ∀ c ∈ w, c.isDigit = true) (f : List Char) :
    Decimal.ofNumeral (w ++ '.' :: f) = ⟨Nat.ofDigitChars 10 (w ++ f) 0, -(f.length : Int)⟩ := by
  have hsplit : (w ++ '.' :: f).takeWhile (· != '.') = w ∧
      (w ++ '.' :: f).dropWhile (· != '.') = '.' :: f :=
    takeWhile_append_of_notMem (point_notMem hw) (by simp)
  simp [Decimal.ofNumeral, hsplit.1, hsplit.2]

/-- Digits have no point to count. -/
lemma count_point (hw : ∀ c ∈ w, c.isDigit = true) : w.count '.' = 0 :=
  List.count_eq_zero.mpr (point_notMem hw)

/-- Digits are read as their value. -/
lemma Plain.whole (hne : w ≠ []) (hw : ∀ c ∈ w, c.isDigit = true) :
    Plain w (⟨Nat.ofDigitChars 10 w 0, 0⟩ : Decimal).pattern := by
  obtain ⟨c, cs, rfl⟩ := List.exists_cons_of_ne_nil hne
  exact {
    starts := ⟨c, cs, rfl, hw c List.mem_cons_self⟩
    all := fun c hc => isNumeralChar_of_isDigit (hw c hc)
    points := by rw [count_point hw]; omega
    reads := by rw [ofNumeral_whole hw] }

/-- Digits on both sides of a point are read as their value. -/
lemma Plain.point (hne : w ≠ []) (hw : ∀ c ∈ w, c.isDigit = true) (hf : ∀ c ∈ f, c.isDigit = true) :
    Plain (w ++ '.' :: f)
      (⟨Nat.ofDigitChars 10 (w ++ f) 0, -(f.length : Int)⟩ : Decimal).pattern := by
  refine ⟨?_, ?_, ?_, by rw [ofNumeral_point hw]⟩
  · obtain ⟨c, cs, rfl⟩ := List.exists_cons_of_ne_nil hne
    exact ⟨c, cs ++ '.' :: f, rfl, hw c List.mem_cons_self⟩
  · intro c hc
    rw [List.mem_append, List.mem_cons] at hc
    rcases hc with hc | rfl | hc
    · exact isNumeralChar_of_isDigit (hw c hc)
    · decide
    · exact isNumeralChar_of_isDigit (hf c hc)
  · rw [List.count_append, List.count_cons, count_point hw, count_point hf]
    simp

/-- Zeros are digits. -/
lemma isDigit_of_mem_zeros (n : Nat) : ∀ c ∈ List.replicate n '0', c.isDigit = true := by
  intro c hc
  rw [List.eq_of_mem_replicate hc]
  decide

/-- A point inside of digits takes away one power of ten for each digit behind it. -/
lemma Plain.inside (hdigits : ∀ c ∈ digits, c.isDigit = true) {n : Nat} (hn : 0 < n)
    (hle : n < digits.length) :
    Plain (digits.take n ++ '.' :: digits.drop n)
      (⟨Nat.ofDigitChars 10 digits 0, (n : Int) - digits.length⟩ : Decimal).pattern := by
  have hne : digits.take n ≠ [] := by
    apply List.ne_nil_of_length_pos
    rw [List.length_take]
    omega
  have h := Plain.point (f := digits.drop n) hne
    (fun c hc => hdigits c (List.mem_of_mem_take hc))
    (fun c hc => hdigits c (List.mem_of_mem_drop hc))
  have hexponent : -((digits.drop n).length : Int) = (n : Int) - digits.length := by
    rw [List.length_drop]
    omega
  rw [List.take_append_drop, hexponent] at h
  exact h

/-- Every zero behind digits gives them one power of ten. -/
lemma Plain.zeros_behind (hne : digits ≠ []) (hdigits : ∀ c ∈ digits, c.isDigit = true) (n : Nat) :
    Plain (digits ++ List.replicate n '0')
      (⟨Nat.ofDigitChars 10 digits 0, n⟩ : Decimal).pattern := by
  have h := Plain.whole (List.append_ne_nil_of_left_ne_nil hne _)
    (List.forall_mem_append.mpr ⟨hdigits, isDigit_of_mem_zeros n⟩)
  rw [Nat.ofDigitChars_append, Nat.ofDigitChars_replicate_zero, Nat.mul_comm, Decimal.pattern_shift,
    Int.zero_add] at h
  exact h

/-- Zeros between a point and digits behind it take away one power of ten each, as the digits do. -/
lemma Plain.zeros_before (hdigits : ∀ c ∈ digits, c.isDigit = true) (n : Nat) :
    Plain ('0' :: '.' :: (List.replicate n '0' ++ digits))
      (⟨Nat.ofDigitChars 10 digits 0, -(n : Int) - digits.length⟩ : Decimal).pattern := by
  have h := Plain.point (w := ['0']) (List.cons_ne_nil _ _) (isDigit_of_mem_zeros 1)
    (List.forall_mem_append.mpr ⟨isDigit_of_mem_zeros n, hdigits⟩)
  have hcoefficient : Nat.ofDigitChars 10 (['0'] ++ (List.replicate n '0' ++ digits)) 0 =
      Nat.ofDigitChars 10 digits 0 := by
    rw [Nat.ofDigitChars_append, Nat.ofDigitChars_append, Nat.ofDigitChars_replicate_zero]
    rfl
  have hexponent : -((List.replicate n '0' ++ digits).length : Int) =
      -(n : Int) - digits.length := by
    rw [List.length_append, List.length_replicate]
    omega
  rw [hcoefficient, hexponent] at h
  exact h

/-- Digits with a point at its place are read as the digits with that many powers of ten.

**Proof sketch.** The point stands right before the digits, between them, behind them with zeros in
between, or before zeros that lead to the digits. Only the zeros behind the digits change the
coefficient, which `Decimal.pattern_shift` makes up for. -/
lemma positional_plain (hne : digits ≠ []) (hdigits : ∀ c ∈ digits, c.isDigit = true)
    (place : Int) :
    Plain (positional digits place)
      (⟨Nat.ofDigitChars 10 digits 0, place - digits.length⟩ : Decimal).pattern := by
  cases place with
  | ofNat n =>
    rw [positional, Int.ofNat_eq_natCast]
    split_ifs with hzero hlt
    · subst hzero
      exact Plain.zeros_before hdigits 0
    · exact Plain.inside hdigits (Nat.pos_of_ne_zero hzero) hlt
    · have hexponent : (n : Int) - digits.length = ((n - digits.length : Nat) : Int) := by
        omega
      rw [hexponent]
      exact Plain.zeros_behind hne hdigits (n - digits.length)
  | negSucc n =>
    rw [positional, Int.negSucc_eq]
    exact Plain.zeros_before hdigits (n + 1)

/-! ## Exponents -/

/-- The characters of a numeral with an exponent: a numeral, the letter, a sign and another
numeral. -/
def Split (cs : List Char) : Prop :=
  ∃ m k : String, ∃ op : Operator, (Lexeme.number m).Written ∧ (Lexeme.number k).Written ∧
    cs = m.toList ++ 'e' :: op.symbol :: k.toList

/-- A digit with digits and points behind it is a numeral. -/
lemma written_number {c : Char} (hc : c.isDigit = true) (hcs : ∀ d ∈ cs, isNumeralChar d = true) :
    (Lexeme.number (String.ofList (c :: cs))).Written :=
  ⟨c, cs, String.toList_ofList, hc, List.all_eq_true.mpr hcs⟩

/-- The digits of a number are at least one. -/
lemma toDigits_eq_cons (n : Nat) :
    ∃ c cs, Nat.toDigits 10 n = c :: cs ∧ ∀ d ∈ c :: cs, d.isDigit = true := by
  obtain ⟨c, cs, hcs⟩ := List.exists_cons_of_ne_nil (Nat.toDigits_ne_nil (n := n) (b := 10))
  refine ⟨c, cs, hcs, fun d hd => ?_⟩
  rw [← hcs] at hd
  exact Nat.isDigit_of_mem_toDigits (by omega) (by omega) hd

/-- An exponent is a sign and digits. -/
lemma exponentMark_eq (exponent : Int) :
    ∃ (op : Operator) (k : String), (Lexeme.number k).Written ∧
      exponentMark exponent = 'e' :: op.symbol :: k.toList := by
  obtain ⟨c, cs, hcs, hdigits⟩ := toDigits_eq_cons exponent.natAbs
  have hc := hdigits c List.mem_cons_self
  have hsign : ∃ op : Operator, (if exponent < 0 then '-' else '+') = op.symbol := by
    split
    · exact ⟨.sub, rfl⟩
    · exact ⟨.add, rfl⟩
  obtain ⟨op, hop⟩ := hsign
  simp only [exponentMark, hcs, hop]
  split
  · refine ⟨op, String.ofList ('0' :: c :: cs), written_number (by decide) ?_, by simp⟩
    exact fun d hd => isNumeralChar_of_isDigit (hdigits d hd)
  · refine ⟨op, String.ofList (c :: cs), written_number hc ?_, by simp⟩
    exact fun d hd => isNumeralChar_of_isDigit (hdigits d (List.mem_cons_of_mem c hd))

/-- Digits with an exponent are two numerals with the letter and a sign between them. -/
lemma scientific_split (hne : digits ≠ []) (hdigits : ∀ c ∈ digits, c.isDigit = true)
    (exponent : Int) : Split (scientific digits exponent) := by
  obtain ⟨op, k, hk, hmark⟩ := exponentMark_eq exponent
  obtain ⟨c, cs, rfl⟩ := List.exists_cons_of_ne_nil hne
  have hc := hdigits c List.mem_cons_self
  cases cs with
  | nil =>
    refine ⟨String.ofList [c], k, op, written_number hc (by simp), hk, ?_⟩
    simp [scientific, hmark]
  | cons d ds =>
    have hall : ∀ x ∈ '.' :: d :: ds, isNumeralChar x = true := by
      intro x hx
      rcases List.mem_cons.mp hx with rfl | hx
      · decide
      · exact isNumeralChar_of_isDigit (hdigits x (List.mem_cons_of_mem c hx))
    refine ⟨String.ofList (c :: '.' :: d :: ds), k, op, written_number hc hall, hk, ?_⟩
    simp [scientific, hmark]

/-! ## Finite numbers -/

/-- A whole number is shown by its digits, which read back. -/
lemma whole_plain (hp : p < infinitePattern) (h : units p % 2 ^ 1074 = 0) :
    Plain (Nat.toDigits 10 (units p / 2 ^ 1074)) p := by
  obtain ⟨c, cs, hcs, hdigits⟩ := toDigits_eq_cons (units p / 2 ^ 1074)
  rw [← hcs] at hdigits
  have hplain := Plain.whole Nat.toDigits_ne_nil hdigits
  have hexponent : (⟨units p / 2 ^ 1074, 0⟩ : Decimal).exponent = ((0 : Nat) : Int) - (0 : Nat) :=
    rfl
  rw [Nat.ofDigitChars_ten_toDigits, Decimal.pattern_eq hexponent, Nat.pow_zero, Nat.mul_one,
    Nat.div_mul_cancel (Nat.dvd_of_mod_eq_zero h), nearestPattern_units hp] at hplain
  exact hplain

/-- The digits of a decimal are digits. -/
lemma Decimal.isDigit_of_mem (d : Decimal) : ∀ c ∈ d.digits, c.isDigit = true :=
  fun _ => Nat.isDigit_of_mem_toDigits (by omega) (by omega)

/-- A decimal has digits. -/
lemma Decimal.digits_ne_nil (d : Decimal) : d.digits ≠ [] := Nat.toDigits_ne_nil

/-- The digits of a decimal have the coefficient as their value. -/
lemma Decimal.ofDigitChars_digits (d : Decimal) : Nat.ofDigitChars 10 d.digits 0 = d.coefficient :=
  Nat.ofDigitChars_ten_toDigits

/-- The digits of a decimal with the point at its place are read as the decimal. -/
lemma Decimal.plain_positional (d : Decimal) :
    Plain (positional d.digits (d.digits.length + d.exponent)) d.pattern := by
  have hplain := positional_plain d.digits_ne_nil d.isDigit_of_mem (d.digits.length + d.exponent)
  have hexponent : (d.digits.length : Int) + d.exponent - d.digits.length = d.exponent := by
    omega
  rw [d.ofDigitChars_digits, hexponent] at hplain
  exact hplain

/-- The form of a decimal is digits with at most one point, or it has an exponent. -/
lemma form_cases (d : Decimal) : Plain d.form d.pattern ∨ Split d.form := by
  rw [Decimal.form]
  split
  · exact .inl d.plain_positional
  · exact .inr (scientific_split d.digits_ne_nil d.isDigit_of_mem _)

/-- A finite number is shown by digits with at most one point that read back, or with an
exponent. -/
theorem unsignedNumeral_cases (hp : p < infinitePattern) :
    Plain (unsignedNumeral p) p ∨ Split (unsignedNumeral p) := by
  have hform := form_cases (Decimal.shortest p)
  rw [Decimal.pattern_shortest hp] at hform
  rw [unsignedNumeral]
  split
  · rename_i h
    exact .inl (whole_plain hp h.1)
  · exact hform

/-! ## Literals -/

/-- The numbers that numerals denote: those without a sign that have a value, and infinity. -/
def IsLiteral (x : Float) : Prop := isNegative x = false ∧ pattern x ≤ infinitePattern

/-- A numeral denotes a literal. -/
lemma isLiteral_of_literal? {x : Float} (h : literal? cs = some x) : IsLiteral x := by
  rw [literal?] at h
  split at h
  · cases h
    have hle : (Decimal.ofNumeral cs).pattern ≤ infinitePattern := by
      rw [Decimal.pattern]
      split <;> exact Nat.min_le_left _ _
    exact ⟨isNegative_ofPattern hle, Nat.le_trans (Nat.le_of_eq (pattern_ofPattern hle)) hle⟩
  · cases h

variable {x : Float}

/-- A literal is shown without a sign, and infinity as a name. -/
lemma IsLiteral.numeral_eq (hx : IsLiteral x) : numeral x =
    if pattern x = infinitePattern then "Infinity".toList else unsignedNumeral (pattern x) := by
  have hle : ¬ infinitePattern < pattern x := by
    have := hx.2
    omega
  simp only [numeral, if_neg hle, hx.1, Bool.false_and, Bool.false_eq_true, if_false]

/-- How a literal is shown: infinity as a name, and every other one by digits with at most one point
that read back, or with an exponent. -/
lemma IsLiteral.numeral_cases (hx : IsLiteral x) :
    (pattern x = infinitePattern ∧ numeral x = "Infinity".toList) ∨
      (pattern x ≠ infinitePattern ∧ Plain (numeral x) (pattern x)) ∨ Split (numeral x) := by
  have hnumeral := hx.numeral_eq
  by_cases hinf : pattern x = infinitePattern
  · rw [if_pos hinf] at hnumeral
    exact .inl ⟨hinf, hnumeral⟩
  · rw [if_neg hinf] at hnumeral
    rw [hnumeral]
    rcases unsignedNumeral_cases (Nat.lt_of_le_of_ne hx.2 hinf) with h | h
    · exact .inr (.inl ⟨hinf, h⟩)
    · exact .inr (.inr h)

/-- Digits with at most one point are read as the number that they show. -/
lemma Plain.nearest (hx : IsLiteral x) (h : Plain cs (pattern x)) :
    (Decimal.ofNumeral cs).nearest = x := by
  rw [Decimal.nearest, h.reads, ofPattern_pattern hx.1]

/-- Digits with at most one point have no exponent. -/
lemma Plain.no_exponent (h : Plain cs p) : 'e' ∉ cs :=
  fun hmem => absurd (h.all 'e' hmem) (by decide)

end Abacus.Number
