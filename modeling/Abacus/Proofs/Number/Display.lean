import Abacus.Proofs.Number.ReadBack
import Abacus.Proofs.Number.Rounding

/-!
# What a number is shown as

The text of a finite number is a decimal whose nearest number is the one that is shown. It has an
exponent if the number is small or large: the decimal is on the same side of both bounds as the
number. A point stands only in the text of a number that is not whole, or before an exponent.

## Main definitions

* `Abacus.Number.shownValue` — the value of the decimal that is shown by characters.

## Main results

* `Abacus.Number.isNearest_shownValue` — the shown decimal is nearest to the number.
* `Abacus.Number.exponent_mem_iff` — when a number is shown with an exponent.
* `Abacus.Number.display_faithful` — what the text of a number says.
-/

namespace Abacus.Number

variable {cs : List Char} {x y : Float} {p : Nat}

/-! ## The place of the point -/

namespace Decimal

variable {d : Decimal}

/-- The place of the point: how many digits stand before it. -/
def place (d : Decimal) : Int := d.digits.length + d.exponent

/-- A power of ten is beyond a decimal if its point is not behind as many digits. -/
lemma place_le_iff (hd : d.coefficient ≠ 0) (k : Int) : d.place ≤ k ↔ d.value < 10 ^ k := by
  have hlength : 0 < d.digits.length := Nat.length_toDigits_pos
  have hle : ∀ e : Nat, 0 < e → (d.digits.length ≤ e ↔ d.coefficient < 10 ^ e) :=
    fun e => Nat.length_toDigits_le_iff (by omega)
  have hten : (1 : ℚ) ≤ 10 := by norm_num
  have hpos : (0 : ℚ) < 10 ^ d.exponent := by positivity
  have hsplit : ∀ e : Int, (10 : ℚ) ^ (e + d.exponent) = 10 ^ e * 10 ^ d.exponent :=
    fun e => zpow_add₀ (by norm_num) e d.exponent
  constructor
  · intro hplace
    have hlt : (d.coefficient : ℚ) < 10 ^ (d.digits.length : Int) := by
      rw [zpow_natCast]
      exact_mod_cast (hle _ hlength).mp le_rfl
    calc d.value < 10 ^ (d.digits.length : Int) * 10 ^ d.exponent :=
      mul_lt_mul_of_pos_right hlt hpos
      _ = 10 ^ d.place := (hsplit _).symm
      _ ≤ 10 ^ k := zpow_le_zpow_right₀ hten hplace
  · contrapose!
    intro hplace
    have hge : (10 : ℚ) ^ ((d.digits.length - 1 : Nat) : Int) ≤ d.coefficient := by
      rw [zpow_natCast]
      rcases Nat.eq_zero_or_pos (d.digits.length - 1) with hzero | hone
      · rw [hzero, pow_zero]
        exact_mod_cast Nat.pos_of_ne_zero hd
      · have hnot := (hle _ hone).not.mp (by omega)
        exact_mod_cast Nat.le_of_not_lt hnot
    calc (10 : ℚ) ^ k ≤ 10 ^ (((d.digits.length - 1 : Nat) : Int) + d.exponent) :=
          zpow_le_zpow_right₀ hten (by unfold place at hplace; omega)
      _ = 10 ^ ((d.digits.length - 1 : Nat) : Int) * 10 ^ d.exponent := hsplit _
      _ ≤ d.value := mul_le_mul_of_nonneg_right hge hpos.le

/-- A decimal is written with an exponent if it is too small or too large for its point. -/
lemma exponent_mem_form_iff (hd : d.coefficient ≠ 0) :
    'e' ∈ d.form ↔ d.value < 10 ^ (-4 : Int) ∨ 10 ^ (16 : Int) ≤ d.value := by
  have hlarge := (place_le_iff hd 16).not
  rw [not_lt] at hlarge
  rw [← place_le_iff hd, ← hlarge]
  unfold form
  dsimp only
  rw [show (d.digits.length : Int) + d.exponent = d.place from rfl]
  unfold leastPositional leastScientific
  split
  · exact ⟨fun hmem => absurd hmem d.plain_positional.no_exponent, fun h => by omega⟩
  · refine ⟨fun _ => by omega, fun _ => ?_⟩
    exact List.mem_append_right _ List.mem_cons_self

end Decimal

/-! ## The exponent -/

/-- The shortest decimal of a number that is not zero has digits other than zero. -/
lemma coefficient_shortest_ne_zero (hp : p < infinitePattern) (hzero : p ≠ 0) :
    (Decimal.shortest p).coefficient ≠ 0 := by
  intro hcoefficient
  have hnear := (Decimal.shortest p).isNearest_nearest
  have hvalue : (Decimal.shortest p).value = 0 := by
    rw [Decimal.value, hcoefficient, Nat.cast_zero, zero_mul]
  have hpattern : pattern (Decimal.shortest p).nearest = p := by
    rw [Decimal.nearest, Decimal.pattern_shortest hp, pattern_ofPattern hp.le]
  have := hnear.pattern_eq (Nat.zero_le _) (by rw [hvalue, abs_zero, patternValue_zero])
  omega

/-- The number nearest to `10 ^ (-4)`. It is above, and the number before it is below. -/
lemma least_plain : ∃ least, (⟨1, -4⟩ : Decimal).pattern = least + 1 ∧
    Decimal.shortest (least + 1) = ⟨1, -4⟩ ∧
      patternValue least < 10 ^ (-4 : Int) ∧ 10 ^ (-4 : Int) ≤ patternValue (least + 1) := by
  have hten : (10 : ℚ) ^ (-4 : Int) = (1 : Nat) / (10 ^ 4 : Nat) := by norm_num
  have hpos : (0 : ℚ) < (10 ^ 4 : Nat) := by norm_num
  refine ⟨0x3F1A36E2EB1C432C, by decide +kernel, by decide +kernel, ?_, ?_⟩
  · rw [hten, lt_div_iff₀ hpos, ← not_le, natCast_le_patternValue_mul_iff]
    decide +kernel
  · rw [hten, div_le_iff₀ hpos, natCast_le_patternValue_mul_iff]
    decide +kernel

/-- The shortest decimal is below `10 ^ (-4)` if the number is. The nearest number to `10 ^ (-4)`
is above it, but has itself `10 ^ (-4)` as its shortest decimal. -/
lemma shortest_value_lt_iff (hp : p < infinitePattern) :
    (Decimal.shortest p).value < 10 ^ (-4 : Int) ↔ patternValue p < 10 ^ (-4 : Int) := by
  have hvalue : (⟨1, -4⟩ : Decimal).value = 10 ^ (-4 : Int) := by simp [Decimal.value]
  have hmono := patternValue_strictMono.monotone
  obtain ⟨least, hpattern, hshortest, hlt, hle⟩ := least_plain
  constructor
  · intro h
    have hp' : p ≤ least + 1 := by
      rw [← hpattern, ← Decimal.pattern_shortest hp]
      exact Decimal.pattern_mono (hvalue ▸ h.le)
    have hne : p ≠ least + 1 := by
      rintro rfl
      rw [hshortest, hvalue] at h
      exact lt_irrefl _ h
    exact (hmono (by omega)).trans_lt hlt
  · contrapose!
    intro h
    have hp' : least + 1 ≤ p := by
      rw [← hpattern, ← Decimal.pattern_shortest hp]
      exact Decimal.pattern_mono (hvalue ▸ h)
    exact hle.trans (hmono hp')

/-- The bound `10 ^ 16` is a number. -/
lemma patternValue_bound : patternValue (⟨1, 16⟩ : Decimal).pattern = 10 ^ (16 : Int) := by
  have hten : (10 : ℚ) ^ (16 : Int) = (10 ^ 16 : Nat) := by norm_num
  rw [hten, patternValue_eq_natCast_iff]
  decide +kernel

/-- A number is on the same side of `10 ^ 16` as its shortest decimal. -/
lemma le_patternValue (hp : p < infinitePattern)
    (h : 10 ^ (16 : Int) ≤ (Decimal.shortest p).value) :
    10 ^ (16 : Int) ≤ patternValue p := by
  have hvalue : (⟨1, 16⟩ : Decimal).value = 10 ^ (16 : Int) := by simp [Decimal.value]
  rw [← patternValue_bound]
  apply patternValue_strictMono.monotone
  rw [← Decimal.pattern_shortest hp]
  exact Decimal.pattern_mono (hvalue ▸ h)

/-- A number is on the same side of `10 ^ 16` as its shortest decimal, or it is `10 ^ 16` itself. -/
lemma patternValue_le (hp : p < infinitePattern)
    (h : (Decimal.shortest p).value < 10 ^ (16 : Int)) :
    patternValue p ≤ 10 ^ (16 : Int) := by
  have hvalue : (⟨1, 16⟩ : Decimal).value = 10 ^ (16 : Int) := by simp [Decimal.value]
  rw [← patternValue_bound]
  apply patternValue_strictMono.monotone
  rw [← Decimal.pattern_shortest hp]
  exact Decimal.pattern_mono (hvalue ▸ h.le)

/-- A number is shown as a whole number if it is whole and below the bound. -/
lemma whole_iff : units p % 2 ^ 1074 = 0 ∧ units p / 2 ^ 1074 < wholeBound ↔
    ∃ n : Nat, patternValue p = n ∧ n < 10 ^ 21 := by
  have hunit : 0 < 2 ^ 1074 := by positivity
  simp only [patternValue_eq_natCast_iff]
  constructor
  · rintro ⟨hwhole, hlt⟩
    exact ⟨_, (Nat.div_mul_cancel (Nat.dvd_of_mod_eq_zero hwhole)).symm, hlt⟩
  · rintro ⟨n, hn, hlt⟩
    rw [hn, Nat.mul_mod_left, Nat.mul_div_cancel n hunit]
    exact ⟨rfl, hlt⟩

/-- When a number without a sign is shown with an exponent: if it is not zero, and either below
`10 ^ (-4)` or not below `10 ^ 21`. -/
theorem exponent_mem_iff (hp : p < infinitePattern) : 'e' ∈ unsignedNumeral p ↔
    p ≠ 0 ∧ (patternValue p < 10 ^ (-4 : Int) ∨ 10 ^ (21 : Int) ≤ patternValue p) := by
  unfold unsignedNumeral
  split
  · rename_i hwhole
    refine ⟨fun hmem => absurd hmem (whole_plain hp hwhole.1).no_exponent,
      fun ⟨hzero, hbounds⟩ => ?_⟩
    obtain ⟨n, hn, hlt⟩ := whole_iff.mp hwhole
    have hone : (1 : ℚ) ≤ n := by
      have hpos := patternValue_pos hzero
      rw [hn] at hpos
      exact_mod_cast hpos
    rw [hn] at hbounds
    have hbound : (n : ℚ) < 10 ^ (21 : Int) := by exact_mod_cast hlt
    rcases hbounds with h | h
    · norm_num at h
      linarith
    · linarith
  · rename_i hform
    rw [whole_iff] at hform
    have hzero : p ≠ 0 := by
      rintro rfl
      exact hform ⟨0, by rw [patternValue_zero, Nat.cast_zero], by norm_num⟩
    rw [Decimal.exponent_mem_form_iff (coefficient_shortest_ne_zero hp hzero),
      shortest_value_lt_iff hp]
    -- between `10 ^ 16` and `10 ^ 21` all numbers are whole, and so shown by the first case
    have hlarge : 10 ^ (16 : Int) ≤ (Decimal.shortest p).value ↔
        10 ^ (21 : Int) ≤ patternValue p := by
      constructor
      · intro h
        have hle := le_patternValue hp h
        obtain ⟨n, hn⟩ := exists_natCast_of_le (le_trans (by norm_num) hle)
        have hbound : 10 ^ 21 ≤ n := Nat.le_of_not_lt fun hlt => hform ⟨n, hn, hlt⟩
        rw [hn]
        exact_mod_cast hbound
      · contrapose!
        intro h
        exact (patternValue_le hp h).trans_lt (by norm_num)
    rw [hlarge]
    exact ⟨fun h => ⟨hzero, h⟩, And.right⟩

/-! ## The shown decimal -/

/-- The value of the decimal that is shown by characters, perhaps with a sign before it. -/
def shownValue (cs : List Char) : ℚ :=
  match cs with
  | '-' :: ds => -(Decimal.ofDisplay ds).value
  | ds => (Decimal.ofDisplay ds).value

/-- Without a sign a decimal is shown. -/
lemma shownValue_of_head? (h : cs.head? ≠ some '-') :
    shownValue cs = (Decimal.ofDisplay cs).value := by
  unfold shownValue
  split
  · exact absurd rfl h
  · rfl

/-- A number without a sign is shown with a digit first. -/
lemma head?_unsignedNumeral (hp : p < infinitePattern) : (unsignedNumeral p).head? ≠ some '-' := by
  have hdigit : ∀ {c : Char} {ds : List Char}, c.isDigit = true → (c :: ds).head? ≠ some '-' := by
    intro c ds hc hhead
    rw [List.head?_cons, Option.some_inj] at hhead
    subst hhead
    exact absurd hc (by decide)
  rcases unsignedNumeral_cases hp with hplain | ⟨m, k, op, ⟨c, ds, hm, hc, -⟩, -, hcs⟩
  · obtain ⟨c, ds, hcs, hc⟩ := hplain.starts
    rw [hcs]
    exact hdigit hc
  · rw [hcs, hm]
    exact hdigit hc

/-- A finite number is shown with its sign, unless it is zero. -/
lemma numeral_of_lt (hx : pattern x < infinitePattern) : numeral x =
    if isNegative x = true ∧ pattern x ≠ 0 then '-' :: unsignedNumeral (pattern x)
    else unsignedNumeral (pattern x) := by
  unfold numeral
  dsimp only
  rw [if_neg (show ¬infinitePattern < pattern x by omega),
    if_neg (show pattern x ≠ infinitePattern by omega)]
  simp only [Bool.and_eq_true, bne_iff_ne, ne_eq]

/-- The shown decimal is nearest to the number, or to the zero without a sign. -/
theorem isNearest_shownValue (hx : pattern x < infinitePattern) :
    IsNearest (shownValue (numeral x)) (if pattern x = 0 then ofPattern 0 else x) := by
  have hnear := (Decimal.ofDisplay (unsignedNumeral (pattern x))).isNearest_nearest
  rw [Decimal.nearest, Decimal.pattern_ofDisplay hx] at hnear
  rw [numeral_of_lt hx]
  split
  · rename_i hsign
    have hvalue : (Decimal.ofDisplay (unsignedNumeral (pattern x))).value ≠ 0 := by
      intro hzero
      have hpattern := hnear.pattern_eq (Nat.zero_le _) (by rw [hzero, abs_zero, patternValue_zero])
      rw [pattern_ofPattern hx.le] at hpattern
      exact hsign.2 hpattern
    have hneg := hnear.neg hvalue
    rw [neg_ofPattern_pattern hsign.1 hx.le] at hneg
    rw [if_neg hsign.2]
    exact hneg
  · rename_i hsign
    rw [shownValue_of_head? (head?_unsignedNumeral hx)]
    split
    · rename_i hzero
      rw [hzero] at hnear ⊢
      exact hnear
    · rename_i hzero
      have hx' : isNegative x = false := by
        rw [← Bool.not_eq_true]
        exact fun h => hsign ⟨h, hzero⟩
      rw [ofPattern_pattern hx'] at hnear
      exact hnear

/-! ## The text of a number -/

/-- A character other than the sign is shown with or without the sign. -/
lemma mem_numeral_iff (hx : pattern x < infinitePattern) {c : Char} (hc : c ≠ '-') :
    c ∈ numeral x ↔ c ∈ unsignedNumeral (pattern x) := by
  rw [numeral_of_lt hx]
  split
  · rw [List.mem_cons]
    exact or_iff_right hc
  · exact Iff.rfl

/-- Without an exponent only what is not whole is shown with a point. -/
lemma point_mem_unsignedNumeral (hp : p < infinitePattern) (h : '.' ∈ unsignedNumeral p) :
    'e' ∈ unsignedNumeral p ∨ ¬∃ n : Nat, patternValue p = n := by
  by_cases hwhole : ∃ n : Nat, patternValue p = n ∧ n < 10 ^ 21
  · unfold unsignedNumeral at h
    rw [if_pos (whole_iff.mpr hwhole)] at h
    exact absurd h (point_notMem fun c hc => Nat.isDigit_of_mem_toDigits (by omega) (by omega) hc)
  · refine or_iff_not_imp_right.mpr fun hnat => ?_
    obtain ⟨n, hn⟩ := not_not.mp hnat
    have hbound : 10 ^ 21 ≤ n := Nat.le_of_not_lt fun hlt => hwhole ⟨n, hn, hlt⟩
    rw [exponent_mem_iff hp]
    constructor
    · rintro rfl
      rw [patternValue_zero] at hn
      have : 0 = n := by exact_mod_cast hn
      omega
    · right
      rw [hn]
      exact_mod_cast hbound

/-- Zero has the same value without its sign. -/
lemma value_without_zero_sign (x : Float) :
    value (if pattern x = 0 then ofPattern 0 else x) = value x := by
  split
  · rename_i hzero
    rw [value_eq_zero_iff.mpr hzero, value_eq_zero_iff]
    exact pattern_ofPattern (Nat.zero_le _)
  · rfl

/-- A fraction is whole if its magnitude is. -/
lemma exists_natCast_abs {q : ℚ} (h : ∃ k : ℤ, q = k) : ∃ n : Nat, |q| = n := by
  obtain ⟨k, rfl⟩ := h
  exact ⟨k.natAbs, by rw [Nat.cast_natAbs, Int.cast_abs]⟩

/-- **What the text of a finite number says.** The number nearest to the shown decimal is the
number itself, only that zero is shown without a sign. So numbers with the same text have the same
value. A point is shown only with an exponent or if neither the number nor the shown decimal is
whole. An exponent is shown exactly for what is not zero and below `10 ^ (-4)` or not below
`10 ^ 21`.

**Proof sketch.** The decimal that is shown is the whole number itself or the shortest decimal
that reads back, and both are nearest to the number (`isNearest_shownValue`). Only one number is
nearest to a decimal, so numbers with the same text are the same but for the sign of zero
(`IsNearest.eq`). A point stands in front of an exponent or in the text of a number that is not
whole (`point_mem_unsignedNumeral`), and then the decimal is not whole either, as a number that is
nearest to a whole decimal is whole. The bounds of the exponent are numbers, so the number and its
decimal are on the same side of them (`exponent_mem_iff`). -/
theorem display_faithful (hx : pattern x < infinitePattern) :
    IsNearest (shownValue (display x).toList) (if pattern x = 0 then ofPattern 0 else x) ∧
      (∀ y, pattern y < infinitePattern → display y = display x → value y = value x) ∧
      ('.' ∈ (display x).toList → 'e' ∈ (display x).toList ∨
        (∀ k : ℤ, value x ≠ k) ∧ ∀ k : ℤ, shownValue (display x).toList ≠ k) ∧
      ('e' ∈ (display x).toList ↔
        value x ≠ 0 ∧ (|value x| < 10 ^ (-4 : ℤ) ∨ 10 ^ (21 : ℤ) ≤ |value x|)) := by
  have htext : ∀ y, (display y).toList = numeral y := fun y => String.toList_ofList
  have hnear := isNearest_shownValue hx
  refine ⟨?_, fun y hy hsame => ?_, fun hpoint => ?_, ?_⟩
  · rw [htext]
    exact hnear
  · have hneary := isNearest_shownValue hy
    rw [← htext, hsame, htext] at hneary
    rw [← value_without_zero_sign y, ← value_without_zero_sign x, hneary.eq hnear]
  · rw [htext] at hpoint ⊢
    rw [mem_numeral_iff hx (by decide)] at hpoint ⊢
    refine (point_mem_unsignedNumeral hx hpoint).imp_right fun hnat =>
      ⟨fun k hk => ?_, fun k hk => ?_⟩
    · obtain ⟨n, hn⟩ := exists_natCast_abs ⟨k, hk⟩
      exact hnat ⟨n, (abs_value x).symm.trans hn⟩
    · obtain ⟨n, hn⟩ := exists_natCast_abs ⟨k, hk⟩
      obtain ⟨m, hm⟩ := hnear.exists_natCast hn
      rw [← abs_value, value_without_zero_sign, abs_value] at hm
      exact hnat ⟨m, hm⟩
  · rw [htext, mem_numeral_iff hx (by decide), exponent_mem_iff hx, abs_value, ne_eq, ne_eq,
      value_eq_zero_iff]

/-- One half is the number nearest to what it is shown as. -/
theorem display_faithful_half : pattern 0.5 < infinitePattern ∧ display 0.5 = "0.5" ∧
    IsNearest (shownValue "0.5".toList) 0.5 := by
  have hfinite : pattern 0.5 < infinitePattern := by decide +kernel
  have htext : display 0.5 = "0.5" := by decide +kernel
  have hnear := (display_faithful hfinite).1
  rw [htext, if_neg (by decide +kernel)] at hnear
  exact ⟨hfinite, htext, hnear⟩

end Abacus.Number
