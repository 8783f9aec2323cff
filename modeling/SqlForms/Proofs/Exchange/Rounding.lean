import Mathlib.Algebra.Order.Field.Power
import Mathlib.Algebra.Order.Ring.Rat
import Mathlib.Algebra.Field.Rat
import Mathlib.Tactic.Linarith
import Mathlib.Tactic.Positivity
import Mathlib.Tactic.Ring
import SqlForms.Number.Text

/-! # Rounding to a double

    A double stands for the interval of rationals that are rounded to it:
    half a unit of its last bit to either side, and only a quarter below a
    power of two, where the doubles lie twice as close.  The ends belong to
    it when its mantissa is even.  Rounding a quotient of naturals works
    with logarithms and remainders; here it is shown to send every quotient
    of that interval to the double, also where the quotient lies just below
    the power of two and rounding has to carry. -/

namespace SqlForms

/-- A shifted one is a power of two. -/
theorem cast_one_shiftLeft (k : Nat) : ((1 <<< k : Nat) : ℚ) = 2 ^ k := by
  simp [Nat.shiftLeft_eq]

/-! ## The parts of a double -/

namespace Binary64

/-- Whether `m · 2 ^ q` is a positive double as its parts give it. -/
structure IsParts (m : Nat) (q : Int) : Prop where
  pos : 0 < m
  lt : m < 1 <<< 53
  ge_min : -1074 ≤ q
  le_max : q ≤ 971
  normal : 1 <<< 52 ≤ m ∨ q = -1074

/-- A double is put together again from its fields. -/
theorem ofFields_fields (x : Binary64) : ofFields x.isNegative x.exponentField x.fraction = x := by
  have hlt := x.bits.toNat_lt
  have hbits : ((if x.isNegative then 1 <<< 63 else 0) + x.exponentField <<< 52 + x.fraction) =
      x.bits.toNat := by
    simp only [isNegative, exponentField, fraction, Nat.shiftLeft_eq, decide_eq_true_eq]
    split <;> omega
  rw [ofFields, hbits, UInt64.ofNat_toNat]

private theorem fraction_lt (x : Binary64) : x.fraction < 1 <<< 52 :=
  Nat.mod_lt _ (by decide)

/-- A pattern is put together again from its mantissa and exponent. -/
theorem ofParts_parts (x : Binary64) : ofParts x.isNegative x.mantissa x.exponent = x := by
  have hfrac := x.fraction_lt
  by_cases h0 : x.exponentField = 0
  · rw [ofParts, mantissa, if_pos h0, if_pos hfrac]
    exact (congrArg (ofFields x.isNegative · x.fraction) h0.symm).trans x.ofFields_fields
  · have hfield : (x.exponent + 1075).toNat = x.exponentField := by
      unfold exponent
      omega
    rw [ofParts, mantissa, if_neg h0, if_neg (by omega), hfield, Nat.add_sub_cancel_left,
      ofFields_fields]

/-- Without a mantissa a double is zero. -/
theorem ofParts_zero (negative : Bool) (q : Int) : ofParts negative 0 q = zero negative := by
  rw [ofParts, if_pos (by decide)]
  rfl

/-- The mantissa and the exponent of a finite double other than zero are in their ranges. -/
theorem isParts_parts {x : Binary64} (h : x.isFinite = true) (hm : x.mantissa ≠ 0) :
    IsParts x.mantissa x.exponent := by
  have hfrac := x.fraction_lt
  have hlt : x.exponentField < 1 <<< 11 := Nat.mod_lt _ (by decide)
  have hne : x.exponentField ≠ 0x7ff := by simpa [isFinite] using h
  unfold mantissa exponent at *
  simp only [Nat.reduceShiftLeft] at *
  by_cases h0 : x.exponentField = 0
  · rw [if_pos h0] at hm ⊢
    exact ⟨by omega, by omega, by omega, by omega, .inr (by omega)⟩
  · rw [if_neg h0] at hm ⊢
    exact ⟨by omega, by omega, by omega, by omega, .inl (by omega)⟩

end Binary64

/-! ## Logarithms and remainders -/

namespace BinaryFormat

private theorem scale_pos {den : Nat} (h : 0 < den) (num : Nat) (q : Int) :
    0 < (scale num den q).2 := by
  unfold scale
  split
  · simpa [Nat.shiftLeft_eq] using h
  · exact h

/-- Scaling divides by a power of two. -/
theorem scale_eq (num den : Nat) (q : Int) :
    ((scale num den q).1 : ℚ) / (scale num den q).2 = num / den / 2 ^ q := by
  unfold scale
  split
  next h =>
    obtain ⟨k, rfl⟩ := Int.eq_ofNat_of_zero_le h
    simp [Nat.shiftLeft_eq, div_div]
  next h =>
    obtain ⟨k, hk⟩ := Int.eq_ofNat_of_zero_le (a := -q) (by omega)
    obtain rfl : q = -k := by omega
    simp [Nat.shiftLeft_eq, div_mul_eq_mul_div]

private theorem log2_bounds {n : Nat} (h : n ≠ 0) :
    (2 : ℚ) ^ (n.log2 : ℤ) ≤ n ∧ (n : ℚ) < 2 ^ ((n.log2 : ℤ) + 1) := by
  constructor
  · exact_mod_cast Nat.log2_self_le h
  · exact_mod_cast Nat.lt_log2_self

/-- The magnitude is the power of two at or below the quotient. -/
theorem magnitude_bounds {num den : Nat} (hn : num ≠ 0) (hd : den ≠ 0) :
    (2 : ℚ) ^ magnitude num den ≤ num / den ∧ (num : ℚ) / den < 2 ^ (magnitude num den + 1) := by
  obtain ⟨hn1, hn2⟩ := log2_bounds hn
  obtain ⟨hd1, hd2⟩ := log2_bounds hd
  have hpos : (0 : ℚ) < den := by exact_mod_cast Nat.pos_of_ne_zero hd
  unfold magnitude
  generalize he : Int.ofNat num.log2 - Int.ofNat den.log2 = e
  have hnum : (num.log2 : ℤ) = den.log2 + e := by
    rw [← he]
    simp
  rw [hnum] at hn1 hn2
  have hlow : (2 : ℚ) ^ (e - 1) ≤ num / den := by
    rw [le_div_iff₀ hpos]
    calc (2 : ℚ) ^ (e - 1) * den ≤ 2 ^ (e - 1) * 2 ^ ((den.log2 : ℤ) + 1) := by gcongr
      _ = 2 ^ ((den.log2 : ℤ) + e) := by rw [← zpow_add₀ (by norm_num)]; congr 1; ring
      _ ≤ num := hn1
  have hhigh : (num : ℚ) / den < 2 ^ (e + 1) := by
    rw [div_lt_iff₀ hpos]
    calc (num : ℚ) < 2 ^ ((den.log2 : ℤ) + e + 1) := hn2
      _ = 2 ^ (e + 1) * 2 ^ (den.log2 : ℤ) := by rw [← zpow_add₀ (by norm_num)]; congr 1; ring
      _ ≤ 2 ^ (e + 1) * den := by gcongr
  have hscale := scale_eq num den e
  have hsp : (0 : ℚ) < (scale num den e).2 := by
    exact_mod_cast scale_pos (Nat.pos_of_ne_zero hd) num e
  have hiff : (scale num den e).1 ≥ (scale num den e).2 ↔ (2 : ℚ) ^ e ≤ num / den := by
    rw [← one_le_div₀ (by positivity : (0 : ℚ) < 2 ^ e), ← hscale, one_le_div₀ hsp, Nat.cast_le]
  -- The difference of the two lengths is the magnitude, or one too large.
  by_cases h : (2 : ℚ) ^ e ≤ num / den
  · simp only [if_pos (hiff.mpr h)]
    exact ⟨h, hhigh⟩
  · simp only [if_neg (mt hiff.mp h), sub_add_cancel]
    exact ⟨hlow, not_le.mp h⟩

/-- A quotient within half of a number is rounded to it, at exactly half only if it is even. -/
theorem divideEven_eq {num den m : Nat} (hd : 0 < den) (hlow : (m : ℚ) - 1 / 2 ≤ num / den)
    (hhigh : (num : ℚ) / den ≤ m + 1 / 2)
    (hodd : m % 2 = 1 → (m : ℚ) - 1 / 2 < num / den ∧ (num : ℚ) / den < m + 1 / 2) :
    divideEven num den = m := by
  have hpos : (0 : ℚ) < den := by exact_mod_cast hd
  rw [le_div_iff₀ hpos] at hlow
  rw [div_le_iff₀ hpos] at hhigh
  rw [lt_div_iff₀ hpos, div_lt_iff₀ hpos] at hodd
  have hlow' : 2 * (m * den) ≤ 2 * num + den := by
    have : (2 * (m * den) : ℚ) ≤ 2 * num + den := by linarith
    exact_mod_cast this
  have hhigh' : 2 * num ≤ 2 * (m * den) + den := by
    have : (2 * num : ℚ) ≤ 2 * (m * den) + den := by linarith
    exact_mod_cast this
  have hodd' : m % 2 = 1 → 2 * (m * den) < 2 * num + den ∧ 2 * num < 2 * (m * den) + den := by
    intro h
    obtain ⟨h1, h2⟩ := hodd h
    constructor
    · have : (2 * (m * den) : ℚ) < 2 * num + den := by linarith
      exact_mod_cast this
    · have : (2 * num : ℚ) < 2 * (m * den) + den := by linarith
      exact_mod_cast this
  have hdiv := Nat.div_add_mod num den
  have hmod := Nat.mod_lt num hd
  unfold divideEven
  generalize num / den = k at *
  generalize num % den = r at *
  -- The quotient is within half a unit of `m`, so `m` is its floor or the next natural.
  have hle : k ≤ m := by
    by_contra hlt
    have : den * (m + 1) ≤ den * k := Nat.mul_le_mul_left den (by omega)
    rw [Nat.mul_add, Nat.mul_comm den m] at this
    omega
  have hge : m ≤ k + 1 := by
    by_contra hlt
    have : den * (k + 2) ≤ den * m := Nat.mul_le_mul_left den (by omega)
    rw [Nat.mul_add, Nat.mul_comm den m] at this
    omega
  obtain rfl | rfl : m = k ∨ m = k + 1 := by omega
  · rw [Nat.mul_comm] at hdiv
    dsimp only
    split
    · rfl
    · split
      · omega
      · omega
  · rw [Nat.add_mul, Nat.one_mul, Nat.mul_comm k den] at *
    dsimp only
    split
    · omega
    · split
      · rfl
      · omega

end BinaryFormat

/-! ## The interval of a double -/

namespace Binary64

/-- How far below `m · 2 ^ q` a real may lie to be rounded up to it, in units of `2 ^ q`. -/
def gapBelow (m : Nat) (q : Int) : ℚ :=
  if m = 1 <<< 52 ∧ q > -1074 then 1 / 4 else 1 / 2

/-- Whether a real is rounded to `m · 2 ^ q`. -/
structure Near (m : Nat) (q : Int) (r : ℚ) : Prop where
  low : (m - gapBelow m q) * 2 ^ q ≤ r
  high : r ≤ (m + 1 / 2) * 2 ^ q
  odd : m % 2 = 1 → (m - gapBelow m q) * 2 ^ q < r ∧ r < (m + 1 / 2) * 2 ^ q

/-- The gap below a double is not empty. -/
theorem gapBelow_pos (m : Nat) (q : Int) : 0 < gapBelow m q := by
  unfold gapBelow
  split <;> norm_num

/-- The gap below is at most as wide as the one above. -/
theorem gapBelow_le (m : Nat) (q : Int) : gapBelow m q ≤ 1 / 2 := by
  unfold gapBelow
  split <;> norm_num

/-- What is near a double other than zero is positive. -/
theorem Near.pos {m : Nat} {q : Int} {r : ℚ} (h : Near m q r) (hm : 0 < m) : 0 < r := by
  have hgap := gapBelow_le m q
  have hm' : (1 : ℚ) ≤ m := by exact_mod_cast hm
  have hpow : (0 : ℚ) < 2 ^ q := by positivity
  exact lt_of_lt_of_le (mul_pos (by linarith) hpow) h.low

/-- What is near a double is below the next power of two. -/
theorem Near.lt {m : Nat} {q : Int} {r : ℚ} (h : Near m q r) (hm : m < 1 <<< 53) :
    r < 2 ^ (53 + q) := by
  have hm' : (m : ℚ) + 1 ≤ 2 ^ 53 := by exact_mod_cast hm
  calc r ≤ (m + 1 / 2) * 2 ^ q := h.high
    _ < 2 ^ 53 * 2 ^ q := by gcongr; linarith
    _ = 2 ^ (53 + q) := by rw [zpow_add₀ (by norm_num)]; norm_num

/-- What is near a double is not below half the least one. -/
theorem Near.ge_min {m : Nat} {q : Int} {r : ℚ} (h : Near m q r) (hp : IsParts m q) :
    (2 : ℚ) ^ (-1075 : ℤ) ≤ r := by
  have hgap := gapBelow_le m q
  have hm : (1 : ℚ) ≤ m := by exact_mod_cast hp.pos
  have hpow : (2 : ℚ) ^ (-1074 : ℤ) ≤ 2 ^ q := zpow_le_zpow_right₀ (by norm_num) hp.ge_min
  calc (2 : ℚ) ^ (-1075 : ℤ) = 1 / 2 * 2 ^ (-1074 : ℤ) := by
        rw [show (-1075 : ℤ) = -1 + -1074 by rfl, zpow_add₀ (by norm_num), zpow_neg_one, one_div]
    _ ≤ (m - gapBelow m q) * 2 ^ q := mul_le_mul (by linarith) hpow (by positivity) (by linarith)
    _ ≤ r := h.low

end Binary64

/-! ## Rounding a quotient of the interval -/

namespace BinaryFormat

open Binary64

variable {m : Nat} {q : Int} {num den : Nat}

private theorem lt_of_zpow_lt {a b : Int} (h : (2 : ℚ) ^ a < 2 ^ b) : a < b :=
  (zpow_lt_zpow_iff_right₀ (by norm_num)).mp h

/-- The magnitude is the only power of two with its bounds. -/
theorem magnitude_eq {e : Int} (hn : num ≠ 0) (hd : den ≠ 0) (hlow : (2 : ℚ) ^ e ≤ num / den)
    (hhigh : (num : ℚ) / den < 2 ^ (e + 1)) : magnitude num den = e := by
  obtain ⟨h1, h2⟩ := magnitude_bounds hn hd
  have := lt_of_zpow_lt (lt_of_le_of_lt h1 hhigh)
  have := lt_of_zpow_lt (lt_of_le_of_lt hlow h2)
  omega

/-- Rounding to a double, once the exponent that it chooses is known. -/
theorem round?_double (hn : num ≠ 0) (hq : max (magnitude num den - 52) (-1074) = q)
    (hm : divideEven (scale num den q).1 (scale num den q).2 = m) :
    double.round? num den =
      if m = 1 <<< 53 then if q + 1 > 971 then none else some (1 <<< 52, q + 1)
      else if q > 971 then none else some (m, q) := by
  have hq' : max (magnitude num den - ((53 : Nat) - 1)) (-1074) = q := by
    rw [← hq]
    norm_num
  simp only [round?, double, if_neg hn, hq', hm]
  by_cases h : m = 1 <<< 53
  · simp only [if_pos h]
  · simp only [if_neg h]

private theorem num_ne_zero (hp : IsParts m q) (h : Near m q (num / den)) : num ≠ 0 := by
  rintro rfl
  simpa using h.pos hp.pos

/-- Where the exponent that rounding chooses is the one of the number, so is the mantissa. -/
theorem round?_of_exponent (hd : 0 < den) (hp : IsParts m q) (h : Near m q (num / den))
    (hq : max (magnitude num den - 52) (-1074) = q) :
    double.round? num den = some (m, q) := by
  have hpow : (0 : ℚ) < 2 ^ q := by positivity
  have hgap := gapBelow_le m q
  have hm : divideEven (scale num den q).1 (scale num den q).2 = m := by
    refine divideEven_eq (scale_pos hd num q) ?_ ?_ ?_
    · rw [scale_eq, le_div_iff₀ hpow]
      exact le_trans (by gcongr) h.low
    · rw [scale_eq, div_le_iff₀ hpow]
      exact h.high
    · intro hodd
      rw [scale_eq, lt_div_iff₀ hpow, div_lt_iff₀ hpow]
      exact ⟨lt_of_le_of_lt (by gcongr) (h.odd hodd).1, (h.odd hodd).2⟩
  rw [round?_double (num_ne_zero hp h) hq hm, if_neg (Nat.ne_of_lt hp.lt),
    if_neg (not_lt.mpr hp.le_max)]

/-- Just below a power of two the chosen exponent is one less, and rounding carries. -/
theorem round?_of_carry (hd : 0 < den) (hmax : q ≤ 971) (hmin : -1074 < q)
    (h : Near (1 <<< 52) q (num / den)) (hlt : (num : ℚ) / den < 2 ^ (52 + q)) :
    double.round? num den = some (1 <<< 52, q) := by
  have hn : num ≠ 0 := by
    rintro rfl
    simpa using h.pos (by decide)
  have hpow : (0 : ℚ) < 2 ^ (q - 1) := by positivity
  have hsplit : (2 : ℚ) ^ q = 2 * 2 ^ (q - 1) := by
    rw [← zpow_one_add₀ (by norm_num)]
    congr 1
    ring
  -- In units of half the last bit the quotient lies between `2 ^ 53 - 1 / 2` and `2 ^ 53`.
  have hlow : (2 ^ 53 - 1 / 2) * 2 ^ (q - 1) ≤ (num : ℚ) / den := by
    have := h.low
    rw [gapBelow, if_pos ⟨rfl, hmin⟩, hsplit, cast_one_shiftLeft] at this
    refine le_trans (le_of_eq ?_) this
    ring
  have hhigh : (num : ℚ) / den < 2 ^ 53 * 2 ^ (q - 1) := by
    refine lt_of_lt_of_eq hlt ?_
    rw [zpow_add₀ (by norm_num), hsplit]
    norm_num
    ring
  have hmag : magnitude num den = 51 + q := by
    refine magnitude_eq hn (Nat.ne_of_gt hd) (le_trans ?_ hlow) ?_
    · rw [show 51 + q = 52 + (q - 1) by ring, zpow_add₀ (by norm_num)]
      gcongr
      norm_num
    · rwa [show 51 + q + 1 = 52 + q by ring]
  have hm : divideEven (scale num den (q - 1)).1 (scale num den (q - 1)).2 = 1 <<< 53 := by
    refine divideEven_eq (scale_pos hd num _) ?_ ?_ fun hodd => absurd hodd (by decide)
    · rw [scale_eq, le_div_iff₀ hpow, cast_one_shiftLeft]
      exact hlow
    · rw [scale_eq, div_le_iff₀ hpow, cast_one_shiftLeft]
      refine le_of_lt (lt_of_lt_of_le hhigh ?_)
      gcongr
      norm_num
  rw [round?_double hn (q := q - 1) (by omega) hm, if_pos rfl, if_neg (by omega), sub_add_cancel]

/-- Every quotient near a double is rounded to it. -/
theorem round?_of_near (hd : 0 < den) (hp : IsParts m q) (h : Near m q (num / den)) :
    double.round? num den = some (m, q) := by
  have hn := num_ne_zero hp h
  have hmin := hp.ge_min
  have hlt := h.lt hp.lt
  obtain ⟨hmag, -⟩ := magnitude_bounds hn (Nat.ne_of_gt hd)
  have hupper := lt_of_zpow_lt (lt_of_le_of_lt hmag hlt)
  by_cases hlow : (2 : ℚ) ^ (52 + q) ≤ num / den
  · have heq : magnitude num den = 52 + q :=
      magnitude_eq hn (Nat.ne_of_gt hd) hlow (by rwa [show 52 + q + 1 = 53 + q by ring])
    exact round?_of_exponent hd hp h (by omega)
  · by_cases hq : q = -1074
    · exact round?_of_exponent hd hp h (by omega)
    · -- A normal mantissa this low can only be the power of two itself.
      have hnormal : 1 <<< 52 ≤ m := hp.normal.resolve_right hq
      have hm : m = 1 <<< 52 := by
        by_contra hne
        have hsucc : (2 ^ 52 + 1 : ℚ) ≤ m := by
          have : 1 <<< 52 + 1 ≤ m := by omega
          exact_mod_cast this
        have hgap := gapBelow_le m q
        refine hlow (le_trans ?_ h.low)
        rw [zpow_add₀ (by norm_num), zpow_ofNat]
        gcongr
        linarith
      subst hm
      exact round?_of_carry hd hp.le_max (by omega) h (not_le.mp hlow)

end BinaryFormat
end SqlForms
