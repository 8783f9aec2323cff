import Mathlib.Tactic.LinearCombination
import SqlForms.Proofs.Exchange.Digits
import SqlForms.Proofs.Exchange.Rounding

/-! # The shortest decimal is read back

    The shortest decimal of a double is searched on grids of more and more
    digits.  Whatever grid the search ends on, the point it takes lies in
    the interval of the double, and the grid of seventeen digits is finer
    than that interval, so the search does end.  Reading rounds once, from
    a decimal of that value to the double it came from. -/

namespace SqlForms

namespace Decimal

/-- The number that a decimal denotes. -/
def value (d : Decimal) : ℚ :=
  d.digits * 10 ^ d.exponent

/-- Dropping zeros at the end keeps the value. -/
theorem value_trim (fuel : Nat) (d : Decimal) : (trim fuel d).value = d.value := by
  induction fuel generalizing d with
  | zero => rfl
  | succ fuel ih =>
      rw [trim]
      split
      next h =>
        have hdigits : (d.digits : ℚ) = 10 * (d.digits / 10 : Nat) := by
          exact_mod_cast (Nat.mul_div_cancel' (Nat.dvd_of_mod_eq_zero h.2)).symm
        rw [ih, value, value, hdigits, zpow_add_one₀ (by norm_num)]
        ring
      next => rfl

private theorem two_pow_le_ten_pow {a b : Nat} (h : a ≤ 3 * b) : (2 : ℚ) ^ a ≤ 10 ^ b :=
  calc (2 : ℚ) ^ a ≤ 2 ^ (3 * b) := pow_le_pow_right₀ (by norm_num) h
    _ = 8 ^ b := by rw [pow_mul]; norm_num
    _ ≤ 10 ^ b := by gcongr; norm_num

/-! ## The leading place -/

/-- The places below are enough to bring a fraction up to one. -/
theorem le_mul_placesBelow {num den fuel : Nat} (h : den ≤ num * 10 ^ fuel) :
    den ≤ num * 10 ^ placesBelow num den fuel := by
  induction fuel generalizing num with
  | zero => exact h
  | succ fuel ih =>
      rw [placesBelow]
      split
      next hge => simpa using hge
      next =>
        rw [pow_succ', ← mul_assoc]
        refine ih ?_
        rwa [pow_succ', ← mul_assoc] at h

/-- A number of so many digits is at least the power of ten of that length. -/
theorem pow_length_le {n : Nat} (h : 0 < n) : 10 ^ ((Nat.toDigits 10 n).length - 1) ≤ n := by
  have hne : (Nat.toDigits 10 n).length ≠ 0 := by simp [Nat.toDigits_ne_nil]
  rcases Nat.eq_zero_or_pos ((Nat.toDigits 10 n).length - 1) with h0 | hpos
  · rw [h0, pow_zero]
    exact h
  · refine not_lt.mp fun hlt => ?_
    have := (Nat.length_toDigits_le_iff (by decide) hpos).mpr hlt
    omega

/-- The leading place of a quotient is not too high. -/
theorem zpow_leadingPlace_le {num den : Nat} (hd : 0 < den) (h : den ≤ num * 10 ^ 400) :
    (10 : ℚ) ^ (leadingPlace num den - 1) ≤ num / den := by
  have hpos : (0 : ℚ) < den := by exact_mod_cast hd
  unfold leadingPlace
  split
  next hge =>
    have hquot : 0 < num / den := Nat.div_pos hge hd
    have hlen : 1 ≤ (Nat.toDigits 10 (num / den)).length := by
      have : (Nat.toDigits 10 (num / den)).length ≠ 0 := by simp [Nat.toDigits_ne_nil]
      omega
    rw [le_div_iff₀ hpos, ← Nat.cast_one, ← Nat.cast_sub hlen, zpow_natCast]
    have hmul : 10 ^ ((Nat.toDigits 10 (num / den)).length - 1) * den ≤ num :=
      le_trans (Nat.mul_le_mul_right den (pow_length_le hquot)) (Nat.div_mul_le_self num den)
    exact_mod_cast hmul
  next hlt =>
    have hmul : (den : ℚ) ≤ num * 10 ^ placesBelow num den 400 := by
      exact_mod_cast le_mul_placesBelow h
    rw [show (1 : ℤ) - Int.ofNat (placesBelow num den 400) - 1 =
      -((placesBelow num den 400 : ℕ) : ℤ) by simp, zpow_neg, zpow_natCast,
      le_div_iff₀ hpos, inv_mul_le_iff₀ (by positivity)]
    linarith

namespace Span

/-- Whether a real is not below an interval. -/
def FromLow (i : Span) (r : ℚ) : Prop :=
  if i.closed then i.low ≤ r * i.den else i.low < r * i.den

/-- Whether a real is not above an interval. -/
def ToHigh (i : Span) (r : ℚ) : Prop :=
  if i.closed then r * i.den ≤ i.high else r * i.den < i.high

/-- Whether an interval lies around its number. -/
structure IsProper (i : Span) : Prop where
  den_pos : 0 < i.den
  low_lt : i.low < i.value
  lt_high : i.value < i.high

private theorem FromLow.of_lt {i : Span} {r : ℚ} (h : i.low < r * i.den) : i.FromLow r := by
  unfold FromLow
  split
  · exact le_of_lt h
  · exact h

private theorem ToHigh.of_lt {i : Span} {r : ℚ} (h : r * i.den < i.high) : i.ToHigh r := by
  unfold ToHigh
  split
  · exact le_of_lt h
  · exact h

/-! ## Grids -/

private theorem ten_zpow (unit : Int) : (10 : ℚ) ^ unit * 10 ^ (-unit).toNat = 10 ^ unit.toNat := by
  rw [← zpow_natCast, ← zpow_natCast, ← zpow_add₀ (by norm_num)]
  congr 1
  omega

/-- A point of the grid over the denominator of the grid. -/
theorem cast_grid (k d : Nat) (unit : Int) :
    ((k * (d * Nat.pow 10 unit.toNat) : Nat) : ℚ) = k * 10 ^ unit * d * 10 ^ (-unit).toNat := by
  rw [Nat.pow_eq]
  push_cast
  rw [← ten_zpow]
  ring

private theorem cast_moved (a : Nat) (unit : Int) :
    ((a * Nat.pow 10 (-unit).toNat : Nat) : ℚ) = a * 10 ^ (-unit).toNat := by
  rw [Nat.pow_eq, Nat.cast_mul, Nat.cast_pow, Nat.cast_ofNat]

section Comparing

variable {a k d : Nat} {unit : Int}

private theorem le_grid_iff : a * Nat.pow 10 (-unit).toNat ≤ k * (d * Nat.pow 10 unit.toNat) ↔
    (a : ℚ) ≤ k * 10 ^ unit * d := by
  rw [← Nat.cast_le (α := ℚ), cast_grid, cast_moved, mul_le_mul_iff_of_pos_right (by positivity)]

private theorem grid_le_iff : k * (d * Nat.pow 10 unit.toNat) ≤ a * Nat.pow 10 (-unit).toNat ↔
    (k : ℚ) * 10 ^ unit * d ≤ a := by
  rw [← Nat.cast_le (α := ℚ), cast_grid, cast_moved, mul_le_mul_iff_of_pos_right (by positivity)]

private theorem lt_grid_iff : a * Nat.pow 10 (-unit).toNat < k * (d * Nat.pow 10 unit.toNat) ↔
    (a : ℚ) < k * 10 ^ unit * d := by
  rw [← not_le, grid_le_iff, not_le]

private theorem grid_lt_iff : k * (d * Nat.pow 10 unit.toNat) < a * Nat.pow 10 (-unit).toNat ↔
    (k : ℚ) * 10 ^ unit * d < a := by
  rw [← not_le, le_grid_iff, not_le]

end Comparing

variable {i : Span} {unit : Int}

/-- The grid point right below the number of an interval. -/
def below (i : Span) (unit : Int) : Nat :=
  i.value * Nat.pow 10 (-unit).toNat / (i.den * Nat.pow 10 unit.toNat)

/-- The point of a grid below a value is not above it. -/
theorem below_le (i : Span) (unit : Int) : (i.below unit : ℚ) * 10 ^ unit * i.den ≤ i.value :=
  grid_le_iff.mp (Nat.div_mul_le_self _ _)

/-- The next point of the grid is above it. -/
theorem lt_below_succ (hd : 0 < i.den) (unit : Int) :
    (i.value : ℚ) < (i.below unit + 1 : Nat) * 10 ^ unit * i.den := by
  have hden : 0 < i.den * Nat.pow 10 unit.toNat := Nat.mul_pos hd (Nat.pow_pos (by decide))
  refine not_le.mp fun h => ?_
  exact absurd (grid_le_iff.mpr h) (not_le.mpr (Nat.lt_mul_of_div_lt (Nat.lt_succ_self _) hden))

/-- A grid is hit at the lower neighbour when that is not below the interval, at the upper one when
    that is not above it, and nowhere else. -/
theorem onGrid?_cases (i : Span) (tie : Tie) (unit : Int) :
    (i.onGrid? tie unit = some (i.below unit) ∧ i.FromLow (i.below unit * 10 ^ unit)) ∨
      (i.onGrid? tie unit = some (i.below unit + 1) ∧
        i.ToHigh ((i.below unit + 1 : Nat) * 10 ^ unit)) ∨
      (i.onGrid? tie unit = none ∧ ¬ i.FromLow (i.below unit * 10 ^ unit) ∧
        ¬ i.ToHigh ((i.below unit + 1 : Nat) * 10 ^ unit)) := by
  cases hc : i.closed
  case' true => simp only [onGrid?, FromLow, ToHigh, hc, if_true, ← le_grid_iff, ← grid_le_iff]
  case' false =>
    simp only [onGrid?, FromLow, ToHigh, hc, Bool.false_eq_true, if_false, ← lt_grid_iff,
      ← grid_lt_iff]
  all_goals
    split
    next h => exact .inl ⟨rfl, h.1⟩
    next h =>
      split
      next h' => exact .inr (.inl ⟨rfl, h'⟩)
      next h' => exact .inr (.inr ⟨rfl, fun hl => h ⟨hl, .inl h'⟩, h'⟩)

/-- A point that is chosen on a grid lies in the span. -/
theorem holds_of_onGrid? (hi : i.IsProper) {tie : Tie} {k : Nat}
    (h : i.onGrid? tie unit = some k) : i.FromLow (k * 10 ^ unit) ∧ i.ToHigh (k * 10 ^ unit) := by
  have hlow : (i.low : ℚ) < i.value := by exact_mod_cast hi.low_lt
  have hhigh : (i.value : ℚ) < i.high := by exact_mod_cast hi.lt_high
  rcases i.onGrid?_cases tie unit with ⟨hk, hl⟩ | ⟨hk, hh⟩ | ⟨hk, -, -⟩
  · obtain rfl := Option.some.inj (hk.symm.trans h)
    exact ⟨hl, .of_lt (lt_of_le_of_lt (below_le i unit) hhigh)⟩
  · obtain rfl := Option.some.inj (hk.symm.trans h)
    exact ⟨.of_lt (lt_trans hlow (lt_below_succ hi.den_pos unit)), hh⟩
  · cases hk.symm.trans h

/-- An interval that is wider than the grid is hit. -/
theorem exists_onGrid? (tie : Tie)
    (hw : (10 : ℚ) ^ unit * i.den < i.high - i.low) : ∃ k, i.onGrid? tie unit = some k := by
  rcases i.onGrid?_cases tie unit with ⟨hk, -⟩ | ⟨hk, -⟩ | ⟨-, hl, hh⟩
  · exact ⟨_, hk⟩
  · exact ⟨_, hk⟩
  · -- The neighbours are one unit apart, and neither lies strictly inside.
    have hlow := not_lt.mp (mt FromLow.of_lt hl)
    have hhigh := not_lt.mp (mt ToHigh.of_lt hh)
    push_cast at hhigh
    linarith

/-- A search that reaches a grid finer than the interval ends on a grid point of the interval. -/
theorem holds_search (hi : i.IsProper) (tie : Tie) (n fuel : Nat) {place : Int} {last : Nat}
    (hn : n ≤ last) (hlast : last < n + fuel)
    (hw : (10 : ℚ) ^ (place - last) * i.den < i.high - i.low) :
    i.FromLow (i.search tie place n fuel).value ∧ i.ToHigh (i.search tie place n fuel).value := by
  induction fuel generalizing n with
  | zero => omega
  | succ fuel ih =>
      rw [search]
      split
      next k hk => exact holds_of_onGrid? hi hk
      next hnone =>
        have hne : n ≠ last := by
          rintro rfl
          obtain ⟨k, hk⟩ := exists_onGrid? tie hw
          cases hk.symm.trans hnone
        exact ih (n + 1) (by omega) (by omega)

/-! ## The interval around a double -/

section Around

variable {m : Nat} {q : Int}

/-- The number and the ends of its interval, over their denominator. -/
theorem cast_around (hm : 0 < m) (q : Int) :
    0 < (around m q).den ∧
    ((around m q).low : ℚ) = (m - Binary64.gapBelow m q) * 2 ^ q * (around m q).den ∧
    ((around m q).value : ℚ) = m * 2 ^ q * (around m q).den ∧
    ((around m q).high : ℚ) = (m + 1 / 2) * 2 ^ q * (around m q).den := by
  -- The three are multiples of one factor, a quarter of a unit over the denominator.
  obtain ⟨f, d, hd, hfd, heq⟩ : ∃ f d : Nat, 0 < d ∧ (4 * f : ℚ) = 2 ^ q * d ∧
      around m q = ⟨(4 * m - if m = 1 <<< 52 ∧ q > -1074 then 1 else 2) * f, 4 * m * f,
        (4 * m + 2) * f, d, decide (m % 2 = 0)⟩ := by
    by_cases hq : q ≥ 2
    · refine ⟨1 <<< (q - 2).toNat, 1, by decide, ?_, by simp only [around, if_pos hq]⟩
      rw [cast_one_shiftLeft, ← zpow_natCast, Int.toNat_of_nonneg (by omega),
        zpow_sub₀ (by norm_num)]
      norm_num
      ring
    · refine ⟨1, 1 <<< (2 - q).toNat, by simp [Nat.shiftLeft_eq], ?_,
        by simp only [around, if_neg hq]⟩
      rw [cast_one_shiftLeft, ← zpow_natCast, Int.toNat_of_nonneg (by omega),
        ← zpow_add₀ (by norm_num), show q + (2 - q) = 2 by ring]
      norm_num
  have hlow : ((4 * m - if m = 1 <<< 52 ∧ q > -1074 then 1 else 2 : Nat) : ℚ) =
      4 * (m - Binary64.gapBelow m q) := by
    unfold Binary64.gapBelow
    split
    · rw [Nat.cast_sub (by omega)]
      push_cast
      ring
    · rw [Nat.cast_sub (by omega)]
      push_cast
      ring
  rw [heq]
  dsimp only
  refine ⟨hd, ?_, ?_, ?_⟩
  · rw [Nat.cast_mul, hlow]
    linear_combination (m - Binary64.gapBelow m q) * hfd
  · push_cast
    linear_combination (m : ℚ) * hfd
  · push_cast
    linear_combination (m + 1 / 2 : ℚ) * hfd

/-- The span around a double has an inside. -/
theorem isProper_around (hm : 0 < m) (q : Int) : (around m q).IsProper := by
  obtain ⟨hd, hlow, hvalue, hhigh⟩ := cast_around hm q
  have hpos : (0 : ℚ) < (around m q).den := by exact_mod_cast hd
  have hgap := Binary64.gapBelow_pos m q
  refine ⟨hd, ?_, ?_⟩
  · rw [← Nat.cast_lt (α := ℚ), hlow, hvalue]
    gcongr
    linarith
  · rw [← Nat.cast_lt (α := ℚ), hvalue, hhigh]
    gcongr
    linarith

/-- What lies in the span around a double is near it. -/
theorem near_of_around {r : ℚ} (hm : 0 < m) (hl : (around m q).FromLow r)
    (hh : (around m q).ToHigh r) : Binary64.Near m q r := by
  obtain ⟨hd, hlow, -, hhigh⟩ := cast_around hm q
  have hpos : (0 : ℚ) < (around m q).den := by exact_mod_cast hd
  have hclosed : (around m q).closed = decide (m % 2 = 0) := rfl
  simp only [FromLow, ToHigh, hlow, hhigh, hclosed, decide_eq_true_eq,
    mul_le_mul_iff_of_pos_right hpos, mul_lt_mul_iff_of_pos_right hpos] at hl hh
  by_cases heven : m % 2 = 0
  · rw [if_pos heven] at hl hh
    exact ⟨hl, hh, fun hodd => by omega⟩
  · rw [if_neg heven] at hl hh
    exact ⟨le_of_lt hl, le_of_lt hh, fun _ => ⟨hl, hh⟩⟩

/-- No double needs more places than the search for the leading one has. -/
theorem den_le_around (hp : Binary64.IsParts m q) :
    (around m q).den ≤ (around m q).value * 10 ^ 400 := by
  obtain ⟨-, -, hvalue, -⟩ := cast_around hp.pos q
  have hm : (1 : ℚ) ≤ m := by exact_mod_cast hp.pos
  have hq : ((2 : ℚ) ^ 1074)⁻¹ ≤ 2 ^ q := by
    rw [← zpow_natCast, ← zpow_neg]
    exact zpow_le_zpow_right₀ (by norm_num) hp.ge_min
  have hten := two_pow_le_ten_pow (a := 1074) (b := 400) (by decide)
  have hone : (1 : ℚ) ≤ m * 2 ^ q * 10 ^ 400 :=
    calc (1 : ℚ) = 1 * (2 ^ 1074)⁻¹ * 2 ^ 1074 := by
          rw [one_mul, inv_mul_cancel₀ (by positivity)]
      _ ≤ m * 2 ^ q * 10 ^ 400 := by gcongr
  have hle : ((around m q).den : ℚ) ≤ (around m q).value * 10 ^ 400 := by
    rw [hvalue]
    calc ((around m q).den : ℚ) ≤ m * 2 ^ q * 10 ^ 400 * (around m q).den :=
          le_mul_of_one_le_left (by positivity) hone
      _ = m * 2 ^ q * (around m q).den * 10 ^ 400 := by rw [mul_right_comm]
  exact_mod_cast hle

/-- A mantissa has at most sixteen digits, and only half of the largest where the interval is
    narrow. -/
theorem mantissa_lt (hp : Binary64.IsParts m q) :
    (m : ℚ) < (1 / 2 + Binary64.gapBelow m q) * 10 ^ 16 := by
  unfold Binary64.gapBelow
  split
  next h =>
    rw [h.1, cast_one_shiftLeft]
    norm_num
  next =>
    have hlt : (m : ℚ) < 2 ^ 53 := by exact_mod_cast hp.lt
    linarith

/-- Seventeen digits are finer than the interval. -/
theorem grid_lt_width (hp : Binary64.IsParts m q) :
    (10 : ℚ) ^ (leadingPlace (around m q).value (around m q).den - (17 : Nat)) * (around m q).den <
      (around m q).high - (around m q).low := by
  obtain ⟨hd, hlow, hvalue, hhigh⟩ := cast_around hp.pos q
  have hpos : (0 : ℚ) < (around m q).den := by exact_mod_cast hd
  have hplace := zpow_leadingPlace_le hd (den_le_around hp)
  rw [le_div_iff₀ hpos] at hplace
  generalize leadingPlace (around m q).value (around m q).den = place at hplace ⊢
  rw [Nat.cast_ofNat]
  have hsplit : (10 : ℚ) ^ (place - 1) = 10 ^ (place - 17) * 10 ^ 16 := by
    rw [← zpow_natCast 10 16, ← zpow_add₀ (by norm_num)]
    congr 1
    push_cast
    ring
  have hunit : (0 : ℚ) < 2 ^ q * (around m q).den := by positivity
  have hwidth := mul_lt_mul_of_pos_right (mantissa_lt hp) hunit
  rw [hsplit, hvalue] at hplace
  rw [hlow, hhigh]
  linarith

end Around

end Span

/-- The shortest decimal of a double is near it. -/
theorem near_shortest {m : Nat} {q : Int} (hp : Binary64.IsParts m q) (tie : Tie) :
    Binary64.Near m q (shortest tie m q).value := by
  have hsearch := Span.holds_search (Span.isProper_around hp.pos q) tie 1 17
    (by decide) (by decide) (Span.grid_lt_width hp)
  simp only [shortest, if_neg (Nat.ne_of_gt hp.pos), value_trim]
  exact Span.near_of_around hp.pos hsearch.1 hsearch.2

/-! ## Reading a decimal near a double -/

private theorem digits_lt (d : Decimal) : (d.digits : ℚ) < 10 ^ (d.digits.log2 / 3 + 1) :=
  calc (d.digits : ℚ) < 2 ^ (d.digits.log2 + 1) := by exact_mod_cast Nat.lt_log2_self
    _ ≤ 10 ^ (d.digits.log2 / 3 + 1) := two_pow_le_ten_pow (by omega)

section Near

variable {m : Nat} {q : Int} {d : Decimal}

/-- What is near a double other than zero has a digit. -/
theorem digits_ne_zero (hp : Binary64.IsParts m q) (h : Binary64.Near m q d.value) :
    d.digits ≠ 0 := by
  intro h0
  have hpos := h.pos hp.pos
  simp [value, h0] at hpos

/-- A decimal near a double is not too large for its power to be computed. -/
theorem exponent_le (hp : Binary64.IsParts m q) (h : Binary64.Near m q d.value) :
    ¬ d.exponent > 400 := by
  intro hgt
  have hone : (1 : ℚ) ≤ d.digits := by
    exact_mod_cast Nat.pos_of_ne_zero (digits_ne_zero hp h)
  have hupper : d.value < 2 ^ 1024 := by
    refine lt_of_lt_of_le (h.lt hp.lt) ?_
    rw [← zpow_natCast]
    exact zpow_le_zpow_right₀ (by norm_num) (by have := hp.le_max; push_cast; linarith)
  have hlower : (10 : ℚ) ^ 400 ≤ d.value := by
    refine le_trans ?_ (le_mul_of_one_le_left (by positivity) hone)
    rw [← zpow_natCast]
    exact zpow_le_zpow_right₀ (by norm_num) (by push_cast; linarith)
  have hten := two_pow_le_ten_pow (a := 1024) (b := 400) (by decide)
  exact absurd (lt_of_le_of_lt (le_trans hten hlower) hupper) (lt_irrefl _)

/-- A decimal near a double is not so small that it is taken for zero. -/
theorem exponent_ge (hp : Binary64.IsParts m q) (h : Binary64.Near m q d.value) :
    ¬ d.exponent + Int.ofNat (d.digits.log2 / 3) + 1 < -400 := by
  intro hlt
  have hupper : d.value < (10 ^ 400)⁻¹ :=
    calc d.value < 10 ^ (d.digits.log2 / 3 + 1) * 10 ^ d.exponent := by
          unfold value
          gcongr
          exact d.digits_lt
      _ = 10 ^ (((d.digits.log2 / 3 + 1 : Nat) : ℤ) + d.exponent) := by
          rw [zpow_add₀ (by norm_num), zpow_natCast]
      _ ≤ (10 ^ 400)⁻¹ := by
          rw [← zpow_natCast, ← zpow_neg]
          refine zpow_le_zpow_right₀ (by norm_num) ?_
          rw [Int.ofNat_eq_natCast] at hlt
          push_cast at hlt ⊢
          omega
  have hlower : ((10 : ℚ) ^ 400)⁻¹ ≤ d.value := by
    refine le_trans ?_ (h.ge_min hp)
    rw [zpow_neg, zpow_ofNat]
    exact inv_anti₀ (by positivity) (two_pow_le_ten_pow (a := 1075) (b := 400) (by decide))
  exact absurd hlower (not_le.mpr hupper)

/-- A decimal near a double is rounded to it. -/
theorem round?_of_near (hp : Binary64.IsParts m q) (h : Binary64.Near m q d.value) :
    d.round? .double = some (m, q) := by
  rw [round?, if_neg (digits_ne_zero hp h), if_neg (exponent_le hp h), if_neg (exponent_ge hp h)]
  refine BinaryFormat.round?_of_near (Nat.pow_pos (by decide)) hp ?_
  have hquot : ((d.digits * Nat.pow 10 d.exponent.toNat : Nat) : ℚ) /
      (Nat.pow 10 (-d.exponent).toNat : Nat) = d.value := by
    rw [Nat.pow_eq, Nat.pow_eq, value, div_eq_iff (by positivity), mul_assoc]
    push_cast
    rw [← Span.ten_zpow]
  rwa [hquot]

end Near

end Decimal

/-- Reading any decimal of the same value as the shortest one gives the number back, with its
    sign. -/
theorem Binary64.toBinary64_eq {x : Binary64} (h : x.isFinite = true) {tie : Tie} {d : Decimal}
    (hd : d.value = (x.shortest tie).value) : d.toBinary64 x.isNegative = x := by
  by_cases hm : x.mantissa = 0
  · have hdigits : d.digits = 0 := by
      rw [shortest, hm, Decimal.shortest, if_pos rfl] at hd
      simpa [Decimal.value, zpow_ne_zero] using hd
    have hx := x.ofParts_parts
    rw [hm, ofParts_zero] at hx
    simp only [Decimal.toBinary64, Decimal.round?, if_pos hdigits, ofParts_zero, hx]
  · have hp := isParts_parts h hm
    have hnear : Near x.mantissa x.exponent d.value := hd ▸ Decimal.near_shortest hp tie
    simp only [Decimal.toBinary64, Decimal.round?_of_near hp hnear, ofParts_parts]

end SqlForms
