import BlockChart.Proofs.DecimalRounding
import Mathlib

namespace BlockChart

/-!
# The shortest decimal reads back

`Binary.shortest` looks for a decimal among the numbers that round to a double.  What it finds
is one of them, and it always finds one: on the last grid that it tries, two neighbours are
closer together than half the distance to the next double.

* `Decimal.value` — the number that a decimal denotes;
* `Binary.inside` — the test of the search, `rounds_of_inside` — what passes it rounds to the
  double;
* `Binary.exists_onGrid` — a fine grid has a hit, `Binary.leadingExponent_le` — the last one is fine
  enough;
* `Binary.shortest_rounds` — the shortest decimal rounds to the double.
-/

/-! ### Decimals -/

namespace Decimal

/-- The number that a decimal denotes. -/
def value (d : Decimal) : ℚ :=
  d.coefficient * 10 ^ d.exponent

/-- Trailing zeros do not count. -/
theorem value_trimZeros (fuel : ℕ) (d : Decimal) : (d.trimZeros fuel).value = d.value := by
  induction fuel generalizing d with
  | zero => rfl
  | succ fuel ih =>
    rw [trimZeros]
    split
    case isTrue hzero =>
      have hcoefficient : (d.coefficient : ℚ) = 10 * (d.coefficient / 10 : ℕ) := by
        exact_mod_cast (Nat.mul_div_cancel' (Nat.dvd_of_mod_eq_zero hzero.2)).symm
      rw [ih, value, value, hcoefficient, zpow_add_one₀ (by norm_num)]
      ring
    case isFalse => rfl

end Decimal

/-- A power with a whole exponent as a quotient of powers with natural ones. -/
theorem pow_toNat_div {a : ℚ} (ha : a ≠ 0) (k : ℤ) : a ^ k.toNat / a ^ (-k).toNat = a ^ k := by
  rw [← zpow_natCast, ← zpow_natCast, ← zpow_sub₀ ha]
  congr 1
  omega

namespace Binary

/-- The magnitude of a positive double, with the mark for the least exponent. -/
structure IsPositive (b : Binary) : Prop where
  double : IsDouble b.mantissa b.exponent
  lowest : b.lowest = true ↔ b.exponent = -1074

variable {b : Binary} {g : ℤ} {d : ℕ}

/-! ### The test of the search -/

/-- Comparisons are made in whole numbers: a quarter of the double's unit on their scale. -/
def quarterScale (b : Binary) (g : ℤ) : ℕ :=
  b.quarterUnit.1 * Nat.pow 10 (-g).toNat

/-- A step of the grid on the scale of comparisons. -/
def stepScale (b : Binary) (g : ℤ) : ℕ :=
  b.quarterUnit.2 * Nat.pow 10 g.toNat

/-- Whether the point `d` of a grid lies in the interval of the double. -/
def inside (b : Binary) (g : ℤ) (d : ℕ) : Bool :=
  let low := b.quarters.1 * b.quarterScale g
  let high := b.quarters.2.2 * b.quarterScale g
  if b.mantissa % 2 = 0 then low ≤ d * b.stepScale g ∧ d * b.stepScale g ≤ high
  else low < d * b.stepScale g ∧ d * b.stepScale g < high

/-- The point of a grid just above the value. -/
def above (b : Binary) (g : ℤ) : ℕ :=
  b.quarters.2.1 * b.quarterScale g / b.stepScale g + 1

/-- What the search finds has passed the test. -/
theorem inside_of_onGrid {tie : TieRule} (h : b.onGrid tie g = some d) : b.inside g d = true := by
  unfold onGrid at h
  simp only at h
  split at h
  case h_1 => cases h
  case h_2 hbelow _ =>
    cases h
    exact hbelow
  case h_3 _ habove =>
    cases h
    exact habove
  case h_4 hbelow habove =>
    -- of two hits the nearer one is taken, or the one that the rule for ties names
    split at h
    · cases h
      exact hbelow
    split at h
    · cases h
      exact habove
    cases tie with
    | up =>
      cases h
      exact habove
    | toEven =>
      simp only at h
      split at h
      · cases h
        exact hbelow
      · cases h
        exact habove

/-- **A grid on which the point above the value passes has a hit.** -/
theorem onGrid_isSome (tie : TieRule) (h : b.inside g (b.above g) = true) :
    (b.onGrid tie g).isSome = true := by
  unfold onGrid
  simp only
  -- at least the upper neighbour is inside, so the first two cases are out
  split
  case h_1 _ habove => exact absurd (h.symm.trans habove) (by decide)
  case h_2 _ habove => exact absurd (h.symm.trans habove) (by decide)
  case h_3 => rfl
  case h_4 =>
    split
    · rfl
    split
    · rfl
    cases tie with
    | up => rfl
    | toEven =>
      simp only
      split <;> rfl

theorem stepScale_pos (b : Binary) (g : ℤ) : 0 < b.stepScale g :=
  Nat.mul_pos (Nat.two_pow_pos _) (Nat.pow_pos (by decide))

/-- A quarter of the last binary place. -/
theorem quarterUnit_eq (b : Binary) :
    (b.quarterUnit.1 : ℚ) / b.quarterUnit.2 = 2 ^ b.exponent / 4 := by
  have htwo := pow_toNat_div (a := 2) two_ne_zero (b.exponent - 2)
  have hquarter : (2 : ℚ) ^ b.exponent / 4 = 2 ^ (b.exponent - 2) := by
    rw [zpow_sub₀ two_ne_zero]
    norm_num
  rw [hquarter, ← htwo, neg_sub]
  show ((2 ^ (b.exponent - 2).toNat : ℕ) : ℚ) / (2 ^ (2 - b.exponent).toNat : ℕ) = _
  push_cast
  rfl

/-- What a quarter unit is worth in steps. -/
theorem quarterScale_eq (b : Binary) (g : ℤ) :
    (b.quarterScale g : ℚ) = b.stepScale g * (2 ^ b.exponent / 4 / 10 ^ g) := by
  have hunit : (b.quarterUnit.2 : ℚ) ≠ 0 := by exact_mod_cast Nat.ne_of_gt (Nat.two_pow_pos _)
  rw [← quarterUnit_eq, ← pow_toNat_div (by norm_num) g]
  show ((b.quarterUnit.1 * 10 ^ (-g).toNat : ℕ) : ℚ) = (b.quarterUnit.2 * 10 ^ g.toNat : ℕ) * _
  push_cast
  field_simp

/-- The scale of comparisons: the unit of the double is worth a positive `k`. -/
theorem exists_scale (b : Binary) (g : ℤ) : ∃ k : ℚ, 0 < k ∧
    (∀ a : ℕ, ((a * b.quarterScale g : ℕ) : ℚ) = a / 4 * k) ∧
    ∀ d : ℕ, ((d * b.stepScale g : ℕ) : ℚ) = d * 10 ^ g / 2 ^ b.exponent * k := by
  have hten : (0 : ℚ) < 10 ^ g := zpow_pos (by norm_num) g
  have htwo := two_zpow_pos b.exponent
  have hpos : (0 : ℚ) < b.stepScale g := by exact_mod_cast stepScale_pos b g
  refine ⟨b.stepScale g * 2 ^ b.exponent / 10 ^ g, by positivity, fun a => ?_, fun d => ?_⟩
  · rw [Nat.cast_mul, quarterScale_eq]
    ring
  · rw [Nat.cast_mul]
    field_simp

/-- **Comparing on the scale is comparing numbers**, in the unit of the double. -/
theorem scaled_le_iff {a : ℕ} : a * b.quarterScale g ≤ d * b.stepScale g ↔
    (a : ℚ) / 4 ≤ d * 10 ^ g / 2 ^ b.exponent := by
  obtain ⟨k, hk, hquarters, hsteps⟩ := exists_scale b g
  rw [← Nat.cast_le (α := ℚ), hquarters, hsteps, mul_le_mul_iff_left₀ hk]

/-- The same from below. -/
theorem le_scaled_iff {a : ℕ} : d * b.stepScale g ≤ a * b.quarterScale g ↔
    (d : ℚ) * 10 ^ g / 2 ^ b.exponent ≤ a / 4 := by
  obtain ⟨k, hk, hquarters, hsteps⟩ := exists_scale b g
  rw [← Nat.cast_le (α := ℚ), hquarters, hsteps, mul_le_mul_iff_left₀ hk]

/-- A decimal is inside if it lies between the ends of the interval of the number; the ends count
    where the mantissa is even. -/
theorem inside_iff : b.inside g d = true ↔
    if b.mantissa % 2 = 0 then
      (b.quarters.1 : ℚ) / 4 ≤ d * 10 ^ g / 2 ^ b.exponent ∧
        (d : ℚ) * 10 ^ g / 2 ^ b.exponent ≤ b.quarters.2.2 / 4
    else
      (b.quarters.1 : ℚ) / 4 < d * 10 ^ g / 2 ^ b.exponent ∧
        (d : ℚ) * 10 ^ g / 2 ^ b.exponent < b.quarters.2.2 / 4 := by
  unfold inside
  simp only
  split
  · rw [decide_eq_true_eq, scaled_le_iff, le_scaled_iff]
  · rw [decide_eq_true_eq, ← not_le, ← not_le, le_scaled_iff, scaled_le_iff, not_le, not_le]

/-- The interval reaches half a unit up, and half or a quarter of a unit down. -/
theorem quarters_eq (hb : b.IsPositive) :
    (b.quarters.1 : ℚ) / 4
        = b.mantissa - (if b.mantissa = 2 ^ 52 ∧ b.exponent ≠ -1074 then 1 / 4 else 1 / 2) ∧
      (b.quarters.2.1 : ℚ) / 4 = b.mantissa ∧
      (b.quarters.2.2 : ℚ) / 4 = b.mantissa + 1 / 2 := by
  have hm : 1 ≤ b.mantissa := hb.double.pos
  -- below a power of two the doubles are twice as dense, except at the very bottom
  have hdense : (b.mantissa = Nat.pow 2 52 ∧ (!b.lowest) = true)
      ↔ (b.mantissa = 2 ^ 52 ∧ b.exponent ≠ -1074) := by
    rw [Bool.not_eq_true', ← Bool.not_eq_true, hb.lowest]
    exact Iff.rfl
  unfold quarters
  simp only [hdense]
  refine ⟨?_, ?_, ?_⟩
  · split
    · rw [Nat.cast_sub (by omega)]
      push_cast
      ring
    · rw [Nat.cast_sub (by omega)]
      push_cast
      ring
  · push_cast
    ring
  · push_cast
    ring

/-- **What passes the test rounds to the double.** -/
theorem rounds_of_inside (hb : b.IsPositive) (h : b.inside g d = true) :
    IsDouble.Rounds b.mantissa b.exponent (d * 10 ^ g) := by
  obtain ⟨hlow, -, hhigh⟩ := quarters_eq hb
  rw [inside_iff, hlow, hhigh] at h
  have hreach :
      (if b.mantissa = 2 ^ 52 ∧ b.exponent ≠ -1074 then 1 / 4 else 1 / 2 : ℚ) ≤ 1 / 2 := by
    split <;> norm_num
  -- on the boundary a number rounds to this double if and only if its mantissa is even
  by_cases heven : b.mantissa % 2 = 0
  · rw [if_pos heven] at h
    refine ⟨⟨by linarith [h.1], h.2, fun _ => heven⟩, fun hm he => ?_⟩
    rw [if_pos ⟨hm, by omega⟩] at h
    exact h.1
  · rw [if_neg heven] at h
    refine ⟨.of_near (by linarith [h.1]) h.2, fun hm _ => ?_⟩
    rw [hm] at heven
    exact absurd rfl heven

/-- **A fine grid has a hit**: its steps are shorter than half a unit. -/
theorem exists_onGrid (hb : b.IsPositive) (tie : TieRule)
    (hfine : (10 : ℚ) ^ g < 2 ^ b.exponent / 2) : ∃ d, b.onGrid tie g = some d := by
  refine Option.isSome_iff_exists.mp (onGrid_isSome tie ?_)
  obtain ⟨hlow, hvalue, hhigh⟩ := quarters_eq hb
  have htwo := two_zpow_pos b.exponent
  -- the value lies between the point above it and the one before that
  have hover : (b.mantissa : ℚ) < b.above g * 10 ^ g / 2 ^ b.exponent := by
    rw [← hvalue, ← not_le, ← le_scaled_iff, not_le]
    exact Nat.lt_mul_of_div_lt (Nat.lt_succ_self _) (stepScale_pos b g)
  have hunder : ((b.above g : ℚ) - 1) * 10 ^ g / 2 ^ b.exponent ≤ b.mantissa := by
    have hbefore : (b.above g : ℚ) - 1
        = (b.quarters.2.1 * b.quarterScale g / b.stepScale g : ℕ) := by
      rw [above]
      push_cast
      ring
    rw [← hvalue, hbefore, ← le_scaled_iff]
    exact Nat.div_mul_le_self ..
  have hstep : (10 : ℚ) ^ g / 2 ^ b.exponent < 1 / 2 := by
    rw [div_lt_iff₀ htwo]
    linarith
  have hsplit : (b.above g : ℚ) * 10 ^ g / 2 ^ b.exponent
      = ((b.above g : ℚ) - 1) * 10 ^ g / 2 ^ b.exponent + 10 ^ g / 2 ^ b.exponent := by ring
  have hreach : (0 : ℚ) < if b.mantissa = 2 ^ 52 ∧ b.exponent ≠ -1074 then 1 / 4 else 1 / 2 := by
    split <;> norm_num
  rw [inside_iff, hlow, hhigh]
  split
  · exact ⟨by linarith, by linarith⟩
  · exact ⟨by linarith, by linarith⟩

/-! ### The leading digit -/

/-- The digits of a value that is shifted by `n` places. -/
theorem pow_length_shifted_le (hb : b.IsPositive) {n : ℕ} (hn : b.quarterUnit.2 ≤ 10 ^ n) :
    (10 : ℚ) ^ (((Nat.toDigits 10 (b.quarters.2.1 * b.quarterUnit.1 * 10 ^ n
      / b.quarterUnit.2)).length : ℤ) - (n + 1 : ℕ)) ≤ b.mantissa * 2 ^ b.exponent := by
  obtain ⟨-, hvalue, -⟩ := quarters_eq hb
  have hnum : 0 < b.quarters.2.1 * b.quarterUnit.1 :=
    Nat.mul_pos (Nat.mul_pos (by decide) hb.double.pos) (Nat.two_pow_pos _)
  generalize hshifted : b.quarters.2.1 * b.quarterUnit.1 * 10 ^ n / b.quarterUnit.2 = shifted
  have hpos : 0 < shifted := by
    rw [← hshifted]
    exact Nat.div_pos (le_trans hn (Nat.le_mul_of_pos_left _ hnum)) (Nat.two_pow_pos _)
  -- cutting off the fraction makes the number smaller
  have hshift : (shifted : ℚ) ≤ b.mantissa * 2 ^ b.exponent * 10 ^ n := by
    calc (shifted : ℚ) ≤ (b.quarters.2.1 * b.quarterUnit.1 * 10 ^ n : ℕ) / b.quarterUnit.2 := by
          rw [← hshifted]
          exact Nat.cast_div_le
      _ = b.quarters.2.1 * (b.quarterUnit.1 / b.quarterUnit.2) * 10 ^ n := by
          push_cast
          ring
      _ = b.mantissa * 2 ^ b.exponent * 10 ^ n := by
          rw [quarterUnit_eq, ← hvalue]
          ring
  have hlength : 0 < (Nat.toDigits 10 shifted).length := Nat.length_toDigits_pos
  have hdigits := pow_length_toDigits_le hpos
  generalize (Nat.toDigits 10 shifted).length = l at hlength hdigits
  -- a number with `l` digits is at least a one with `l - 1` zeros
  have hleading : (10 : ℚ) ^ ((l : ℤ) - (n + 1 : ℕ) + n) ≤ shifted := by
    have hnat : (l : ℤ) - (n + 1 : ℕ) + n = (l - 1 : ℕ) := by omega
    rw [hnat, zpow_natCast]
    exact_mod_cast hdigits
  rw [zpow_add₀ (by norm_num), zpow_natCast] at hleading
  exact le_of_mul_le_mul_right (hleading.trans hshift) (by positivity)

/-- **The leading digit** does not stand above the value. -/
theorem leadingExponent_le (hb : b.IsPositive) :
    (10 : ℚ) ^ b.leadingExponent ≤ b.mantissa * 2 ^ b.exponent := by
  have hleast := hb.double.least
  refine pow_length_shifted_le hb (n := 400) ?_
  exact le_trans (Nat.pow_le_pow_right two_pos (by omega : (2 - b.exponent).toNat ≤ 1076))
    (by decide +kernel)

/-! ### The search -/

/-- **The shortest decimal rounds to the double.** -/
theorem shortest_rounds (hb : b.IsPositive) (tie : TieRule) :
    IsDouble.Rounds b.mantissa b.exponent (b.shortest tie).value := by
  have htwo := two_zpow_pos b.exponent
  have hupper : (b.mantissa : ℚ) < 2 ^ 53 := by exact_mod_cast hb.double.upper
  have hfine : (10 : ℚ) ^ (b.leadingExponent - 17) < 2 ^ b.exponent / 2 := by
    calc (10 : ℚ) ^ (b.leadingExponent - 17) = 10 ^ b.leadingExponent / 10 ^ (17 : ℤ) :=
          zpow_sub₀ (by norm_num) ..
      _ ≤ b.mantissa * 2 ^ b.exponent / 10 ^ (17 : ℤ) :=
          div_le_div_of_nonneg_right (leadingExponent_le hb) (by positivity)
      _ ≤ 2 ^ 53 * 2 ^ b.exponent / 10 ^ (17 : ℤ) :=
          div_le_div_of_nonneg_right (mul_le_mul_of_nonneg_right hupper.le htwo.le) (by positivity)
      _ < 2 ^ b.exponent / 2 := by
          norm_num
          linarith
  unfold shortest
  rw [if_neg (Nat.ne_of_gt hb.double.pos)]
  simp only
  generalize hsearch : List.findSome? _ (List.range 18) = found
  -- the last grid has a hit, so the search ends with one
  have hfound : found.isSome = true := by
    obtain ⟨d, hd⟩ := exists_onGrid hb tie hfine
    rw [← hsearch, List.findSome?_isSome_iff]
    exact ⟨17, by decide, by simp [hd]⟩
  obtain ⟨d, rfl⟩ := Option.isSome_iff_exists.mp hfound
  obtain ⟨n, -, hn⟩ := List.exists_of_findSome?_eq_some hsearch
  obtain ⟨c, hc, rfl⟩ := Option.map_eq_some_iff.mp hn
  rw [Decimal.value_trimZeros, Option.getD_some, Decimal.value]
  exact rounds_of_inside hb (inside_of_onGrid hc)

end Binary

end BlockChart
