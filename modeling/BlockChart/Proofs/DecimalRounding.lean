import BlockChart.Proofs.Rounding
import Mathlib

namespace BlockChart

open Float.Model Float.Model.UnpackedFloat

/-!
# Decimals round to doubles

`nearestFloat` gives the double that a decimal number rounds to.  Short decimals are a product
or a quotient of two doubles, longer ones go through exact whole numbers; both ways are one
rounding of the exact value.

* `powerOfTen_eq` — small powers of ten are doubles;
* `IsDouble.ofScientific_eq` — both ways find the double;
* `IsDouble.nearestFloat_eq` — and the shortcuts for numbers out of range are not taken.
-/

/-! ### Powers of ten -/

/-- Powers of five below `5 ^ 23` have at most 53 bits, so they can be shifted to full precision.
    -/
theorem fullPrecision_powerOfFive {k : ℕ} (hk : k < 23) :
    FullPrecision (5 ^ k * 2 ^ spareBits (5 ^ k)) (k - spareBits (5 ^ k)) := by
  have hsmall : 5 ^ k < 2 ^ 53 :=
    lt_of_le_of_lt (Nat.pow_le_pow_right (by decide) (Nat.le_of_lt_succ hk)) (by decide)
  obtain ⟨hlower, hupper, hleast, -⟩ := fullPrecision_shifted (Nat.pow_pos (by decide)) hsmall
  exact ⟨hlower, hupper, by omega, by omega⟩

/-- **Small powers of ten are doubles**: their odd part has at most 53 bits. -/
theorem powerOfTen_eq : ∀ k : Fin 23, Float.exactlyRepresentablePowersOfTen[k] =
    doubleOf (5 ^ k.val * 2 ^ spareBits (5 ^ k.val)) (k.val - spareBits (5 ^ k.val))
      (fullPrecision_powerOfFive k.isLt).pos := by
  decide +kernel

/-- The shifted power of five is a power of ten, the twos being in the exponent. -/
theorem powerOfTen_value (k : ℕ) :
    ((5 ^ k * 2 ^ spareBits (5 ^ k) : ℕ) : ℚ) * 2 ^ ((k : ℤ) - spareBits (5 ^ k)) = 10 ^ k := by
  rw [zpow_sub₀ two_ne_zero, zpow_natCast, zpow_natCast]
  push_cast
  field_simp
  rw [← mul_pow]
  norm_num

/-- Shifting to full precision changes the notation of a number, and not the number. -/
theorem shifted_value (n : ℕ) : ((n * 2 ^ spareBits n : ℕ) : ℚ) * 2 ^ (-(spareBits n : ℤ)) = n := by
  rw [zpow_neg, zpow_natCast]
  push_cast
  field_simp

/-! ### Digits -/

/-- A number with so many digits is below the power of ten with so many zeros. -/
theorem lt_pow_length_toDigits (n : ℕ) : n < 10 ^ (Nat.toDigits 10 n).length :=
  (Nat.length_toDigits_le_iff (by decide) Nat.length_toDigits_pos).mp (Nat.le_refl _)

/-- And not below the one before, since its first digit is not zero. -/
theorem pow_length_toDigits_le {n : ℕ} (hn : 0 < n) :
    10 ^ ((Nat.toDigits 10 n).length - 1) ≤ n := by
  rcases Nat.eq_zero_or_pos ((Nat.toDigits 10 n).length - 1) with hone | hmore
  · rw [hone]
    exact hn
  · by_contra hlt
    have := (Nat.length_toDigits_le_iff (by decide) hmore).mpr (Nat.lt_of_not_le hlt)
    omega

/-! ### Both ways -/

namespace IsDouble

variable {m : ℕ} {e : ℤ} {c : ℕ}

/-- A short decimal that is multiplied out. -/
theorem mul_powerOfTen (hd : IsDouble m e) (hc : 0 < c) (hsmall : c < 2 ^ 53) (k : Fin 23)
    (hv : Rounds m e (c * 10 ^ k.val)) :
    c.toUInt64.toFloat * Float.exactlyRepresentablePowersOfTen[k] = doubleOf m e hd.pos := by
  have hfull := fullPrecision_shifted hc hsmall
  have hpower := fullPrecision_powerOfFive k.isLt
  rw [toFloat_eq hc hsmall, powerOfTen_eq k]
  show Float.ofModel (Float.Model.pack (UnpackedFloat.mul Format.binary64 _ _)) = _
  rw [unpack_doubleOf hfull, unpack_doubleOf hpower, hd.mul_eq hfull.pos hpower.pos]
  · rfl
  · rw [shifted_value, powerOfTen_value]
    exact hv
  · exact le_trans hfull.lower (Nat.le_mul_of_pos_right _ hpower.pos)

/-- A short decimal that is divided out. -/
theorem div_powerOfTen (hd : IsDouble m e) (hc : 0 < c) (hsmall : c < 2 ^ 53) (k : Fin 23)
    (hv : Rounds m e (c / 10 ^ k.val)) :
    c.toUInt64.toFloat / Float.exactlyRepresentablePowersOfTen[k] = doubleOf m e hd.pos := by
  have hfull := fullPrecision_shifted hc hsmall
  have hpower := fullPrecision_powerOfFive k.isLt
  rw [toFloat_eq hc hsmall, powerOfTen_eq k]
  show Float.ofModel (Float.Model.pack (UnpackedFloat.div Format.binary64 _ _)) = _
  rw [unpack_doubleOf hfull, unpack_doubleOf hpower, hd.div_eq hfull.pos hpower.pos]
  · rfl
  · rw [shifted_value, powerOfTen_value]
    exact hv

/-- A decimal by way of whole numbers. -/
theorem ofScientific_model (hd : IsDouble m e) (hc : 0 < c) {k : ℤ}
    (hv : Rounds m e (c * 10 ^ k)) (hhigh : k ≤ 2048) (hlow : -(2048 + (c.log2 : ℤ)) ≤ k) :
    UnpackedFloat.ofScientific Format.binary64 c k = .finite .positive m e hd.pos := by
  have hbits : (2 ^ Format.binary64.exponentBits : ℤ) = 2048 := rfl
  have hmantissa : Format.binary64.mantissaBits = 53 := rfl
  unfold UnpackedFloat.ofScientific
  rw [dif_neg (Nat.ne_of_gt hc), if_neg (by rw [hbits]; omega), if_neg (by rw [hbits]; omega)]
  split
  case isTrue hk =>
    obtain ⟨n, rfl⟩ := Int.eq_ofNat_of_zero_le hk
    -- a power of ten above one: the exact product is rounded once
    refine hd.mul_eq _ _ ?_ ?_ .positive .positive
    · convert hv using 1
      rw [hmantissa, Int.toNat_natCast, Nat.shiftLeft_eq, zpow_natCast, zpow_neg, zpow_natCast,
        zpow_zero, Nat.cast_mul, Nat.cast_pow, Nat.cast_pow, Nat.cast_ofNat, Nat.cast_ofNat]
      field_simp
    -- the factor is shifted far enough to the left that no bit is missing
    · rw [hmantissa, Nat.shiftLeft_eq]
      calc 2 ^ 52 ≤ c * 2 ^ 53 := le_trans (by decide) (Nat.le_mul_of_pos_left _ hc)
        _ ≤ c * 2 ^ 53 * 10 ^ (n : ℤ).toNat := Nat.le_mul_of_pos_right _ (Nat.pow_pos (by decide))
  case isFalse hk =>
    obtain ⟨n, rfl⟩ := Int.exists_eq_neg_ofNat (by omega : k ≤ 0)
    -- a power of ten below one: the exact quotient is rounded once
    refine hd.div_eq _ _ ?_ .positive .positive
    convert hv using 1
    rw [Int.neg_neg, Int.toNat_natCast, zpow_neg, zpow_natCast, zpow_zero]
    push_cast
    ring

/-- **Both ways find the double** that a decimal rounds to. -/
theorem ofScientific_eq (hd : IsDouble m e) (hc : 0 < c) {negative : Bool} {k : ℕ}
    (hv : Rounds m e (c * 10 ^ (if negative then -(k : ℤ) else k)))
    (hhigh : negative = false → k ≤ 2048) (hlow : negative = true → k ≤ 2048 + c.log2) :
    Float.ofScientific c negative k = doubleOf m e hd.pos := by
  unfold Float.ofScientific
  split
  -- a short literal is one operation on two exact doubles
  case isTrue hshort =>
    obtain ⟨hsmall, hk⟩ := hshort
    cases negative with
    | true =>
      refine hd.div_powerOfTen hc hsmall ⟨k, Nat.lt_succ_of_le hk⟩ ?_
      simpa [zpow_neg, div_eq_mul_inv] using hv
    | false =>
      refine hd.mul_powerOfTen hc hsmall ⟨k, Nat.lt_succ_of_le hk⟩ ?_
      simpa using hv
  -- any other one goes through the model of the format
  case isFalse =>
    have hmodel : UnpackedFloat.ofScientific Format.binary64 c
        (if negative then Int.negOfNat k else Int.ofNat k) = .finite .positive m e hd.pos := by
      cases negative with
      | true =>
        have hk := hlow rfl
        rw [if_pos rfl, Int.negOfNat_eq]
        exact hd.ofScientific_model hc hv (by simp) (by simp; omega)
      | false =>
        have hk := hhigh rfl
        exact hd.ofScientific_model hc hv (by simpa using hk) (by simp; omega)
    show Float.ofModel (Float.Model.pack (UnpackedFloat.ofScientific Format.binary64 c _)) = _
    rw [hmodel]
    rfl

/-! ### The nearest double -/

/-- Doubles lie well inside the range that decimals are looked for in. -/
theorem Rounds.range {v : ℚ} (hd : IsDouble m e) (hv : Rounds m e v) :
    (10 : ℚ) ^ (-324 : ℤ) < v ∧ v < 10 ^ (309 : ℤ) := by
  have hunit := two_zpow_pos e
  constructor
  -- half of the least double is still above the lower bound
  · have hlow := hv.nearest.low
    rw [le_div_iff₀ hunit] at hlow
    have hm : (1 : ℚ) ≤ m := by exact_mod_cast hd.pos
    have hpowers : (2 : ℚ) ^ (1075 : ℤ) < 10 ^ (324 : ℤ) := by
      exact_mod_cast (by decide +kernel : 2 ^ 1075 < 10 ^ 324)
    have hexponent := hd.least
    calc (10 : ℚ) ^ (-324 : ℤ) = (10 ^ (324 : ℤ))⁻¹ := zpow_neg ..
      _ < (2 ^ (1075 : ℤ))⁻¹ := inv_strictAnti₀ (two_zpow_pos _) hpowers
      _ = 2 ^ (-1075 : ℤ) := (zpow_neg ..).symm
      _ ≤ 2 ^ (e - 1) := zpow_le_zpow_right₀ one_le_two (by omega)
      _ = 1 / 2 * 2 ^ e := by rw [zpow_sub_one₀ two_ne_zero, mul_comm, one_div]
      _ ≤ (m - 1 / 2) * 2 ^ e := mul_le_mul_of_nonneg_right (by linarith) hunit.le
      _ ≤ v := hlow
  -- and the greatest one, rounded up, is below the upper bound
  · have hhigh := hv.nearest.high
    rw [div_le_iff₀ hunit] at hhigh
    have hm : (m : ℚ) + 1 ≤ 2 ^ (53 : ℤ) := by exact_mod_cast hd.upper
    have hpowers : (2 : ℚ) ^ (1024 : ℤ) < 10 ^ (309 : ℤ) := by
      exact_mod_cast (by decide +kernel : 2 ^ 1024 < 10 ^ 309)
    have hexponent := hd.greatest
    calc v ≤ (m + 1 / 2) * 2 ^ e := hhigh
      _ ≤ 2 ^ (53 : ℤ) * 2 ^ e := mul_le_mul_of_nonneg_right (by linarith) hunit.le
      _ = 2 ^ (53 + e) := (zpow_add₀ two_ne_zero ..).symm
      _ ≤ 2 ^ (1024 : ℤ) := zpow_le_zpow_right₀ one_le_two (by omega)
      _ < 10 ^ (309 : ℤ) := hpowers

/-- **`nearestFloat` finds the double** that a decimal rounds to. -/
theorem nearestFloat_eq (hd : IsDouble m e) (hc : 0 < c) {k : ℤ} (hv : Rounds m e (c * 10 ^ k)) :
    nearestFloat c k = doubleOf m e hd.pos := by
  obtain ⟨hlow, hhigh⟩ := Rounds.range hd hv
  have hpos : 0 < (Nat.toDigits 10 c).length := Nat.length_toDigits_pos
  have hbelow := lt_pow_length_toDigits c
  have habove := pow_length_toDigits_le hc
  unfold nearestFloat
  generalize (Nat.toDigits 10 c).length = l at hpos hbelow habove
  have hten : (0 : ℚ) < 10 ^ k := zpow_pos (by norm_num) k
  -- where the leading digit stands
  have hleast : -324 < k + l := by
    have hc10 : (c : ℚ) < 10 ^ (l : ℤ) := by
      rw [zpow_natCast]
      exact_mod_cast hbelow
    have hv10 := hlow.trans (mul_lt_mul_of_pos_right hc10 hten)
    rw [← zpow_add₀ (by norm_num)] at hv10
    have := (zpow_lt_zpow_iff_right₀ (by norm_num)).mp hv10
    omega
  have hmost : k + l < 310 := by
    have hc10 : (10 : ℚ) ^ ((l - 1 : ℕ) : ℤ) ≤ c := by
      rw [zpow_natCast]
      exact_mod_cast habove
    have hv10 := (mul_le_mul_of_nonneg_right hc10 hten.le).trans_lt hhigh
    rw [← zpow_add₀ (by norm_num)] at hv10
    have := (zpow_lt_zpow_iff_right₀ (by norm_num)).mp hv10
    omega
  have hlog : l - 1 ≤ c.log2 :=
    (Nat.le_log2 (Nat.ne_of_gt hc)).mpr
      (le_trans (Nat.pow_le_pow_left (by decide) _) habove)
  simp only
  rw [if_neg (by omega), if_neg (by omega)]
  split
  case isTrue hk =>
    refine hd.ofScientific_eq hc ?_ (fun _ => by omega) fun h => absurd h (by decide)
    rwa [if_neg (by decide), Int.toNat_of_nonneg hk]
  case isFalse hk =>
    refine hd.ofScientific_eq hc ?_ (fun h => absurd h (by decide)) fun _ => by omega
    rwa [if_pos rfl, Int.toNat_of_nonneg (by omega), Int.neg_neg]

end IsDouble

end BlockChart
