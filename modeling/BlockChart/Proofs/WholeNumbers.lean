import BlockChart.Value.Coercion
import Mathlib

namespace BlockChart

open Float.Model Float.Model.UnpackedFloat

/-!
# Whole numbers as doubles

A natural number below `2 ^ 53` is a double exactly: shifted to the left until it has 53
bits it is a mantissa of full length, and neither the conversion nor the multiplication by
one that comes with it has anything to round.  So a count that became a value stands for
itself when the value is taken as an index.

* `FullPrecision` — a mantissa of 53 bits with an exponent in range;
* `FullPrecision.roundWithAccuracy_eq` — rounding such a number, with any zeros after it,
  is exact;
* `FullPrecision.unpack_pack`, `ofFloat?_doubleOf` — its bits tell it back;
* `ofNat_eq` — a natural number becomes the double of its shifted mantissa;
* `Value.index?_ofNat` — and stands for itself as an index.
-/

/-! ### Mantissas of full length -/

/-- A number `m * 2 ^ e` whose mantissa has 53 bits and whose exponent a double has room
    for. -/
structure FullPrecision (m : Nat) (e : Int) : Prop where
  lower : 2 ^ 52 ≤ m
  upper : m < 2 ^ 53
  least : -1074 ≤ e
  greatest : e ≤ 971

namespace FullPrecision

variable {m : Nat} {e : Int}

theorem pos (h : FullPrecision m e) : 0 < m :=
  Nat.lt_of_lt_of_le (by decide) h.lower

/-- Doubling moves the topmost bit. -/
theorem log2_mul (h : FullPrecision m e) (j : Nat) : (m * 2 ^ j).log2 = 52 + j := by
  have hne : m * 2 ^ j ≠ 0 :=
    Nat.mul_ne_zero (Nat.ne_of_gt h.pos) (Nat.ne_of_gt (Nat.two_pow_pos j))
  rw [Nat.log2_eq_iff hne]
  constructor
  · rw [Nat.pow_add]
    exact Nat.mul_le_mul_right _ h.lower
  · have hpow : 2 ^ (52 + j + 1) = 2 ^ 53 * 2 ^ j := by
      rw [← Nat.pow_add]
      congr 1
      omega
    rw [hpow]
    exact Nat.mul_lt_mul_of_pos_right h.upper (Nat.two_pow_pos j)

/-! ### Rounding -/

/-- The exponent that a double gives the number is the one it has. -/
theorem targetExponent_eq (h : FullPrecision m e) (j : Nat) :
    Format.binary64.targetExponent (totalExponent (m * 2 ^ j) (e - j)) = e := by
  have hbits : (Format.binary64.mantissaBits : Int) = 53 := rfl
  have hmin : Format.binary64.minExponent = -1074 := rfl
  have hleast := h.least
  rw [Format.targetExponent, totalExponent, h.log2_mul, hbits, hmin]
  push_cast
  omega

/-- Shifting zeros out leaves no remainder. -/
theorem shiftRight_mul (m j : Nat) :
    (⟨m * 2 ^ j, false, false⟩ : ExtendedMantissa) >>> j = ⟨m, false, false⟩ := by
  show j.repeat ExtendedMantissa.shiftRightOne _ = _
  induction j generalizing m with
  | zero => simp [Nat.repeat]
  | succ j ih =>
    have hdouble : m * 2 ^ (j + 1) = m * 2 * 2 ^ j := by
      rw [Nat.pow_succ, Nat.mul_comm (2 ^ j), Nat.mul_assoc]
    rw [Nat.repeat, hdouble, ih]
    simp [ExtendedMantissa.shiftRightOne]

/-- The spare bits are shifted out, and they are all zero. -/
theorem shiftToTargetExponent_eq (h : FullPrecision m e) (j : Nat) :
    shiftToTargetExponent Format.binary64 (m * 2 ^ j) (e - j) .exact
      = (⟨m, false, false⟩, e) := by
  have hshift : (e - (e - j)).toNat = j := by omega
  unfold shiftToTargetExponent shiftToExponent
  simp only [h.targetExponent_eq, hshift, ExtendedMantissa.ofMantissaAndAccuracy, shiftRight_mul]
  congr 1
  omega

/-- **Rounding is exact** on a mantissa of full length with zeros after it. -/
theorem roundWithAccuracy_eq (h : FullPrecision m e) (sign : Sign) (j : Nat) :
    roundWithAccuracy Format.binary64 sign (m * 2 ^ j) (e - j) .exact
      = .finite sign m e h.pos := by
  -- rounding shifts twice; after the first shift there is nothing left to shift
  have hagain : shiftToTargetExponent Format.binary64 m e .exact = (⟨m, false, false⟩, e) := by
    simpa using h.shiftToTargetExponent_eq 0
  have hrounded : (⟨m, false, false⟩ : ExtendedMantissa).roundedMantissa = m := rfl
  unfold roundWithAccuracy
  simp only [h.shiftToTargetExponent_eq, hrounded, hagain]
  rw [dif_neg (Nat.ne_of_gt h.pos)]

/-! ### Bits -/

/-- The exponent is stored with an offset; its least and greatest values are reserved. -/
theorem biased_bounds (h : FullPrecision m e) :
    0 < (e + 1075).toNat ∧ (e + 1075).toNat < 2047 := by
  have hleast := h.least
  have hgreatest := h.greatest
  omega

/-- The stored exponent fits its 11 bits. -/
theorem toNat_exponent (h : FullPrecision m e) :
    (BitVec.ofNat 11 (e + 1075).toNat).toNat = (e + 1075).toNat := by
  obtain ⟨-, hsmall⟩ := h.biased_bounds
  rw [BitVec.toNat_ofNat, Nat.mod_eq_of_lt (by omega)]

/-- The leading bit of the mantissa is not stored. -/
theorem toNat_mantissa (h : FullPrecision m e) : (BitVec.ofNat 52 m).toNat = m - 2 ^ 52 := by
  have hlower := h.lower
  have hupper := h.upper
  rw [BitVec.toNat_ofNat, Nat.mod_eq_sub_mod hlower, Nat.mod_eq_of_lt (by omega)]

/-- The hidden bit in front makes the mantissa whole. -/
theorem toNat_append_mantissa (h : FullPrecision m e) : (1#1 ++ BitVec.ofNat 52 m).toNat = m := by
  have hlower := h.lower
  rw [BitVec.toNat_append, ← Nat.shiftLeft_add_eq_or_of_lt (BitVec.isLt _), h.toNat_mantissa,
    BitVec.toNat_ofNat]
  simp [Nat.shiftLeft_eq]
  omega

/-- The parts of a normal double. -/
theorem pack_eq (h : FullPrecision m e) (sign : Sign) :
    UnpackedFloat.pack Format.binary64 (.finite sign m e h.pos) =
      packComponents Format.binary64 sign (BitVec.ofNat 11 (e + 1075).toNat)
        (BitVec.ofNat 52 m) := by
  obtain ⟨-, hsmall⟩ := h.biased_bounds
  have hlog : m.log2 = 52 := by
    simpa using h.log2_mul 0
  have hbits : Format.binary64.mantissaBits = 53 := rfl
  have hbiased : e + Format.binary64.exponentBias + ((52 : Nat) : Int) = e + 1075 := by
    have hbias : (Format.binary64.exponentBias : Int) = 1023 := rfl
    omega
  unfold UnpackedFloat.pack
  -- there is a leading bit, so the exponent field is the biased exponent
  simp only [hlog, hbits, hbiased, if_true]
  rw [if_neg (by omega)]

/-- **The bits tell the number back.** -/
theorem unpack_pack (h : FullPrecision m e) (sign : Sign) :
    UnpackedFloat.unpack Format.binary64
        (UnpackedFloat.pack Format.binary64 (.finite sign m e h.pos)) =
      .finite sign m e h.pos := by
  obtain ⟨hpos, hsmall⟩ := h.biased_bounds
  have hnonzero : BitVec.ofNat 11 (e + 1075).toNat ≠ 0#11 := by
    intro hzero
    have hbits := congrArg BitVec.toNat hzero
    rw [h.toNat_exponent, BitVec.toNat_zero] at hbits
    omega
  have hfinite : BitVec.ofNat 11 (e + 1075).toNat ≠ -1#11 := by
    intro htop
    have hbits := congrArg BitVec.toNat htop
    have hones : (-1#11).toNat = 2047 := rfl
    rw [h.toNat_exponent, hones] at hbits
    omega
  have hexponent :
      ((e + 1075).toNat : Int) - (Format.binary64.exponentBias + ((52 : Nat) : Int)) = e := by
    have hbias : (Format.binary64.exponentBias : Int) = 1023 := rfl
    omega
  -- the field is neither the least nor the greatest, so the leading bit is put back
  rw [h.pack_eq]
  unfold UnpackedFloat.unpack
  simp only [unpackMantissa_packComponents, unpackExponent_packComponents,
    unpackSign_packComponents, Sign.ofBitVec_toBitVec, if_neg hfinite, if_neg hnonzero,
    h.toNat_exponent, h.toNat_append_mantissa, hexponent]

/-- The bits of a positive double, as a number. -/
theorem toNat_packComponents (exponent : BitVec 11) (mantissa : BitVec 52) :
    (packComponents Format.binary64 .positive exponent mantissa).toNat =
      exponent.toNat * 2 ^ 52 + mantissa.toNat := by
  unfold packComponents
  rw [BitVec.toNat_append, BitVec.toNat_append, ← Nat.shiftLeft_add_eq_or_of_lt mantissa.isLt,
    Nat.shiftLeft_eq]
  simp [Sign.toBitVec]

end FullPrecision

/-! ### Doubles with a mantissa of full length -/

/-- The positive double of a mantissa and an exponent. -/
def doubleOf (m : Nat) (e : Int) (hm : 0 < m) : Float :=
  .ofModel (Float.Model.pack (.finite .positive m e hm))

section

variable {m : Nat} {e : Int}

/-- A double is unpacked as it was packed. -/
theorem unpack_doubleOf (h : FullPrecision m e) :
    (doubleOf m e h.pos).toModel.unpack = .finite .positive m e h.pos := by
  show UnpackedFloat.unpack Format.binary64 (UnpackedFloat.pack Format.binary64 _) = _
  exact h.unpack_pack .positive

/-- And is taken apart into the same mantissa and exponent. -/
theorem ofFloat?_doubleOf (h : FullPrecision m e) :
    ∃ lowest, Binary.ofFloat? (doubleOf m e h.pos) = some ⟨m, e, lowest⟩ := by
  obtain ⟨hpos, hsmall⟩ := h.biased_bounds
  have hlower := h.lower
  have hupper := h.upper
  have hbits : (doubleOf m e h.pos).toBits.toNat = (e + 1075).toNat * 2 ^ 52 + (m - 2 ^ 52) := by
    show (UnpackedFloat.pack Format.binary64 _).toNat = _
    rw [h.pack_eq, FullPrecision.toNat_packComponents, h.toNat_exponent, h.toNat_mantissa]
  have hpow : ∀ j, Nat.pow 2 j = 2 ^ j := fun _ => rfl
  -- mantissa and exponent are cut out of the bits where they were put together
  have hfraction : ((e + 1075).toNat * 2 ^ 52 + (m - 2 ^ 52)) % 2 ^ 52 = m - 2 ^ 52 := by
    omega
  have hexponent :
      ((e + 1075).toNat * 2 ^ 52 + (m - 2 ^ 52)) / 2 ^ 52 % 2 ^ 11 = (e + 1075).toNat := by
    omega
  unfold Binary.ofFloat?
  simp only [hbits, hpow, hfraction, hexponent]
  rw [if_neg (by omega), if_neg (by omega)]
  refine ⟨decide ((e + 1075).toNat = 1), ?_⟩
  simp only [Option.some.injEq, Binary.mk.injEq, and_true]
  omega

/-- It is not negative. -/
theorem zero_le_doubleOf (h : FullPrecision m e) : 0 ≤ doubleOf m e h.pos := by
  have hzero : (0 : Float).toModel.unpack = .zero .positive := rfl
  have hle : UnpackedFloat.le (0 : Float).toModel.unpack (doubleOf m e h.pos).toModel.unpack := by
    rw [hzero, unpack_doubleOf h]
    rfl
  exact decide_eq_true hle

/-- Multiplying by one changes nothing: the mantissa of one is a one with zeros after it. -/
theorem doubleOf_mul_one (h : FullPrecision m e) :
    doubleOf m e h.pos * Float.ofBits 0x3FF0000000000000 = doubleOf m e h.pos := by
  have hone : (Float.ofBits 0x3FF0000000000000).toModel.unpack
      = .finite .positive (2 ^ 52) (-52) (by decide) := rfl
  have hmul : UnpackedFloat.mul Format.binary64 (.finite .positive m e h.pos)
      (.finite .positive (2 ^ 52) (-52) (by decide)) = .finite .positive m e h.pos :=
    h.roundWithAccuracy_eq .positive 52
  show Float.ofModel (Float.Model.pack (UnpackedFloat.mul Format.binary64
    (doubleOf m e h.pos).toModel.unpack (Float.ofBits 0x3FF0000000000000).toModel.unpack)) = _
  rw [unpack_doubleOf h, hone, hmul]
  rfl

end

/-! ### Natural numbers -/

/-- How many of the 53 bits a number leaves free. -/
def spareBits (n : Nat) : Nat :=
  52 - n.log2

section

variable {n : Nat}

/-- With its spare bits a number has 53 bits. -/
theorem log2_add_spareBits (hpos : 0 < n) (hn : n < 2 ^ 53) : n.log2 + spareBits n = 52 := by
  have hlog : n.log2 < 53 := (Nat.log2_lt (Nat.ne_of_gt hpos)).mpr hn
  unfold spareBits
  omega

/-- A number below `2 ^ 53` can be shifted to full length. -/
theorem fullPrecision_shifted (hpos : 0 < n) (hn : n < 2 ^ 53) :
    FullPrecision (n * 2 ^ spareBits n) (-spareBits n) := by
  have hspare := log2_add_spareBits hpos hn
  refine ⟨?_, ?_, ?_, ?_⟩
  -- shifted as far to the left as 53 bits allow
  · have hlow : 2 ^ n.log2 ≤ n := Nat.log2_self_le (Nat.ne_of_gt hpos)
    rw [← hspare, Nat.pow_add]
    exact Nat.mul_le_mul_right _ hlow
  · have hhigh : n < 2 ^ (n.log2 + 1) := Nat.lt_log2_self
    have hpow : 2 ^ 53 = 2 ^ (n.log2 + 1) * 2 ^ spareBits n := by
      rw [← Nat.pow_add]
      congr 1
      omega
    rw [hpow]
    exact Nat.mul_lt_mul_of_pos_right hhigh (Nat.two_pow_pos _)
  · omega
  · omega

/-- A whole number below `2 ^ 53` is rounded to itself. -/
theorem round_nat (hpos : 0 < n) (hn : n < 2 ^ 53) :
    UnpackedFloat.round Format.binary64 .positive n 0 =
      .finite .positive (n * 2 ^ spareBits n) (-spareBits n)
        (fullPrecision_shifted hpos hn).pos := by
  have hspare := log2_add_spareBits hpos hn
  have htarget : Format.binary64.targetExponent (totalExponent n 0) = -spareBits n := by
    have hbits : (Format.binary64.mantissaBits : Int) = 53 := rfl
    have hmin : Format.binary64.minExponent = -1074 := rfl
    rw [Format.targetExponent, totalExponent, hbits, hmin]
    omega
  have hshift : (0 - -(spareBits n : Int)).toNat = spareBits n := by omega
  unfold UnpackedFloat.round decreaseExponent
  simp only [htarget, hshift, Nat.shiftLeft_eq]
  simpa using (fullPrecision_shifted hpos hn).roundWithAccuracy_eq .positive 0

/-- And so it is converted exactly. -/
theorem toFloat_eq (hpos : 0 < n) (hn : n < 2 ^ 53) :
    n.toUInt64.toFloat =
      doubleOf (n * 2 ^ spareBits n) (-spareBits n) (fullPrecision_shifted hpos hn).pos := by
  have hword : n.toUInt64.toNat = n := by
    rw [UInt64.toNat_ofNat']
    omega
  have hcompare : compare (n : Int) 0 = .gt := by
    rw [Int.compare_eq_gt]
    omega
  show Float.ofModel (Float.Model.pack (UnpackedFloat.ofNat Format.binary64 _)) = _
  unfold UnpackedFloat.ofNat UnpackedFloat.ofInt UnpackedFloat.normalize
  simp only [hword, hcompare, Int.toNat_natCast, round_nat hpos hn]
  rfl

/-- **A natural number below `2 ^ 53` is a double exactly.** -/
theorem ofNat_eq (hpos : 0 < n) (hn : n < 2 ^ 53) :
    Float.ofNat n =
      doubleOf (n * 2 ^ spareBits n) (-spareBits n) (fullPrecision_shifted hpos hn).pos := by
  have hproduct : Float.ofNat n = n.toUInt64.toFloat * Float.ofBits 0x3FF0000000000000 := by
    show Float.ofScientific n false 0 = _
    unfold Float.ofScientific
    rw [dif_pos ⟨hn, by decide⟩]
    rfl
  rw [hproduct, toFloat_eq hpos hn, doubleOf_mul_one (fullPrecision_shifted hpos hn)]

/-- Shifting back gives the whole number. -/
theorem whole?_shifted (n k : Nat) (lowest : Bool) :
    Binary.whole? ⟨n * 2 ^ k, -k, lowest⟩ = some n := by
  have hpow : ∀ j, Nat.pow 2 j = 2 ^ j := fun _ => rfl
  unfold Binary.whole?
  simp only [hpow]
  split
  case isTrue hexponent =>
    have hk : k = 0 := by omega
    simp [hk]
  case isFalse =>
    have hneg : (- -(k : Int)).toNat = k := by omega
    rw [hneg, Nat.mul_mod_left, if_pos rfl, Nat.mul_div_cancel _ (Nat.two_pow_pos k)]

/-- **A count stands for itself as an index.** -/
theorem Value.index?_ofNat (hn : n < 2 ^ 53) : (Value.ofNat n).index? = some n := by
  rcases Nat.eq_zero_or_pos n with rfl | hpos
  · decide +kernel
  have hfull := fullPrecision_shifted hpos hn
  obtain ⟨lowest, hbinary⟩ := ofFloat?_doubleOf hfull
  have hmax : n ≤ maxIndex := by
    have hvalue : maxIndex = 2 ^ 64 - 1 := rfl
    omega
  show indexOfNumber? (Float.ofNat n) = some n
  unfold indexOfNumber?
  rw [ofNat_eq hpos hn, if_pos (zero_le_doubleOf hfull), hbinary, Option.bind_some,
    whole?_shifted, Option.map_some, Nat.min_eq_right hmax]

end

end BlockChart
