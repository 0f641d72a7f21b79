import BlockChart.Proofs.ShortestDecimal
import Mathlib

namespace BlockChart

open Float.Model Float.Model.UnpackedFloat

/-!
# The parts of a double

A double is a zero, not-a-number, an infinity, or a positive double with a sign.  The bits tell
which, and the parts put together give the double back.

* `IsDouble.unpack_pack` — bits keep the parts of a positive double;
* `ofModel_pack_unpack` — and every double is made of its parts;
* `float_cases` — what a double can be.
-/

/-! ### Bits of positive doubles -/

namespace IsDouble

variable {m : ℕ} {e : ℤ}

/-- A normal double has all 53 bits. -/
theorem fullPrecision (hd : IsDouble m e) (hm : 2 ^ 52 ≤ m) : FullPrecision m e :=
  ⟨hm, hd.upper, hd.least, hd.greatest⟩

/-- Below the least exponent the leading bit is not hidden. -/
theorem unpack_pack_subnormal (hpos : 0 < m) (hm : m < 2 ^ 52) (sign : Sign) :
    UnpackedFloat.unpack Format.binary64
        (UnpackedFloat.pack Format.binary64 (.finite sign m (-1074) hpos)) =
      .finite sign m (-1074) hpos := by
  have hlog : m.log2 < 52 := (Nat.log2_lt (Nat.ne_of_gt hpos)).mpr hm
  have hbits : Format.binary64.mantissaBits = 53 := rfl
  have hmantissa : (BitVec.ofNat 52 m).toNat = m := by
    rw [BitVec.toNat_ofNat, Nat.mod_eq_of_lt hm]
  have hnonzero : BitVec.ofNat 52 m ≠ 0#52 := by
    intro hzero
    have := congrArg BitVec.toNat hzero
    rw [hmantissa, BitVec.toNat_zero] at this
    omega
  -- the number is too small for a leading bit, so the exponent field is left at zero
  have hpack : UnpackedFloat.pack Format.binary64 (.finite sign m (-1074) hpos) =
      packComponents Format.binary64 sign 0#11 (BitVec.ofNat 52 m) := by
    unfold UnpackedFloat.pack
    simp only [hbits]
    rw [if_neg (by decide), if_neg (by omega)]
  rw [hpack]
  unfold UnpackedFloat.unpack
  simp only [unpackMantissa_packComponents, unpackExponent_packComponents,
    unpackSign_packComponents, Sign.ofBitVec_toBitVec, hmantissa]
  rw [if_neg (by decide), if_pos trivial, dif_neg hnonzero]
  rfl

/-- **The bits tell a positive double back**, with its sign. -/
theorem unpack_pack (hd : IsDouble m e) (sign : Sign) :
    UnpackedFloat.unpack Format.binary64
        (UnpackedFloat.pack Format.binary64 (.finite sign m e hd.pos)) =
      .finite sign m e hd.pos := by
  by_cases hm : 2 ^ 52 ≤ m
  · exact (hd.fullPrecision hm).unpack_pack sign
  · obtain rfl := hd.full.resolve_right hm
    exact unpack_pack_subnormal hd.pos (Nat.lt_of_not_le hm) sign

end IsDouble

/-! ### Bits of all doubles -/

/-- **A double is made of its parts.** -/
theorem ofModel_pack_unpack (x : Float) :
    Float.ofModel (Float.Model.pack x.toModel.unpack) = x := by
  obtain ⟨⟨bits, hvalid⟩⟩ := x
  have hbits := pack_unpack_of_valid hvalid
  unfold Float.Model.pack Float.Model.unpack
  simp only [hbits]

/-- The stored part of the mantissa. -/
def storedMantissa (x : Float) : BitVec 52 :=
  @unpackMantissa Format.binary64 x.toBits.toBitVec

/-- The stored exponent. -/
def storedExponent (x : Float) : BitVec 11 :=
  @unpackExponent Format.binary64 x.toBits.toBitVec

/-- The lower 52 bits are the mantissa. -/
theorem toNat_storedMantissa (x : Float) : (storedMantissa x).toNat = x.toBits.toNat % 2 ^ 52 := by
  rw [storedMantissa, unpackMantissa_def, BitVec.extractLsb'_toNat, Nat.shiftRight_zero]
  rfl

/-- The 11 bits above them are the exponent. -/
theorem toNat_storedExponent (x : Float) :
    (storedExponent x).toNat = x.toBits.toNat / 2 ^ 52 % 2 ^ 11 := by
  rw [storedExponent, unpackExponent_def, BitVec.extractLsb'_toNat, Nat.shiftRight_eq_div_pow]
  rfl

/-- The sign of a double. -/
def signOf (x : Float) : Sign :=
  if signBit x then .negative else .positive

/-- The topmost bit is the sign. -/
theorem ofBitVec_unpackSign (x : Float) :
    Sign.ofBitVec (@unpackSign Format.binary64 x.toBits.toBitVec) = signOf x := by
  have hsmall : x.toBits.toNat / 2 ^ 63 < 2 := by
    have := x.toBits.toNat_lt
    omega
  have hstored : (@unpackSign Format.binary64 x.toBits.toBitVec).toNat
      = x.toBits.toNat / 2 ^ 63 := by
    rw [unpackSign_def, BitVec.extractLsb'_toNat, Nat.shiftRight_eq_div_pow]
    exact Nat.mod_eq_of_lt hsmall
  have hshifted : (x.toBits >>> 63).toNat = x.toBits.toNat / 2 ^ 63 := by
    rw [UInt64.toNat_shiftRight, Nat.shiftRight_eq_div_pow]
    rfl
  have hbit : signBit x = true ↔ x.toBits.toNat / 2 ^ 63 = 1 := by
    rw [signBit, beq_iff_eq, ← UInt64.toNat_inj, hshifted]
    rfl
  unfold Sign.ofBitVec signOf
  -- the sign bit is the topmost of the 64, and both readings agree on it
  by_cases hsign : signBit x = true
  · rw [if_pos hsign, if_neg]
    intro hzero
    have := congrArg BitVec.toNat hzero
    rw [hstored, hbit.mp hsign] at this
    exact absurd this (by decide)
  · rw [if_neg hsign, if_pos]
    refine BitVec.eq_of_toNat_eq ?_
    rw [hstored]
    have := mt hbit.mpr hsign
    show _ = 0
    omega

/-- How a number is taken apart, by its stored exponent: with the greatest one it is not finite,
    with zero it is subnormal, and otherwise its mantissa has a hidden bit. -/
theorem ofFloat?_eq (x : Float) : Binary.ofFloat? x =
    if (storedExponent x).toNat = 2047 then none
    else if (storedExponent x).toNat = 0 then some ⟨(storedMantissa x).toNat, -1074, true⟩
    else some ⟨2 ^ 52 + (storedMantissa x).toNat, ((storedExponent x).toNat : ℤ) - 1075,
      (storedExponent x).toNat = 1⟩ := by
  rw [toNat_storedExponent, toNat_storedMantissa]
  rfl

/-- A double is unpacked from its three parts. -/
theorem unpack_toModel (x : Float) : x.toModel.unpack = UnpackedFloat.unpack Format.binary64
    (packComponents Format.binary64 (signOf x) (storedExponent x) (storedMantissa x)) := by
  have hbits := @packComponents_unpackSign_unpackExponent_unpackMantissa Format.binary64
    x.toBits.toBitVec
  rw [ofBitVec_unpackSign] at hbits
  exact congrArg (UnpackedFloat.unpack Format.binary64) hbits.symm

/-- Doubles without a magnitude are infinite or not-a-number. -/
theorem unpack_of_ofFloat?_none {x : Float} (h : Binary.ofFloat? x = none) :
    x.toModel.unpack = .infinity (signOf x) ∨ x.toModel.unpack = .notANumber := by
  -- only the greatest exponent field is read as no number
  have htop : storedExponent x = -1#11 := by
    rw [ofFloat?_eq] at h
    split at h
    case isTrue htop => exact BitVec.eq_of_toNat_eq htop
    case isFalse => split at h <;> cases h
  rw [unpack_toModel]
  unfold UnpackedFloat.unpack
  simp only [unpackMantissa_packComponents, unpackExponent_packComponents,
    unpackSign_packComponents, Sign.ofBitVec_toBitVec]
  rw [if_pos htop]
  split
  · exact .inl rfl
  · exact .inr rfl

/-- **The others are a zero or a positive double with a sign.** -/
theorem unpack_of_ofFloat? {x : Float} {b : Binary} (h : Binary.ofFloat? x = some b) :
    x.toModel.unpack = .zero (signOf x) ∨
      ∃ hb : b.IsPositive,
        x.toModel.unpack = .finite (signOf x) b.mantissa b.exponent hb.double.pos := by
  rw [ofFloat?_eq] at h
  rw [unpack_toModel]
  generalize storedExponent x = biased at h
  generalize storedMantissa x = fraction at h
  have hfraction := fraction.isLt
  have hbiased := biased.isLt
  unfold UnpackedFloat.unpack
  simp only [unpackMantissa_packComponents, unpackExponent_packComponents,
    unpackSign_packComponents, Sign.ofBitVec_toBitVec]
  split at h
  case isTrue => cases h
  case isFalse htop =>
    rw [if_neg fun heq => htop (congrArg BitVec.toNat heq)]
    split at h
    -- with the least exponent field: zero, or a number without a leading bit
    case isTrue hzero =>
      cases h
      rw [if_pos (BitVec.eq_of_toNat_eq hzero)]
      split
      case isTrue => exact .inl rfl
      case isFalse hnonzero =>
        have hpos : 0 < fraction.toNat :=
          Nat.pos_of_ne_zero fun h => hnonzero (BitVec.eq_of_toNat_eq h)
        refine .inr ⟨⟨⟨hpos, by simp only; omega, by simp, by simp, .inl rfl⟩, by simp⟩, ?_⟩
        rw [hzero]
        rfl
    case isFalse hzero =>
      cases h
      rw [if_neg fun heq => hzero (congrArg BitVec.toNat heq)]
      -- with any other one: the leading bit is not stored, and is put in front
      have hmantissa : (1#1 ++ fraction).toNat = 2 ^ 52 + fraction.toNat := by
        rw [BitVec.toNat_append, ← Nat.shiftLeft_add_eq_or_of_lt hfraction]
        rfl
      refine .inr ⟨⟨⟨by simp, by simp only; omega, by simp only; omega, by simp only; omega,
        .inr (by simp)⟩, by simp; omega⟩, ?_⟩
      simp only [hmantissa]
      rfl

/-! ### What a double can be -/

/-- A magnitude with a sign. -/
def signed (negative : Bool) (x : Float) : Float :=
  if negative then -x else x

/-- A sign is put on a finite number. -/
theorem signed_doubleOf {m : ℕ} {e : ℤ} (hd : IsDouble m e) (negative : Bool) :
    signed negative (doubleOf m e hd.pos) =
      .ofModel (.pack (.finite (if negative then .negative else .positive) m e hd.pos)) := by
  cases negative with
  | false => rfl
  | true =>
    show Float.ofModel (Float.Model.pack (UnpackedFloat.neg (UnpackedFloat.unpack Format.binary64
      (UnpackedFloat.pack Format.binary64 (.finite .positive m e hd.pos))))) = _
    rw [hd.unpack_pack]
    rfl

/-- And on infinity. -/
theorem signed_infinity (negative : Bool) : signed negative infinity =
    .ofModel (.pack (.infinity (if negative then .negative else .positive))) := by
  cases negative <;> rfl

/-- **What a double can be.** -/
theorem float_cases (x : Float) : (x == 0) = true ∨ x = notANumber ∨
    (∃ negative, x = signed negative infinity) ∨
    (x == 0) = false ∧ ∃ (b : Binary) (hb : b.IsPositive), Binary.ofFloat? x = some b ∧
      x = signed (signBit x) (doubleOf b.mantissa b.exponent hb.double.pos) := by
  have hx := ofModel_pack_unpack x
  cases hb : Binary.ofFloat? x with
  | none =>
    rcases unpack_of_ofFloat?_none hb with hinfinite | hnan
    · refine .inr (.inr (.inl ⟨signBit x, ?_⟩))
      rw [signed_infinity, ← signOf, ← hinfinite, hx]
    · refine .inr (.inl ?_)
      rw [← hx, hnan]
      rfl
  | some b =>
    rcases unpack_of_ofFloat? hb with hzero | ⟨hpos, hfinite⟩
    · refine .inl ?_
      show UnpackedFloat.beq x.toModel.unpack (0 : Float).toModel.unpack = true
      rw [hzero]
      cases signOf x <;> rfl
    · refine .inr (.inr (.inr ⟨?_, b, hpos, rfl, ?_⟩))
      · show UnpackedFloat.beq x.toModel.unpack (0 : Float).toModel.unpack = false
        rw [hfinite]
        cases signOf x <;> rfl
      · rw [signed_doubleOf hpos.double, ← signOf, ← hfinite, hx]

end BlockChart
