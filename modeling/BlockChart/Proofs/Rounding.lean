import BlockChart.Proofs.WholeNumbers
import Mathlib

namespace BlockChart

open Float.Model Float.Model.UnpackedFloat

/-!
# Rounding to doubles

The numbers that round to a double are those of which its mantissa is the nearest whole
number, when they are counted in its unit; only just below a power of two the doubles are twice as
dense, and the numbers that round to the power reach half as far.  Multiplication and division
give the double that their exact result rounds to.

* `NearestEven` — the nearest whole number, the even one of two; `StandsFor` — what a mantissa
  with its round and sticky bits says of a number; `StandsFor.nearestEven` joins them;
* `IsDouble` — the mantissas and exponents of positive doubles, `IsDouble.Rounds` — the numbers
  that round to one;
* `IsDouble.roundWithAccuracy_eq` — rounding finds the double;
* `IsDouble.mul_eq`, `IsDouble.div_eq` — so do products and quotients.
-/

/-! ### Nearest whole numbers -/

/-- **The nearest whole number** to `q`, and of two the even one. -/
structure NearestEven (q : ℚ) (n : ℕ) : Prop where
  low : n - 1 / 2 ≤ q
  high : q ≤ n + 1 / 2
  even : q = n - 1 / 2 ∨ q = n + 1 / 2 → n % 2 = 0

namespace NearestEven

variable {q : ℚ} {n n' : ℕ}

/-- A number nearer than a half is the nearest one. -/
theorem of_near (hlow : n - 1 / 2 < q) (hhigh : q < n + 1 / 2) : NearestEven q n :=
  ⟨hlow.le, hhigh.le, fun h => h.elim (fun hq => absurd hq hlow.ne') fun hq => absurd hq hhigh.ne⟩

/-- Two numbers that are both nearest lie a half to both sides, and only one of them is even. -/
private theorem le_of_nearest (h : NearestEven q n) (h' : NearestEven q n') : n ≤ n' := by
  by_contra hlt
  have hsucc : (n' : ℚ) + 1 ≤ n := by exact_mod_cast Nat.lt_of_not_le hlt
  have hlow := h.low
  have hhigh := h'.high
  have heven := h.even (.inl (by linarith))
  have heven' := h'.even (.inr (by linarith))
  have hnext : (n : ℚ) = (n' + 1 : ℕ) := by
    push_cast
    linarith
  have hnext' : n = n' + 1 := by exact_mod_cast hnext
  omega

/-- There is only one: two candidates at the same distance are neighbours, and one of them is even.
    -/
theorem unique (h : NearestEven q n) (h' : NearestEven q n') : n = n' :=
  Nat.le_antisymm (h.le_of_nearest h') (h'.le_of_nearest h)

end NearestEven

/-! ### Mantissas with residual bits -/

/-- A mantissa with its round and sticky bits **stands for** a number: the round bit is worth a
    half, and the sticky bit tells whether something less than a half is left. -/
def StandsFor (em : ExtendedMantissa) (q : ℚ) : Prop :=
  ∃ rest : ℚ, q = em.mantissa + em.roundBit.toNat / 2 + rest ∧
    0 ≤ rest ∧ rest < 1 / 2 ∧ (em.stickyBit = true ↔ 0 < rest)

namespace StandsFor

variable {em : ExtendedMantissa} {q : ℚ}

/-- A mantissa without a remainder stands for itself. -/
theorem exact (m : ℕ) : StandsFor (.ofMantissaAndAccuracy m .exact) m :=
  ⟨0, by simp [ExtendedMantissa.ofMantissaAndAccuracy], le_refl _, by norm_num,
    by simp [ExtendedMantissa.ofMantissaAndAccuracy]⟩

/-- The quotient of two whole numbers, by the whole part and the remainder. -/
theorem div (m : ℕ) {d : ℕ} (hd : 0 < d) :
    StandsFor (.ofMantissaAndAccuracy (m / d) (accuracyOfFraction (m % d) d)) ((m : ℚ) / d) := by
  have hdpos : (0 : ℚ) < d := by exact_mod_cast hd
  have hquotient : (m : ℚ) / d = (m / d : ℕ) + ((m % d : ℕ) : ℚ) / d := by
    have hdivision : (m : ℚ) = d * (m / d : ℕ) + (m % d : ℕ) := by
      exact_mod_cast (Nat.div_add_mod m d).symm
    field_simp
    linarith
  have hrest : m % d < d := Nat.mod_lt m hd
  rw [hquotient]
  generalize m / d = n
  generalize m % d = r at hrest
  have hr : (r : ℚ) < d := by exact_mod_cast hrest
  unfold accuracyOfFraction
  split
  case isTrue hzero =>
    subst hzero
    simpa using exact n
  case isFalse hzero =>
    have hrpos : (0 : ℚ) < r := by exact_mod_cast Nat.pos_of_ne_zero hzero
    -- where the remainder stands to the half of the divisor
    rcases hcompare : compare (2 * r) d with _ | _ | _
    · have hless : 2 * (r : ℚ) < d := by exact_mod_cast Nat.compare_eq_lt.mp hcompare
      refine ⟨r / d, by simp [ExtendedMantissa.ofMantissaAndAccuracy], by positivity, ?_, ?_⟩
      · rw [div_lt_div_iff₀ hdpos two_pos]
        linarith
      · simpa [ExtendedMantissa.ofMantissaAndAccuracy] using div_pos hrpos hdpos
    · have hhalf : 2 * (r : ℚ) = d := by exact_mod_cast Nat.compare_eq_eq.mp hcompare
      have hworth : (r : ℚ) / d = 1 / 2 := by
        rw [div_eq_div_iff hdpos.ne' two_ne_zero]
        linarith
      exact ⟨0, by simp [ExtendedMantissa.ofMantissaAndAccuracy, hworth], le_refl _, by norm_num,
        by simp [ExtendedMantissa.ofMantissaAndAccuracy]⟩
    · have hmore : (d : ℚ) < 2 * r := by exact_mod_cast Nat.compare_eq_gt.mp hcompare
      have hover : 1 / 2 < (r : ℚ) / d := by
        rw [div_lt_div_iff₀ two_pos hdpos]
        linarith
      have hunder : (r : ℚ) / d < 1 := (div_lt_one hdpos).mpr hr
      refine ⟨r / d - 1 / 2, ?_, by linarith, by linarith, ?_⟩
      · simp [ExtendedMantissa.ofMantissaAndAccuracy]
      · simpa [ExtendedMantissa.ofMantissaAndAccuracy] using hover

/-- The mantissa is the whole part. -/
theorem bounds (h : StandsFor em q) : em.mantissa ≤ q ∧ q < em.mantissa + 1 := by
  obtain ⟨rest, rfl, hrest0, hrest, -⟩ := h
  have hround0 : (0 : ℚ) ≤ em.roundBit.toNat := by positivity
  have hround : (em.roundBit.toNat : ℚ) ≤ 1 := by exact_mod_cast Bool.toNat_le em.roundBit
  constructor <;> linarith

/-- Shifting by one place halves the number. -/
theorem shiftRightOne (h : StandsFor em q) : StandsFor em.shiftRightOne (q / 2) := by
  obtain ⟨rest, rfl, hrest0, hrest, hsticky⟩ := h
  obtain ⟨m, round, sticky⟩ := em
  have hbit : (m % 2 != 0).toNat = m % 2 := by
    rcases Nat.mod_two_eq_zero_or_one m with h | h <;> rw [h] <;> rfl
  have hm : (m : ℚ) = 2 * (m / 2 : ℕ) + (m % 2 : ℕ) := by exact_mod_cast (Nat.div_add_mod m 2).symm
  have hround : (round.toNat : ℚ) ≤ 1 := by exact_mod_cast Bool.toNat_le round
  -- the round bit joins the rest, the last bit of the mantissa becomes the round bit
  refine ⟨round.toNat / 4 + rest / 2, ?_, by positivity, by linarith, ?_⟩
  · simp only [ExtendedMantissa.shiftRightOne, hbit]
    rw [hm]
    ring
  · simp only [ExtendedMantissa.shiftRightOne, Bool.or_eq_true]
    cases round
    · simpa using hsticky
    · simp only [true_or, true_iff, Bool.toNat_true]
      positivity

/-- Shifting divides, and the two extra bits keep what is lost. -/
theorem shiftRight (h : StandsFor em q) (k : ℕ) : StandsFor (em >>> k) (q / 2 ^ k) := by
  show StandsFor (k.repeat ExtendedMantissa.shiftRightOne em) _
  induction k with
  | zero => simpa [Nat.repeat] using h
  | succ k ih =>
    rw [Nat.repeat, pow_succ, ← div_div]
    exact ih.shiftRightOne

/-- **The residual bits suffice** to find the nearest whole number. -/
theorem nearestEven (h : StandsFor em q) : NearestEven q em.roundedMantissa := by
  obtain ⟨rest, rfl, hrest0, hrest, hsticky⟩ := h
  obtain ⟨m, round, sticky⟩ := em
  cases round with
  | false =>
    have hrounded : (ExtendedMantissa.mk m false sticky).roundedMantissa = m := by
      cases sticky <;> rfl
    rw [hrounded]
    refine .of_near ?_ ?_ <;> simp only [Bool.toNat_false, Nat.cast_zero, zero_div] <;> linarith
  | true =>
    cases sticky with
    | true =>
      have hpos : 0 < rest := hsticky.mp rfl
      refine .of_near (n := m + 1) ?_ ?_ <;>
        simp only [Bool.toNat_true, Nat.cast_one, Nat.cast_add] <;> linarith
    | false =>
      -- an exact half goes to the even neighbour
      have hzero : rest = 0 := le_antisymm (not_lt.mp fun hpos => by simp [hpos] at hsticky) hrest0
      have hrounded : (ExtendedMantissa.mk m true false).roundedMantissa = m + m % 2 := rfl
      have hparity : (m + m % 2) % 2 = 0 := by omega
      rw [hrounded]
      simp only [hzero, Bool.toNat_true, Nat.cast_one, add_zero]
      rcases Nat.mod_two_eq_zero_or_one m with hm | hm <;> rw [hm] at hparity ⊢ <;>
        exact ⟨by push_cast; linarith, by push_cast; linarith, fun _ => hparity⟩

end StandsFor

/-! ### Doubles and what rounds to them -/

/-- **A positive double** `m * 2 ^ e`: its mantissa has 53 bits, or fewer at the least
    exponent. -/
structure IsDouble (m : ℕ) (e : ℤ) : Prop where
  pos : 0 < m
  upper : m < 2 ^ 53
  least : -1074 ≤ e
  greatest : e ≤ 971
  full : e = -1074 ∨ 2 ^ 52 ≤ m

/-- **The numbers that round to a double.**  Below a power of two the doubles are twice as dense,
    but for the least exponent. -/
structure IsDouble.Rounds (m : ℕ) (e : ℤ) (v : ℚ) : Prop where
  nearest : NearestEven (v / 2 ^ e) m
  dense : m = 2 ^ 52 → -1074 < e → m - 1 / 4 ≤ v / 2 ^ e

/-- The exponent that rounding gives to a number. -/
theorem targetExponent_eq_max (t : ℤ) :
    Format.binary64.targetExponent t = max (t - 53) (-1074) := rfl

/-- What has at most 53 bits is not shifted. -/
theorem shiftToTargetExponent_small {m : ℕ} {e : ℤ} (hm : m < 2 ^ 53) (he : -1074 ≤ e) :
    shiftToTargetExponent Format.binary64 m e .exact = (⟨m, false, false⟩, e) := by
  have hlog : m.log2 ≤ 52 := by
    rcases Nat.eq_zero_or_pos m with rfl | hpos
    · decide
    · exact Nat.le_of_lt_succ ((Nat.log2_lt (Nat.ne_of_gt hpos)).mpr hm)
  have hshift : (Format.binary64.targetExponent (totalExponent m e) - e).toNat = 0 := by
    rw [targetExponent_eq_max, totalExponent]
    omega
  unfold shiftToTargetExponent shiftToExponent
  simp only [hshift]
  simp [HShiftRight.hShiftRight, Nat.repeat, ExtendedMantissa.ofMantissaAndAccuracy]

/-- The smallest number of 54 bits is shifted by one. -/
theorem shiftToTargetExponent_carry {e : ℤ} (he : -1074 ≤ e) :
    shiftToTargetExponent Format.binary64 (2 ^ 53) e .exact = (⟨2 ^ 52, false, false⟩, e + 1) := by
  have hshift : (Format.binary64.targetExponent (totalExponent (2 ^ 53) e) - e).toNat = 1 := by
    rw [targetExponent_eq_max, totalExponent, Nat.log2_two_pow]
    omega
  unfold shiftToTargetExponent shiftToExponent
  simp only [hshift]
  rfl

section

variable {m : ℕ} {e : ℤ} {v : ℚ} {M : ℕ} {E : ℤ} {accuracy : Accuracy}

theorem two_zpow_pos (k : ℤ) : (0 : ℚ) < 2 ^ k :=
  zpow_pos two_pos k

theorem mantissa_ofMantissaAndAccuracy (m : ℕ) (accuracy : Accuracy) :
    (ExtendedMantissa.ofMantissaAndAccuracy m accuracy).mantissa = m := by
  rcases accuracy with _ | _ | _ | _ <;> rfl

/-- A number lies below the power of two above its mantissa. -/
theorem lt_totalExponent (h : StandsFor (.ofMantissaAndAccuracy M accuracy) (v / 2 ^ E)) :
    v < 2 ^ totalExponent M E := by
  have hbound := h.bounds.2
  rw [mantissa_ofMantissaAndAccuracy, div_lt_iff₀ (two_zpow_pos E)] at hbound
  have hlog : (M : ℚ) + 1 ≤ 2 ^ (M.log2 + 1) := by exact_mod_cast Nat.lt_log2_self
  calc v < (M + 1) * 2 ^ E := hbound
    _ ≤ 2 ^ (M.log2 + 1) * 2 ^ E := mul_le_mul_of_nonneg_right hlog (two_zpow_pos E).le
    _ = 2 ^ totalExponent M E := by
      rw [totalExponent, zpow_add₀ two_ne_zero]
      norm_cast

/-- And not below the one under it. -/
theorem totalExponent_le (h : StandsFor (.ofMantissaAndAccuracy M accuracy) (v / 2 ^ E))
    (hM : 0 < M) : 2 ^ (totalExponent M E - 1) ≤ v := by
  have hbound := h.bounds.1
  rw [mantissa_ofMantissaAndAccuracy, le_div_iff₀ (two_zpow_pos E)] at hbound
  have hlog : (2 : ℚ) ^ M.log2 ≤ M := by exact_mod_cast Nat.log2_self_le (Nat.ne_of_gt hM)
  have hexponent : totalExponent M E - 1 = M.log2 + E := by
    rw [totalExponent]
    ring
  calc (2 : ℚ) ^ (totalExponent M E - 1) = 2 ^ M.log2 * 2 ^ E := by
        rw [hexponent, zpow_add₀ two_ne_zero, zpow_natCast]
    _ ≤ M * 2 ^ E := mul_le_mul_of_nonneg_right hlog (two_zpow_pos E).le
    _ ≤ v := hbound

/-- Powers of two are compared by their exponents, also when the number between them is counted
    in another unit. -/
theorem lt_of_le_div {a b : ℤ} (hlow : 2 ^ a ≤ v / 2 ^ e) (hhigh : v < 2 ^ b) : a + e < b := by
  rw [le_div_iff₀ (two_zpow_pos e), ← zpow_add₀ two_ne_zero] at hlow
  exact (zpow_lt_zpow_iff_right₀ one_lt_two).mp (hlow.trans_lt hhigh)

/-- A bound on the exponent of a quotient. -/
theorem exponent_lt_of_div_lt {a b : ℤ} (hlow : 2 ^ a ≤ v) (hhigh : v / 2 ^ e < 2 ^ b) :
    a < b + e := by
  rw [div_lt_iff₀ (two_zpow_pos e), ← zpow_add₀ two_ne_zero] at hhigh
  exact (zpow_lt_zpow_iff_right₀ one_lt_two).mp (hlow.trans_lt hhigh)

/-- **The exponent that rounding takes** for a number that rounds to a double is the double's, or
    one less if the number is just below a power of two. -/
theorem IsDouble.targetExponent_eq (hd : IsDouble m e) (hv : IsDouble.Rounds m e v)
    (h : StandsFor (.ofMantissaAndAccuracy M accuracy) (v / 2 ^ E))
    (hE : E ≤ Format.binary64.targetExponent (totalExponent M E)) :
    Format.binary64.targetExponent (totalExponent M E) = e ∨
      (Format.binary64.targetExponent (totalExponent M E) = e - 1 ∧ m = 2 ^ 52 ∧ -1074 < e ∧
        v / 2 ^ e < 2 ^ 52) := by
  have hleast := hd.least
  have htotal : totalExponent M E = M.log2 + 1 + E := rfl
  have hbits : v / 2 ^ e < 2 ^ (53 : ℤ) := by
    have hm : (m : ℚ) + 1 ≤ 2 ^ 53 := by exact_mod_cast hd.upper
    have hhigh := hv.nearest.high
    norm_num at hm ⊢
    linarith
  -- a mantissa of zero only occurs at the least exponent
  have hzero : M = 0 → totalExponent M E ≤ -1073 := by
    rintro rfl
    rw [targetExponent_eq_max, htotal, Nat.log2_zero] at hE
    rw [htotal, Nat.log2_zero]
    omega
  have hatMost : totalExponent M E - 53 ≤ e := by
    rcases Nat.eq_zero_or_pos M with hM | hM
    · have := hzero hM
      omega
    · have := exponent_lt_of_div_lt (totalExponent_le h hM) hbits
      omega
  rw [targetExponent_eq_max]
  by_cases hlarge : 2 ^ 52 ≤ v / 2 ^ e
  · have := lt_of_le_div (a := 52) (by exact_mod_cast hlarge) (lt_totalExponent h)
    exact .inl (by omega)
  by_cases hsubnormal : e = -1074
  · exact .inl (by omega)
  rw [not_le] at hlarge
  have hm : m = 2 ^ 52 := by
    refine Nat.le_antisymm (Nat.le_of_lt_succ ?_) (hd.full.resolve_left hsubnormal)
    have hlow := hv.nearest.low
    have : (m : ℚ) < (2 ^ 52 + 1 : ℕ) := by
      push_cast
      linarith
    exact_mod_cast this
  have hnormal : -1074 < e := by omega
  have hhalf : (2 : ℚ) ^ (51 : ℤ) ≤ v / 2 ^ e := by
    have hdense := hv.dense hm hnormal
    rw [hm] at hdense
    norm_num at hdense ⊢
    linarith
  have hatLeast := lt_of_le_div hhalf (lt_totalExponent h)
  have hMpos : 0 < M := Nat.pos_of_ne_zero fun hM => by
    have := hzero hM
    omega
  have := exponent_lt_of_div_lt (b := 52) (totalExponent_le h hMpos) (by exact_mod_cast hlarge)
  exact .inr ⟨by omega, hm, hnormal, hlarge⟩

/-- Rounding by its two shifts; the second takes back the bit that a carry has added. -/
theorem roundWithAccuracy_of_shifts {em : ExtendedMantissa} {t : ℤ} (sign : Sign)
    (hfirst : shiftToTargetExponent Format.binary64 M E accuracy = (em, t))
    (hsecond : shiftToTargetExponent Format.binary64 em.roundedMantissa t .exact
      = (⟨m, false, false⟩, e))
    (hpos : 0 < m) :
    roundWithAccuracy Format.binary64 sign M E accuracy = .finite sign m e hpos := by
  unfold roundWithAccuracy
  simp only [hfirst, hsecond]
  rw [dif_neg (Nat.ne_of_gt hpos)]

/-- **Rounding finds the double** that a number rounds to, given a mantissa that stands for the
    number and has bits enough. -/
theorem IsDouble.roundWithAccuracy_eq (hd : IsDouble m e) (hv : IsDouble.Rounds m e v)
    (h : StandsFor (.ofMantissaAndAccuracy M accuracy) (v / 2 ^ E))
    (hE : E ≤ Format.binary64.targetExponent (totalExponent M E)) (sign : Sign) :
    roundWithAccuracy Format.binary64 sign M E accuracy = .finite sign m e hd.pos := by
  have htarget := hd.targetExponent_eq hv h hE
  have hleast := hd.least
  generalize ht : Format.binary64.targetExponent (totalExponent M E) = t at htarget hE
  have hunit : E + ((t - E).toNat : ℤ) = t := by omega
  have hfirst : shiftToTargetExponent Format.binary64 M E accuracy
      = (ExtendedMantissa.ofMantissaAndAccuracy M accuracy >>> (t - E).toNat, t) := by
    unfold shiftToTargetExponent shiftToExponent
    simp only [ht, hunit]
  have hnearest := (h.shiftRight (t - E).toNat).nearestEven
  rw [div_div, ← zpow_natCast, ← zpow_add₀ two_ne_zero, hunit] at hnearest
  rcases htarget with rfl | ⟨rfl, rfl, hnormal, hbelow⟩
  -- the target is the exponent of the double: one shift and no carry
  · refine roundWithAccuracy_of_shifts sign hfirst ?_ hd.pos
    rw [hnearest.unique hv.nearest, shiftToTargetExponent_small hd.upper hleast]
  · -- the nearest whole number is the power of two, with one bit too many
    have hdouble : v / 2 ^ (e - 1) = 2 * (v / 2 ^ e) := by
      rw [zpow_sub_one₀ two_ne_zero]
      field_simp
    have hdense := hv.dense rfl hnormal
    have hpower : NearestEven (v / 2 ^ (e - 1)) (2 ^ 53) := by
      rw [hdouble]
      norm_num at hdense hbelow
      exact ⟨by norm_num; linarith, by norm_num; linarith, fun _ => by norm_num⟩
    refine roundWithAccuracy_of_shifts sign hfirst ?_ hd.pos
    rw [hnearest.unique hpower, shiftToTargetExponent_carry (by omega), Int.sub_add_cancel]

/-! ### Products and quotients -/

variable {m₁ m₂ : ℕ} {e₁ e₂ : ℤ}

/-- **A product is the double that the exact product rounds to**, if the mantissas have bits
    enough together. -/
theorem IsDouble.mul_eq (hd : IsDouble m e) (h₁ : 0 < m₁) (h₂ : 0 < m₂)
    (hv : IsDouble.Rounds m e ((m₁ * 2 ^ e₁) * (m₂ * 2 ^ e₂))) (hbits : 2 ^ 52 ≤ m₁ * m₂)
    (s₁ s₂ : Sign) :
    UnpackedFloat.mul Format.binary64 (.finite s₁ m₁ e₁ h₁) (.finite s₂ m₂ e₂ h₂)
      = .finite (s₁ * s₂) m e hd.pos := by
  have hexact : ((m₁ * 2 ^ e₁) * (m₂ * 2 ^ e₂) : ℚ) / 2 ^ (e₁ + e₂) = (m₁ * m₂ : ℕ) := by
    rw [zpow_add₀ two_ne_zero, Nat.cast_mul]
    field_simp
  -- the product has all the bits of a double, so it is shifted to the right if at all
  have hlog : 52 ≤ (m₁ * m₂).log2 :=
    (Nat.le_log2 (Nat.ne_of_gt (Nat.mul_pos h₁ h₂))).mpr hbits
  refine hd.roundWithAccuracy_eq hv ?_ ?_ (s₁ * s₂)
  · rw [hexact]
    exact StandsFor.exact (m₁ * m₂)
  · rw [targetExponent_eq_max, totalExponent]
    omega

/-- Long division goes on until the quotient has bits enough. -/
theorem le_targetExponent_quotient (h₁ : 0 < m₁) (h₂ : 0 < m₂) {k : ℕ}
    (hE : E ≤ Format.binary64.targetExponent (totalExponent m₁ e₁ - totalExponent m₂ e₂))
    (hk : E + k = e₁ - e₂) :
    E ≤ Format.binary64.targetExponent (totalExponent (m₁ <<< k / m₂) E) := by
  rw [targetExponent_eq_max, totalExponent, totalExponent] at hE
  rw [targetExponent_eq_max, totalExponent]
  by_cases hleast : E ≤ -1074
  · omega
  -- above the least exponent the quotient has at least 53 bits
  have hplaces : 53 + m₂.log2 ≤ m₁.log2 + k := by omega
  have hquotient : 2 ^ 52 ≤ m₁ <<< k / m₂ := by
    rw [Nat.le_div_iff_mul_le h₂, Nat.shiftLeft_eq]
    calc 2 ^ 52 * m₂ ≤ 2 ^ 52 * 2 ^ (m₂.log2 + 1) :=
          Nat.mul_le_mul_left _ (Nat.le_of_lt Nat.lt_log2_self)
      _ = 2 ^ (53 + m₂.log2) := by
        rw [← Nat.pow_add]
        congr 1
        omega
      _ ≤ 2 ^ (m₁.log2 + k) := Nat.pow_le_pow_right two_pos hplaces
      _ = 2 ^ m₁.log2 * 2 ^ k := Nat.pow_add ..
      _ ≤ m₁ * 2 ^ k := Nat.mul_le_mul_right _ (Nat.log2_self_le (Nat.ne_of_gt h₁))
  have hlog : 52 ≤ (m₁ <<< k / m₂).log2 :=
    (Nat.le_log2 (Nat.ne_of_gt (Nat.lt_of_lt_of_le (by decide) hquotient))).mpr hquotient
  omega

/-- **A quotient is the double that the exact quotient rounds to.** -/
theorem IsDouble.div_eq (hd : IsDouble m e) (h₁ : 0 < m₁) (h₂ : 0 < m₂)
    (hv : IsDouble.Rounds m e ((m₁ * 2 ^ e₁) / (m₂ * 2 ^ e₂))) (s₁ s₂ : Sign) :
    UnpackedFloat.div Format.binary64 (.finite s₁ m₁ e₁ h₁) (.finite s₂ m₂ e₂ h₂)
      = .finite (s₁ / s₂) m e hd.pos := by
  unfold UnpackedFloat.div divCore
  simp only
  generalize hE : min (e₁ - e₂)
    (Format.binary64.targetExponent (totalExponent m₁ e₁ - totalExponent m₂ e₂)) = E
  generalize hk : (e₁ - e₂ - E).toNat = k
  have hunit : E + k = e₁ - e₂ := by omega
  -- the numerator is shifted until the quotient counts units of the target
  have hexact : ((m₁ * 2 ^ e₁) / (m₂ * 2 ^ e₂) : ℚ) / 2 ^ E = (m₁ <<< k : ℕ) / m₂ := by
    have hpower : (2 : ℚ) ^ e₁ = 2 ^ k * 2 ^ E * 2 ^ e₂ := by
      rw [← zpow_natCast, ← zpow_add₀ two_ne_zero, ← zpow_add₀ two_ne_zero]
      congr 1
      omega
    have hm₂ : (m₂ : ℚ) ≠ 0 := by exact_mod_cast Nat.ne_of_gt h₂
    rw [Nat.shiftLeft_eq, hpower]
    push_cast
    field_simp
  refine hd.roundWithAccuracy_eq hv ?_ ?_ (s₁ / s₂)
  · rw [hexact]
    exact StandsFor.div (m₁ <<< k) h₂
  · exact le_targetExponent_quotient h₁ h₂ (hE ▸ min_le_right ..) hunit

end

end BlockChart
