import BlockChart.Number.Layout
import BlockChart.Proofs.DoubleBits
import Mathlib

namespace BlockChart

/-!
# Numbers survive their text

What `chartText` writes, `readFloat?` reads: every number, infinite ones and not-a-number
included, is read back as itself; only the sign of zero is lost.

* `Numeral` — a text of digits, perhaps with a point among them, and the number it denotes;
* `numeral_positional` — positional notation writes one, `Numeral.readMagnitude?_eq` — the
  reader gives the double that the number rounds to;
* `readFloat?_chartText` — the round trip;
* `isNumberChar_of_mem_chartText` — the characters that occur.
-/

/-! ### Digits -/

theorem digitsValue_eq (cs : List Char) : digitsValue cs = Nat.ofDigitChars 10 cs 0 := rfl

/-- Zeros at the end multiply. -/
theorem digitsValue_append_zeros (n k : ℕ) :
    digitsValue (Nat.toDigits 10 n ++ List.replicate k '0') = n * 10 ^ k := by
  rw [digitsValue_eq, Nat.ofDigitChars_append, Nat.ofDigitChars_ten_toDigits,
    Nat.ofDigitChars_replicate_zero, Nat.mul_comm]

/-- Zeros in front do not matter. -/
theorem digitsValue_zeros_append (n k : ℕ) :
    digitsValue (List.replicate k '0' ++ Nat.toDigits 10 n) = n := by
  rw [digitsValue_eq, Nat.ofDigitChars_append, Nat.ofDigitChars_replicate_zero, Nat.mul_zero,
    Nat.ofDigitChars_ten_toDigits]

/-- A list of digits. -/
def AllDigits (cs : List Char) : Prop :=
  ∀ c ∈ cs, c.isDigit = true

theorem allDigits_toDigits (n : ℕ) : AllDigits (Nat.toDigits 10 n) :=
  fun _ hc => Nat.isDigit_of_mem_toDigits (by decide) (by decide) hc

theorem allDigits_zeros (k : ℕ) : AllDigits (List.replicate k '0') := fun c hc => by
  rw [List.eq_of_mem_replicate hc]
  rfl

theorem AllDigits.append {as bs : List Char} (ha : AllDigits as) (hb : AllDigits bs) :
    AllDigits (as ++ bs) :=
  fun c hc => (List.mem_append.mp hc).elim (ha c) (hb c)

/-- Taking digits stops where they stop. -/
theorem AllDigits.takeDigits_append {ds : List Char} (hd : AllDigits ds) (rest : List Char)
    (hrest : ∀ c ∈ rest.head?, c.isDigit = false) : takeDigits (ds ++ rest) = (ds, rest) := by
  unfold takeDigits
  rw [List.takeWhile_append_of_pos hd, List.dropWhile_append_of_pos hd]
  cases rest with
  | nil => simp
  | cons c rest =>
    have hc : c.isDigit = false := hrest c rfl
    simp [hc]

/-! ### Numerals -/

/-- **A numeral** and what it denotes: digits before the point, and digits after it if there is
    a point. -/
inductive Numeral : List Char → ℚ → Prop
  | whole {ds : List Char} (some : ds ≠ []) (digits : AllDigits ds) : Numeral ds (digitsValue ds)
  | pointed {whole fraction : List Char} (some : whole ≠ []) (digits : AllDigits whole)
      (places : AllDigits fraction) : Numeral (whole ++ '.' :: fraction)
        (digitsValue (whole ++ fraction) * 10 ^ (-(fraction.length : ℤ)))

/-- **Positional notation** writes a numeral for the decimal. -/
theorem numeral_positional (d : Decimal) : Numeral d.positional.toList d.value := by
  have hdigits := allDigits_toDigits d.coefficient
  unfold Decimal.positional Decimal.digits Decimal.value
  by_cases hexponent : 0 ≤ d.exponent
  · obtain ⟨k, hk⟩ := Int.eq_ofNat_of_zero_le hexponent
    have hvalue : (d.coefficient : ℚ) * 10 ^ d.exponent
        = digitsValue (Nat.toDigits 10 d.coefficient ++ List.replicate k '0') := by
      rw [digitsValue_append_zeros, hk, zpow_natCast]
      push_cast
      rfl
    simp only [if_pos hexponent, String.toList_ofList]
    rw [hvalue, hk, Int.toNat_natCast]
    exact .whole (by simp [Nat.toDigits_ne_nil]) (hdigits.append (allDigits_zeros k))
  · obtain ⟨k, hk⟩ := Int.exists_eq_neg_ofNat (Int.le_of_not_le hexponent)
    simp only [if_neg hexponent, String.toList_ofList]
    rw [hk, Int.neg_neg, Int.toNat_natCast]
    -- zeros are put in front, so that a digit stands before the point
    generalize hpadded : List.replicate (k + 1 - (Nat.toDigits 10 d.coefficient).length) '0'
      ++ Nat.toDigits 10 d.coefficient = padded
    have hlength : k + 1 ≤ padded.length := by
      rw [← hpadded, List.length_append, List.length_replicate]
      omega
    have hall : AllDigits padded := hpadded ▸ (allDigits_zeros _).append hdigits
    have hvalue : (d.coefficient : ℚ) * 10 ^ (-(k : ℤ))
        = digitsValue (padded.take (padded.length - k) ++ padded.drop (padded.length - k))
          * 10 ^ (-((padded.drop (padded.length - k)).length : ℤ)) := by
      have hplaces : padded.length - (padded.length - k) = k := by omega
      rw [List.take_append_drop, List.length_drop, hplaces, ← hpadded, digitsValue_zeros_append]
    rw [hvalue]
    refine .pointed ?_ (fun c hc => hall c (List.mem_of_mem_take hc))
      fun c hc => hall c (List.mem_of_mem_drop hc)
    rw [Ne, List.take_eq_nil_iff]
    rintro (hzero | hnil)
    · omega
    · rw [hnil] at hlength
      simp at hlength

namespace Numeral

variable {cs : List Char} {v : ℚ}

/-- A numeral is read as the double nearest to what it denotes. -/
theorem exists_nearestFloat (h : Numeral cs v) :
    ∃ (c : ℕ) (k : ℤ), readMagnitude? cs = some (nearestFloat c k) ∧ (c : ℚ) * 10 ^ k = v := by
  cases h with
  | @whole ds hsome hdigits =>
    have htake : takeDigits cs = (cs, []) := by
      simpa using hdigits.takeDigits_append [] (by simp)
    refine ⟨digitsValue cs, 0, ?_, by simp⟩
    unfold readMagnitude?
    simp [htake, hsome, readExponent?]
  | @pointed whole fraction hsome hdigits hplaces =>
    have htake := hdigits.takeDigits_append ('.' :: fraction) (by simp)
    have htakeFraction : takeDigits fraction = (fraction, []) := by
      simpa using hplaces.takeDigits_append [] (by simp)
    refine ⟨_, _, ?_, rfl⟩
    unfold readMagnitude?
    simp [htake, htakeFraction, hsome, readExponent?]

/-- **The reader gives the double** that a numeral rounds to. -/
theorem readMagnitude?_eq (h : Numeral cs v) {m : ℕ} {e : ℤ} (hd : IsDouble m e)
    (hv : IsDouble.Rounds m e v) : readMagnitude? cs = some (doubleOf m e hd.pos) := by
  obtain ⟨c, k, hread, rfl⟩ := h.exists_nearestFloat
  have hc : 0 < c := Nat.pos_of_ne_zero fun hzero => by
    have hrange := (IsDouble.Rounds.range hd hv).1
    rw [hzero, Nat.cast_zero, zero_mul] at hrange
    exact absurd hrange (not_lt.mpr (by positivity))
  rw [hread, hd.nearestFloat_eq hc hv]

/-- A numeral begins with a digit. -/
theorem exists_head (h : Numeral cs v) : ∃ c rest, cs = c :: rest ∧ c.isDigit = true := by
  cases h with
  | whole hsome hdigits =>
    obtain ⟨c, rest, rfl⟩ := List.exists_cons_of_ne_nil hsome
    exact ⟨c, rest, rfl, hdigits c List.mem_cons_self⟩
  | pointed hsome hdigits =>
    obtain ⟨c, rest, rfl⟩ := List.exists_cons_of_ne_nil hsome
    exact ⟨c, _, rfl, hdigits c List.mem_cons_self⟩

/-- So it has no sign. -/
theorem takeSign_eq (h : Numeral cs v) : takeSign cs = (false, cs) := by
  obtain ⟨c, rest, rfl, hc⟩ := h.exists_head
  unfold takeSign
  split
  case h_1 heq =>
    cases heq
    exact absurd hc (by decide)
  case h_2 heq =>
    cases heq
    exact absurd hc (by decide)
  case h_3 => rfl

end Numeral

/-! ### Characters -/

/-- A character of a number: a letter, a digit, a point or a sign. -/
def isNumberChar (c : Char) : Bool :=
  c.isAlphanum || c == '.' || c == '-'

/-- Digits may stand in a number. -/
theorem isNumberChar_of_isDigit {c : Char} (h : c.isDigit = true) : isNumberChar c = true := by
  simp [isNumberChar, Char.isAlphanum, h]

/-- The characters of a numeral. -/
theorem Numeral.isNumberChar_of_mem {cs : List Char} {v : ℚ} (h : Numeral cs v) {c : Char}
    (hc : c ∈ cs) : isNumberChar c = true := by
  cases h with
  | whole _ hdigits => exact isNumberChar_of_isDigit (hdigits c hc)
  | pointed _ hdigits hplaces =>
    rcases List.mem_append.mp hc with hc | hc
    · exact isNumberChar_of_isDigit (hdigits c hc)
    · rcases List.mem_cons.mp hc with rfl | hc
      · rfl
      · exact isNumberChar_of_isDigit (hplaces c hc)

/-! ### The round trip -/

/-- A number without the sign of zero. -/
def unsigned (x : Float) : Float :=
  if x == 0 then 0 else x

/-- The text of a positive or negative number is a sign, perhaps, and a numeral. -/
theorem chartText_of_binary {x : Float} {b : Binary} (hzero : (x == 0) = false)
    (hb : Binary.ofFloat? x = some b) :
    chartText x = (if signBit x then "-" else "") ++ (b.shortest .up).positional := by
  unfold chartText signedDecimal?
  simp [hzero, hb]

/-- **Every number survives its text**, but for the sign of zero. -/
theorem readFloat?_chartText (x : Float) : readFloat? (chartText x) = some (unsigned x) := by
  unfold unsigned
  rcases float_cases x with hzero | rfl | ⟨negative, rfl⟩ | ⟨hzero, b, hb, hbinary, hx⟩
  -- both zeros are written without a sign, so only that of the number is lost
  · have htext : chartText x = "0" := if_pos hzero
    rw [htext, if_pos hzero]
    rfl
  · rfl
  · cases negative <;> rfl
  -- the shortest decimal is read back as the double that it was made from
  · have htext := chartText_of_binary hzero hbinary
    have hnumeral := numeral_positional (b.shortest .up)
    have hread := hnumeral.readMagnitude?_eq hb.double (Binary.shortest_rounds hb .up)
    have hsign : takeSign (chartText x).toList
        = (signBit x, (b.shortest .up).positional.toList) := by
      rw [htext, String.toList_append]
      cases signBit x with
      | true => rfl
      | false => exact hnumeral.takeSign_eq
    unfold readFloat?
    simp only [hsign, hread, hzero]
    exact congrArg some hx.symm

/-- **The characters of a number**, of which there is at least one. -/
theorem isNumberChar_of_mem_chartText (x : Float) :
    (chartText x).toList ≠ [] ∧ ∀ c ∈ (chartText x).toList, isNumberChar c = true := by
  rcases float_cases x with hzero | rfl | ⟨negative, rfl⟩ | ⟨hzero, b, -, hbinary, -⟩
  · have htext : chartText x = "0" := if_pos hzero
    rw [htext]
    exact ⟨nofun, List.all_eq_true.mp rfl⟩
  · exact ⟨nofun, List.all_eq_true.mp rfl⟩
  · cases negative
    · exact ⟨nofun, List.all_eq_true.mp rfl⟩
    · exact ⟨nofun, List.all_eq_true.mp rfl⟩
  · have hnumeral := numeral_positional (b.shortest .up)
    obtain ⟨first, rest, hhead, -⟩ := hnumeral.exists_head
    rw [chartText_of_binary hzero hbinary, String.toList_append]
    refine ⟨by simp [hhead], fun c hc => ?_⟩
    rcases List.mem_append.mp hc with hc | hc
    · cases hsign : signBit x with
      | true =>
        rw [hsign] at hc
        obtain rfl : c = '-' := List.mem_singleton.mp hc
        rfl
      | false =>
        rw [hsign] at hc
        exact absurd hc List.not_mem_nil
    · exact hnumeral.isNumberChar_of_mem hc

end BlockChart
