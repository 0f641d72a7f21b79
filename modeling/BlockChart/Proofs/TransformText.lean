import BlockChart.Proofs.NumberRoundTrip
import BlockChart.Proofs.TransformGrammar
import Mathlib

namespace BlockChart

/-!
# Transforms survive their text

`Transform.text` writes a name and, in parentheses, one or two numbers with a comma and a
space between them.  That is one of the texts that denote the transform, so it is read back.

* `NumberText.Survives` — what has to be known of numbers: their texts are words, and are
  read back up to `settle`;
* `Transform.denotes_text` — then the text of a transform denotes it, and
  `Transform.parse_text_of_survives` — it is read back;
* `survives_unsigned` — the doubles: only the sign of zero is lost.
-/

/-! ### Numbers in a transform -/

/-- **Numbers survive their text** up to `settle`: it is a word, from which they are read. -/
structure NumberText.Survives {α : Type} [NumberText α] (settle : α → α) : Prop where
  isWord : ∀ x : α, Transform.IsWord (NumberText.write x).toList
  read?_write : ∀ x : α, NumberText.read? (NumberText.write x) = some (settle x)

namespace Transform

/-- Applies a function to the numbers of a transform. -/
def mapNumbers {α : Type} (settle : α → α) : Transform α → Transform α
  | translate x y => translate (settle x) (settle y)
  | rotate degrees => rotate (settle degrees)
  | scale factor => scale (settle factor)

section

variable {α : Type} [NumberText α] {settle : α → α}

/-- The last word, after some dividers. -/
theorem IsWord.wordsIn_last {gap w : List Char} (h : IsWord w)
    (hgap : ∀ c ∈ gap, isDivider c = true) : WordsIn (gap ++ w) [w] := by
  have hend : WordsIn [] [] := .none fun c hc => by cases hc
  have hrow := WordsIn.word hgap h (fun c hc => by cases hc) hend
  rwa [List.append_nil] at hrow

/-- Two words, with a comma and a space between them. -/
theorem IsWord.wordsIn_pair {w₁ w₂ : List Char} (h₁ : IsWord w₁) (h₂ : IsWord w₂) :
    WordsIn (w₁ ++ ([',', ' '] ++ w₂)) [w₁, w₂] := by
  have hsecond : WordsIn ([',', ' '] ++ w₂) [w₂] := h₂.wordsIn_last fun c hc => by
    rcases List.mem_pair.mp hc with rfl | rfl <;> rfl
  have hboth : WordsIn ([] ++ (w₁ ++ ([',', ' '] ++ w₂))) [w₁, w₂] :=
    .word (fun c hc => by cases hc) h₁ (fun c hc => by cases hc; rfl) hsecond
  exact hboth

/-- The text of a number stands for it. -/
theorem means_write (h : NumberText.Survives settle) (x : α) :
    Means (NumberText.write x).toList (settle x) :=
  .numeral (by rw [String.ofList_toList, h.read?_write])

/-- A call without white space around the name and at the end. -/
theorem IsCall.plain {s name : String} {inside : List Char} {ws : List (List Char)}
    {args : List α} (hs : s.toList = name.toList ++ '(' :: (inside ++ [')']))
    (hws : WordsIn inside ws) (hargs : List.Forall₂ Means ws args) : IsCall s name args := by
  have hblanks : IsBlanks [] := fun c hc => by cases hc
  exact ⟨⟨[], [], inside, [], hblanks, hblanks, hblanks, by simpa using hs, ws, hws, hargs⟩⟩

/-- One with a single number. -/
theorem IsCall.plain_write (h : NumberText.Survives settle) {s name : String} {x : α}
    (hs : s.toList = name.toList ++ '(' :: ((NumberText.write x).toList ++ [')'])) :
    IsCall s name [settle x] := by
  have hword : WordsIn ([] ++ (NumberText.write x).toList) [(NumberText.write x).toList] :=
    (h.isWord x).wordsIn_last fun c hc => by cases hc
  exact .plain hs hword (.cons (means_write h x) .nil)

variable [Scalar α]

/-- **The text of a transform denotes it**, with numbers as they survive. -/
theorem denotes_text (h : NumberText.Survives settle) (t : Transform α) :
    Denotes t.text (t.mapNumbers settle) := by
  cases t with
  | translate x y =>
    have hwords := (h.isWord x).wordsIn_pair (h.isWord y)
    have hargs : List.Forall₂ Means [(NumberText.write x).toList, (NumberText.write y).toList]
        [settle x, settle y] := .cons (means_write h x) (.cons (means_write h y) .nil)
    exact .shift (.plain (by simp [text]) hwords hargs)
  | rotate degrees =>
    exact .rotation (.plain_write h (by simp [text]))
  | scale factor =>
    exact .scaling (.plain_write h (by simp [text]))

/-- **Transforms survive their text** as the numbers in them do. -/
theorem parse_text_of_survives (h : NumberText.Survives settle) (t : Transform α) :
    parse t.text = .ok (t.mapNumbers settle) :=
  parse_eq_ok_iff.mpr (denotes_text h t)

end

end Transform

/-- No character of a number divides arguments. -/
theorem isDivider_of_isNumberChar {c : Char} (h : isNumberChar c = true) :
    Transform.isDivider c = false := by
  have hcomma : c ≠ ',' := by
    rintro rfl
    cases h
  -- letters, digits, point and sign all lie between the dash and the small z
  have hrange : 0x2D ≤ c.toNat ∧ c.toNat ≤ 0x7A := by
    simp only [isNumberChar, Char.isAlphanum, Char.isAlpha, Char.isUpper, Char.isLower,
      Char.isDigit, Bool.or_eq_true, Bool.and_eq_true, decide_eq_true_eq, beq_iff_eq,
      UInt32.le_iff_toNat_le] at h
    rcases h with ((((h | h) | h) | rfl) | rfl)
    · exact ⟨Nat.le_trans (by decide) h.1, Nat.le_trans h.2 (by decide)⟩
    · exact ⟨Nat.le_trans (by decide) h.1, Nat.le_trans h.2 (by decide)⟩
    · exact ⟨Nat.le_trans (by decide) h.1, Nat.le_trans h.2 (by decide)⟩
    · decide
    · decide
  have hblank : isBlank c = false := by
    simp only [isBlank, Bool.or_eq_false_iff, Bool.and_eq_false_iff, decide_eq_false_iff_not,
      beq_eq_false_iff_ne]
    omega
  rw [Transform.isDivider, hblank, beq_false_of_ne hcomma]
  rfl

/-- **Doubles survive their text** up to the sign of zero. -/
theorem survives_unsigned : NumberText.Survives unsigned where
  isWord x := by
    obtain ⟨hnonempty, hchars⟩ := isNumberChar_of_mem_chartText x
    exact ⟨hnonempty, fun c hc => isDivider_of_isNumberChar (hchars c hc)⟩
  read?_write := readFloat?_chartText

end BlockChart
