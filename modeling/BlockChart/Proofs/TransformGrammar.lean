import BlockChart.Geometry.Transform
import Mathlib

namespace BlockChart

/-!
# The grammar of transforms

The text of a transform is a name and, in parentheses, one or two numerals; commas and white
space divide the numerals, and white space may stand around the name and at the end.
`Transform.parse` trims, searches for the first parenthesis, looks at the last character and
gathers words.  Here is what it reads, said without it:

* `Trims` — a word with white space around it, which `trimChars` takes off;
* `WordsIn` — words in a row, which `Transform.words` finds;
* `IsCall` — a name with words in parentheses;
* `Transform.Denotes` — the transform of a text;
* `Transform.parse_eq_ok_iff` — the reader reads just that.
-/

/-! ### White space around a word -/

/-- Nothing but white space. -/
def IsBlanks (cs : List Char) : Prop :=
  ∀ c ∈ cs, isBlank c = true

/-- **White space aside, the characters are `w`**, which neither begins nor ends with any. -/
structure Trims (cs w : List Char) : Prop where
  around : ∃ before after, IsBlanks before ∧ IsBlanks after ∧ cs = before ++ w ++ after
  head : ∀ c ∈ w.head?, isBlank c = false
  last : ∀ c ∈ w.getLast?, isBlank c = false

/-- White space in front is dropped, up to a character that is none. -/
theorem IsBlanks.dropWhile_append {before rest : List Char} (h : IsBlanks before)
    (hrest : ∀ c ∈ rest.head?, isBlank c = false) :
    (before ++ rest).dropWhile isBlank = rest := by
  rw [List.dropWhile_append_of_pos h]
  cases rest with
  | nil => rfl
  | cons c rest => exact List.dropWhile_cons_of_neg (by simp [hrest c rfl])

/-- Taking the white space off gives the word. -/
theorem Trims.trimChars_eq {cs w : List Char} (h : Trims cs w) : trimChars cs = w := by
  obtain ⟨⟨before, after, hbefore, hafter, rfl⟩, hhead, hlast⟩ := h
  unfold trimChars
  cases w with
  | nil =>
    -- all is white space, and all of it is dropped from the front
    have hblanks : IsBlanks (before ++ [] ++ after) := by
      intro c hc
      rcases List.mem_append.mp hc with hc | hc
      · exact hbefore c (by simpa using hc)
      · exact hafter c hc
    rw [List.dropWhile_eq_nil_iff.mpr hblanks]
    rfl
  | cons c w =>
    have hafter' : IsBlanks after.reverse := fun c hc => hafter c (List.mem_reverse.mp hc)
    have hreverse : ∀ c' ∈ ((c :: w).reverse).head?, isBlank c' = false := by
      intro c' hc'
      rw [List.head?_reverse] at hc'
      exact hlast c' hc'
    rw [List.append_assoc, hbefore.dropWhile_append (by simpa using hhead), List.reverse_append,
      hafter'.dropWhile_append hreverse, List.reverse_reverse]

/-- What is left when white space has been dropped does not begin with any. -/
theorem isBlank_head?_dropWhile (cs : List Char) :
    ∀ c ∈ (cs.dropWhile isBlank).head?, isBlank c = false := by
  intro c hc
  have hnone := List.head?_dropWhile_not isBlank cs
  rw [Option.mem_def.mp hc] at hnone
  simpa using hnone

/-- Every list of characters is a word with white space around it. -/
theorem trims_trimChars (cs : List Char) : Trims cs (trimChars cs) := by
  -- `mid` is what is left without the white space in front
  set mid := cs.dropWhile isBlank with hmid
  have hfront : IsBlanks (cs.takeWhile isBlank) := fun c hc => List.mem_takeWhile_imp hc
  have hback : IsBlanks (mid.reverse.takeWhile isBlank).reverse := fun c hc =>
    List.mem_takeWhile_imp (List.mem_reverse.mp hc)
  have hword : mid = trimChars cs ++ (mid.reverse.takeWhile isBlank).reverse := by
    have hsplit := congrArg List.reverse (List.takeWhile_append_dropWhile (p := isBlank)
      (l := mid.reverse))
    rw [List.reverse_append, List.reverse_reverse] at hsplit
    exact hsplit.symm
  refine ⟨⟨_, _, hfront, hback, ?_⟩, fun c hc => ?_, fun c hc => ?_⟩
  · rw [List.append_assoc, ← hword, hmid, List.takeWhile_append_dropWhile]
  · -- the word begins as `mid` does
    refine isBlank_head?_dropWhile cs c ?_
    rw [← hmid, hword, List.head?_append, Option.mem_def.mp hc]
    rfl
  · rw [trimChars, List.getLast?_reverse] at hc
    exact isBlank_head?_dropWhile _ c hc

namespace Transform

/-! ### Words in a row -/

/-- A word: some characters, none of which divides arguments. -/
structure IsWord (w : List Char) : Prop where
  nonempty : w ≠ []
  undivided : ∀ c ∈ w, isDivider c = false

/-- **Words in a row**, with commas and white space around and between them. -/
inductive WordsIn : List Char → List (List Char) → Prop
  | none {gap : List Char} (dividers : ∀ c ∈ gap, isDivider c = true) : WordsIn gap []
  | word {gap w rest : List Char} {ws : List (List Char)}
      (dividers : ∀ c ∈ gap, isDivider c = true) (isWord : IsWord w)
      (ends : ∀ c ∈ rest.head?, isDivider c = true) (others : WordsIn rest ws) :
      WordsIn (gap ++ (w ++ rest)) (w :: ws)

/-- Characters that do not divide are gathered. -/
theorem words_append {w : List Char} (hw : ∀ c ∈ w, isDivider c = false)
    (word rest : List Char) : words word (w ++ rest) = words (w.reverse ++ word) rest := by
  induction w generalizing word with
  | nil => rfl
  | cons c w ih =>
    have hc : isDivider c = false := hw c List.mem_cons_self
    have hrest := ih (fun d hd => hw d (List.mem_cons_of_mem c hd)) (c :: word)
    rw [List.cons_append, words, hc, if_neg Bool.false_ne_true, hrest, List.reverse_cons,
      List.append_assoc, List.singleton_append]

/-- Dividers in front of a word are skipped. -/
theorem words_dividers {gap : List Char} (hgap : ∀ c ∈ gap, isDivider c = true)
    (rest : List Char) : words [] (gap ++ rest) = words [] rest := by
  induction gap with
  | nil => rfl
  | cons c gap ih =>
    rw [List.cons_append, words, if_pos (hgap c List.mem_cons_self)]
    exact ih fun d hd => hgap d (List.mem_cons_of_mem c hd)

/-- A word ends where the characters do, or at a divider. -/
theorem IsWord.words_append {w rest : List Char} (h : IsWord w)
    (hrest : ∀ c ∈ rest.head?, isDivider c = true) :
    words [] (w ++ rest) = w :: words [] rest := by
  rw [Transform.words_append h.undivided, List.append_nil]
  cases rest with
  | nil => rw [words, if_neg (by simp [h.nonempty]), List.reverse_reverse]; rfl
  | cons c rest =>
    rw [words, words, if_pos (hrest c rfl), if_neg (by simp [h.nonempty]), if_pos (hrest c rfl),
      List.reverse_reverse]
    rfl

/-- The words in a row are found. -/
theorem WordsIn.words_eq {cs : List Char} {ws : List (List Char)} (h : WordsIn cs ws) :
    words [] cs = ws := by
  induction h with
  | @none gap dividers =>
    have hskip := words_dividers dividers []
    rw [List.append_nil] at hskip
    exact hskip
  | word dividers isWord ends _ ih =>
    rw [words_dividers dividers, isWord.words_append ends, ih]

/-- All characters are words in a row. -/
theorem exists_wordsIn (cs : List Char) : ∃ ws, WordsIn cs ws := by
  -- by the number of characters: a gap and a word are taken off the front
  induction hn : cs.length using Nat.strong_induction_on generalizing cs with
  | _ n ih =>
    have hgap : ∀ c ∈ cs.takeWhile isDivider, isDivider c = true := fun c hc =>
      List.mem_takeWhile_imp hc
    obtain hempty | ⟨first, more, hfirst⟩ : cs.dropWhile isDivider = []
        ∨ ∃ first more, cs.dropWhile isDivider = first :: more := by
      cases cs.dropWhile isDivider <;> simp
    · refine ⟨[], ?_⟩
      rw [← List.takeWhile_append_dropWhile (p := isDivider) (l := cs), hempty, List.append_nil]
      exact .none hgap
    · let w := (first :: more).takeWhile fun c => !isDivider c
      let rest := (first :: more).dropWhile fun c => !isDivider c
      have hsplit : w ++ rest = first :: more := List.takeWhile_append_dropWhile
      have hfirst' : isDivider first = false := by
        have hnot := List.head?_dropWhile_not isDivider cs
        rw [hfirst] at hnot
        simpa using hnot
      have hword : IsWord w := by
        refine ⟨?_, fun c hc => by simpa using List.mem_takeWhile_imp hc⟩
        simp [w, hfirst']
      have hends : ∀ c ∈ rest.head?, isDivider c = true := by
        intro c hc
        have hnot := List.head?_dropWhile_not (fun c => !isDivider c) (first :: more)
        rw [Option.mem_def.mp hc] at hnot
        simpa using hnot
      have hlt : rest.length < n := by
        have hlength := congrArg List.length hsplit
        have hdrop := List.length_dropWhile_le isDivider cs
        have hpos : 0 < w.length := List.length_pos_iff.mpr hword.nonempty
        rw [List.length_append, ← hfirst] at hlength
        omega
      obtain ⟨ws, hws⟩ := ih rest.length hlt rest rfl
      refine ⟨w :: ws, ?_⟩
      rw [← List.takeWhile_append_dropWhile (p := isDivider) (l := cs), hfirst, ← hsplit]
      exact .word hgap hword hends hws

/-- **The words that are found are those in the row**, and there is one way to divide them. -/
theorem words_eq_iff {cs : List Char} {ws : List (List Char)} :
    words [] cs = ws ↔ WordsIn cs ws := by
  refine ⟨fun h => ?_, WordsIn.words_eq⟩
  obtain ⟨ws', hws'⟩ := exists_wordsIn cs
  rwa [← h, hws'.words_eq]

/-! ### Calls -/

variable {α : Type}

/-- The names that can be called have neither white space nor a parenthesis in them. -/
theorem ofCall?_name [Scalar α] {name : String} {args : List α} {t : Transform α}
    (h : ofCall? name args = some t) :
    name.toList ≠ [] ∧ name.toList.all (fun c => !isBlank c && c != '(') = true := by
  unfold ofCall? at h
  split at h
  case h_5 => cases h
  all_goals exact ⟨by decide, by decide⟩

variable [NumberText α]

/-- The number that a word stands for, not-a-number if it is no numeral. -/
inductive Means (w : List Char) : α → Prop
  | numeral {x : α} (reads : NumberText.read? (String.ofList w) = some x) : Means w x
  | unreadable (unread : NumberText.read? (α := α) (String.ofList w) = none) :
      Means w NumberText.unreadable

/-- What a word stands for is what is read, or not-a-number. -/
theorem means_iff {w : List Char} {x : α} :
    Means w x ↔ (NumberText.read? (String.ofList w)).getD NumberText.unreadable = x := by
  constructor
  · rintro (reads | unread)
    · rw [reads, Option.getD_some]
    · rw [unread, Option.getD_none]
  · rintro rfl
    cases hread : NumberText.read? (α := α) (String.ofList w) with
    | none => exact .unreadable hread
    | some x => exact .numeral hread

/-- **A call**: a name and, in parentheses, words in a row that stand for numbers.  White space
    may stand before the name, after it and at the end. -/
structure IsCall (s name : String) (args : List α) : Prop where
  spelled : ∃ before between inside after, IsBlanks before ∧ IsBlanks between ∧ IsBlanks after ∧
    s.toList = before ++ (name.toList ++ between ++ '(' :: (inside ++ [')'])) ++ after ∧
    ∃ ws, WordsIn inside ws ∧ List.Forall₂ Means ws args

/-- The numbers in parentheses are those that the words there stand for. -/
theorem arguments_eq_iff {inside : List Char} {args : List α} :
    arguments inside = args ↔ ∃ ws, WordsIn inside ws ∧ List.Forall₂ Means ws args := by
  have hmeans : (Means : List Char → α → Prop) = fun w x =>
      (NumberText.read? (String.ofList w)).getD NumberText.unreadable = x :=
    funext₂ fun w x => propext means_iff
  rw [hmeans]
  simp only [← words_eq_iff, exists_eq_left']
  rw [← List.forall₂_map_left_iff (R := Eq), List.forall₂_eq_eq_eq]
  rfl

variable [Scalar α]

/-- **The transform of a text.**  A shift may be given along the first axis only. -/
inductive Denotes (s : String) : Transform α → Prop
  | shift {x y : α} (call : IsCall s "translate" [x, y]) : Denotes s (translate x y)
  | shiftAlong {x : α} (call : IsCall s "translate" [x]) : Denotes s (translate x 0.0)
  | rotation {degrees : α} (call : IsCall s "rotate" [degrees]) : Denotes s (rotate degrees)
  | scaling {factor : α} (call : IsCall s "scale" [factor]) : Denotes s (scale factor)

/-- What is called, and with which numbers. -/
theorem denotes_iff {s : String} {t : Transform α} :
    Denotes s t ↔ ∃ name args, IsCall s name args ∧ ofCall? name args = some t := by
  constructor
  · rintro (call | call | call | call)
    all_goals exact ⟨_, _, call, rfl⟩
  · rintro ⟨name, args, hcall, hof⟩
    unfold ofCall? at hof
    split at hof
    all_goals cases hof
    · exact .shiftAlong hcall
    · exact .shift hcall
    · exact .rotation hcall
    · exact .scaling hcall

/-- **A call is read** as the transform of its name and its arguments, if there is one. -/
theorem IsCall.parse_eq {s name : String} {args : List α} {t : Transform α}
    (h : IsCall s name args) (ht : ofCall? name args = some t) : parse s = .ok t := by
  obtain ⟨before, between, inside, after, hbefore, hbetween, hafter, hs, hargs⟩ := h.spelled
  obtain ⟨hnonempty, hname⟩ := ofCall?_name ht
  simp only [List.all_eq_true, Bool.and_eq_true, Bool.not_eq_true'] at hname
  -- the name and the white space after it, up to the parenthesis
  have hopening : ∀ c ∈ name.toList ++ between, (c != '(') = true := by
    intro c hc
    rcases List.mem_append.mp hc with hc | hc
    · exact (hname c hc).2
    · refine bne_iff_ne.mpr ?_
      rintro rfl
      cases hbetween _ hc
  have hlast : (name.toList ++ between ++ '(' :: (inside ++ [')'])).getLast? = some ')' := by
    rw [← List.cons_append, ← List.append_assoc, List.getLast?_concat]
  have htrim : trimChars s.toList = name.toList ++ between ++ '(' :: (inside ++ [')']) := by
    refine Trims.trimChars_eq ⟨⟨before, after, hbefore, hafter, hs⟩, fun c hc => ?_, fun c hc => ?_⟩
    · rw [List.append_assoc, List.head?_append_of_ne_nil _ hnonempty] at hc
      exact (hname c (List.mem_of_mem_head? hc)).1
    · rw [hlast] at hc
      cases hc
      rfl
  have htrimName : trimChars (name.toList ++ between) = name.toList :=
    Trims.trimChars_eq ⟨⟨[], between, fun c hc => (by cases hc), hbetween, rfl⟩,
      fun c hc => (hname c (List.mem_of_mem_head? hc)).1,
      fun c hc => (hname c (List.mem_of_mem_getLast? hc)).1⟩
  have htake : (name.toList ++ between ++ '(' :: (inside ++ [')'])).takeWhile (· != '(')
      = name.toList ++ between := by
    rw [List.takeWhile_append_of_pos hopening]
    simp
  have hdrop : (name.toList ++ between ++ '(' :: (inside ++ [')'])).dropWhile (· != '(')
      = '(' :: (inside ++ [')']) := by
    rw [List.dropWhile_append_of_pos hopening]
    rfl
  unfold parse
  simp only [htrim, hdrop, htake, hlast, htrimName, List.dropLast_concat, String.ofList_toList,
    arguments_eq_iff.mpr hargs, ht, if_true]

/-- Characters with a parenthesis in them that end with a closing one. -/
theorem eq_parentheses {cs rest : List Char} {opening : Char}
    (hdrop : cs.dropWhile (· != '(') = opening :: rest) (hclosed : cs.getLast? = some ')') :
    cs = cs.takeWhile (· != '(') ++ '(' :: (rest.dropLast ++ [')']) := by
  -- what is left begins with the character that stopped the search
  obtain rfl : opening = '(' := by
    have hnot := List.head?_dropWhile_not (· != '(') cs
    rw [hdrop] at hnot
    simpa using hnot
  have hcs : cs.takeWhile (· != '(') ++ '(' :: rest = cs := by
    rw [← hdrop, List.takeWhile_append_dropWhile]
  have hrest : rest.getLast? = some ')' := by
    rw [← hcs, List.getLast?_append, List.getLast?_cons, Option.some_or, Option.some.injEq]
      at hclosed
    cases hlast : rest.getLast? with
    | none =>
      rw [hlast] at hclosed
      exact absurd hclosed (by decide)
    | some c =>
      rw [hlast] at hclosed
      exact congrArg some hclosed
  rw [List.dropLast_append_getLast? ')' hrest, hcs]

/-- What is read is a call. -/
theorem isCall_of_parse {s : String} {t : Transform α} (h : parse s = .ok t) :
    ∃ name args, IsCall s name args ∧ ofCall? name args = some t := by
  obtain ⟨⟨before, after, hbefore, hafter, hs⟩, -, -⟩ := trims_trimChars s.toList
  unfold parse at h
  generalize trimChars s.toList = cs at h hs
  simp only at h
  split at h
  · cases h
  · rename_i opening rest hdrop
    -- a closing parenthesis must end the text, and the call must be known
    split_ifs at h with hclosed
    split at h
    · rename_i hcall
      cases h
      obtain ⟨⟨front, between, hfront, hbetween, hname⟩, -, -⟩ :=
        trims_trimChars (cs.takeWhile (· != '('))
      have hcs := eq_parentheses hdrop hclosed
      generalize trimChars (cs.takeWhile (· != '(')) = name at hcall hname
      rw [hname] at hcs
      refine ⟨_, _, ⟨before ++ front, between, rest.dropLast, after, ?_, hbetween, hafter, ?_,
        arguments_eq_iff.mp rfl⟩, hcall⟩
      -- the blanks around the text and those around the name come together
      · intro c hc
        exact (List.mem_append.mp hc).elim (hbefore c) (hfront c)
      · rw [hs, String.toList_ofList, hcs]
        simp only [List.append_assoc]
    · cases h

/-- **The reader reads transforms as they are spelled**, and nothing else. -/
theorem parse_eq_ok_iff {s : String} {t : Transform α} : parse s = .ok t ↔ Denotes s t := by
  rw [denotes_iff]
  refine ⟨isCall_of_parse, ?_⟩
  rintro ⟨name, args, hcall, ht⟩
  exact hcall.parse_eq ht

end Transform

end BlockChart
