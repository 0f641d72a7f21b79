import BlockChart.Scope

namespace BlockChart

/-!
# Frames of an arena

What the operations on scopes do to the single frames, as facts that later proofs
use in place of the definitions:

* `frames_modify_self` and `frames_modify_of_ne` describe a change to one frame;
* `search_congr` and `search_of_extends` say when two arenas answer a search alike;
* `top_of_push`, `top_pop_of_find`, `pop_of_contexts` and `top_openFrame` describe the
  innermost drawing context;
* `release_openFrame` says that releasing a fresh frame undoes everything above it;
* `Raises` is why something that runs in a frame may fail: through the program and its
  data, or through the arena itself;
* `Misses` is the part of it that reading the arena has, look-ups of variables apart: it
  complains of no variable and of no limit.
-/

/-- **Faults of a program and its data**: a variable that nobody bound, an empty slot, an
    index that the table does not have, an aggregate over no rows, too many levels. -/
inductive Fault.DataDependent : Fault → Prop
  | undefinedVariable (name : String) : DataDependent (.undefinedVariable name)
  | missingPiece (slot : String) : DataDependent (.missingPiece slot)
  | indexOutOfRange (what index : String) (size : Nat) :
      DataDependent (.indexOutOfRange what index size)
  | emptyAggregate (operator : String) : DataDependent (.emptyAggregate operator)
  | recursionLimit (limit : Nat) : DataDependent (.recursionLimit limit)

/-- **Something is not there**: a slot is empty, the table does not have an index, or an
    aggregate has no rows. -/
inductive Fault.Unfound : Fault → Prop
  | missingPiece (slot : String) : Unfound (.missingPiece slot)
  | indexOutOfRange (what index : String) (size : Nat) : Unfound (.indexOutOfRange what index size)
  | emptyAggregate (operator : String) : Unfound (.emptyAggregate operator)

/-- What is missing is missing from the program or from its data. -/
theorem Fault.Unfound.dataDependent {e : Fault} (h : e.Unfound) : e.DataDependent := by
  cases h with
  | missingPiece slot => exact .missingPiece slot
  | indexOutOfRange what index size => exact .indexOutOfRange what index size
  | emptyAggregate operator => exact .emptyAggregate operator

namespace Scopes

/-- A handle that has a frame. -/
def Live (s : Scopes) (f : FrameId) : Prop :=
  f < s.frames.size

/-! ### Changing one frame -/

/-- A change that succeeds is a change to a live frame. -/
theorem modify_eq_ok_iff {s t : Scopes} {f : FrameId} {change : Frame → Frame} :
    s.modify f change = .ok t ↔ s.Live f ∧ t = ⟨s.frames.modify f change⟩ := by
  unfold modify Live
  by_cases hf : f < s.frames.size
  · rw [if_pos hf, Except.ok.injEq]
    exact ⟨fun h => ⟨hf, h.symm⟩, fun h => h.2.symm⟩
  · rw [if_neg hf]
    exact ⟨fun h => (nomatch h), fun h => absurd h.1 hf⟩

/-- A change keeps the number of frames. -/
theorem size_modify {s t : Scopes} {f : FrameId} {change : Frame → Frame}
    (h : s.modify f change = .ok t) : t.frames.size = s.frames.size := by
  obtain ⟨-, rfl⟩ := modify_eq_ok_iff.mp h
  exact Array.size_modify

/-- The changed frame. -/
theorem frames_modify_self {s t : Scopes} {f : FrameId} {change : Frame → Frame}
    (h : s.modify f change = .ok t) : t.frames[f]? = (s.frames[f]?).map change := by
  obtain ⟨-, rfl⟩ := modify_eq_ok_iff.mp h
  rw [Array.getElem?_modify, if_pos rfl]

/-- The other frames stay as they are. -/
theorem frames_modify_of_ne {s t : Scopes} {f i : FrameId} {change : Frame → Frame}
    (h : s.modify f change = .ok t) (hi : i ≠ f) : t.frames[i]? = s.frames[i]? := by
  obtain ⟨-, rfl⟩ := modify_eq_ok_iff.mp h
  rw [Array.getElem?_modify, if_neg hi.symm]

/-- A frame after a change is one from before, or what the change made of it. -/
theorem exists_frame_of_modify {s t : Scopes} {f i : FrameId} {change : Frame → Frame} {b : Frame}
    (h : s.modify f change = .ok t) (hb : t.frames[i]? = some b) :
    ∃ a, s.frames[i]? = some a ∧ (b = a ∨ b = change a) := by
  by_cases hi : i = f
  · subst hi
    rw [frames_modify_self h, Option.map_eq_some_iff] at hb
    obtain ⟨a, ha, rfl⟩ := hb
    exact ⟨a, ha, .inr rfl⟩
  · rw [frames_modify_of_ne h hi] at hb
    exact ⟨b, hb, .inl rfl⟩

/-! ### Searching a chain -/

/-- **Agreeing arenas.** A search sees of each frame only what `pick` finds there and
    the parent. -/
theorem search_congr {α : Type} {pick : Frame → Option α} {s t : Scopes}
    (h : ∀ i : FrameId, (s.frames[i]?).map (fun a : Frame => (pick a, a.parent))
      = (t.frames[i]?).map (fun a : Frame => (pick a, a.parent)))
    (fuel : Nat) (f : FrameId) : s.search pick fuel f = t.search pick fuel f := by
  induction fuel generalizing f with
  | zero => rfl
  | succ fuel ih =>
    -- the frame is absent in both arenas, or present in both with the same pick and parent
    have hf := h f
    simp only [search]
    cases hs : s.frames[f]? with
    | none =>
      cases ht : t.frames[f]? with
      | none => rfl
      | some b => rw [hs, ht] at hf; cases hf
    | some a =>
      cases ht : t.frames[f]? with
      | none => rw [hs, ht] at hf; cases hf
      | some b =>
        rw [hs, ht] at hf
        simp only [Option.map_some, Option.some.injEq, Prod.mk.injEq] at hf
        simp only [hf.1, hf.2, ih]

/-- **Larger arenas.** An answer stands when frames are added and the search may go
    on for longer. -/
theorem search_of_extends {α : Type} {pick : Frame → Option α} {s t : Scopes}
    (h : ∀ (i : FrameId) (a : Frame), s.frames[i]? = some a → t.frames[i]? = some a)
    {fuel fuel' : Nat} (hfuel : fuel ≤ fuel') {f : FrameId} {r : Option (FrameId × α)}
    (hr : s.search pick fuel f = .ok r) : t.search pick fuel' f = .ok r := by
  induction fuel generalizing f fuel' with
  | zero => cases hr
  | succ fuel ih =>
    -- one round is spent in both searches
    obtain ⟨k, rfl⟩ : ∃ k, fuel' = k + 1 := ⟨fuel' - 1, by omega⟩
    simp only [search] at hr ⊢
    cases hs : s.frames[f]? with
    | none => rw [hs] at hr; cases hr
    | some a =>
      rw [hs] at hr
      rw [h f a hs]
      simp only at hr ⊢
      cases hp : pick a with
      | some x => rw [hp] at hr; exact hr
      | none =>
        rw [hp] at hr
        simp only at hr ⊢
        cases hq : a.parent with
        | none => rw [hq] at hr; exact hr
        | some p =>
          rw [hq] at hr
          exact ih (by omega) hr

/-- A search that picks something in its first frame stops there. -/
theorem find_of_pick {α : Type} {pick : Frame → Option α} {s : Scopes} {f : FrameId}
    {a : Frame} {x : α} (hf : s.frames[f]? = some a) (hx : pick a = some x) :
    s.find pick f = .ok (some (f, x)) := by
  have hlt : f < s.frames.size := (Array.getElem?_eq_some_iff.mp hf).1
  obtain ⟨k, hk⟩ := Nat.exists_eq_succ_of_ne_zero (Nat.ne_zero_of_lt hlt)
  simp only [find, hk, search, hf, hx]

/-! ### The innermost drawing context -/

/-- The innermost context depends on stacks and parents only. -/
theorem top_congr {s t : Scopes} (hsize : s.frames.size = t.frames.size)
    (h : ∀ i : FrameId, (s.frames[i]?).map (fun a : Frame => (a.contexts.head?, a.parent))
      = (t.frames[i]?).map (fun a : Frame => (a.contexts.head?, a.parent)))
    (f : FrameId) : s.top f = t.top f := by
  unfold top find
  rw [search_congr h, hsize]

/-- What a search finds for the innermost context. -/
theorem find_of_top {s : Scopes} {f : FrameId} {c : ElementId} (h : s.top f = .ok c) :
    ∃ owner, s.find (·.contexts.head?) f = .ok (some (owner, c)) := by
  unfold top at h
  cases hfind : s.find (·.contexts.head?) f with
  | error e => rw [hfind] at h; cases h
  | ok r =>
    rw [hfind] at h
    cases r with
    | none => cases h
    | some found =>
      obtain ⟨owner, d⟩ := found
      cases h
      exact ⟨owner, rfl⟩

/-- Only live frames have an innermost context. -/
theorem live_of_top {s : Scopes} {f : FrameId} {c : ElementId} (h : s.top f = .ok c) :
    s.Live f := by
  obtain ⟨owner, hfind⟩ := find_of_top h
  unfold find at hfind
  cases hsize : s.frames.size with
  | zero => rw [hsize] at hfind; cases hfind
  | succ k =>
    rw [hsize] at hfind
    simp only [search] at hfind
    cases hf : s.frames[f]? with
    | none => rw [hf] at hfind; cases hfind
    | some a => exact (Array.getElem?_eq_some_iff.mp hf).1

/-- The innermost context is the one put on last. -/
theorem top_of_push {s t : Scopes} {f : FrameId} {c : ElementId} (h : s.push f c = .ok t) :
    t.top f = .ok c := by
  obtain ⟨hlive, -⟩ := modify_eq_ok_iff.mp h
  have hself := frames_modify_self h
  rw [Array.getElem?_eq_getElem hlive, Option.map_some] at hself
  unfold top
  rw [find_of_pick hself (x := c) rfl]
  rfl

/-- What a search finds is the innermost context, and comes off the stack where it was found. -/
theorem top_pop_of_find {s : Scopes} {f owner : FrameId} {c : ElementId} (hlive : s.Live owner)
    (hfind : s.find (·.contexts.head?) f = .ok (some (owner, c))) :
    s.top f = .ok c ∧ ∃ t, s.pop f = .ok (c, t) ∧
      s.modify owner (fun frame => { frame with contexts := frame.contexts.tail }) = .ok t := by
  obtain ⟨t, ht⟩ : ∃ t, s.modify owner (fun frame =>
      { frame with contexts := frame.contexts.tail }) = .ok t :=
    ⟨_, modify_eq_ok_iff.mpr ⟨hlive, rfl⟩⟩
  refine ⟨?_, t, ?_, ht⟩
  · rw [top, hfind]
    rfl
  · rw [pop, hfind]
    simp only [bind, Except.bind, ht]

/-- A search that finds nothing: there is no innermost context. -/
theorem top_pop_of_find_none {s : Scopes} {f : FrameId}
    (hfind : s.find (·.contexts.head?) f = .ok none) :
    s.top f = .error .emptyContextStack ∧ s.pop f = .error .emptyContextStack := by
  unfold top pop
  rw [hfind]
  exact ⟨rfl, rfl⟩

/-- Taking a context off a stack that is not empty touches that stack only. -/
theorem pop_of_contexts {s : Scopes} {f : FrameId} {a : Frame} {c : ElementId}
    {rest : List ElementId} (hf : s.frames[f]? = some a) (hc : a.contexts = c :: rest) :
    ∃ t, s.pop f = .ok (c, t) ∧
      s.modify f (fun frame => { frame with contexts := frame.contexts.tail }) = .ok t := by
  have hlive : s.Live f := (Array.getElem?_eq_some_iff.mp hf).1
  have hhead : a.contexts.head? = some c := by rw [hc, List.head?_cons]
  exact (top_pop_of_find hlive (find_of_pick hf hhead)).2

/-- A fresh frame sees the innermost context of its parent. -/
theorem top_openFrame {s : Scopes} {f : FrameId} {c : ElementId} (h : s.top f = .ok c) :
    (s.openFrame f).2.top (s.openFrame f).1 = .ok c := by
  obtain ⟨owner, hfind⟩ := find_of_top h
  have hext : ∀ (i : FrameId) (a : Frame), s.frames[i]? = some a →
      (s.frames.push (.fresh f))[i]? = some a := by
    intro i a ha
    obtain ⟨hi, rfl⟩ := Array.getElem?_eq_some_iff.mp ha
    exact Array.getElem?_push_lt hi
  -- the search from the new frame goes on at `f`, in an arena that knows all the old frames
  have hrest := search_of_extends (t := ⟨s.frames.push (.fresh f)⟩) hext (Nat.le_refl _) hfind
  have hopen : (s.openFrame f).2.find (·.contexts.head?) (s.openFrame f).1
      = .ok (some (owner, c)) := by
    unfold find openFrame
    simp only [Array.size_push, search, Array.getElem?_push_size]
    exact hrest
  unfold top
  rw [hopen]
  rfl

/-! ### Fresh frames -/

/-- A fresh frame is live. -/
theorem live_openFrame (s : Scopes) (f : FrameId) :
    (s.openFrame f).2.Live (s.openFrame f).1 := by
  show s.frames.size < (s.frames.push (.fresh f)).size
  rw [Array.size_push]
  omega

/-- **Releasing a fresh frame** gives the arena back, if what ran in between left the
    frames below as they were. -/
theorem release_openFrame {s t : Scopes} {f : FrameId} (hf : s.Live f)
    (hsize : t.frames.size = (s.openFrame f).2.frames.size)
    (hsame : ∀ i ≠ (s.openFrame f).1, t.frames[i]? = (s.openFrame f).2.frames[i]?) :
    t.release (s.openFrame f).1 = s := by
  have hpos : 1 ≤ s.frames.size := Nat.lt_of_le_of_lt (Nat.zero_le f) hf
  simp only [openFrame, Array.size_push] at hsize hsame ⊢
  -- the new frame is the last one, so the old arena is a beginning of the new one
  have hframes : t.frames.take s.frames.size = s.frames := by
    apply Array.ext_getElem?
    intro i
    rw [Array.take_eq_extract, Array.getElem?_extract]
    by_cases hi : i < s.frames.size
    · rw [if_pos (by omega), Nat.zero_add, hsame i (Nat.ne_of_lt hi), Array.getElem?_push_lt hi,
        Array.getElem?_eq_getElem hi]
    · rw [if_neg (by omega)]
      exact (Array.getElem?_eq_none (Nat.le_of_not_lt hi)).symm
  unfold release
  rw [Nat.max_eq_left hpos, hframes]

/-! ### Faults -/

/-- **Why something that runs in a frame may fail**: the program and its data bring it
    about, no stack on the chain of the frame has a context, or the chain itself leaves
    the arena. -/
inductive Raises (s : Scopes) (f : FrameId) (e : Fault) : Prop
  | data (cause : e.DataDependent)
  | context (cause : s.top f = .error e)
  | chain {α : Type} (pick : Frame → Option α) (cause : s.find pick f = .error e)

/-- **Why reading the arena may fail**: what is asked for is not there, or one of the two
    reasons above that lie in the arena. -/
inductive Misses (s : Scopes) (f : FrameId) (e : Fault) : Prop
  | data (cause : e.Unfound)
  | context (cause : s.top f = .error e)
  | chain {α : Type} (pick : Frame → Option α) (cause : s.find pick f = .error e)

variable {s : Scopes} {f : FrameId} {e : Fault}

/-- What is missed is raised. -/
theorem Misses.raises (h : s.Misses f e) : s.Raises f e := by
  cases h with
  | data cause => exact .data cause.dataDependent
  | context cause => exact .context cause
  | chain pick cause => exact .chain pick cause

/-- A search fails where it leaves the arena, and nowhere else. -/
theorem eq_deadFrame_of_find {α : Type} {pick : Frame → Option α} (h : s.find pick f = .error e) :
    e = .deadFrame := by
  unfold find at h
  generalize s.frames.size = fuel at h
  -- each round asks one frame, which answers or hands the question on to its parent
  induction fuel generalizing f with
  | zero =>
    cases h
    rfl
  | succ fuel ih =>
    simp only [search] at h
    split at h
    · cases h
      rfl
    · split at h
      · cases h
      · split at h
        · cases h
        · exact ih h

/-- **A fault of the arena**: a handle without a frame, or no context on any stack. -/
def IsArenaFault (e : Fault) : Prop :=
  e = .deadFrame ∨ e = .emptyContextStack

/-- The innermost context is missed for want of a frame or of a context. -/
theorem isArenaFault_of_top (h : s.top f = .error e) : IsArenaFault e := by
  unfold top at h
  cases hfind : s.find (·.contexts.head?) f with
  | error e' =>
    rw [hfind, eq_deadFrame_of_find hfind] at h
    cases h
    exact .inl rfl
  | ok found =>
    rw [hfind] at h
    cases found with
    | none =>
      cases h
      exact .inr rfl
    | some found => cases h

/-- A frame that cannot be changed is not there. -/
theorem isArenaFault_of_modify {change : Frame → Frame} (h : s.modify f change = .error e) :
    IsArenaFault e := by
  unfold modify at h
  split at h
  · cases h
  · cases h
    exact .inl rfl

/-- Taking a context off fails as looking at it does, or where it is taken off. -/
theorem isArenaFault_of_pop (h : s.pop f = .error e) : IsArenaFault e := by
  unfold pop at h
  cases hfind : s.find (·.contexts.head?) f with
  | error e' =>
    rw [hfind, eq_deadFrame_of_find hfind] at h
    cases h
    exact .inl rfl
  | ok found =>
    rw [hfind] at h
    cases found with
    | none =>
      cases h
      exact .inr rfl
    | some found =>
      simp only [bind, Except.bind] at h
      split at h
      · rename_i e' hmod
        cases h
        exact isArenaFault_of_modify hmod
      · cases h

/-- **No complaint about nesting or names**: neither of too many levels nor of a variable. -/
def IsSilent (e : Fault) : Prop :=
  (∀ m, e ≠ .recursionLimit m) ∧ ∀ name, e ≠ .undefinedVariable name

/-- What is not found in the data is neither. -/
theorem isSilent_of_unfound (h : e.Unfound) : IsSilent e := by
  cases h with
  | missingPiece slot => exact ⟨fun _ he => (by cases he), fun _ he => (by cases he)⟩
  | indexOutOfRange what index size => exact ⟨fun _ he => (by cases he), fun _ he => (by cases he)⟩
  | emptyAggregate operator => exact ⟨fun _ he => (by cases he), fun _ he => (by cases he)⟩

/-- Nor is what is not found in the arena. -/
theorem IsArenaFault.isSilent (h : IsArenaFault e) : IsSilent e := by
  rcases h with rfl | rfl
  · exact ⟨fun _ he => (by cases he), fun _ he => (by cases he)⟩
  · exact ⟨fun _ he => (by cases he), fun _ he => (by cases he)⟩

/-- **Reading complains of no limit and of no variable**: levels of nesting have nothing to do
    with the arena, and a variable is complained of only where it is looked up. -/
theorem Misses.isSilent (h : s.Misses f e) : IsSilent e := by
  cases h with
  | data cause => exact isSilent_of_unfound cause
  | context cause => exact (isArenaFault_of_top cause).isSilent
  | chain pick cause => exact IsArenaFault.isSilent (.inl (eq_deadFrame_of_find cause))

/-- A frame that cannot be changed is one that no search can start from. -/
theorem misses_of_modify {change : Frame → Frame} (h : s.modify f change = .error e) :
    s.Misses f e := by
  unfold modify at h
  split at h
  · cases h
  · rename_i hf
    cases h
    refine .chain (·.parent) ?_
    unfold find
    cases hsize : s.frames.size with
    | zero => rfl
    | succ k => simp only [search, Array.getElem?_eq_none (Nat.le_of_not_lt hf)]

/-- **Looking up a variable** fails because nobody bound it, or as all reading does. -/
theorem misses_of_lookup {name : String} (h : s.lookup f name = .error e) :
    e = .undefinedVariable name ∨ s.Misses f e := by
  unfold lookup at h
  cases hfind : s.find (fun frame => lookupEntry (lowerCase name) frame.bindings) f with
  | error e' =>
    rw [hfind] at h
    cases h
    exact .inr (.chain _ hfind)
  | ok found =>
    rw [hfind] at h
    cases found with
    | none =>
      cases h
      exact .inl rfl
    | some _ => cases h

/-- The table is missed only where the frame is not there. -/
theorem misses_of_table (h : s.table f = .error e) : s.Misses f e := by
  unfold table at h
  cases hfind : s.find (·.table) f with
  | error e' =>
    rw [hfind] at h
    cases h
    exact .chain _ hfind
  | ok found =>
    rw [hfind] at h
    cases found with
    | none => cases h
    | some _ => cases h

/-- A column that is not there is not found. -/
theorem columnOf_unfound {t : Table} {column : Value} (h : columnOf t column = .error e) :
    e.Unfound := by
  unfold columnOf at h
  split at h
  · cases h
  · simp only at h
    split at h
    · cases h
    · cases h
      exact .indexOutOfRange ..

/-- The row is asked for first, then the column in the whole table, then in the row. -/
theorem cellOf_unfound {t : Table} {row column : Value}
    (h : cellOf t row column = .error e) : e.Unfound := by
  unfold cellOf at h
  split at h
  · cases h
    exact .indexOutOfRange ..
  · cases hcolumn : columnOf t column with
    | error e' =>
      rw [hcolumn] at h
      cases h
      exact columnOf_unfound hcolumn
    | ok i =>
      rw [hcolumn] at h
      simp only [bind, Except.bind] at h
      split at h
      · cases h
      · cases h
        exact .indexOutOfRange ..

/-- A question to the table that the frame sees. -/
theorem misses_of_table_bind {α : Type} {ask : Table → Except Fault α}
    (hask : ∀ t e, ask t = .error e → e.Unfound) (h : (do ask (← s.table f)) = .error e) :
    s.Misses f e := by
  cases htable : s.table f with
  | error e' =>
    rw [htable] at h
    cases h
    exact misses_of_table htable
  | ok t =>
    rw [htable] at h
    exact .data (hask t e h)

end Scopes

end BlockChart
