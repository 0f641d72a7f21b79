import BlockChart.Proofs.SoundSession

namespace BlockChart.Scopes

/-!
# The arena under its operations

Frames are opened on top of the arena, and releasing one drops all that are above it.  The
place of a released frame is given to the next one that is opened, which may have another
parent.  However operations follow one another, as long as each is given a frame that is
there at that moment, every frame stays above its parent and sees the table of the root.

* `Operation` is one operation, `after` a sequence of them; `Admits` says that every one of
  them is given a frame that is there;
* `Operation.apply_cases` is what one operation does, said once for all of them;
* `Rooted` is the invariant, `Rooted.apply` what one operation keeps of it and
  `Rooted.after` what a sequence does;
* `WellFormed.search_stable` — in a well-formed arena every search ends, and it takes no
  more rounds than the place of its frame says;
* `arena_after` — the two together.
-/

/-! ### Operations -/

/-- An operation on the arena, with the frame that it is given. -/
inductive Operation where
  | openFrame (parent : FrameId)
  | release (f : FrameId)
  | push (f : FrameId) (c : ElementId)
  | pop (f : FrameId)
  | assign (f : FrameId) (name : String) (v : Value)

namespace Operation

/-- The frame that an operation is given. -/
def frame : Operation → FrameId
  | openFrame f | release f | push f _ | pop f | assign f _ _ => f

/-- The arena after an operation.  One that fails leaves it as it is. -/
def apply (s : Scopes) : Operation → Scopes
  | openFrame parent => (s.openFrame parent).2
  | release f => s.release f
  | push f c => (s.push f c).toOption.getD s
  | pop f => ((s.pop f).toOption.map Prod.snd).getD s
  | assign f name v => (s.assign f name v).toOption.getD s

/-- The frame is there, and the root is not released. -/
def Allowed (s : Scopes) : Operation → Prop
  | release f => s.Live f ∧ f ≠ root
  | op => s.Live op.frame

end Operation

/-- The arena after some operations. -/
def after (s : Scopes) (ops : List Operation) : Scopes :=
  ops.foldl Operation.apply s

/-- **Every operation is allowed** in the arena that it finds. -/
def Admits (s : Scopes) : List Operation → Prop
  | [] => True
  | op :: rest => op.Allowed s ∧ (op.apply s).Admits rest

instance (s : Scopes) (f : FrameId) : Decidable (s.Live f) :=
  inferInstanceAs (Decidable (f < s.frames.size))

instance (s : Scopes) (op : Operation) : Decidable (op.Allowed s) :=
  match op with
  | .release f => inferInstanceAs (Decidable (s.Live f ∧ f ≠ root))
  | .openFrame f | .push f _ | .pop f | .assign f _ _ => inferInstanceAs (Decidable (s.Live f))

instance decidableAdmits (s : Scopes) : (ops : List Operation) → Decidable (s.Admits ops)
  | [] => .isTrue trivial
  | op :: rest =>
    have := decidableAdmits (op.apply s) rest
    inferInstanceAs (Decidable (op.Allowed s ∧ (op.apply s).Admits rest))

/-! ### Single frames after an operation -/

variable {s t : Scopes} {f i : FrameId} {table : Table}

/-- A new frame comes last, and the others stay. -/
theorem frames_openFrame (s : Scopes) (f i : FrameId) :
    (s.openFrame f).2.frames[i]?
      = if i = s.frames.size then some (.fresh f) else s.frames[i]? :=
  Array.getElem?_push

/-- Releasing cuts the arena at the frame, but never below the outermost one. -/
theorem frames_release (s : Scopes) (f i : Nat) :
    (s.release f).frames[i]? = if i < max f 1 then s.frames[i]? else none := by
  show (s.frames.take (max f 1))[i]? = _
  generalize max f 1 = kept
  rw [Array.take_eq_extract, Array.getElem?_extract, Nat.zero_add]
  by_cases hi : i < kept
  · by_cases hsize : i < s.frames.size
    · have hboth : i < min kept s.frames.size - 0 := by omega
      rw [if_pos hboth, if_pos hi]
    · have hpast : ¬ i < min kept s.frames.size - 0 := by omega
      rw [if_neg hpast, if_pos hi, Array.getElem?_eq_none (Nat.le_of_not_lt hsize)]
  · have hgone : ¬ i < min kept s.frames.size - 0 := by omega
    rw [if_neg hgone, if_neg hi]

/-- A frame that a release has left was there before. -/
theorem frame_of_release {b : Frame} (hb : (s.release f).frames[i]? = some b) :
    s.frames[i]? = some b := by
  rw [frames_release] at hb
  split at hb
  · exact hb
  · cases hb

/-- Taking a context off changes one frame, which may be above `f`. -/
theorem modify_of_pop {c : ElementId} (h : s.pop f = .ok (c, t)) :
    ∃ owner, s.modify owner (fun a => { a with contexts := a.contexts.tail }) = .ok t := by
  unfold pop at h
  cases hfind : s.find (·.contexts.head?) f with
  | error e => rw [hfind] at h; cases h
  | ok found =>
    rw [hfind] at h
    cases found with
    | none => cases h
    | some found =>
      simp only [bind, Except.bind] at h
      split at h
      · cases h
      · rename_i t' hmod
        cases h
        exact ⟨found.1, hmod⟩

/-- **What an operation does**: it opens a frame or releases some, it fails and does nothing, or
    it changes one frame, but neither its parent nor its table. -/
theorem Operation.apply_cases (op : Operation) (s : Scopes) :
    (∃ parent, op = openFrame parent) ∨ (∃ f, op = release f) ∨ op.apply s = s ∨
      ∃ f change, s.modify f change = .ok (op.apply s) ∧ (∀ a, (change a).parent = a.parent) ∧
        ∀ a, (change a).table = a.table := by
  cases op with
  | openFrame parent => exact .inl ⟨parent, rfl⟩
  | release f => exact .inr (.inl ⟨f, rfl⟩)
  | push f c =>
    refine .inr (.inr ?_)
    simp only [apply]
    cases hpush : s.push f c with
    | error e => exact .inl rfl
    | ok t => exact .inr ⟨f, _, hpush, fun _ => rfl, fun _ => rfl⟩
  | pop f =>
    refine .inr (.inr ?_)
    simp only [apply]
    cases hpop : s.pop f with
    | error e => exact .inl rfl
    | ok found =>
      obtain ⟨owner, hmod⟩ := modify_of_pop hpop
      exact .inr ⟨owner, _, hmod, fun _ => rfl, fun _ => rfl⟩
  | assign f name v =>
    refine .inr (.inr ?_)
    simp only [apply]
    cases hassign : s.assign f name v with
    | error e => exact .inl rfl
    | ok t => exact .inr ⟨f, _, hassign, fun _ => rfl, fun _ => rfl⟩

/-! ### The invariant -/

/-- **A rooted arena**: it is well-formed, and the root is the one frame that holds a
    table. -/
structure Rooted (table : Table) (s : Scopes) : Prop where
  arena : s.WellFormed
  tables : ∀ (i : FrameId) (a : Frame), s.frames[i]? = some a →
    a.table = if i = root then some table else none

/-- A new arena has the table in its outermost frame. -/
theorem rooted_new (table : Table) : (new table).Rooted table := by
  have hone : ∀ (i : FrameId) (a : Frame), (new table).frames[i]? = some a →
      i = root ∧ a = ⟨some table, [], [], none⟩ := by
    intro i a ha
    obtain ⟨hi, rfl⟩ := Array.getElem?_eq_some_iff.mp ha
    obtain rfl : i = 0 := Nat.lt_one_iff.mp hi
    exact ⟨rfl, rfl⟩
  refine ⟨⟨⟨_, rfl, rfl⟩, fun i a ha hi => ?_⟩, fun i a ha => ?_⟩
  · exact absurd (hone i a ha).1 hi
  · obtain ⟨rfl, rfl⟩ := hone i a ha
    rfl

namespace Rooted

/-- A change to one frame that leaves its parent and its table alone. -/
theorem modify (h : s.Rooted table) {change : Frame → Frame} (hmod : s.modify f change = .ok t)
    (hparent : ∀ a, (change a).parent = a.parent) (htable : ∀ a, (change a).table = a.table) :
    t.Rooted table := by
  -- every frame of `t` has the parent and the table that it has in `s`
  have hback : ∀ (i : FrameId) (b : Frame), t.frames[i]? = some b →
      ∃ a, s.frames[i]? = some a ∧ b.parent = a.parent ∧ b.table = a.table := by
    intro i b hb
    obtain ⟨a, ha, rfl | rfl⟩ := exists_frame_of_modify hmod hb
    · exact ⟨b, ha, rfl, rfl⟩
    · exact ⟨a, ha, hparent a, htable a⟩
  refine ⟨⟨?_, fun i b hb hi => ?_⟩, fun i b hb => ?_⟩
  · obtain ⟨a, ha, hnone⟩ := h.arena.root_parent
    have hlive : root < t.frames.size := by
      rw [size_modify hmod]
      exact (Array.getElem?_eq_some_iff.mp ha).1
    obtain ⟨a', ha', hparent', -⟩ := hback root _ (Array.getElem?_eq_getElem hlive)
    obtain rfl : a = a' := Option.some.inj (ha.symm.trans ha')
    exact ⟨_, Array.getElem?_eq_getElem hlive, hparent'.trans hnone⟩
  · obtain ⟨a, ha, hparent', -⟩ := hback i b hb
    obtain ⟨p, hp, hap⟩ := h.arena.parent i a ha hi
    exact ⟨p, hp, hparent'.trans hap⟩
  · obtain ⟨a, ha, -, htable'⟩ := hback i b hb
    exact htable'.trans (h.tables i a ha)

/-- A fresh frame gets the place after all others, so a parent that is there comes before
    it. -/
theorem openFrame (h : s.Rooted table) (hf : s.Live f) : (s.openFrame f).2.Rooted table := by
  obtain ⟨a, ha, hnone⟩ := h.arena.root_parent
  have hroot : root ≠ s.frames.size :=
    Nat.ne_of_lt (Array.getElem?_eq_some_iff.mp ha).1
  refine ⟨⟨⟨a, ?_, hnone⟩, fun i b hb hi => ?_⟩, fun i b hb => ?_⟩
  · rw [frames_openFrame, if_neg hroot]
    exact ha
  -- the new frame has the one parent that was there before it
  · rw [frames_openFrame] at hb
    split at hb
    · rename_i hnew
      cases hb
      exact ⟨f, hnew ▸ hf, rfl⟩
    · exact h.arena.parent i b hb hi
  -- only the root has a table, and the new frame is not it
  · rw [frames_openFrame] at hb
    split at hb
    · rename_i hnew
      cases hb
      rw [if_neg (hnew ▸ hroot.symm)]
      rfl
    · exact h.tables i b hb

/-- What is left after a release are the frames below, and their parents are below them. -/
theorem release (h : s.Rooted table) (f : FrameId) : (s.release f).Rooted table := by
  obtain ⟨a, ha, hnone⟩ := h.arena.root_parent
  refine ⟨⟨⟨a, ?_, hnone⟩, fun i b hb hi => ?_⟩, fun i b hb => ?_⟩
  · have hkept : root < max f 1 := Nat.lt_of_lt_of_le Nat.one_pos (Nat.le_max_right f 1)
    rw [frames_release, if_pos hkept]
    exact ha
  · exact h.arena.parent i b (frame_of_release hb) hi
  · exact h.tables i b (frame_of_release hb)

/-- **One operation** keeps an arena rooted. -/
theorem apply (h : s.Rooted table) {op : Operation} (hop : op.Allowed s) :
    (op.apply s).Rooted table := by
  rcases op.apply_cases s with
    ⟨parent, rfl⟩ | ⟨f, rfl⟩ | hsame | ⟨f, change, hmod, hparent, htable⟩
  · exact h.openFrame hop
  · exact h.release f
  · exact hsame.symm ▸ h
  · exact h.modify hmod hparent htable

/-- **A sequence of operations** keeps an arena rooted. -/
theorem after (h : s.Rooted table) {ops : List Operation} (hops : s.Admits ops) :
    (s.after ops).Rooted table := by
  induction ops generalizing s with
  | nil => exact h
  | cons op rest ih => exact ih (h.apply hops.1) hops.2

/-- **Every frame sees the table of the root.** -/
theorem table_eq (h : s.Rooted table) (hf : s.Live f) : s.table f = .ok table := by
  obtain ⟨found, hfound, hnone⟩ := h.arena.search_eq_ok (·.table) hf hf
  obtain ⟨a, ha, -⟩ := h.arena.root_parent
  have hroot : a.table = some table := by
    rw [h.tables root a ha, if_pos rfl]
  cases found with
  | none =>
    have hmissed : a.table = none := hnone rfl a ha
    rw [hroot] at hmissed
    cases hmissed
  | some found =>
    -- only the root holds a table, so it is the root where the search has stopped
    obtain ⟨b, hb, htable⟩ := exists_frame_of_search hfound
    rw [h.tables found.1 b hb] at htable
    split at htable
    · unfold Scopes.table find
      rw [hfound]
      cases htable
      rfl
    · cases htable

end Rooted

/-! ### Searches end -/

namespace WellFormed

/-- **A search takes no more rounds than the place of its frame says**: past that, however
    many rounds it may go on for, its answer is the same. -/
theorem search_stable (h : s.WellFormed) (hf : s.Live f) {α : Type} (pick : Frame → Option α) :
    ∃ r, ∀ rounds, f < rounds → s.search pick rounds f = .ok r := by
  obtain ⟨r, hr, -⟩ := h.search_eq_ok pick (Nat.lt_succ_self f) hf
  exact ⟨r, fun rounds hrounds => search_of_extends (fun _ _ ha => ha) hrounds hr⟩

/-- What is found stands in a frame that can be changed. -/
theorem find_cases (h : s.WellFormed) (hf : s.Live f) {α : Type} (pick : Frame → Option α) :
    s.find pick f = .ok none ∨ ∃ owner x, s.find pick f = .ok (some (owner, x)) ∧ s.Live owner := by
  obtain ⟨r, hr, -⟩ := h.search_eq_ok pick hf hf
  cases r with
  | none => exact .inl hr
  | some found =>
    obtain ⟨a, ha, -⟩ := exists_frame_of_search hr
    exact .inr ⟨found.1, found.2, hr, (Array.getElem?_eq_some_iff.mp ha).1⟩

end WellFormed

/-- **What the look-ups of a frame answer**: each finds something, or fails because there is
    nothing to be found. -/
structure Answers (s : Scopes) (f : FrameId) : Prop where
  top : (∃ c, s.top f = .ok c) ∨ s.top f = .error .emptyContextStack
  pop : (∃ c t, s.pop f = .ok (c, t)) ∨ s.pop f = .error .emptyContextStack
  lookup : ∀ name, (∃ v, s.lookup f name = .ok v) ∨
    s.lookup f name = .error (.undefinedVariable name)

/-- Where all parents are there, every search from a live frame answers. -/
theorem WellFormed.answers (h : s.WellFormed) (hf : s.Live f) : s.Answers f where
  top := by
    rcases h.find_cases hf (·.contexts.head?) with hnone | ⟨owner, c, hsome, hlive⟩
    · exact .inr (top_pop_of_find_none hnone).1
    · exact .inl ⟨c, (top_pop_of_find hlive hsome).1⟩
  pop := by
    rcases h.find_cases hf (·.contexts.head?) with hnone | ⟨owner, c, hsome, hlive⟩
    · exact .inr (top_pop_of_find_none hnone).2
    · obtain ⟨-, t, ht, -⟩ := top_pop_of_find hlive hsome
      exact .inl ⟨c, t, ht⟩
  lookup := fun name => by
    unfold Scopes.lookup
    rcases h.find_cases hf (fun a => lookupEntry (lowerCase name) a.bindings) with
      hnone | ⟨owner, v, hsome, -⟩
    · rw [hnone]
      exact .inr rfl
    · rw [hsome]
      exact .inl ⟨v, rfl⟩

/-- **The arena of frames.**  After any operations on a new arena that are each given a
    frame which is there at that moment, the root has no parent and every other frame has
    one that comes before it.  So every search from a frame that is there ends, its look-ups
    answer, and it sees the table that the arena was made with. -/
theorem arena_after (table : Table) (ops : List Operation) (hops : (new table).Admits ops) :
    let s := (new table).after ops
    s.WellFormed ∧ ∀ f, s.Live f →
      (∀ (α : Type) (pick : Frame → Option α), ∃ r, ∀ rounds, f < rounds →
        s.search pick rounds f = .ok r) ∧
      s.Answers f ∧ s.table f = .ok table := by
  have h := (rooted_new table).after hops
  refine ⟨h.arena, fun f hf => ⟨fun α pick => ?_, h.arena.answers hf, h.table_eq hf⟩⟩
  exact h.arena.search_stable hf pick

/-- A table of one cell. -/
def letterTable : Table :=
  ⟨["Letter"], [[.str "a"]]⟩

/-- Frame 2 is opened below frame 1, released, and opened again below the root; then a
    context is taken off the stack of the root through it. -/
def reopened : List Operation :=
  [.push 0 7, .openFrame 0, .openFrame 1, .release 2, .openFrame 0, .pop 2]

/-- The frame in the place of the released one has another parent; it has emptied the stack
    of the root, and sees the table. -/
theorem arena_after_reopened :
    (new letterTable).Admits reopened ∧
      ((new letterTable).after reopened).frames[2]?.map Frame.parent = some (some root) ∧
      ((new letterTable).after reopened).top 2 = .error .emptyContextStack ∧
      ((new letterTable).after reopened).Answers 2 ∧
      ((new letterTable).after reopened).table 2 = .ok letterTable := by
  have hops : (new letterTable).Admits reopened := by decide
  obtain ⟨-, hframes⟩ := arena_after letterTable reopened hops
  obtain ⟨-, hanswers, htable⟩ := hframes 2 (by decide)
  exact ⟨hops, rfl, rfl, hanswers, htable⟩

end BlockChart.Scopes
