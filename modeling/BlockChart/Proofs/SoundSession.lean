import BlockChart.Proofs.DrawingTree

namespace BlockChart

/-!
# Sessions stay sound

A session that was started on an empty canvas stays sound whatever is run in it and
however that ends: its frames form a chain of parents down to the root, every drawing
context is an element, and the drawing is a tree that all writes have found.

* `Scopes.WellFormed` is the arena in which every search comes to an end;
* `Session.Sound` is the invariant, `Effect.sound` says that every effect keeps it, and
  that an effect on a sound session fails through the program and its data only;
* `Session.after_writtenOnce` and `Session.call_outcome` are what follows for all
  sequences of calls.
-/

namespace Scopes

/-! ### Well-formed arenas -/

/-- **A well-formed arena**: the root has no parent, and every other frame has one that
    comes before it. -/
structure WellFormed (s : Scopes) : Prop where
  root_parent : ∃ a, s.frames[root]? = some a ∧ a.parent = none
  parent : ∀ (i : FrameId) (a : Frame), s.frames[i]? = some a → i ≠ root →
    ∃ p < i, a.parent = some p

variable {s : Scopes} {f : FrameId}

/-- What a search finds is picked from a frame of the arena. -/
theorem exists_frame_of_search {α : Type} {pick : Frame → Option α} {fuel : Nat}
    {owner : FrameId} {x : α} (h : s.search pick fuel f = .ok (some (owner, x))) :
    ∃ a, s.frames[owner]? = some a ∧ pick a = some x := by
  induction fuel generalizing f with
  | zero => cases h
  | succ fuel ih =>
    simp only [search] at h
    cases ha : s.frames[f]? with
    | none => rw [ha] at h; cases h
    | some a =>
      rw [ha] at h
      simp only at h
      -- the frame itself, or one further up
      cases hx : pick a with
      | some y =>
        rw [hx] at h
        cases h
        exact ⟨a, ha, hx⟩
      | none =>
        rw [hx] at h
        simp only at h
        cases hp : a.parent with
        | none => rw [hp] at h; cases h
        | some p =>
          rw [hp] at h
          exact ih h

/-- The innermost context stands on some stack. -/
theorem mem_contexts_of_top {c : ElementId} (h : s.top f = .ok c) :
    ∃ (i : FrameId) (a : Frame), s.frames[i]? = some a ∧ c ∈ a.contexts := by
  obtain ⟨owner, hfind⟩ := find_of_top h
  obtain ⟨a, ha, hc⟩ := exists_frame_of_search hfind
  exact ⟨owner, a, ha, List.mem_of_head? hc⟩

namespace WellFormed

/-- **Every search from a live frame has an answer**, and one that comes back with
    nothing has looked into the root. -/
theorem search_eq_ok (h : s.WellFormed) {α : Type} (pick : Frame → Option α) {fuel : Nat}
    (hfuel : f < fuel) (hf : s.Live f) :
    ∃ r, s.search pick fuel f = .ok r ∧
      (r = none → ∀ a, s.frames[root]? = some a → pick a = none) := by
  induction fuel generalizing f with
  | zero => exact absurd hfuel (Nat.not_lt_zero f)
  | succ fuel ih =>
    obtain ⟨a, ha⟩ : ∃ a, s.frames[f]? = some a := ⟨_, Array.getElem?_eq_getElem hf⟩
    simp only [search, ha]
    cases hx : pick a with
    | some x => exact ⟨_, rfl, fun hnone => absurd hnone (Option.some_ne_none _)⟩
    | none =>
      -- the chain ends at the root, and every other frame has an earlier parent
      by_cases hroot : f = root
      · obtain ⟨b, hb, hnone⟩ := h.root_parent
        subst hroot
        obtain rfl : a = b := Option.some.inj (ha.symm.trans hb)
        refine ⟨none, by rw [hnone], fun _ c hc => ?_⟩
        obtain rfl : a = c := Option.some.inj (ha.symm.trans hc)
        exact hx
      · obtain ⟨p, hp, hparent⟩ := h.parent f a ha hroot
        rw [hparent]
        exact ih (Nat.lt_of_lt_of_le hp (Nat.le_of_lt_succ hfuel)) (Nat.lt_trans hp hf)

/-- From a live frame no search fails. -/
theorem find_ne_error (h : s.WellFormed) {α : Type} (pick : Frame → Option α) (hf : s.Live f)
    (e : Fault) : s.find pick f ≠ .error e := by
  obtain ⟨r, hr, -⟩ := h.search_eq_ok pick hf hf
  rw [find, hr]
  intro herror
  cases herror

/-- Where the stack of the root is not empty, every live frame has an innermost
    context. -/
theorem exists_top (h : s.WellFormed) (hf : s.Live f)
    (hbase : ∃ a, s.frames[root]? = some a ∧ a.contexts ≠ []) : ∃ c, s.top f = .ok c := by
  obtain ⟨r, hr, hroot⟩ := h.search_eq_ok (·.contexts.head?) hf hf
  cases r with
  | none =>
    obtain ⟨a, ha, hne⟩ := hbase
    exact absurd (List.head?_eq_none_iff.mp (hroot rfl a ha)) hne
  | some found =>
    refine ⟨found.2, ?_⟩
    rw [top, find, hr]
    rfl

end WellFormed

/-- `t` has the frames of `s` with their parents; on the stacks there may be more
    contexts, all of them among `n` elements. -/
structure Restacked (n : Nat) (s t : Scopes) : Prop where
  size : t.frames.size = s.frames.size
  frame : ∀ (i : FrameId) (a : Frame), s.frames[i]? = some a → ∃ b extra,
    t.frames[i]? = some b ∧ b.parent = a.parent ∧ b.contexts = extra ++ a.contexts ∧
      ∀ c ∈ extra, c < n

/-- Putting a context on a stack. -/
theorem restacked_push {t : Scopes} {c : ElementId} {n : Nat} (hc : c < n)
    (h : s.push f c = .ok t) : Restacked n s t := by
  refine ⟨size_modify h, fun i a ha => ?_⟩
  by_cases hi : i = f
  · subst hi
    have hself := frames_modify_self h
    rw [ha, Option.map_some] at hself
    exact ⟨_, [c], hself, rfl, rfl, by simpa using hc⟩
  · exact ⟨a, [], (frames_modify_of_ne h hi).trans ha, rfl, rfl, by simp⟩

end Scopes

/-- What an effect leaves on the stacks are elements. -/
theorem Residue.restacked {n : Nat} {f : FrameId} {s s' : Session} {o : Option Fault}
    (h : Residue n f s o s') : Scopes.Restacked s'.drawing.size s.scopes s'.scopes := by
  refine ⟨h.size, fun i a ha => ?_⟩
  by_cases hi : i = f
  · subst hi
    obtain ⟨b, extra, hb, hab, hown, -⟩ := h.own a ha
    exact ⟨b, extra, hb, hab.parent, hab.contexts, fun c hc => (hown c hc).2⟩
  · exact ⟨a, [], (h.others i hi).trans ha, rfl, rfl, by simp⟩

/-! ### The invariant -/

/-- **A sound session.** -/
structure Session.Sound (s : Session) : Prop where
  arena : s.scopes.WellFormed
  /-- The root has something to draw in. -/
  base : ∃ a, s.scopes.frames[Scopes.root]? = some a ∧ a.contexts ≠ []
  /-- Every context is an element. -/
  contexts : ∀ (i : FrameId) (a : Frame), s.scopes.frames[i]? = some a →
    ∀ c ∈ a.contexts, c < s.drawing.size
  tree : s.drawing.IsTree
  /-- Every write has found its element. -/
  strays : s.strays = []

namespace Session.Sound

variable {s s' : Session} {n : Nat} {f : FrameId} {c : ElementId}

/-- The outermost frame is always live. -/
theorem live_root (hs : s.Sound) : s.scopes.Live Scopes.root := by
  obtain ⟨a, ha, -⟩ := hs.base
  exact (Array.getElem?_eq_some_iff.mp ha).1

/-- The innermost context is an element of the drawing. -/
theorem lt_of_top (hs : s.Sound) (h : s.scopes.top f = .ok c) : c < s.drawing.size := by
  obtain ⟨i, a, ha, hc⟩ := Scopes.mem_contexts_of_top h
  exact hs.contexts i a ha c hc

/-- A node only reaches elements. -/
theorem lt_of_reaches (hs : s.Sound) (h : s.Reaches n f c) : c < s.drawing.size := by
  rcases h with htop | hown
  · exact hs.lt_of_top htop
  · exact hown.2

/-- **The causes of a failure** that a sound session leaves. -/
theorem dataDependent_of_raises (hs : s.Sound) (hf : s.scopes.Live f) {e : Fault}
    (h : s.scopes.Raises f e) : e.DataDependent := by
  cases h with
  | data cause => exact cause
  | context cause =>
    obtain ⟨c, hc⟩ := hs.arena.exists_top hf hs.base
    rw [hc] at cause
    cases cause
  | chain pick cause => exact absurd cause (hs.arena.find_ne_error pick hf e)

/-- More contexts on the stacks, and a larger tree to draw in. -/
theorem of_restacked (hs : s.Sound)
    (h : Scopes.Restacked s'.drawing.size s.scopes s'.scopes)
    (hgrows : s.drawing.size ≤ s'.drawing.size) (htree : s'.drawing.IsTree)
    (hstrays : s'.strays = []) : s'.Sound := by
  -- every frame of `s'` is one of `s`, with more contexts at most
  have hback : ∀ (i : FrameId) (b : Frame), s'.scopes.frames[i]? = some b → ∃ a extra,
      s.scopes.frames[i]? = some a ∧ b.parent = a.parent ∧ b.contexts = extra ++ a.contexts ∧
        ∀ c ∈ extra, c < s'.drawing.size := by
    intro i b hb
    have hi : i < s.scopes.frames.size := h.size ▸ (Array.getElem?_eq_some_iff.mp hb).1
    have ha := Array.getElem?_eq_getElem hi
    obtain ⟨b', extra, hb', hparent, hcontexts, hlt⟩ := h.frame i _ ha
    obtain rfl : b' = b := Option.some.inj (hb'.symm.trans hb)
    exact ⟨_, extra, ha, hparent, hcontexts, hlt⟩
  refine ⟨⟨?_, fun i b hb hi => ?_⟩, ?_, fun i b hb c hc => ?_, htree, hstrays⟩
  · obtain ⟨a, ha, hnone⟩ := hs.arena.root_parent
    obtain ⟨b, -, hb, hparent, -⟩ := h.frame _ a ha
    exact ⟨b, hb, hparent.trans hnone⟩
  · obtain ⟨a, -, ha, hparent, -⟩ := hback i b hb
    obtain ⟨p, hp, hap⟩ := hs.arena.parent i a ha hi
    exact ⟨p, hp, hparent.trans hap⟩
  · obtain ⟨a, ha, hne⟩ := hs.base
    obtain ⟨b, extra, hb, -, hcontexts, -⟩ := h.frame _ a ha
    refine ⟨b, hb, ?_⟩
    rw [hcontexts]
    exact List.append_ne_nil_of_right_ne_nil _ hne
  · obtain ⟨a, extra, ha, -, hcontexts, hlt⟩ := hback i b hb
    rw [hcontexts] at hc
    rcases List.mem_append.mp hc with hc | hc
    · exact hlt c hc
    · exact Nat.lt_of_lt_of_le (hs.contexts i a ha c hc) hgrows

/-- Putting an element on a stack. -/
theorem push (hs : s.Sound) {t : Scopes} (hc : c < s.drawing.size)
    (h : s.scopes.push f c = .ok t) : Session.Sound { s with scopes := t } := by
  have hstacked : s.scopes.Restacked s.drawing.size t := Scopes.restacked_push hc h
  exact hs.of_restacked hstacked (Nat.le_refl _) hs.tree hs.strays

/-- A fresh frame below a live one. -/
theorem openFrame (hs : s.Sound) (hf : s.scopes.Live f) :
    Session.Sound { s with scopes := (s.scopes.openFrame f).2 } := by
  have hold : ∀ (i : FrameId) (a : Frame), s.scopes.frames[i]? = some a →
      (s.scopes.frames.push (.fresh f))[i]? = some a := by
    intro i a ha
    obtain ⟨hi, rfl⟩ := Array.getElem?_eq_some_iff.mp ha
    exact Array.getElem?_push_lt hi
  have hcases : ∀ (i : FrameId) (b : Frame), (s.scopes.frames.push (.fresh f))[i]? = some b →
      s.scopes.frames[i]? = some b ∨ i = s.scopes.frames.size ∧ b = .fresh f := by
    intro i b hb
    rw [Array.getElem?_push] at hb
    split at hb
    · rename_i hi
      exact .inr ⟨hi, (Option.some.inj hb).symm⟩
    · exact .inl hb
  -- the new frame has a parent and no contexts, the others are as before
  refine ⟨⟨?_, fun i b hb hi => ?_⟩, ?_, fun i b hb c hc => ?_, hs.tree, hs.strays⟩
  · obtain ⟨a, ha, hnone⟩ := hs.arena.root_parent
    exact ⟨a, hold _ a ha, hnone⟩
  · rcases hcases i b hb with hb | ⟨rfl, rfl⟩
    · exact hs.arena.parent i b hb hi
    · exact ⟨f, hf, rfl⟩
  · obtain ⟨a, ha, hne⟩ := hs.base
    exact ⟨a, hold _ a ha, hne⟩
  · rcases hcases i b hb with hb | ⟨rfl, rfl⟩
    · exact hs.contexts i b hb c hc
    · exact absurd hc List.not_mem_nil

/-- A write that finds its element. -/
theorem drawn (hs : s.Sound) {d : Drawing} (hc : c < s.drawing.size)
    (hgrows : s.drawing.size ≤ d.size) (htree : d.IsTree) : (s.drawn c d).Sound where
  arena := hs.arena
  base := hs.base
  contexts := fun i a ha c' hc' => Nat.lt_of_lt_of_le (hs.contexts i a ha c' hc') hgrows
  tree := htree
  strays := (if_pos (Nat.lt_of_lt_of_le hc hgrows)).trans hs.strays

end Session.Sound

/-- **Effects keep a session sound**, and on a sound session they fail through the program
    and its data only. -/
theorem Effect.sound {n : Nat} {f : FrameId} {s s' : Session} {o : Option Fault}
    (h : Effect n f s o s') (hf : s.scopes.Live f) (hs : s.Sound) :
    s'.Sound ∧ ∀ e, o = some e → e.DataDependent := by
  have hnone : ∀ e : Fault, none = some e → e.DataDependent := fun _ he => by cases he
  induction h with
  | idle => exact ⟨hs, hnone⟩
  | fault cause =>
    refine ⟨hs, fun e he => ?_⟩
    cases he
    exact hs.dataDependent_of_raises hf cause
  | seq first _ ih₁ ih₂ =>
    obtain ⟨hs₁, -⟩ := ih₁ hf hs
    exact ih₂ (first.live hf) hs₁
  | assign bound =>
    have hres := (Effect.assign (n := 0) bound).residue
    exact ⟨hs.of_restacked hres.restacked (Nat.le_refl _) hs.tree hs.strays, hnone⟩
  | append shape spot =>
    have hc := hs.lt_of_reaches spot.reaches
    have hgrows := (Effect.append shape spot).residue.grows
    exact ⟨hs.drawn hc hgrows (hs.tree.append hc _), hnone⟩
  | setAttribute known value own =>
    have hgrows := (Effect.setAttribute (f := 0) known value own).residue.grows
    exact ⟨hs.drawn own.2 hgrows (hs.tree.setAttribute ..), hnone⟩
  | setStyle name value reach =>
    have hgrows := (Effect.setStyle name value reach).residue.grows
    exact ⟨hs.drawn (hs.lt_of_reaches reach) hgrows (hs.tree.setStyle ..), hnone⟩
  | setText content made =>
    have hgrows := (Effect.setText (f := 0) content made).residue.grows
    exact ⟨hs.drawn made.own.2 hgrows (hs.tree.setText ..), hnone⟩
  | inContext made push body pop ih =>
    -- the body runs with one context more, which is taken off again
    have hlive := Scopes.live_of_top (Scopes.top_of_push push)
    obtain ⟨hs₁, -⟩ := ih hlive (hs.push made.own.2 push)
    have hres := (Effect.inContext made push body pop).residue
    exact ⟨hs.of_restacked hres.restacked hres.grows hs₁.tree hs₁.strays, hnone⟩
  | faultInContext made push _ ih =>
    have hlive := Scopes.live_of_top (Scopes.top_of_push push)
    exact ih hlive (hs.push made.own.2 push)
  | inFrame live body ih =>
    obtain ⟨hs₁, hfault⟩ := ih (Scopes.live_openFrame ..) (hs.openFrame live)
    have hres := (Effect.inFrame live body).residue
    exact ⟨hs.of_restacked hres.restacked hres.grows hs₁.tree hs₁.strays, hfault⟩
  | nested body ih =>
    obtain ⟨hs₁, hfault⟩ := ih hf ⟨hs.arena, hs.base, hs.contexts, hs.tree, hs.strays⟩
    exact ⟨⟨hs₁.arena, hs₁.base, hs₁.contexts, hs₁.tree, hs₁.strays⟩, hfault⟩

/-! ### Calls -/

namespace Session

/-- At its start a session has one frame, which draws into the root. -/
theorem eq_of_frame_start {table : Table} {d : Drawing} {i : FrameId} {a : Frame}
    (h : (start table d).scopes.frames[i]? = some a) :
    i = Scopes.root ∧ a = ⟨some table, [], [Drawing.root], none⟩ := by
  have hframes : (start table d).scopes.frames
      = #[⟨some table, [], [Drawing.root], none⟩] := rfl
  rw [hframes] at h
  obtain ⟨hi, rfl⟩ := Array.getElem?_eq_some_iff.mp h
  obtain rfl : i = 0 := Nat.lt_one_iff.mp hi
  exact ⟨rfl, rfl⟩

/-- **A session starts sound** on every drawing that is a tree. -/
theorem sound_start (table : Table) {d : Drawing} (hd : d.IsTree) : (start table d).Sound := by
  refine ⟨⟨⟨_, rfl, rfl⟩, fun i a ha hi => ?_⟩, ⟨_, rfl, List.cons_ne_nil _ _⟩, ?_, hd, rfl⟩
  · exact absurd (eq_of_frame_start ha).1 hi
  · intro i a ha c hc
    obtain ⟨-, rfl⟩ := eq_of_frame_start ha
    obtain rfl := List.mem_singleton.mp hc
    exact hd.size_pos

/-- A call keeps a session sound, and fails through its program and the data only. -/
theorem Sound.call {s : Session} (hs : s.Sound) (limit : Nat) (call : Call) :
    ((call.action limit).run s).2.Sound ∧
      ∀ e, ((call.action limit).run s).1 = .error e → e.DataDependent := by
  have he : Action.HasEffect (call.action limit) s.drawing.size Scopes.root s :=
    call.action_keepsTo limit _ s ⟨hs.live_root, Nat.le_refl _⟩
  obtain ⟨hsound, hfault⟩ := Effect.sound he hs.live_root hs
  refine ⟨hsound, fun e hr => hfault e ?_⟩
  rw [hr]
  rfl

/-- Sessions stay sound, whatever is called. -/
theorem Sound.after {s : Session} (hs : s.Sound) (limit : Nat) (calls : List Call) :
    (s.after limit calls).Sound := by
  induction calls generalizing s with
  | nil => exact hs
  | cons call rest ih => exact ih (hs.call limit call).1

/-- **The drawing of a session is a tree with nothing lost.**  After any calls on a session
    that was started on a canvas, whether they ended well or failed, the drawing is a tree,
    and its text has the start tag of every element once. -/
theorem after_writtenOnce (limit : Nat) (table : Table) (width height : Float)
    (calls : List Call) :
    let d := ((start table (.canvas width height)).after limit calls).drawing
    d.IsTree ∧ d.WrittenOnce := by
  have hs := (sound_start table (Drawing.isTree_canvas width height)).after limit calls
  exact ⟨hs.tree, hs.tree.writtenOnce⟩

/-- **Only the program and its data make a call fail.**  After any calls on a session that
    was started on a canvas, the next one ends well or fails with one of the faults of
    `Fault.DataDependent`, and everything that it wrote was written to an element. -/
theorem call_outcome (limit : Nat) (table : Table) (width height : Float) (calls : List Call)
    (call : Call) :
    let out := (call.action limit).run ((start table (.canvas width height)).after limit calls)
    ((∃ v, out.1 = .ok v) ∨ ∃ e, out.1 = .error e ∧ e.DataDependent) ∧ out.2.strays = [] := by
  intro out
  have hs := (sound_start table (Drawing.isTree_canvas width height)).after limit calls
  obtain ⟨hsound, hfault⟩ := hs.call limit call
  refine ⟨?_, hsound.strays⟩
  cases hr : out.1 with
  | ok v => exact .inl ⟨v, rfl⟩
  | error e => exact .inr ⟨e, rfl, hfault e hr⟩

/-- Drawing in a context that is no element goes astray. -/
example : ((do Action.push Scopes.root 7; Step.color .fill "red" Scopes.root).run
    Session.blank).2.strays = [7] := rfl

end Session

end BlockChart
