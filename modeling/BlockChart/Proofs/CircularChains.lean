import BlockChart.Proofs.InnermostContext
import Mathlib.Data.List.Perm.Subperm

namespace BlockChart.Scopes

/-!
# Circular chains

A handle is a place in the arena, and opening a frame does not ask whether its parent is there.
A handle that is kept after its frame was released may so become the parent of the frame that
gets its place, or of one below it, and a search along such a chain never ends.  This is the only
way: as long as no frame is opened below a handle from which the links lead to the place that the
frame gets, no chain comes back to itself, and every search ends.

* `hasParent_apply` — the links that an operation makes;
* `transGen_openFrame` and `acyclic_openFrame_iff` — when opening a frame closes a loop;
* `Acyclic.search_ends` — without loops a search answers or leads out of the arena;
* `after_acyclic_iff` — both, along a sequence of operations;
* `after_crossedHandles` — two handles of released frames that close a loop.
-/

/-! ### Links -/

variable {s t : Scopes} {f g p : FrameId}

/-- A change to one frame that leaves its parent alone makes no link. -/
theorem hasParent_of_modify {change : Frame → Frame} (hmod : s.modify f change = .ok t)
    (hparent : ∀ a, (change a).parent = a.parent) (h : t.HasParent g p) : s.HasParent g p := by
  obtain ⟨b, hb, hbp⟩ := h
  obtain ⟨a, ha, rfl | rfl⟩ := exists_frame_of_modify hmod hb
  · exact ⟨b, ha, hbp⟩
  · exact ⟨a, ha, (hparent a).symm.trans hbp⟩

/-- The links after a frame was opened: those from before, and its own. -/
theorem hasParent_openFrame_iff {parent : FrameId} :
    (s.openFrame parent).2.HasParent g p ↔ s.HasParent g p ∨ g = s.depth ∧ p = parent := by
  unfold HasParent depth
  rw [frames_openFrame]
  by_cases hg : g = s.frames.size
  · subst hg
    simp [Frame.fresh, eq_comm]
  · simp [hg]

/-- **Only opening a frame makes a link.** -/
theorem hasParent_apply {op : Operation} (h : (op.apply s).HasParent g p) :
    s.HasParent g p ∨ g = s.depth ∧ op = .openFrame p := by
  rcases op.apply_cases s with
    ⟨parent, rfl⟩ | ⟨f, rfl⟩ | hsame | ⟨f, change, hmod, hparent, -⟩
  · rcases hasParent_openFrame_iff.mp h with hold | ⟨rfl, rfl⟩
    · exact .inl hold
    · exact .inr ⟨rfl, rfl⟩
  · obtain ⟨a, ha, hap⟩ := h
    exact .inl ⟨a, frame_of_release ha, hap⟩
  · exact .inl (hsame ▸ h)
  · exact .inl (hasParent_of_modify hmod hparent h)

/-! ### Loops -/

/-- A new link adds only chains that go through it. -/
theorem transGen_openFrame {parent : FrameId}
    (h : Relation.TransGen (s.openFrame parent).2.HasParent f g) :
    Relation.TransGen s.HasParent f g ∨ s.OnChain f s.depth ∧ s.OnChain parent g := by
  induction h with
  | single hstep =>
    -- the new frame has the one new link, from it to its parent
    rcases hasParent_openFrame_iff.mp hstep with hold | ⟨rfl, rfl⟩
    · exact .inl (.single hold)
    · exact .inr ⟨.refl, .refl⟩
  | tail _ hstep ih =>
    -- a chain that uses the new link goes up to the new frame first, and on from its parent
    rcases hasParent_openFrame_iff.mp hstep with hold | ⟨rfl, rfl⟩
    · rcases ih with hchain | ⟨hdown, hup⟩
      · exact .inl (hchain.tail hold)
      · exact .inr ⟨hdown, hup.tail hold⟩
    · rcases ih with hchain | ⟨hdown, -⟩
      · exact .inr ⟨hchain.to_reflTransGen, .refl⟩
      · exact .inr ⟨hdown, .refl⟩

/-- **Opening a frame closes a loop** if the links from its parent lead to the place that the
    frame gets. -/
theorem acyclic_openFrame_iff (h : s.Acyclic) {parent : FrameId} :
    (s.openFrame parent).2.Acyclic ↔ ¬ s.OnChain parent s.depth := by
  constructor
  · intro hnew hback
    have hkept : (s.openFrame parent).2.OnChain parent s.depth :=
      Relation.ReflTransGen.mono (fun _ _ hstep => hasParent_openFrame_iff.mpr (.inl hstep))
        _ _ hback
    exact hnew s.depth (.head' (hasParent_openFrame_iff.mpr (.inr ⟨rfl, rfl⟩)) hkept)
  · intro hopen f hloop
    rcases transGen_openFrame hloop with hold | ⟨hdown, hup⟩
    · exact h f hold
    · -- the loop goes through the new link, so the rest of it leads back to the new frame
      exact hopen (hup.trans hdown)

/-- **No frame is opened into a loop**: when a frame is opened, the links from its parent do not
    lead to the place that it gets. -/
def ClosesNoLoop (s : Scopes) : List Operation → Prop
  | [] => True
  | op :: rest =>
    (∀ parent, op = .openFrame parent → ¬ s.OnChain parent s.depth) ∧
      (op.apply s).ClosesNoLoop rest

namespace Acyclic

/-- **One operation** leaves an arena without loops, unless it opens a frame into one. -/
theorem apply_iff (h : s.Acyclic) (op : Operation) :
    (op.apply s).Acyclic ↔ ∀ parent, op = .openFrame parent → ¬ s.OnChain parent s.depth := by
  by_cases hopen : ∃ parent, op = .openFrame parent
  · obtain ⟨parent, rfl⟩ := hopen
    simp only [Operation.apply, acyclic_openFrame_iff h, Operation.openFrame.injEq, forall_eq']
  · have hlinks : ∀ g p, (op.apply s).HasParent g p → s.HasParent g p := fun g p hgp =>
      (hasParent_apply hgp).resolve_right fun hnew => hopen ⟨p, hnew.2⟩
    exact iff_of_true (fun f hloop => h f (Relation.TransGen.mono hlinks f f hloop))
      fun parent hop => absurd ⟨parent, hop⟩ hopen

/-- **A sequence of operations** never makes a loop exactly if it opens no frame into one. -/
theorem after_iff (h : s.Acyclic) (ops : List Operation) :
    (∀ before, before <+: ops → (s.after before).Acyclic) ↔ s.ClosesNoLoop ops := by
  induction ops generalizing s with
  | nil =>
    refine iff_of_true (fun before hbefore => ?_) trivial
    rw [List.prefix_nil.mp hbefore]
    exact h
  | cons op rest ih =>
    rw [ClosesNoLoop, ← h.apply_iff op]
    constructor
    · intro hever
      -- the first step is the shortest beginning that can close a loop
      have hstep : (op.apply s).Acyclic := hever [op] ⟨rest, rfl⟩
      refine ⟨hstep, (ih hstep).mp fun before hbefore => ?_⟩
      exact hever (op :: before) (List.cons_prefix_cons.mpr ⟨rfl, hbefore⟩)
    · rintro ⟨hstep, hrest⟩ before hbefore
      cases before with
      | nil => exact h
      | cons op' before =>
        obtain ⟨rfl, htail⟩ := List.cons_prefix_cons.mp hbefore
        exact (ih hstep).mpr hrest before htail

end Acyclic

/-! ### Searches end -/

section

variable {α : Type} {pick : Frame → Option α}

/-- **The way up leads out of the arena**, past frames in which there is nothing to pick. -/
def Leaves (s : Scopes) (pick : Frame → Option α) (f : FrameId) : Prop :=
  ∃ g, s.OpenTo pick f g ∧ ¬ s.Live g

/-- The frames that a search came through on its way up to `f`. -/
structure Passed (s : Scopes) (seen : List FrameId) (f : FrameId) : Prop where
  distinct : seen.Nodup
  live : ∀ g ∈ seen, s.Live g
  below : ∀ g ∈ seen, Relation.TransGen s.HasParent g f

namespace Acyclic

/-- Without loops a search does not come back to a frame. -/
theorem distinct_cons {seen : List FrameId} (h : s.Acyclic) (hseen : s.Passed seen f) :
    (f :: seen).Nodup :=
  List.nodup_cons.mpr ⟨fun hmem => h f (hseen.below f hmem), hseen.distinct⟩

/-- So it has seen less than all frames when it comes to the next one. -/
theorem length_lt {seen : List FrameId} (h : s.Acyclic) (hseen : s.Passed seen f)
    (hf : s.Live f) : seen.length < s.frames.size := by
  have hsub : f :: seen ⊆ List.range s.frames.size := fun g hg =>
    List.mem_range.mpr (List.forall_mem_cons.mpr ⟨hf, hseen.live⟩ g hg)
  have hle := (List.subperm_of_subset (h.distinct_cons hseen) hsub).length_le
  rwa [List.length_range] at hle

/-- **A search ends**: there are no more rounds to go than frames that it has not seen. -/
theorem search_ends {seen : List FrameId} {rounds : Nat} (h : s.Acyclic)
    (hseen : s.Passed seen f) (hrounds : s.frames.size ≤ seen.length + rounds) :
    (∃ r, s.search pick rounds f = .ok r) ∨ s.Leaves pick f := by
  -- with every round the search has seen one frame more
  induction rounds generalizing f seen with
  | zero =>
    refine .inr ⟨f, h.openTo_self pick f, fun hf => ?_⟩
    exact Nat.not_le_of_lt (h.length_lt hseen hf) hrounds
  | succ rounds ih =>
    cases ha : s.frames[f]? with
    | none =>
      exact .inr ⟨f, h.openTo_self pick f, Nat.not_lt_of_le (Array.getElem?_eq_none_iff.mp ha)⟩
    | some a =>
      simp only [search, ha]
      cases hx : pick a with
      | some x => exact .inl ⟨_, rfl⟩
      | none =>
        cases hparent : a.parent with
        | none => exact .inl ⟨_, rfl⟩
        | some p =>
          have hlink : s.HasParent f p := (hasParent_of_frame ha).mpr hparent
          have hlive : s.Live f := (Array.getElem?_eq_some_iff.mp ha).1
          have hpassed : s.Passed (f :: seen) p :=
            ⟨h.distinct_cons hseen, List.forall_mem_cons.mpr ⟨hlive, hseen.live⟩,
              List.forall_mem_cons.mpr ⟨.single hlink, fun g hg => (hseen.below g hg).tail hlink⟩⟩
          have hleft : s.frames.size ≤ (f :: seen).length + rounds := by
            rw [List.length_cons]
            omega
          rcases ih hpassed hleft with hanswer | ⟨g, hopen, hg⟩
          · exact .inl hanswer
          · exact .inr ⟨g, hopen.head ha hx hparent, hg⟩

/-- **What comes of a search** in an arena without loops. -/
theorem find_cases (h : s.Acyclic) (pick : Frame → Option α) (f : FrameId) :
    s.find pick f = .ok none ∨ (∃ owner x, s.find pick f = .ok (some (owner, x))) ∨
      s.find pick f = .error .deadFrame ∧ s.Leaves pick f := by
  have hstart : s.Passed [] f := ⟨.nil, by simp, by simp⟩
  cases hfind : s.find pick f with
  | ok r =>
    cases r with
    | none => exact .inl rfl
    | some found => exact .inr (.inl ⟨found.1, found.2, rfl⟩)
  | error e =>
    refine .inr (.inr ⟨by rw [eq_deadFrame_of_find hfind], ?_⟩)
    -- there are as many rounds as frames, so a search that fails has left the arena
    rcases h.search_ends hstart (Nat.le_add_left _ _) with ⟨r, hr⟩ | hleaves
    · cases hfind.symm.trans hr
    · exact hleaves

end Acyclic

end

/-- **What the look-ups of a frame come to**: each answers, be it that there is nothing to be
    found, or it leads out of the arena. -/
structure AnswersOrLeaves (s : Scopes) (f : FrameId) : Prop where
  top : (∃ c, s.top f = .ok c) ∨ s.top f = .error .emptyContextStack ∨
    s.top f = .error .deadFrame ∧ s.Leaves (·.contexts.head?) f
  pop : (∃ c t, s.pop f = .ok (c, t)) ∨ s.pop f = .error .emptyContextStack ∨
    s.pop f = .error .deadFrame ∧ s.Leaves (·.contexts.head?) f
  lookup : ∀ name, (∃ v, s.lookup f name = .ok v) ∨
    s.lookup f name = .error (.undefinedVariable name) ∨
    s.lookup f name = .error .deadFrame ∧ s.Leaves (bound (lowerCase name)) f
  table : (∃ t, s.table f = .ok t) ∨ s.table f = .error .deadFrame ∧ s.Leaves (·.table) f

/-- Without circles a search answers or leaves the arena, whatever it is for. -/
theorem Acyclic.answersOrLeaves (h : s.Acyclic) (f : FrameId) : s.AnswersOrLeaves f where
  top := by
    rcases h.find_cases (·.contexts.head?) f with hnone | ⟨owner, c, hsome⟩ | ⟨hdead, hleaves⟩
    · exact .inr (.inl (top_pop_of_find_none hnone).1)
    · exact .inl ⟨c, (takesOff_of_find hsome).1⟩
    · exact .inr (.inr ⟨by rw [Scopes.top, hdead]; rfl, hleaves⟩)
  pop := by
    rcases h.find_cases (·.contexts.head?) f with hnone | ⟨owner, c, hsome⟩ | ⟨hdead, hleaves⟩
    · exact .inr (.inl (top_pop_of_find_none hnone).2)
    · obtain ⟨-, t, ht, -⟩ := takesOff_of_find hsome
      exact .inl ⟨c, t, ht⟩
    · exact .inr (.inr ⟨by rw [Scopes.pop, hdead]; rfl, hleaves⟩)
  lookup := fun name => by
    rw [lookup_eq]
    rcases h.find_cases (bound (lowerCase name)) f with
      hnone | ⟨owner, v, hsome⟩ | ⟨hdead, hleaves⟩
    · exact .inr (.inl (by rw [hnone]))
    · exact .inl ⟨v, by rw [hsome]⟩
    · exact .inr (.inr ⟨by rw [hdead], hleaves⟩)
  table := by
    unfold Scopes.table
    rcases h.find_cases (·.table) f with hnone | ⟨owner, t, hsome⟩ | ⟨hdead, hleaves⟩
    · exact .inl ⟨.empty, by rw [hnone]; rfl⟩
    · exact .inl ⟨t, by rw [hsome]; rfl⟩
    · exact .inr ⟨by rw [hdead]; rfl, hleaves⟩

/-! ### Handles of released frames -/

namespace Operation

/-- The handle is known, and the root is not released. -/
def Known (known : List FrameId) : Operation → Prop
  | release f => f ∈ known ∧ f ≠ root
  | op => op.frame ∈ known

/-- The handles that are known after an operation. -/
def handles (s : Scopes) (known : List FrameId) : Operation → List FrameId
  | openFrame parent => (s.openFrame parent).1 :: known
  | _ => known

end Operation

/-- **Every operation is given a known handle**: one of those at the start, or one that was
    handed out since, whether or not its frame is still there. -/
def Recalls (s : Scopes) (known : List FrameId) : List Operation → Prop
  | [] => True
  | op :: rest => op.Known known ∧ (op.apply s).Recalls (op.handles s known) rest

instance (known : List FrameId) (op : Operation) : Decidable (op.Known known) :=
  match op with
  | .release f => inferInstanceAs (Decidable (f ∈ known ∧ f ≠ root))
  | .openFrame f | .push f _ | .pop f | .assign f _ _ => inferInstanceAs (Decidable (f ∈ known))

instance decidableRecalls (s : Scopes) (known : List FrameId) :
    (ops : List Operation) → Decidable (s.Recalls known ops)
  | [] => .isTrue trivial
  | op :: rest =>
    have := decidableRecalls (op.apply s) (op.handles s known) rest
    inferInstanceAs (Decidable (op.Known known ∧ (op.apply s).Recalls (op.handles s known) rest))

/-- **When chains come back to themselves.**  Along any operations on a new arena, whatever
    handles they are given, no frame is ever its own ancestor exactly if no frame is opened below
    a handle from which the links lead to the place that the frame gets.  Then every look-up,
    wherever it starts, answers or leads out of the arena. -/
theorem after_acyclic_iff (table : Table) (ops : List Operation) :
    ((∀ before, before <+: ops → ((new table).after before).Acyclic) ↔
        (new table).ClosesNoLoop ops) ∧
      ((new table).ClosesNoLoop ops → ∀ f, ((new table).after ops).AnswersOrLeaves f) := by
  have hever := (rooted_new table).arena.acyclic.after_iff ops
  refine ⟨hever, fun hops f => ?_⟩
  exact (hever.mpr hops ops List.prefix_rfl).answersOrLeaves f

/-- Two frames are opened, one below the other, and both are released.  The handle of the lower
    one is the parent of the next frame, which gets the place of the upper one. -/
def danglingParent : List Operation :=
  [.openFrame 0, .openFrame 1, .release 1, .openFrame 2]

/-- The parent is not there, so no loop is closed; looking for a context leads out of the
    arena. -/
theorem after_acyclic_iff_danglingParent :
    (new letterTable).Recalls [root] danglingParent ∧
      (new letterTable).ClosesNoLoop danglingParent ∧
      ((new letterTable).after danglingParent).Acyclic ∧
      ((new letterTable).after danglingParent).top 1 = .error .deadFrame ∧
      ((new letterTable).after danglingParent).Leaves (·.contexts.head?) 1 := by
  have hknown : (new letterTable).Recalls [root] danglingParent := by decide
  have hnew := rooted_new letterTable
  have hone := hnew.openFrame (f := root) (by decide)
  have hcloses : (new letterTable).ClosesNoLoop danglingParent := by
    simp only [danglingParent, ClosesNoLoop, Operation.openFrame.injEq, forall_eq', reduceCtorEq,
      false_imp_iff, implies_true, true_and, and_true]
    refine ⟨fun hback => ?_, fun hback => ?_, fun hback => ?_⟩
    · exact absurd (hnew.arena.le_of_onChain hback) (by decide)
    · exact absurd (hone.arena.le_of_onChain hback) (by decide)
    · -- there is no frame 2 whose link could be followed
      rcases Relation.ReflTransGen.cases_head hback with heq | ⟨p, ⟨a, ha, -⟩, -⟩
      · exact absurd heq (by decide)
      · cases ha
  obtain ⟨hever, hends⟩ := after_acyclic_iff letterTable danglingParent
  have hdead : ((new letterTable).after danglingParent).top 1 = .error .deadFrame := rfl
  refine ⟨hknown, hcloses, hever.mpr hcloses _ List.prefix_rfl, hdead, ?_⟩
  rcases (hends hcloses 1).top with ⟨c, hc⟩ | hempty | ⟨-, hleaves⟩
  · cases hc
  · cases hempty
  · exact hleaves

/-- Two frames are opened and released.  Their handles are the parents of the next two, each of
    which gets the place of the other's parent. -/
def crossedHandles : List Operation :=
  [.openFrame 0, .openFrame 0, .release 1, .openFrame 2, .openFrame 1]

/-- A search never ends if everywhere on its chain it has to go on. -/
theorem search_eq_deadFrame {α : Type} {pick : Frame → Option α}
    (h : ∀ g, s.OnChain f g → ∃ a p, s.frames[g]? = some a ∧ pick a = none ∧ a.parent = some p)
    (rounds : Nat) : s.search pick rounds f = .error .deadFrame := by
  induction rounds generalizing f with
  | zero => rfl
  | succ rounds ih =>
    obtain ⟨a, p, ha, hx, hparent⟩ := h f .refl
    simp only [search, ha, hx, hparent]
    exact ih fun g hg => h g (.head ((hasParent_of_frame ha).mpr hparent) hg)

/-- **Known handles may close a loop**: each of the two frames is the parent of the other.  There
    is no context in them, and from neither does the way up lead out of the arena, so looking for
    a context goes on for ever. -/
theorem after_crossedHandles :
    (new letterTable).Recalls [root] crossedHandles ∧
      Relation.TransGen ((new letterTable).after crossedHandles).HasParent 1 1 ∧
      ¬ ((new letterTable).after crossedHandles).AnswersOrLeaves 1 ∧
      ∀ rounds, ((new letterTable).after crossedHandles).search (·.contexts.head?) rounds 1
        = .error .deadFrame := by
  have hknown : (new letterTable).Recalls [root] crossedHandles := by decide
  generalize hs : (new letterTable).after crossedHandles = s
  have hfirst : s.frames[1]? = some (.fresh 2) := hs ▸ rfl
  have hsecond : s.frames[2]? = some (.fresh 1) := hs ▸ rfl
  -- from either frame the chain leads to the other one, and never further
  have hchain : ∀ g, s.OnChain 1 g → g = 1 ∨ g = 2 := by
    intro g hg
    induction hg with
    | refl => exact .inl rfl
    | tail _ hstep ih =>
      rcases ih with rfl | rfl
      · exact .inr (Option.some.inj ((hasParent_of_frame hfirst).mp hstep)).symm
      · exact .inl (Option.some.inj ((hasParent_of_frame hsecond).mp hstep)).symm
  have hgoesOn : ∀ g, s.OnChain 1 g → ∃ a p, s.frames[g]? = some a ∧
      a.contexts.head? = none ∧ a.parent = some p := by
    intro g hg
    rcases hchain g hg with rfl | rfl
    · exact ⟨_, 2, hfirst, rfl, rfl⟩
    · exact ⟨_, 1, hsecond, rfl, rfl⟩
  have hnever := search_eq_deadFrame hgoesOn
  refine ⟨hknown, ?_, fun hends => ?_, hnever⟩
  · exact .head ⟨_, hfirst, rfl⟩ (.single ⟨_, hsecond, rfl⟩)
  · have hdead : s.top 1 = .error .deadFrame := by
      rw [top, find, hnever]
      rfl
    rcases hends.top with ⟨c, hc⟩ | hempty | ⟨-, g, hopen, hg⟩
    · cases hdead.symm.trans hc
    · cases hdead.symm.trans hempty
    · -- all frames on the chain are there
      obtain ⟨a, -, ha, -⟩ := hgoesOn g hopen.above
      exact hg (Array.getElem?_eq_some_iff.mp ha).1

end BlockChart.Scopes
