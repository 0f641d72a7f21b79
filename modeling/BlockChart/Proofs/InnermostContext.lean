import BlockChart.Proofs.VariableBinding

namespace BlockChart.Scopes

/-!
# The innermost drawing context

Looking at the innermost context and taking it off are two walks up the same chain.  Both stop
at the nearest stack that is not empty, and both complain if all are empty.

* `WellFormed.find_eq_none_iff` and `WellFormed.find_eq_some_iff` — the two answers of a search,
  by the frames on its chain;
* `NoContext` says that all stacks on a chain are empty, `TakesOff` that one context goes and
  nothing else changes;
* `after_top_pop` — the law for drawing contexts.
-/

/-! ### The answers of a search -/

section

variable {α : Type} {pick : Frame → Option α} {s : Scopes} {f g owner : FrameId} {a : Frame} {x : α}

/-- One step up the chain. -/
theorem onChain_iff (ha : s.frames[f]? = some a) :
    s.OnChain f g ↔ g = f ∨ ∃ p, a.parent = some p ∧ s.OnChain p g := by
  simp only [OnChain, Relation.ReflTransGen.cases_head_iff (a := f), hasParent_of_frame ha,
    eq_comm (a := f)]

namespace WellFormed

/-- **A search finds nothing** if there is nothing to pick on the whole chain. -/
theorem find_eq_none_iff (h : s.WellFormed) (hf : s.Live f) :
    s.find pick f = .ok none ↔
      ∀ g, s.OnChain f g → ∀ b, s.frames[g]? = some b → pick b = none := by
  induction f using Nat.strongRecOn with
  | ind f ih =>
    obtain ⟨a, ha⟩ : ∃ a, s.frames[f]? = some a := ⟨_, Array.getElem?_eq_getElem hf⟩
    rw [h.find_of_frame pick ha]
    simp only [onChain_iff ha, or_imp, forall_and, forall_eq, ha, Option.some.injEq, forall_eq']
    -- the first frame decides, unless there is nothing to pick in it
    cases hpick : pick a with
    | some x => simp
    | none =>
      cases hup : a.parent with
      | none => simp
      | some p =>
        have hlt : p < f := h.lt_of_hasParent ((hasParent_of_frame ha).mpr hup)
        simp [ih p hlt (Nat.lt_trans hlt hf)]

/-- **A search finds** what is picked in the first frame where something is. -/
theorem find_eq_some_iff (h : s.WellFormed) (hf : s.Live f) :
    s.find pick f = .ok (some (owner, x)) ↔
      s.OpenTo pick f owner ∧ ∃ b, s.frames[owner]? = some b ∧ pick b = some x := by
  induction f using Nat.strongRecOn with
  | ind f ih =>
    obtain ⟨a, ha⟩ : ∃ a, s.frames[f]? = some a := ⟨_, Array.getElem?_eq_getElem hf⟩
    rw [h.find_of_frame pick ha, h.openTo_iff ha]
    cases hpick : pick a with
    | some y =>
      constructor
      · intro heq
        cases heq
        exact ⟨.inl rfl, a, ha, hpick⟩
      · rintro ⟨rfl | ⟨hnone, -⟩, b, hb, hx⟩
        · obtain rfl := Option.some.inj (ha.symm.trans hb)
          rw [hpick] at hx
          rw [Option.some.inj hx]
        · cases hnone
    | none =>
      -- the search goes on, so its answer does not come from `f`
      have hne : (∃ b, s.frames[owner]? = some b ∧ pick b = some x) → f ≠ owner := by
        rintro ⟨b, hb, hx⟩ rfl
        obtain rfl := Option.some.inj (ha.symm.trans hb)
        rw [hpick] at hx
        cases hx
      cases hup : a.parent with
      | none =>
        constructor
        · intro heq
          cases heq
        · rintro ⟨heq | ⟨-, p, hp, -⟩, hpicked⟩
          · exact absurd heq (hne hpicked)
          · cases hp
      | some p =>
        have hlt : p < f := h.lt_of_hasParent ((hasParent_of_frame ha).mpr hup)
        rw [ih p hlt (Nat.lt_trans hlt hf)]
        constructor
        · exact fun ⟨hopen, hpicked⟩ => ⟨.inr ⟨rfl, p, rfl, hopen⟩, hpicked⟩
        · rintro ⟨heq | ⟨-, q, hq, hopen⟩, hpicked⟩
          · exact absurd heq (hne hpicked)
          · cases hq
            exact ⟨hopen, hpicked⟩

end WellFormed

end

/-! ### Drawing contexts -/

/-- **There is no context**: the stacks of a frame and of all frames above it are empty. -/
def NoContext (s : Scopes) (f : FrameId) : Prop :=
  ∀ g, s.OnChain f g → ∀ a, s.frames[g]? = some a → a.contexts = []

/-- **Only one context goes**: `c` is taken off the stack of `owner`, and all else is the
    same. -/
structure TakesOff (s t : Scopes) (owner : FrameId) (c : ElementId) : Prop where
  size : t.frames.size = s.frames.size
  others : ∀ i ≠ owner, t.frames[i]? = s.frames[i]?
  own : ∃ a, s.frames[owner]? = some { a with contexts := c :: a.contexts } ∧
    t.frames[owner]? = some a

variable {s t : Scopes} {f owner : FrameId} {c : ElementId}

/-- Where all parents are there, finding no context means that there is none. -/
theorem WellFormed.find_eq_none_iff_noContext (h : s.WellFormed) (hf : s.Live f) :
    s.find (·.contexts.head?) f = .ok none ↔ s.NoContext f := by
  simp only [h.find_eq_none_iff hf, List.head?_eq_none_iff, NoContext]

/-- What is found goes from the stack where it was found, and from nowhere else. -/
theorem takesOff_of_find (hfind : s.find (·.contexts.head?) f = .ok (some (owner, c))) :
    s.top f = .ok c ∧ ∃ t, s.pop f = .ok (c, t) ∧ s.TakesOff t owner c := by
  obtain ⟨a, ha, hc⟩ := exists_frame_of_search hfind
  obtain ⟨htop, t, hpop, ht⟩ := top_pop_of_find (Array.getElem?_eq_some_iff.mp ha).1 hfind
  refine ⟨htop, t, hpop, size_modify ht, fun i hi => frames_modify_of_ne ht hi,
    { a with contexts := a.contexts.tail }, ?_, ?_⟩
  · rw [ha, List.cons_head?_tail hc]
  · rw [frames_modify_self ht, ha, Option.map_some]

/-- **Taking off what was put on** gives the arena back. -/
theorem pop_of_push (h : s.push f c = .ok t) : t.pop f = .ok (c, s) := by
  obtain ⟨hlive, -⟩ := modify_eq_ok_iff.mp h
  obtain ⟨a, ha⟩ : ∃ a, s.frames[f]? = some a := ⟨_, Array.getElem?_eq_getElem hlive⟩
  have hput := frames_modify_self h
  rw [ha, Option.map_some] at hput
  obtain ⟨u, hpop, hmod⟩ := pop_of_contexts hput rfl
  -- the arenas differ at `f` only, where the context is taken off again
  have hback : u.frames = s.frames := by
    refine Array.ext_getElem? fun i => ?_
    by_cases hi : i = f
    · subst hi
      rw [frames_modify_self hmod, hput, ha, Option.map_some, List.tail_cons]
    · rw [frames_modify_of_ne hmod hi, frames_modify_of_ne h hi]
  obtain rfl : u = s := congrArg Scopes.mk hback
  exact hpop

/-- **Both fail** if there is no context. -/
theorem WellFormed.noContext_iff (h : s.WellFormed) (hf : s.Live f) :
    (s.top f = .error .emptyContextStack ↔ s.NoContext f) ∧
      (s.pop f = .error .emptyContextStack ↔ s.NoContext f) := by
  rw [← h.find_eq_none_iff_noContext hf]
  rcases h.find_cases hf (·.contexts.head?) with hnone | ⟨owner, c, hsome, -⟩
  · obtain ⟨htop, hpop⟩ := top_pop_of_find_none hnone
    simp only [htop, hpop, hnone, and_self]
  · obtain ⟨htop, t, hpop, -⟩ := takesOff_of_find hsome
    simp [htop, hpop, hsome]

/-- **The law of drawing contexts.**  In the arena after any operations that are each given a
    frame which is there, looking at the innermost context of frame `f` and taking it off fail
    for want of one exactly if the stacks of `f` and of all frames above it are empty, and then
    nothing changes.  Otherwise both give the top of the nearest stack that is not empty; it is
    taken off there, and nothing else changes.  So a context that is put on comes off again, and
    the arena is what it was. -/
theorem after_top_pop (table : Table) (ops : List Operation) (hops : (new table).Admits ops)
    (f : FrameId) (hf : ((new table).after ops).Live f) :
    let s := (new table).after ops
    (s.top f = .error .emptyContextStack ↔ s.NoContext f) ∧
      (s.pop f = .error .emptyContextStack ↔ s.NoContext f) ∧
      (s.NoContext f → (Operation.pop f).apply s = s) ∧
      (¬ s.NoContext f → ∃ owner c t, s.OpenTo (·.contexts.head?) f owner ∧
        s.top f = .ok c ∧ s.pop f = .ok (c, t) ∧ s.TakesOff t owner c) ∧
      ∀ c, ∃ t, s.push f c = .ok t ∧ t.pop f = .ok (c, s) := by
  intro s
  have h : s.WellFormed := ((rooted_new table).after hops).arena
  obtain ⟨htop, hpop⟩ := h.noContext_iff hf
  refine ⟨htop, hpop, fun hnone => ?_, fun hsome => ?_, fun c => ?_⟩
  · show ((s.pop f).toOption.map Prod.snd).getD s = s
    rw [hpop.mpr hnone]
    rfl
  -- the search finds a context in some frame, since it is not true that there is none
  · rcases h.find_cases hf (·.contexts.head?) with hnone | ⟨owner, c, hfind, -⟩
    · exact absurd ((h.find_eq_none_iff_noContext hf).mp hnone) hsome
    · obtain ⟨hc, t, ht, hoff⟩ := takesOff_of_find hfind
      exact ⟨owner, c, t, ((h.find_eq_some_iff hf).mp hfind).1, hc, ht, hoff⟩
  · obtain ⟨t, ht⟩ : ∃ t, s.push f c = .ok t := ⟨_, modify_eq_ok_iff.mpr ⟨hf, rfl⟩⟩
    exact ⟨t, ht, pop_of_push ht⟩

/-- A context on the stack of the root, and two frames below it that have none. -/
def lentContext : List Operation :=
  [.push 0 7, .openFrame 0, .openFrame 1]

/-- The lower of the two frames takes the context off the stack of the root.  Then there is
    none, and it cannot take off another one. -/
theorem after_top_pop_lentContext :
    (new letterTable).Admits (lentContext ++ [.pop 2]) ∧
      (∃ t, ((new letterTable).after lentContext).pop 2 = .ok (7, t) ∧
        ((new letterTable).after lentContext).TakesOff t root 7) ∧
      ((new letterTable).after (lentContext ++ [.pop 2])).NoContext 2 ∧
      ((new letterTable).after (lentContext ++ [.pop 2])).pop 2 = .error .emptyContextStack := by
  have hops : (new letterTable).Admits lentContext := by decide
  have hops' : (new letterTable).Admits (lentContext ++ [.pop 2]) := by decide
  have h : ((new letterTable).after lentContext).WellFormed :=
    ((rooted_new letterTable).after hops).arena
  obtain ⟨htop, -, -, hsome, -⟩ := after_top_pop letterTable lentContext hops 2 (by decide)
  obtain ⟨htop', hpop', -⟩ := after_top_pop letterTable _ hops' 2 (by decide)
  have hhas : ¬ ((new letterTable).after lentContext).NoContext 2 :=
    fun hnone => by cases htop.mpr hnone
  have hnone := htop'.mp rfl
  obtain ⟨owner, c, t, hopen, hc, ht, hoff⟩ := hsome hhas
  obtain rfl : c = 7 := (Except.ok.inj hc).symm
  -- the stacks of the two frames are empty, so the context is not theirs
  obtain ⟨a, ha, -⟩ := hoff.own
  have hstack := congrArg (Option.map Frame.contexts) ha
  obtain rfl : owner = root := by
    match owner, h.le_of_onChain hopen.above, hstack with
    | 0, _, _ => rfl
    | 1, _, hstack => cases hstack
    | 2, _, hstack => cases hstack
  exact ⟨hops', ⟨t, ht, hoff⟩, hnone, hpop'.mpr hnone⟩

end BlockChart.Scopes
