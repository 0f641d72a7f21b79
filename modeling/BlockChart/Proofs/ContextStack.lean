import BlockChart.Proofs.ProgramEffect

namespace BlockChart

/-!
# Scopes and context stacks under evaluation

What a node, alone or with its chain, does to the scopes that it runs in:

* `Program.restores_scopes` — a node that ends well gives back every frame with its
  contexts, and binds variables in its own frame only; no bracket on the way takes off
  another context than it put on;
* `Program.failure_residue` — a node that fails leaves all frames and the depth as
  they were, but for contexts of its own that it had put on the stack of its frame.

Nothing is assumed of the arena but that the frame is live: the brackets work on the
stack of one frame, and never follow a chain of parents to take something off.
-/

/-! ### The two outcomes -/

/-- `t` has the frames of `s`, which differ in nothing but the variables of `f`. -/
structure Scopes.SameButVariables (f : FrameId) (s t : Scopes) : Prop where
  depth : t.depth = s.depth
  frame : ∀ (i : FrameId) (a b : Frame), s.frames[i]? = some a → t.frames[i]? = some b →
    b.contexts = a.contexts ∧ b.parent = a.parent ∧ b.table = a.table ∧
      (i ≠ f → b.bindings = a.bindings)

/-- `t` is what a fault in frame `f` may leave of `s`: frames, depth and other frames
    are as before, and above the contexts of `f` there are only elements that were made
    in between. -/
structure Session.AbandonedIn (f : FrameId) (s t : Session) : Prop where
  frames : t.scopes.depth = s.scopes.depth
  depth : t.depth = s.depth
  others : ∀ i ≠ f, t.scopes.frames[i]? = s.scopes.frames[i]?
  own : ∀ a b : Frame, s.scopes.frames[f]? = some a → t.scopes.frames[f]? = some b →
    b.parent = a.parent ∧ b.table = a.table ∧
      ∃ extra, b.contexts = extra ++ a.contexts ∧
        ∀ c ∈ extra, s.drawing.size ≤ c ∧ c < t.drawing.size

namespace Residue

variable {n : Nat} {f : FrameId} {s s' : Session}

/-- An effect that ended well. -/
theorem sameButVariables (h : Residue n f s none s') :
    Scopes.SameButVariables f s.scopes s'.scopes := by
  refine ⟨h.size, fun i a b ha hb => ?_⟩
  by_cases hi : i = f
  · subst hi
    obtain ⟨b', hb', hab⟩ := h.own_of_none ha
    obtain rfl : b' = b := Option.some.inj (hb'.symm.trans hb)
    exact ⟨hab.contexts, hab.parent, hab.table, fun hne => absurd rfl hne⟩
  · rw [h.others i hi, ha] at hb
    obtain rfl := Option.some.inj hb
    exact ⟨rfl, rfl, rfl, fun _ => rfl⟩

/-- An effect that ended in a fault. -/
theorem abandonedIn {e : Fault} (h : Residue s.drawing.size f s (some e) s') :
    s.AbandonedIn f s' := by
  refine ⟨h.size, h.depth, h.others, fun a b ha hb => ?_⟩
  obtain ⟨b', extra, hb', hab, hown, -⟩ := h.own a ha
  obtain rfl : b' = b := Option.some.inj (hb'.symm.trans hb)
  exact ⟨hab.parent, hab.table, extra, hab.contexts, hown⟩

end Residue

/-- The residue of an action that keeps to the effects of a live frame. -/
theorem Action.KeepsTo.residue {α : Type} {a : Action α} {f : FrameId} {s s' : Session}
    {r : Except Fault α} (h : Action.KeepsTo f a) (hf : s.scopes.Live f)
    (hrun : a.run s = (r, s')) : Residue s.drawing.size f s (Fault.of? r) s' := by
  have he := h s.drawing.size s ⟨hf, Nat.le_refl _⟩
  unfold Action.HasEffect at he
  rw [hrun] at he
  exact he.residue

/-- A node alone or with its chain has a residue. -/
theorem Program.residue {limit : Nat} {p : Program} {f : FrameId} {s s' : Session}
    {r : Except Fault Value} (hf : s.scopes.Live f)
    (hrun : (p.eval limit f).run s = (r, s') ∨ (p.runChain limit f).run s = (r, s')) :
    Residue s.drawing.size f s (Fault.of? r) s' := by
  rcases hrun with hrun | hrun
  · exact (p.eval_keepsTo limit f).residue hf hrun
  · exact (p.runChain_keepsTo limit f).residue hf hrun

/-! ### Ending well -/

/-- **Scopes are given back.**  A node that ends well, alone or with its chain, leaves
    the number of frames and of every frame the contexts, the parent and the table as
    they were, of every frame but its own the variables too, and the depth.  However it
    ends, every bracket that it closed took off the context that it had put on. -/
theorem Program.restores_scopes (limit : Nat) (p : Program) (f : FrameId) (s s' : Session)
    (r : Except Fault Value) (hf : s.scopes.Live f)
    (hrun : (p.eval limit f).run s = (r, s') ∨ (p.runChain limit f).run s = (r, s')) :
    s'.imbalances = s.imbalances ∧
      ∀ v, r = .ok v → Scopes.SameButVariables f s.scopes s'.scopes ∧ s'.depth = s.depth := by
  have hres := Program.residue hf hrun
  refine ⟨hres.imbalances, ?_⟩
  rintro v rfl
  exact ⟨hres.sameButVariables, hres.depth⟩

/-- A session over no table that has only the root of a drawing. -/
def Session.blank : Session :=
  .start .empty ⟨#[.plain "svg" none]⟩

/-- A shifted circle with a colour, and a colour for what is around it. -/
def shiftedCircle : Program :=
  .translate false .nothing .nothing
    (.circle false (.string false "1") (.color false .fill "red" .nothing) .nothing)
    (.color false .stroke "blue" .nothing)

/-- A group with a circle in it leaves the contexts as they were. -/
theorem Program.restores_scopes_shiftedCircle :
    ∃ s', (shiftedCircle.runChain 8 Scopes.root).run .blank = (.ok .unit, s') ∧
      s'.imbalances = [] ∧
      Scopes.SameButVariables Scopes.root Session.blank.scopes s'.scopes ∧ s'.depth = 0 := by
  have hrun : (shiftedCircle.runChain 8 Scopes.root).run .blank
      = (.ok .unit, ((shiftedCircle.runChain 8 Scopes.root).run .blank).2) := rfl
  obtain ⟨himb, hok⟩ := Program.restores_scopes 8 shiftedCircle Scopes.root .blank _ _
    Nat.one_pos (.inr hrun)
  obtain ⟨hsame, hdepth⟩ := hok .unit rfl
  exact ⟨_, hrun, himb, hsame, hdepth⟩

/-! ### Failing -/

/-- A call on a session: a program, or its first node alone, in the root frame. -/
inductive Call where
  | run (p : Program)
  | eval (p : Program)
  deriving Repr, DecidableEq

/-- What a call does. -/
def Call.action (limit : Nat) : Call → Action Value
  | run p => p.run limit
  | eval p => p.eval limit Scopes.root

/-- The session after some calls, whether they end well or fail. -/
def Session.after (limit : Nat) (s : Session) : List Call → Session
  | [] => s
  | call :: rest => Session.after limit ((call.action limit).run s).2 rest

/-- A call is a program in the outermost frame. -/
theorem Call.action_keepsTo (limit : Nat) (call : Call) :
    Action.KeepsTo Scopes.root (call.action limit) := by
  cases call with
  | run p => exact p.run_keepsTo limit
  | eval p => exact p.eval_keepsTo limit Scopes.root

/-- A session between two calls: only the root frame, and no level of nesting. -/
def Session.AtRest (s : Session) : Prop :=
  s.scopes.depth = 1 ∧ s.depth = 0

/-- A new session is at rest. -/
theorem Session.atRest_start (table : Table) (drawing : Drawing) :
    (Session.start table drawing).AtRest :=
  ⟨rfl, rfl⟩

/-- Every call takes a session at rest to one at rest. -/
theorem Session.AtRest.call {s : Session} (h : s.AtRest) (limit : Nat) (call : Call) :
    ((call.action limit).run s).2.AtRest := by
  have hlive : s.scopes.Live Scopes.root := by
    show 0 < s.scopes.depth
    rw [h.1]
    exact Nat.one_pos
  have hres := (call.action_keepsTo limit).residue hlive rfl
  exact ⟨hres.size.trans h.1, hres.depth.trans h.2⟩

/-- It is at rest again after any number of calls. -/
theorem Session.AtRest.after {s : Session} (h : s.AtRest) (limit : Nat) (calls : List Call) :
    (s.after limit calls).AtRest := by
  induction calls generalizing s with
  | nil => exact h
  | cons call rest ih => exact ih (h.call limit call)

/-- **What a failure leaves behind.**  A node that fails, alone or with its chain,
    leaves a session as `Session.AbandonedIn` describes it.  So on a session that was
    started once and called any number of times, a run that fails leaves the root frame
    and all levels of nesting to the next one. -/
theorem Program.failure_residue (limit : Nat) :
    (∀ (p : Program) (f : FrameId) (s s' : Session) (e : Fault), s.scopes.Live f →
      ((p.eval limit f).run s = (.error e, s') ∨ (p.runChain limit f).run s = (.error e, s')) →
      s.AbandonedIn f s') ∧
    (∀ (table : Table) (drawing : Drawing) (calls : List Call) (p : Program) (s' : Session)
      (e : Fault),
      (p.run limit).run ((Session.start table drawing).after limit calls) = (.error e, s') →
      s'.scopes.depth = 1 ∧ s'.depth = 0) := by
  constructor
  · intro p f s s' e hf hrun
    exact (Program.residue hf hrun).abandonedIn
  · intro table drawing calls p s' e hrun
    have hrest := ((Session.atRest_start table drawing).after limit calls).call limit (.run p)
    rw [show (Call.run p).action limit = p.run limit from rfl, hrun] at hrest
    exact hrest

/-- A circle whose group asks for a variable that nobody bound. -/
def strayCircle : Program :=
  .circle false (.string false "1") (.load false "ghost") .nothing

/-- The group of the circle, which is element 1, stays on the stack of the root. -/
theorem Program.failure_residue_strayCircle :
    ∃ s', (strayCircle.run 8).run .blank = (.error (.undefinedVariable "ghost"), s') ∧
      (s'.scopes.frames[Scopes.root]?).map Frame.contexts = some [1, 0] ∧
      Session.blank.AbandonedIn Scopes.root s' ∧ s'.scopes.depth = 1 ∧ s'.depth = 0 := by
  have hrun : (strayCircle.run 8).run .blank
      = (.error (.undefinedVariable "ghost"), ((strayCircle.run 8).run .blank).2) := rfl
  obtain ⟨habandoned, hrest⟩ := Program.failure_residue 8
  refine ⟨_, hrun, rfl, ?_, hrest .empty ⟨#[.plain "svg" none]⟩ [] strayCircle _ _ hrun⟩
  exact habandoned strayCircle Scopes.root .blank _ _ Nat.one_pos (.inr hrun)

end BlockChart
