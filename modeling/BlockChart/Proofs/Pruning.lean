import BlockChart.Proofs.Likeness

namespace BlockChart.Program

/-!
# Disabled statements can be cut out

A disabled statement does nothing but count against the limit on nesting, and the node
after it is counted against the same limit from the same depth.  So a disabled statement
that is followed by something can be cut out of its chain.  At the end of a chain it
must stay, since it gives the unit there; so must a statement that is plugged in as an
input, where what follows it is not run at all.

* `prune` cuts such statements out, wherever a chain is run;
* `Idle` is the statement to be cut, `InChain` says where one is looked for;
* `pruneAt_alike` — pruning keeps the meaning of a slot, as far as it is run;
* `run_prune` — a pruned program runs as before and has nothing left to cut.
-/

/-- How a slot is run: with the chain after its node, or as an input, alone. -/
inductive Position where
  | chain | input
  deriving DecidableEq

/-- Puts the chain after a node in its place, if the node is to be cut out there. -/
def cut (position : Position) (disabled : Bool) (next pruned node : Program) : Program :=
  if position = .chain ∧ disabled = true ∧ next ≠ nothing then pruned else node

/-- Prunes a program that stands in a position. -/
def pruneAt (position : Position) : Program → Program
  | nothing => nothing
  | string d s => string d s
  | load d name => load d name
  | width d => width d
  | height d => height d
  | count d x => count d (x.pruneAt .input)
  | cell d x y => cell d (x.pruneAt .input) (y.pruneAt .input)
  | rows d => rows d
  | columns d => columns d
  | columnName d x => columnName d (x.pruneAt .input)
  | binary d x y operator => binary d (x.pruneAt .input) (y.pruneAt .input) operator
  | stat d x operator => stat d (x.pruneAt .input) operator
  | store d name x next =>
    cut position d next (next.pruneAt .chain)
      (store d name (x.pruneAt .input) (next.pruneAt .chain))
  | color d paint c next =>
    cut position d next (next.pruneAt .chain) (color d paint c (next.pruneAt .chain))
  | alpha d opacity x next =>
    cut position d next (next.pruneAt .chain)
      (alpha d opacity (x.pruneAt .input) (next.pruneAt .chain))
  | forEach d x name child next =>
    cut position d next (next.pruneAt .chain)
      (forEach d (x.pruneAt .input) name (child.pruneAt .chain) (next.pruneAt .chain))
  | conditional d x child next =>
    cut position d next (next.pruneAt .chain)
      (conditional d (x.pruneAt .input) (child.pruneAt .chain) (next.pruneAt .chain))
  | translate d x y child next =>
    cut position d next (next.pruneAt .chain)
      (translate d (x.pruneAt .input) (y.pruneAt .input) (child.pruneAt .chain)
        (next.pruneAt .chain))
  -- These two take no notice of the flag, and nothing follows them.
  | rotate d x child => rotate d (x.pruneAt .input) (child.pruneAt .chain)
  | scale d x child => scale d (x.pruneAt .input) (child.pruneAt .chain)
  | align d horizontal vertical child next =>
    cut position d next (next.pruneAt .chain)
      (align d horizontal vertical (child.pruneAt .chain) (next.pruneAt .chain))
  | margin d x child next =>
    cut position d next (next.pruneAt .chain)
      (margin d (x.pruneAt .input) (child.pruneAt .chain) (next.pruneAt .chain))
  | circle d x child next =>
    cut position d next (next.pruneAt .chain)
      (circle d (x.pruneAt .input) (child.pruneAt .chain) (next.pruneAt .chain))
  | rect d x y child next =>
    cut position d next (next.pruneAt .chain)
      (rect d (x.pruneAt .input) (y.pruneAt .input) (child.pruneAt .chain)
        (next.pruneAt .chain))
  | text d x child next =>
    cut position d next (next.pruneAt .chain)
      (text d (x.pruneAt .input) (child.pruneAt .chain) (next.pruneAt .chain))

/-- **Cuts the disabled statements out of a program** wherever something follows them in
    a chain that is run: in the program itself, after a node, and in a body. -/
def prune (p : Program) : Program :=
  p.pruneAt .chain

/-! ### Pruning keeps the meaning -/

section Meaning

open Likeness Slot

variable {limit : Nat}

/-- Every program but nothing has a meaning, which is that of a node. -/
theorem meaning?_eq_some {p : Program} (hp : p ≠ nothing) :
    ∃ step next, p.meaning? limit = some (.node limit step next) := by
  cases p
  case nothing => exact absurd rfl hp
  all_goals exact ⟨_, _, rfl⟩

/-- A node that something follows is a statement, and heeds its flag. -/
theorem meaning?_eq_statement {p : Program} (hnext : p.next ≠ nothing) :
    ∃ step, p.meaning? limit = some (.statement limit p.disabled step (p.next.meaning? limit)) := by
  cases p
  all_goals
    first
    | exact absurd rfl hnext
    | exact ⟨_, rfl⟩

/-- **A disabled statement is skipped**: the node after it starts at the same depth, so
    it meets the limit exactly where the statement does. -/
theorem chain_statement_disabled (step : FrameId → Action Unit)
    (after : FrameId → Action Value) (next : Slot) (f : FrameId) :
    (Meaning.statement limit true step (some (.node limit after next))).chain f
      = (Meaning.node limit after next).chain f := by
  funext s
  by_cases hs : limit ≤ s.depth
  -- At the limit both fail, and neither has done anything yet.
  · have hfail (body : Action Value) :
        (Action.nested limit body).run s = (.error (.recursionLimit limit), s) := if_pos hs
    calc (Meaning.statement limit true step (some (.node limit after next))).chain f s
        = (.error (.recursionLimit limit), s) := Action.run_bind_of_error _ (hfail _)
      _ = (Meaning.node limit after next).chain f s :=
        (Action.run_bind_of_error _ (hfail (after f))).symm
  -- Below it the statement gives back the depth that it took.
  · have hskip : (Action.nested limit (pure Value.unit)).run s = (.ok .unit, s) := if_neg hs
    exact Action.run_bind_of_ok _ hskip

/-- As an input, a node stays, and its inputs and its body are pruned where they stand. -/
theorem matches_pruneAt {input body : Program → Program → Prop} {p : Program} (hp : p ≠ nothing)
    (hinputs : ∀ x ∈ p.inputs, input x (x.pruneAt .input))
    (hbody : body p.body (p.body.pruneAt .chain)) :
    p.Matches {} input body (p.pruneAt .input) := by
  cases p
  case nothing => exact absurd rfl hp
  all_goals
    simp only [inputs, Program.body, List.forall_mem_cons] at hinputs hbody
    constructor <;> simp only [hinputs, hbody]

/-- Pruning goes on along the chain. -/
theorem next_pruneAt (p : Program) : (p.pruneAt .input).next = p.next.pruneAt .chain := by
  cases p <;> rfl

/-- In a chain, a node stays as it would as an input, or goes. -/
theorem pruneAt_chain (p : Program) :
    p.pruneAt .chain
      = cut .chain p.disabled p.next (p.next.pruneAt .chain) (p.pruneAt .input) := by
  cases p <;> simp [pruneAt, cut, disabled, next]

/-- What pruning does to a slot is not seen by running it in its position. -/
structure PrunesAlike (limit : Nat) (p : Program) : Prop where
  chain : Chained (Discipline.alike (· = same)).toReading (p.meaning? limit)
    ((p.pruneAt .chain).meaning? limit)
  input : Alone (Discipline.alike (· = same)).toReading (p.meaning? limit)
    ((p.pruneAt .input).meaning? limit)

/-- A chain in which the first node is skipped, if it is disabled. -/
theorem chained_of_disabled {R : Reading} {p : Program} {slot : Slot} (hd : p.disabled = true)
    (hnext : p.next ≠ Program.nothing) (h : Chained R (p.next.meaning? limit) slot) :
    Chained R (p.meaning? limit) slot := by
  obtain ⟨step, hp⟩ : ∃ step, p.meaning? limit = some (.statement limit p.disabled step
      (p.next.meaning? limit)) := meaning?_eq_statement hnext
  -- What follows is a node, so it counts against the limit as the statement did.
  obtain ⟨after, rest, hm⟩ : ∃ after rest, p.next.meaning? limit = some (.node limit after rest) :=
    meaning?_eq_some hnext
  rw [hm] at h
  rw [hp, hd, hm]
  cases h with
  | some h =>
    refine .some fun f => ?_
    rw [chain_statement_disabled]
    exact h f

/-- **Pruning keeps the meaning** of every slot, as far as it is run in its position. -/
theorem pruneAt_alike (limit : Nat) (p : Program) : PrunesAlike limit p := by
  have hmeasures : (Discipline.alike (· = same)).Measures :=
    Discipline.measures_alike (by rintro _ rfl; exact measured_same)
  have hnests : (Discipline.alike (· = same)).Nests (Discipline.alike (· = same)).toReading limit
      limit := Discipline.nests_alike fun l _ => l.limits_self limit
  induction p using parts_induction with
  | nothing => exact ⟨.none, .none⟩
  | node p hp hinputs hbody hnext =>
    -- The node that stays does the same step, with pruned programs in its slots.
    have hsteps : StepsRel (Discipline.alike (· = same)).toReading .plain .plain limit limit p
        (p.pruneAt .input) :=
      Discipline.stepsRel ⟨fun _ _ _ _ _ hl => hl ▸ .lookup rfl rfl _, fun _ => hmeasures⟩
        (Discipline.recolors_name _ id) (fun _ => rfl) (Discipline.laysOut_plain hmeasures)
        (matches_pruneAt hp (fun x hx => (hinputs x hx).input) hbody.chain)
    refine ⟨?_, hsteps.alone hnests⟩
    rw [pruneAt_chain, cut]
    split
    case isTrue hidle => exact chained_of_disabled hidle.2.1 hidle.2.2 hnext.chain
    case isFalse =>
      refine hsteps.chained hnests ?_
      rw [next_pruneAt]
      exact hnext.chain

end Meaning

/-! ### Nothing is left to prune -/

/-- The chains at the first node: its body, and what follows it. -/
def chains : Program → List Program
  | store _ _ _ next | color _ _ _ next | alpha _ _ _ next => [next]
  | rotate _ _ child | scale _ _ child => [child]
  | forEach _ _ _ child next | conditional _ _ child next | translate _ _ _ child next
  | align _ _ _ child next | margin _ _ child next | circle _ _ child next
  | rect _ _ _ child next | text _ _ child next => [child, next]
  | _ => []

/-- `q` is run as a chain when `p` is: it is the program itself, or a chain at some node
    of it. -/
def InChain (q p : Program) : Prop :=
  q = p ∨ ∃ r : Program, r.Within p ∧ q ∈ r.chains

/-- A disabled node that is followed by something. -/
def Idle (p : Program) : Prop :=
  p.disabled = true ∧ p.next ≠ nothing

/-- No chain of a program starts with an idle node. -/
def IsPruned (p : Program) : Prop :=
  ∀ q : Program, q.InChain p → ¬ q.Idle

/-- No chain at a node of a program starts with an idle node. -/
def Tidy (p : Program) : Prop :=
  ∀ r : Program, r.Within p → ∀ q ∈ r.chains, ¬ q.Idle

/-- A program is tidy if its chain has no idle node and its slots are tidy. -/
theorem tidy_of_slots {p : Program} (hp : ∀ q ∈ p.chains, ¬ q.Idle)
    (hslots : ∀ r ∈ p.slots, r.Tidy) : p.Tidy :=
  forall_within.mpr ⟨hp, hslots⟩

/-- A statement that is tidy without the cut; what is left in place at the end of a chain
    has nothing after it. -/
theorem cut_tidy {position : Position} {d : Bool} {next kept : Program} (hkept : kept.Tidy)
    (hd : kept.disabled = d) (hafter : kept.next = next.pruneAt .chain)
    (hnext : (next.pruneAt .chain).Tidy ∧ ¬ (next.pruneAt .chain).Idle) :
    (cut position d next (next.pruneAt .chain) kept).Tidy
      ∧ (position = .chain → ¬ (cut position d next (next.pruneAt .chain) kept).Idle) := by
  unfold cut
  split
  case isTrue => exact ⟨hnext.1, fun _ => hnext.2⟩
  case isFalse hcut =>
    refine ⟨hkept, ?_⟩
    rintro hposition ⟨hdisabled, hfollowed⟩
    -- An idle node is disabled and followed by another one, so it would have been cut.
    refine hcut ⟨hposition, hd ▸ hdisabled, ?_⟩
    rintro rfl
    exact hfollowed hafter

/-- **Pruning leaves nothing to prune.** -/
theorem pruneAt_tidy (position : Position) (p : Program) :
    (p.pruneAt position).Tidy ∧ (position = .chain → ¬ (p.pruneAt position).Idle) := by
  induction p generalizing position
  -- A node that can be followed is cut or kept; any other is not idle, whatever its flag.
  all_goals
    first
    | refine cut_tidy (tidy_of_slots ?_ ?_) rfl rfl (by simp [*])
    | refine ⟨tidy_of_slots ?_ ?_, fun _ hidle => hidle.2 rfl⟩
  all_goals simp [chains, slots, pruneAt, *]

/-- What has been pruned has nothing left to prune. -/
theorem isPruned_prune (p : Program) : p.prune.IsPruned := by
  obtain ⟨htidy, hroot⟩ := pruneAt_tidy .chain p
  rintro q (rfl | ⟨r, hr, hq⟩)
  · exact hroot rfl
  · exact htidy r hr q hq

/-- **Disabled statements can be cut out.**  The pruned program runs as the program does,
    from every session: it gives the same value or fault, and leaves the same scopes and
    the same drawing.  No disabled statement is left in a chain with something after it. -/
theorem run_prune (limit : Nat) (p : Program) :
    (∀ s : Session, (p.prune.run limit).run s = (p.run limit).run s) ∧ p.prune.IsPruned := by
  refine ⟨fun s => ?_, isPruned_prune p⟩
  have halike : Action.Alike .same (p.run limit) (p.prune.run limit) :=
    runAs_rel (pruneAt_alike limit p).chain .same rfl
  exact (Likeness.eq_of_outcomes_same (halike s s ⟨s.drawing, s.strays, rfl, rfl, rfl⟩)).symm

-- A disabled statement goes from the start of a body and stays at its end; as an input it
-- stays, with what follows it.
example :
    (rotate true (.color true .fill "red" (.color false .fill "blue" nothing))
        (.store true "x" nothing (.color true .fill "red" nothing))).prune
      = rotate true (.color true .fill "red" (.color false .fill "blue" nothing))
        (.color true .fill "red" nothing) := by
  decide

end BlockChart.Program
