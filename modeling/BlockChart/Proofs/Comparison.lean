import BlockChart.Proofs.Discipline
import BlockChart.Proofs.Relabeling

namespace BlockChart

/-!
# Comparing runs of a program

A program is run twice: once as it is, and once relabelled, with other tags for its layout
elements and under another limit.

* `Reading.stepsRel` and `Discipline.stepsRel` — the steps of two nodes that match are related, if
  what is plugged into them is: one case for each operation;
* `Comparison` says in which respects the second run may be set up differently;
* `Comparison.rel` — the two runs are related, by induction over the program;
* `Program.meaning?_rel` is the case of a program and itself.
-/

open Slot

/-! ### Nodes -/

section Nodes

variable {R inner outer : Reading} {tags tags' : LayoutTags} {limit limit' : Nat} {p q : Program}

/-- **The steps of two first nodes are related.** -/
def StepsRel (R : Reading) (tags tags' : LayoutTags) (limit limit' : Nat) (p q : Program) : Prop :=
  ∃ step step',
    p.meaningAs? tags limit = some (.node limit step (p.next.meaningAs? tags limit)) ∧
    q.meaningAs? tags' limit' = some (.node limit' step' (q.next.meaningAs? tags' limit')) ∧
    ∀ f, R.rel f (step f) (step' f)

/-- Alone, a node does its step, one level further in. -/
theorem StepsRel.alone (h : StepsRel inner tags tags' limit limit' p q)
    (hnests : inner.Nests outer limit limit') :
    Alone outer (p.meaningAs? tags limit) (q.meaningAs? tags' limit') := by
  obtain ⟨step, step', hp, hq, hstep⟩ := h
  rw [hp, hq]
  exact .some fun f => hnests (hstep f)

/-- With its chain, it gives its level back before the chain goes on. -/
theorem StepsRel.chained (h : StepsRel inner tags tags' limit limit' p q)
    (hnests : inner.Nests outer limit limit')
    (hnext : Chained outer (p.next.meaningAs? tags limit) (q.next.meaningAs? tags' limit')) :
    Chained outer (p.meaningAs? tags limit) (q.meaningAs? tags' limit') := by
  obtain ⟨step, step', hp, hq, hstep⟩ := h
  rw [hp, hq]
  refine .some fun f => outer.bind (hnests (hstep f)) fun v => ?_
  -- both chains end here, or both go on
  generalize p.next.meaningAs? tags limit = n at hnext ⊢
  generalize q.next.meaningAs? tags' limit' = n' at hnext ⊢
  cases hnext with
  | none => exact outer.pure v
  | some hm => exact hm f

/-- A statement that does its step, or does nothing. -/
theorem unlessDisabled (R : Reading) {step step' : FrameId → Action Unit} (disabled : Bool)
    (hstep : ∀ f, R.rel f (step f) (step' f)) (f : FrameId) :
    R.rel f (if disabled then pure Value.unit else do step f; pure .unit)
      (if disabled then pure .unit else do step' f; pure .unit) := by
  cases disabled with
  | true => exact R.pure _
  | false => exact R.bind (hstep f) fun _ => R.pure _

/-- What nodes that are compared have in their inputs. -/
abbrev InputsRel (R : Reading) (tags tags' : LayoutTags) (limit limit' : Nat) (p q : Program) :
    Prop :=
  Alone R (p.meaningAs? tags limit) (q.meaningAs? tags' limit')

/-- What nodes that are compared have as bodies. -/
abbrev BodiesRel (R : Reading) (tags tags' : LayoutTags) (limit limit' : Nat) (p q : Program) :
    Prop :=
  Chained R (p.meaningAs? tags limit) (q.meaningAs? tags' limit')

/-- What a relabelling of names may do: the variable that a node looks up may be looked up under
    the new name, and a node that asks for a size may do so. -/
structure Reading.Allows (R : Reading) (r : Relabeling) (p : Program) : Prop where
  loads : ∀ d name, p = .load d name → R.Looks name (r.name name)
  sizes : p.AsksSize → R.Measures

/-- **Expressions that match** have related steps. -/
theorem Reading.stepsRel {r : Relabeling} {body : Program → Program → Prop}
    (hop : p.opcode?.any Opcode.isStatement = false) (hR : R.Allows r p)
    (h : p.Matches r (InputsRel R tags tags' limit limit') body q) :
    StepsRel R tags tags' limit limit' p q := by
  cases h with
  | string => exact ⟨_, _, rfl, rfl, fun _ => R.pure _⟩
  | load => exact ⟨_, _, rfl, rfl, hR.loads _ _ rfl⟩
  | width => exact ⟨_, _, rfl, rfl, width_rel (hR.sizes (.inl rfl))⟩
  | height => exact ⟨_, _, rfl, rfl, height_rel (hR.sizes (.inr rfl))⟩
  | count hx => exact ⟨_, _, rfl, rfl, count_rel hx⟩
  | cell hx hy => exact ⟨_, _, rfl, rfl, cell_rel hx hy⟩
  | rows => exact ⟨_, _, rfl, rfl, rows_rel⟩
  | columns => exact ⟨_, _, rfl, rfl, columns_rel⟩
  | columnName hx => exact ⟨_, _, rfl, rfl, columnName_rel hx⟩
  | binary hx hy => exact ⟨_, _, rfl, rfl, binary_rel hx hy _⟩
  | stat hx => exact ⟨_, _, rfl, rfl, stat_rel hx _⟩
  -- the statements are excluded
  | _ => exact absurd hop (by simp [Program.opcode?, Opcode.isStatement])

end Nodes

/-- What a `color` node does, enabled or not. -/
def Step.colorNode (disabled : Bool) (paint : Paint) (c : String) (f : FrameId) : Action Value :=
  if disabled then pure .unit else do Step.color paint c f; pure .unit

namespace Discipline

variable {D : Discipline} {tags tags' : LayoutTags} {limit limit' : Nat} {p q : Program}

/-- The relabelling replaces `color` nodes by nodes that are related to them. -/
def Recolors (D : Discipline) (r : Relabeling) : Prop :=
  ∀ d paint c f, D.rel f (Step.colorNode d paint c f)
    (Step.colorNode (r.flag d) (r.paint paint) (r.color c) f)

/-- A relabelling of names leaves colours alone. -/
theorem recolors_name (D : Discipline) (name : String → String) : D.Recolors { name } :=
  fun d paint c => unlessDisabled _ d (color_rel paint c)

/-- The layout elements may be drawn with two sorts of tags. -/
structure LaysOut (D : Discipline) (tags tags' : LayoutTags) : Prop where
  align {child child' : Slot} (hchild : Chained D.toReading child child')
    (horizontal vertical : String) (f : FrameId) :
    D.rel f (Step.align tags horizontal vertical child f)
      (Step.align tags' horizontal vertical child' f)
  margin {x x' child child' : Slot} (hx : Alone D.toReading x x')
    (hchild : Chained D.toReading child child') (f : FrameId) :
    D.rel f (Step.margin tags x child f) (Step.margin tags' x' child' f)

/-- With the usual tags all that is needed is measuring. -/
theorem laysOut_plain (hD : D.Measures) : D.LaysOut .plain .plain :=
  ⟨align_rel hD, margin_rel hD⟩

/-- **Nodes that match** have related steps. -/
theorem stepsRel {r : Relabeling} (hD : D.Allows r p) (hcolor : D.Recolors r)
    (hname : ∀ name, lowerCase name = lowerCase (r.name name)) (hlayout : D.LaysOut tags tags')
    (h : p.Matches r (InputsRel D.toReading tags tags' limit limit')
      (BodiesRel D.toReading tags tags' limit limit') q) :
    StepsRel D.toReading tags tags' limit limit' p q := by
  cases hop : p.opcode?.any Opcode.isStatement with
  | false => exact Reading.stepsRel hop hD h
  | true =>
    cases h with
    | store hx => exact ⟨_, _, rfl, rfl, unlessDisabled _ _ (store_rel hx (hname _))⟩
    | color => exact ⟨_, _, rfl, rfl, hcolor _ _ _⟩
    | alpha hx => exact ⟨_, _, rfl, rfl, unlessDisabled _ _ (alpha_rel hx _)⟩
    | forEach hx hc =>
      exact ⟨_, _, rfl, rfl, unlessDisabled _ _ (forEach_rel hx hc (hname _))⟩
    | conditional hx hc => exact ⟨_, _, rfl, rfl, unlessDisabled _ _ (conditional_rel hx hc)⟩
    | translate hx hy hc => exact ⟨_, _, rfl, rfl, unlessDisabled _ _ (translate_rel hx hy hc)⟩
    -- these two take no notice of the flag
    | rotate hx hc => exact ⟨_, _, rfl, rfl, unlessDisabled _ false (rotate_rel hx hc)⟩
    | scale hx hc => exact ⟨_, _, rfl, rfl, unlessDisabled _ false (scale_rel hx hc)⟩
    | align hc => exact ⟨_, _, rfl, rfl, unlessDisabled _ _ (hlayout.align hc _ _)⟩
    | margin hx hc => exact ⟨_, _, rfl, rfl, unlessDisabled _ _ (hlayout.margin hx hc)⟩
    | circle hx hc => exact ⟨_, _, rfl, rfl, unlessDisabled _ _ (circle_rel hx hc)⟩
    | rect hx hy hc => exact ⟨_, _, rfl, rfl, unlessDisabled _ _ (rect_rel hx hy hc)⟩
    | text hx hc => exact ⟨_, _, rfl, rfl, unlessDisabled _ _ (text_rel hx hc)⟩
    -- the expressions are done
    | _ => exact absurd hop (by simp [Program.opcode?, Opcode.isStatement])

end Discipline

/-! ### Programs -/

/-- **How a second run may be set up**: with other tags, another limit and other labels. -/
structure Comparison (D : Discipline) (tags tags' : LayoutTags) (limit limit' : Nat)
    (r : Relabeling) : Prop where
  nests : D.toReading.Nests D.toReading limit limit'
  name (name : String) : lowerCase name = lowerCase (r.name name)
  color : D.Recolors r
  layout : D.LaysOut tags tags'

namespace Comparison

variable {D : Discipline} {tags tags' : LayoutTags} {limit limit' : Nat} {r : Relabeling}

open Program

/-- **The runs are related**, if the discipline allows what the program looks up and measures. -/
theorem rel (h : Comparison D tags tags' limit limit' r) {p : Program}
    (hsizes : ∀ q : Program, q.Within p → q.AsksSize → D.Measures)
    (hloads : ∀ name, p.Loads name → D.Looks name (r.name name)) :
    Rel D.toReading (p.meaningAs? tags limit) ((p.relabel r).meaningAs? tags' limit') := by
  induction p using slots_induction with
  | node p ih =>
    have hslots : ∀ q ∈ p.slots,
        Rel D.toReading (q.meaningAs? tags limit) ((q.relabel r).meaningAs? tags' limit') :=
      fun q hq => ih q hq (fun x hx => hsizes x (.slot hq hx))
        fun name hname => hloads name (hname.of_slot hq)
    -- what is empty stays empty, so the chains at the node need not be slots of it
    have hchain : ∀ q : Program, (q ≠ nothing → q ∈ p.slots) →
        Chained D.toReading (q.meaningAs? tags limit) ((q.relabel r).meaningAs? tags' limit') := by
      intro q hq
      by_cases hempty : q = nothing
      · subst hempty
        exact .none
      · exact (hslots q (hq hempty)).chained
    by_cases hp : p = nothing
    · subst hp
      exact rel_none
    have hallows : D.Allows r p :=
      { loads := fun d name hload => hloads name ⟨d, hload ▸ .self⟩
        sizes := hsizes p .self }
    have hsteps : StepsRel D.toReading tags tags' limit limit' p (p.relabel r) :=
      D.stepsRel hallows h.color h.name h.layout
        (matches_relabel hp (fun x hx => (hslots x (mem_slots_of_mem_inputs hx)).alone)
          (hchain p.body body_mem_slots))
    refine ⟨hsteps.alone h.nests, hsteps.chained h.nests ?_⟩
    rw [next_relabel]
    exact hchain p.next next_mem_slots

end Comparison

namespace Program

variable {R : Reading} {limit limit' : Nat} {p q : Program}

/-- Programs whose chains are related, in the root frame. -/
theorem runAs_rel {tags tags' : LayoutTags}
    (h : Chained R (p.meaningAs? tags limit) (q.meaningAs? tags' limit')) :
    R.rel Scopes.root (p.runAs tags limit) (q.runAs tags' limit') := by
  unfold runAs
  generalize p.meaningAs? tags limit = x at h ⊢
  generalize q.meaningAs? tags' limit' = y at h ⊢
  cases h with
  | none => exact R.fail (.missingPiece _)
  | some h => exact h Scopes.root

/-- Programs whose chains are related, in any frame. -/
theorem runChain_rel (h : Chained R (p.meaning? limit) (q.meaning? limit')) (f : FrameId) :
    R.rel f (p.runChain limit f) (q.runChain limit' f) := by
  unfold runChain
  generalize p.meaning? limit = x at h ⊢
  generalize q.meaning? limit' = y at h ⊢
  cases h with
  | none => exact R.pure _
  | some h => exact h f

/-- **A program is related to itself** by a discipline in which one may measure and look up. -/
theorem meaning?_rel {D : Discipline} (hnests : D.toReading.Nests D.toReading limit limit')
    (hmeasures : D.Measures) (hlooks : ∀ name, D.Looks name name) (p : Program) :
    Slot.Rel D.toReading (p.meaning? limit) (p.meaning? limit') := by
  have hself : Comparison D .plain .plain limit limit' {} :=
    { nests := hnests
      name := fun _ => rfl
      color := D.recolors_name id
      layout := Discipline.laysOut_plain hmeasures }
  have h := hself.rel (p := p) (fun _ _ _ => hmeasures) fun name _ => hlooks name
  rwa [relabel_id] at h

end Program

end BlockChart
