import BlockChart.Evaluation.Run
import BlockChart.Proofs.Elements
import BlockChart.Proofs.Frames

namespace BlockChart

/-!
# Disciplines

Much that can be said about a run is inherited by every operation from its inputs: that it
changes only what it may, that it gets along with some levels of nesting, that it goes like a
run which was set up differently.  What such a property needs is one rule for each way to build
an action.  The rules are collected here, and the walk through all operations is done once.

A property relates two actions, the same parts of two runs; one that is about a single run takes
no notice of the second.

* `Reading` — the rules for actions that only read;
* `Discipline` — the rules for drawing, for variables and for frames as well.  While an operation
  draws, what it may write to depends on what it has found and made; the `Stage` is what is known
  of that;
* `Slot.Alone` and `Slot.Chained` relate what is plugged into two slots: an input is only ever
  run alone, a body only together with its chain;
* `Reading.*_rel` and `Discipline.*_rel` — operations on related slots are related.
-/

/-! ### Aggregates -/

namespace Step

/-- A column of numbers fails where a row is too short. -/
theorem columnNumbers_unfound {column r : Nat} {rows : List (List Value)} {e : Fault}
    (h : columnNumbers column r rows = .error e) : e.Unfound := by
  induction rows generalizing r with
  | nil => cases h
  | cons row rest ih =>
    unfold columnNumbers at h
    split at h
    · cases hrest : columnNumbers column (r + 1) rest with
      | error e' =>
        rw [hrest] at h
        cases h
        exact ih hrest
      | ok xs => rw [hrest] at h; cases h
    · cases h
      exact .indexOutOfRange ..

/-- An aggregate fails where the column does, where its numbers do, or for want of any. -/
theorem aggregate_unfound {t : Table} {column : Value} {op : Aggregate} {e : Fault}
    (h : aggregate t column op = .error e) : e.Unfound := by
  unfold aggregate at h
  cases hcolumn : Scopes.columnOf t column with
  | error e' =>
    rw [hcolumn] at h
    cases h
    exact Scopes.columnOf_unfound hcolumn
  | ok i =>
    rw [hcolumn] at h
    cases hxs : columnNumbers i 0 t.rows with
    | error e' =>
      simp only [bind, Except.bind, hxs] at h
      cases h
      exact columnNumbers_unfound hxs
    | ok xs =>
      simp only [bind, Except.bind, hxs] at h
      split at h
      · cases h
        exact .emptyAggregate _
      · cases h

end Step

/-! ### Rules -/

/-- **A property of actions that only read**, in the frame in which they run: its rules. -/
structure Reading where
  rel {α : Type} : FrameId → Action α → Action α → Prop
  pure {α : Type} {f : FrameId} (x : α) : rel f (Pure.pure x) (Pure.pure x)
  /-- Failing because something is not there. -/
  fail {α : Type} {f : FrameId} {e : Fault} (cause : e.Unfound) :
    rel f (Action.fail e : Action α) (Action.fail e)
  bind {α β : Type} {f : FrameId} {a a' : Action α} {k k' : α → Action β} :
    rel f a a' → (∀ x, rel f (k x) (k' x)) → rel f (a >>= k) (a' >>= k')
  read {α : Type} {f : FrameId} {r : Scopes → Except Fault α} :
    (∀ s e, r s = .error e → s.Misses f e) → rel f (Action.readScopes r) (Action.readScopes r)

namespace Reading

/-- Elements may be measured. -/
def Measures (R : Reading) : Prop :=
  ∀ f c, R.rel f (Action.bounds c) (Action.bounds c)

/-- A variable may be looked up, under two names. -/
def Looks (R : Reading) (name name' : String) : Prop :=
  ∀ f, R.rel f (Action.lookup f name) (Action.lookup f name')

/-- A level of nesting leads from one property to another, under two limits. -/
def Nests (inner outer : Reading) (limit limit' : Nat) : Prop :=
  ∀ {α : Type} {f : FrameId} {a a' : Action α}, inner.rel f a a' →
    outer.rel f (Action.nested limit a) (Action.nested limit' a')

variable (R : Reading) {f : FrameId}

/-- The innermost context is read, and is missed only where there is none. -/
theorem top : R.rel f (Action.top f) (Action.top f) :=
  R.read fun _ _ => .context

/-- So it is with the table. -/
theorem table : R.rel f (Action.table f) (Action.table f) :=
  R.read fun _ _ => Scopes.misses_of_table

end Reading

/-- **A property of all actions**: its rules.  A stage is what is known while an operation
    draws. -/
structure Discipline extends Reading where
  Stage : Type
  /-- The property of what is done from a stage on. -/
  during {α : Type} : Stage → FrameId → Action α → Action α → Prop
  /-- A node may start. -/
  ready : Stage → FrameId → Prop
  /-- The element is the innermost drawing context of the frame. -/
  innermost : Stage → FrameId → ElementId → Prop
  /-- The element is one that the node has made, with a tag. -/
  made : Stage → String → ElementId → Prop
  /-- The second stage may follow the first, when an action in the frame has ended well. -/
  after : FrameId → Stage → Stage → Prop
  ready_after {f : FrameId} {g g' : Stage} : after f g g' → ready g f → ready g' f
  innermost_after {f : FrameId} {g g' : Stage} {c : ElementId} :
    after f g g' → innermost g f c → innermost g' f c
  made_after {f : FrameId} {g g' : Stage} {tag : String} {c : ElementId} :
    after f g g' → made g tag c → made g' tag c
  rel_of_during {α : Type} {f : FrameId} {a a' : Action α} :
    (∀ g, ready g f → during g f a a') → rel f a a'
  during_of_rel {α : Type} {f : FrameId} {a a' : Action α} {g : Stage} :
    rel f a a' → ready g f → during g f a a'
  bind_during {α β : Type} {f : FrameId} {a a' : Action α} {k k' : α → Action β} {g : Stage} :
    during g f a a' → (∀ x g', after f g g' → during g' f (k x) (k' x)) →
      during g f (a >>= k) (a' >>= k')
  top_bind {β : Type} {f : FrameId} {k k' : ElementId → Action β} {g : Stage} :
    (∀ c, innermost g f c → during g f (k c) (k' c)) →
      during g f (Action.top f >>= k) (Action.top f >>= k')
  /-- Elements are added to the innermost context, and to groups of the node. -/
  append_bind {β : Type} {f : FrameId} {c : ElementId} {tag : String}
    {k k' : ElementId → Action β} {g : Stage} :
    tag ∈ Drawing.shapeTags → ready g f → innermost g f c ∨ made g "g" c →
      (∀ i g', after f g g' → made g' tag i → during g' f (k i) (k' i)) →
      during g f (Action.append c tag >>= k) (Action.append c tag >>= k')
  setAttribute {f : FrameId} {c : ElementId} {tag name : String} {g : Stage} (value : String) :
    name ∈ Drawing.attributeNames → made g tag c →
      during g f (Action.setAttribute c name value) (Action.setAttribute c name value)
  setStyle {f : FrameId} {c : ElementId} {g : Stage} (name value : String) :
    (innermost g f c ∨ ∃ tag, made g tag c) →
      during g f (Action.setStyle c name value) (Action.setStyle c name value)
  setText {f : FrameId} {c : ElementId} {g : Stage} (content : String) :
    made g "text" c → during g f (Action.setText c content) (Action.setText c content)
  withContext {f : FrameId} {c : ElementId} {g : Stage} {body body' : Action Unit} :
    made g "g" c → rel f body body' →
      during g f (Action.withContext f c body) (Action.withContext f c body')
  /-- Variables are bound under two names that are the same in lower case. -/
  assign {f : FrameId} {name name' : String} (v : Value) :
    lowerCase name = lowerCase name' → rel f (Action.assign f name v) (Action.assign f name' v)
  inFreshFrame {α : Type} {f : FrameId} {body body' : FrameId → Action α} :
    (∀ g, rel g (body g) (body' g)) →
      rel f (Action.inFreshFrame f body) (Action.inFreshFrame f body')

/-! ### Slots -/

namespace Slot

/-- **Slots that are related when they are run alone**; or both are empty. -/
def Alone (R : Reading) : Slot → Slot → Prop :=
  Option.Rel fun m m' => ∀ f, R.rel f (m.once f) (m'.once f)

/-- **Slots that are related when they are run with their chains**; or both are empty. -/
def Chained (R : Reading) : Slot → Slot → Prop :=
  Option.Rel fun m m' => ∀ f, R.rel f (m.chain f) (m'.chain f)

/-- Slots that are related however they are run. -/
structure Rel (R : Reading) (x x' : Slot) : Prop where
  alone : Alone R x x'
  chained : Chained R x x'

variable {R : Reading} {x x' : Slot}

/-- Two empty slots are related. -/
theorem rel_none : Rel R none none :=
  ⟨.none, .none⟩

/-- A required input fails in both or in neither. -/
theorem Alone.required (h : Alone R x x') (name : String) (f : FrameId) :
    R.rel f (x.required name f) (x'.required name f) := by
  cases h with
  | none => exact R.fail (.missingPiece name)
  | some h => exact h f

/-- An operand is zero where the slots are empty. -/
theorem Alone.operand (h : Alone R x x') (f : FrameId) :
    R.rel f (x.operand f) (x'.operand f) := by
  cases h with
  | none => exact R.pure _
  | some h => exact h f

theorem Alone.number (h : Alone R x x') (f : FrameId) :
    R.rel f (x.number f) (x'.number f) :=
  R.bind (h.operand f) fun _ => R.pure _

/-- A block that has to be there. -/
theorem Chained.block (h : Chained R x x') (name : String) (f : FrameId) :
    R.rel f (x.block name f) (x'.block name f) := by
  cases h with
  | none => exact R.fail (.missingPiece name)
  | some h => exact R.bind (h f) fun _ => R.pure _

/-- A block that may be left out. -/
theorem Chained.blockIfAny (h : Chained R x x') (f : FrameId) :
    R.rel f (x.blockIfAny f) (x'.blockIfAny f) := by
  cases h with
  | none => exact R.pure _
  | some h => exact R.bind (h f) fun _ => R.pure _

end Slot

/-! ### Expressions -/

namespace Reading

open Slot

variable {R : Reading} {x x' y y' : Slot}

/-- The width is that of the innermost context, which has to be measured. -/
theorem width_rel (hR : R.Measures) (f : FrameId) : R.rel f (Step.width f) (Step.width f) :=
  R.bind R.top fun c => R.bind (hR f c) fun _ => R.pure _

theorem height_rel (hR : R.Measures) (f : FrameId) : R.rel f (Step.height f) (Step.height f) :=
  R.bind R.top fun c => R.bind (hR f c) fun _ => R.pure _

/-- Counting looks at nothing but its input. -/
theorem count_rel (hx : Alone R x x') (f : FrameId) :
    R.rel f (Step.count x f) (Step.count x' f) :=
  R.bind (hx.required _ f) fun _ => R.pure _

/-- A cell that is not in the table is missed in both. -/
theorem cell_rel (hx : Alone R x x') (hy : Alone R y y') (f : FrameId) :
    R.rel f (Step.cell x y f) (Step.cell x' y' f) := by
  refine R.bind (hx.required _ f) fun r => R.bind (hy.required _ f) fun c => ?_
  exact R.read fun _ _ => Scopes.misses_of_table_bind fun _ _ => Scopes.cellOf_unfound

theorem rows_rel (f : FrameId) : R.rel f (Step.rows f) (Step.rows f) :=
  R.bind R.table fun _ => R.pure _

theorem columns_rel (f : FrameId) : R.rel f (Step.columns f) (Step.columns f) :=
  R.bind R.table fun _ => R.pure _

/-- The columns are looked at after the input. -/
theorem columnName_rel (hx : Alone R x x') (f : FrameId) :
    R.rel f (Step.columnName x f) (Step.columnName x' f) := by
  refine R.bind (hx.required _ f) fun v => R.bind R.table fun t => ?_
  simp only
  split
  · exact R.pure _
  · exact R.fail (.indexOutOfRange ..)

theorem binary_rel (hx : Alone R x x') (hy : Alone R y y') (operator : String) (f : FrameId) :
    R.rel f (Step.binary x y operator f) (Step.binary x' y' operator f) :=
  R.bind (hx.operand f) fun _ => R.bind (hy.operand f) fun _ => R.pure _

/-- A statistic fails only for what is not in the table. -/
theorem stat_rel (hx : Alone R x x') (operator : String) (f : FrameId) :
    R.rel f (Step.stat x operator f) (Step.stat x' operator f) := by
  refine R.bind (hx.required _ f) fun v => ?_
  -- an unknown aggregate does not look at the table
  cases Aggregate.ofName? operator with
  | none => exact R.pure _
  | some op =>
    exact R.read fun _ _ => Scopes.misses_of_table_bind fun _ _ => Step.aggregate_unfound

end Reading

/-! ### Statements -/

namespace Discipline

open Slot

variable {D : Discipline} {x x' y y' child child' : Slot} {name name' : String}

/-- A variable may be stored under two spellings. -/
theorem store_rel (hx : Alone D.toReading x x') (hname : lowerCase name = lowerCase name')
    (f : FrameId) : D.rel f (Step.store name x f) (Step.store name' x' f) :=
  D.bind (hx.required _ f) fun v => D.assign v hname

/-- The loop, item by item: each round has a frame of its own, and leaves the frame in which the
    loop stands to the next. -/
theorem forItems_rel (hchild : Chained D.toReading child child')
    (hname : lowerCase name = lowerCase name') (f : FrameId) (items : List Value) :
    D.rel f (Step.forItems name child f items) (Step.forItems name' child' f items) := by
  induction items with
  | nil => exact D.pure _
  | cons item rest ih =>
    refine D.bind (D.inFreshFrame fun g => ?_) fun _ => ih
    exact D.bind (D.assign item hname) fun _ => hchild.block _ g

/-- A loop is related round by round, see `forItems_rel`. -/
theorem forEach_rel (hx : Alone D.toReading x x') (hchild : Chained D.toReading child child')
    (hname : lowerCase name = lowerCase name') (f : FrameId) :
    D.rel f (Step.forEach x name child f) (Step.forEach x' name' child' f) :=
  D.bind (hx.required _ f) fun v => forItems_rel hchild hname f v.toList

/-- The body runs in both or in neither, since the condition has one value. -/
theorem conditional_rel (hx : Alone D.toReading x x') (hchild : Chained D.toReading child child')
    (f : FrameId) : D.rel f (Step.conditional x child f) (Step.conditional x' child' f) := by
  -- without a body the condition is not even evaluated
  cases hchild with
  | none => exact D.pure _
  | some hbody =>
    refine D.bind (hx.required _ f) fun v => ?_
    by_cases hv : v.truthy = true
    · rw [if_pos hv, if_pos hv]
      exact D.bind (hbody f) fun _ => D.pure _
    · rw [if_neg hv, if_neg hv]
      exact D.pure _

/-- Styling the innermost context. -/
theorem setStyle_top (name value : String) (f : FrameId) :
    D.rel f (Action.top f >>= fun c => Action.setStyle c name value)
      (Action.top f >>= fun c => Action.setStyle c name value) :=
  D.rel_of_during fun _ _ => D.top_bind fun _ htop => D.setStyle name value (.inl htop)

/-- A colour is set on the innermost context. -/
theorem color_rel (paint : Paint) (c : String) (f : FrameId) :
    D.rel f (Step.color paint c f) (Step.color paint c f) :=
  setStyle_top paint.name c f

/-- So is an opacity, after its input. -/
theorem alpha_rel (hx : Alone D.toReading x x') (opacity : Opacity) (f : FrameId) :
    D.rel f (Step.alpha opacity x f) (Step.alpha opacity x' f) :=
  D.bind (hx.required _ f) fun _ => setStyle_top opacity.name _ f

/-! ### Groups -/

/-- A group is made, gets its transform and becomes the context of the child. -/
theorem wrap_rel (hchild : Chained D.toReading child child') (t : Transform Float)
    (name : String) (f : FrameId) :
    D.rel f (Step.wrap t child name f) (Step.wrap t child' name f) := by
  refine D.rel_of_during fun g hg => D.top_bind fun parent htop => ?_
  refine D.append_bind (by decide) hg (.inl htop) fun group g₁ _ made => ?_
  refine D.bind_during (D.setAttribute _ (by decide) made) fun _ g₂ h₂ => ?_
  exact D.withContext (D.made_after h₂ made) (hchild.block name f)

theorem translate_rel (hx : Alone D.toReading x x') (hy : Alone D.toReading y y')
    (hchild : Chained D.toReading child child') (f : FrameId) :
    D.rel f (Step.translate x y child f) (Step.translate x' y' child' f) :=
  D.bind (hx.number f) fun _ => D.bind (hy.number f) fun _ => wrap_rel hchild _ _ f

theorem rotate_rel (hx : Alone D.toReading x x') (hchild : Chained D.toReading child child')
    (f : FrameId) : D.rel f (Step.rotate x child f) (Step.rotate x' child' f) :=
  D.bind (hx.required _ f) fun _ => wrap_rel hchild _ _ f

theorem scale_rel (hx : Alone D.toReading x x') (hchild : Chained D.toReading child child')
    (f : FrameId) : D.rel f (Step.scale x child f) (Step.scale x' child' f) :=
  D.bind (hx.required _ f) fun _ => wrap_rel hchild _ _ f

/-- Measuring, while an operation draws. -/
theorem bounds_during (hD : D.Measures) {β : Type} {f : FrameId} {g : D.Stage} (hg : D.ready g f)
    (c : ElementId) {k k' : Box Float → Action β}
    (hk : ∀ b g', D.after f g g' → D.during g' f (k b) (k' b)) :
    D.during g f (Action.bounds c >>= k) (Action.bounds c >>= k') :=
  D.bind_during (D.during_of_rel (hD f c) hg) hk

/-- The late shift of the group is still a shift of an element that the node has made. -/
theorem align_rel (hD : D.Measures) (hchild : Chained D.toReading child child')
    (horizontal vertical : String) (f : FrameId) :
    D.rel f (Step.align .plain horizontal vertical child f)
      (Step.align .plain horizontal vertical child' f) := by
  refine D.rel_of_during fun g hg => D.top_bind fun parent htop => ?_
  refine bounds_during hD hg parent fun outer g₁ h₁ => ?_
  have hg₁ := D.ready_after h₁ hg
  refine D.append_bind (by decide) hg₁ (.inl (D.innermost_after h₁ htop))
    fun group g₂ h₂ made => ?_
  refine D.bind_during (D.withContext made (hchild.blockIfAny f)) fun _ g₃ h₃ => ?_
  refine bounds_during hD (D.ready_after h₃ (D.ready_after h₂ hg₁)) group fun inner g₄ h₄ => ?_
  exact D.setAttribute _ (by decide) (D.made_after h₄ (D.made_after h₃ made))

/-- The size is evaluated between looking up the innermost context and drawing in it; an
    evaluation that ends well does not move it. -/
theorem margin_rel (hD : D.Measures) (hx : Alone D.toReading x x')
    (hchild : Chained D.toReading child child') (f : FrameId) :
    D.rel f (Step.margin .plain x child f) (Step.margin .plain x' child' f) := by
  refine D.rel_of_during fun g hg => D.top_bind fun parent htop => ?_
  refine bounds_during hD hg parent fun outer g₁ h₁ => ?_
  have hg₁ := D.ready_after h₁ hg
  refine D.bind_during (D.during_of_rel (hx.required _ f) hg₁) fun v g₂ h₂ => ?_
  have hg₂ := D.ready_after h₂ hg₁
  have htop₂ := D.innermost_after h₂ (D.innermost_after h₁ htop)
  refine D.append_bind (by decide) hg₂ (.inl htop₂) fun group g₃ h₃ made => ?_
  refine D.bind_during (D.setAttribute _ (by decide) made) fun _ g₄ h₄ => ?_
  have made₄ := D.made_after h₄ made
  have hg₄ := D.ready_after h₄ (D.ready_after h₃ hg₂)
  refine D.append_bind (by decide) hg₄ (.inr made₄) fun filler g₅ h₅ hfiller => ?_
  -- four attributes of the filler; the group stays one that the node has made
  refine D.bind_during (D.setAttribute _ (by decide) hfiller) fun _ g₆ h₆ => ?_
  have hfiller₆ := D.made_after h₆ hfiller
  refine D.bind_during (D.setAttribute _ (by decide) hfiller₆) fun _ g₇ h₇ => ?_
  have hfiller₇ := D.made_after h₇ hfiller₆
  refine D.bind_during (D.setAttribute _ (by decide) hfiller₇) fun _ g₈ h₈ => ?_
  have hfiller₈ := D.made_after h₈ hfiller₇
  refine D.bind_during (D.setAttribute _ (by decide) hfiller₈) fun _ g₉ h₉ => ?_
  have made₇ := D.made_after h₇ (D.made_after h₆ (D.made_after h₅ made₄))
  exact D.withContext (D.made_after h₉ (D.made_after h₈ made₇)) (hchild.blockIfAny f)

/-! ### Shapes -/

/-- A shape that is dressed in a way that the discipline allows. -/
theorem shape_rel (hchild : Chained D.toReading child child') {tag : String}
    (htag : tag ∈ Drawing.shapeTags) {dress : ElementId → Action Unit} {f : FrameId}
    (hdress : ∀ {g e}, D.made g tag e → D.during g f (dress e) (dress e)) :
    D.rel f (Step.shape tag dress child f) (Step.shape tag dress child' f) := by
  refine D.rel_of_during fun g hg => D.top_bind fun parent htop => ?_
  refine D.append_bind (by decide) hg (.inl htop) fun group g₁ h₁ made => ?_
  have hg₁ := D.ready_after h₁ hg
  refine D.append_bind htag hg₁ (.inr made) fun element g₂ h₂ madeElement => ?_
  refine D.bind_during (hdress madeElement) fun _ g₃ h₃ => ?_
  -- without a child nothing is drawn any more, with one it is drawn in the new group
  cases hchild with
  | none => exact D.during_of_rel (D.pure _) (D.ready_after h₃ (D.ready_after h₂ hg₁))
  | some hbody =>
    refine D.withContext (D.made_after h₃ (D.made_after h₂ made)) ?_
    exact D.bind (hbody f) fun _ => D.pure _

/-- The attributes of a shape are those of its inputs, see `shape_rel`. -/
theorem circle_rel (hx : Alone D.toReading x x') (hchild : Chained D.toReading child child')
    (f : FrameId) : D.rel f (Step.circle x child f) (Step.circle x' child' f) := by
  refine D.bind (hx.required _ f) fun r => shape_rel hchild (by decide) fun made => ?_
  exact D.setAttribute _ (by decide) made

theorem rect_rel (hx : Alone D.toReading x x') (hy : Alone D.toReading y y')
    (hchild : Chained D.toReading child child') (f : FrameId) :
    D.rel f (Step.rect x y child f) (Step.rect x' y' child' f) := by
  refine D.bind (hx.required _ f) fun w => D.bind (hy.required _ f) fun h => ?_
  refine shape_rel hchild (by decide) fun made => ?_
  refine D.bind_during (D.setAttribute _ (by decide) made) fun _ _ h₁ => ?_
  exact D.setAttribute _ (by decide) (D.made_after h₁ made)

/-- A text has its content set while it is still the node's own. -/
theorem text_rel (hx : Alone D.toReading x x') (hchild : Chained D.toReading child child')
    (f : FrameId) : D.rel f (Step.text x child f) (Step.text x' child' f) := by
  refine D.bind (hx.required _ f) fun v => shape_rel hchild (by decide) fun made => ?_
  refine D.bind_during (D.setStyle _ _ (.inr ⟨_, made⟩)) fun _ _ h₁ => ?_
  exact D.setText _ (D.made_after h₁ made)

end Discipline

end BlockChart
