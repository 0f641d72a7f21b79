import BlockChart.Proofs.Activations
import BlockChart.Proofs.ProgramEffect

namespace BlockChart

open BlockChart.Action

/-!
# The transforms that a program writes

Five operations give a group a transform: `translate`, `rotate`, `scale` and `margin` before
anything is drawn in the group, `align` once all of it is there.  No other operation does,
and a group that has a transform never gets another one.

* `Action.KeepsTo.attributeOf?_withContext` — drawing in a group leaves its attributes alone;
* `Program.Writes` — the group and the transform that a node writes, from the values of its
  inputs;
* `Activation.interleaving` — a run goes through its parts, and adds what its node writes;
* `Activation.addsTransforms` — all that a run adds is what some node in it wrote;
* `Activation.Wrote.attributeOf?_final` — and all of that is there when the run is done.
-/

/-! ### Drawing in a group -/

/-- An effect leaves the attributes of elements from before alone. -/
theorem Effect.attributeOf?_eq {n : Nat} {f : FrameId} {s s' : Session} {o : Option Fault}
    (h : Effect n f s o s') {i : ElementId} (hi : i < n) (name : String) :
    s'.drawing.attributeOf? i name = s.drawing.attributeOf? i name := by
  induction h with
  | idle => rfl
  | fault _ => rfl
  | seq _ _ ih₁ ih₂ => exact (ih₂ hi).trans (ih₁ hi)
  | assign _ => rfl
  | append _ _ => exact Drawing.attributeOf?_append ..
  -- the element that is written is one of the run's own, and `i` is older
  | setAttribute _ value own =>
    exact Drawing.attributeOf?_setAttribute_of_ne
      (.inl (Nat.ne_of_lt (Nat.lt_of_lt_of_le hi own.1))) value
  | setStyle key value _ => exact Drawing.attributeOf?_setStyle key value
  | setText content _ => exact Drawing.attributeOf?_setText content
  | inContext made _ _ _ ih => exact ih (Nat.lt_of_lt_of_le hi made.own.le_size)
  | faultInContext made _ _ ih => exact ih (Nat.lt_of_lt_of_le hi made.own.le_size)
  | inFrame _ _ ih => exact ih hi
  | nested _ ih => exact ih hi

/-- What is drawn in a context changes no attribute of the elements that are there, the
    context among them. -/
theorem Action.KeepsTo.attributeOf?_withContext {s : Session} {f : FrameId}
    {body : Action Unit} (hbody : KeepsTo f body) (c : ElementId) {i : ElementId}
    (hi : i < s.drawing.size) (name : String) :
    ((Action.withContext f c body).run s).2.drawing.attributeOf? i name
      = s.drawing.attributeOf? i name := by
  rw [run_withContext]
  cases hpush : s.scopes.push f c with
  | error e => rfl
  | ok t =>
    -- the body makes elements after `i` only; popping changes no element
    have hlive : t.Live f := Scopes.live_of_top (Scopes.top_of_push hpush)
    have heffect := hbody s.drawing.size { s with scopes := t } ⟨hlive, Nat.le_refl _⟩
    have hsame := Effect.attributeOf?_eq heffect hi name
    simp only
    cases hrun : body.run { s with scopes := t } with
    | mk r s₁ =>
      rw [hrun] at hsame
      cases r with
      | error e => exact hsame
      | ok _ =>
        simp only
        cases s₁.scopes.pop f with
        | error e => exact hsame
        | ok found =>
          simp only [Action.run, Action.noteImbalance]
          split
          · exact hsame
          · exact hsame

/-! ### The transform of a node -/

/-- Where `align` shifts its group: the anchors against what was there before, and what is in
    the group. -/
def Step.alignment (horizontal vertical : String) (s s₁ : Session) (c : ElementId) :
    Transform Float :=
  let offset := Anchor.offset horizontal vertical (s.drawing.bounds c)
    (s₁.drawing.bounds s.drawing.size)
  .translate offset.1 offset.2

namespace Program

/-- **What a node writes**: in frame `f` and session `s`, its step gives the group `i` the
    transform `t`, as the values of its inputs have it. -/
inductive Writes (limit : Nat) (f : FrameId) (s : Session) :
    Program → ElementId → Transform Float → Prop
  | translate {x y child next : Program} {s₁ s₂ : Session} {a b : Float} {c : ElementId}
      (first : ((x.meaning? limit).number f).run s = (.ok a, s₁))
      (second : ((y.meaning? limit).number f).run s₁ = (.ok b, s₂))
      (context : s₂.scopes.top f = .ok c) :
      Writes limit f s (.translate false x y child next) s₂.drawing.size (.translate a b)
  | rotate {d : Bool} {degrees child : Program} {s₁ : Session} {v : Value} {c : ElementId}
      (input : ((degrees.meaning? limit).required "rotate.degrees" f).run s = (.ok v, s₁))
      (context : s₁.scopes.top f = .ok c) :
      Writes limit f s (.rotate d degrees child) s₁.drawing.size (.rotate v.toNumber)
  | scale {d : Bool} {factor child : Program} {s₁ : Session} {v : Value} {c : ElementId}
      (input : ((factor.meaning? limit).required "scale.factor" f).run s = (.ok v, s₁))
      (context : s₁.scopes.top f = .ok c) :
      Writes limit f s (.scale d factor child) s₁.drawing.size (.scale v.toNumber)
  | margin {size child next : Program} {s₁ : Session} {v : Value} {c : ElementId}
      (context : s.scopes.top f = .ok c)
      (input : ((size.meaning? limit).required "margin.size" f).run s = (.ok v, s₁)) :
      Writes limit f s (.margin false size child next) s₁.drawing.size
        (.translate v.toNumber v.toNumber)
  | align {horizontal vertical : String} {child next : Program} {s₁ : Session} {c : ElementId}
      (context : s.scopes.top f = .ok c)
      (drawn : (withContext f s.drawing.size ((child.meaning? limit).blockIfAny f)).run
        (s.opened c) = (.ok (), s₁)) :
      Writes limit f s (.align false horizontal vertical child next) s.drawing.size
        (Step.alignment horizontal vertical s s₁ c)

end Program

namespace Step

open Action.ConsistsOf

variable {limit : Nat} {inside : Program → Prop} {own : ElementId → Transform Float → Prop}
  {s : Session} {f : FrameId} {x y child next : Program} {d : Bool} {t : Transform Float}

/-! ### Operations that write a transform -/

/-- A group with a transform: the transform is written for the new group, and the child is a part.
    -/
theorem wrap_consistsOf (hchild : inside child) (name : String)
    (hown : ∀ c, s.scopes.top f = .ok c → own s.drawing.size t) :
    ConsistsOf limit inside own s (child.wrapped t f s)
      (wrap t (child.meaning? limit) name f) := by
  refine adds_bind (AddsTransforms.readScopes _ s) fun c s' hrun => ?_
  obtain ⟨htop, rfl⟩ := Prod.mk.inj hrun
  exact grouped (hown c htop) (withContext (fun _ => block hchild name) _)

/-- A shift writes the transform of its two inputs. -/
theorem translate_consistsOf (hx : inside x) (hy : inside y) (hchild : inside child) :
    ConsistsOf limit inside ((Program.translate false x y child next).Writes limit f s) s
      ((Program.translate false x y child next).parts limit f s)
      (translate (x.meaning? limit) (y.meaning? limit) (child.meaning? limit) f) :=
  bind (number hx) fun _ _ ha => bind (number hy) fun _ _ hb =>
    wrap_consistsOf hchild _ fun _ htop => .translate ha hb htop

/-- A rotation that of its one. -/
theorem rotate_consistsOf (hx : inside x) (hchild : inside child) :
    ConsistsOf limit inside ((Program.rotate d x child).Writes limit f s) s
      ((Program.rotate d x child).parts limit f s)
      (rotate (x.meaning? limit) (child.meaning? limit) f) :=
  bind (required hx _) fun _ _ hv => wrap_consistsOf hchild _ fun _ htop => .rotate hv htop

/-- So does a scaling. -/
theorem scale_consistsOf (hx : inside x) (hchild : inside child) :
    ConsistsOf limit inside ((Program.scale d x child).Writes limit f s) s
      ((Program.scale d x child).parts limit f s)
      (scale (x.meaning? limit) (child.meaning? limit) f) :=
  bind (required hx _) fun _ _ hv => wrap_consistsOf hchild _ fun _ htop => .scale hv htop

/-- The rectangle that fills a group has no transform. -/
theorem filler_addsTransforms (group : ElementId) (w h : String) :
    AddsTransforms own (filler group w h) := by
  refine .bind (.append group "rect") fun e => ?_
  refine .bind (.setAttribute e (by decide) _) fun _ => ?_
  refine .bind (.setAttribute e (by decide) _) fun _ => ?_
  exact .bind (.setAttribute e (by decide) _) fun _ => .setAttribute e (by decide) _

/-- What `margin` draws in its group. -/
theorem filled_consistsOf (hchild : inside child) (group : ElementId) (w h : String) :
    ConsistsOf limit inside own s
      ((filler group w h).ifOk s fun _ s => child.drawnIn f group s)
      (filler group w h >>= fun _ =>
        Action.withContext f group ((child.meaning? limit).blockIfAny f)) :=
  adds_bind (filler_addsTransforms group w h s) fun _ _ _ =>
    withContext (fun _ => blockIfAny hchild) group

/-- A margin shifts its group by the margin on both axes. -/
theorem margin_consistsOf (hx : inside x) (hchild : inside child) :
    ConsistsOf limit inside ((Program.margin false x child next).Writes limit f s) s
      ((Program.margin false x child next).parts limit f s)
      (margin .plain (x.meaning? limit) (child.meaning? limit) f) := by
  refine adds_bind (AddsTransforms.readScopes _ s) fun c s' hrun => measured ?_
  obtain ⟨htop, rfl⟩ := Prod.mk.inj hrun
  refine bind (required hx _) fun v s₁ hv => grouped (.margin htop hv) ?_
  exact filled_consistsOf hchild _ _ _

/-- An alignment shifts its group when the child has been drawn and measured. -/
theorem align_consistsOf (hchild : inside child) (horizontal vertical : String) :
    ConsistsOf limit inside
      ((Program.align false horizontal vertical child next).Writes limit f s) s
      ((Program.align false horizontal vertical child next).parts limit f s)
      (align .plain horizontal vertical (child.meaning? limit) f) := by
  refine adds_bind (AddsTransforms.readScopes _ s) fun c s' hrun => measured (opened ?_)
  obtain ⟨htop, rfl⟩ := Prod.mk.inj hrun
  refine bind_adds (withContext (fun _ => blockIfAny hchild) _) fun _ s₁ hdrawn => ?_
  -- the child has drawn in the group, and has not given it a transform
  have hkeeps : KeepsTo f ((child.meaning? limit).blockIfAny f) :=
    (child.meaning?_keepsTo limit).chained.blockIfAny f
  have hnone := hkeeps.attributeOf?_withContext s.drawing.size (s.size_lt_size_opened c) "transform"
  rw [s.attributeOf?_opened c, hdrawn] at hnone
  exact .setTransform hnone (.align htop hdrawn)

end Step

namespace Program

open Step

variable {limit : Nat} {s : Session}

/-- **A node goes through its parts**, each of which is a run of one of its slots. -/
theorem eval_consistsOf (p : Program) (f : FrameId) (hroom : s.depth < limit) :
    ConsistsOf limit (· ∈ p.slots) (p.Writes limit f { s with depth := s.depth + 1 }) s
      (p.parts limit f { s with depth := s.depth + 1 }) (p.eval limit f) := by
  -- each rule asks that its inputs be in slots of the node, which they are here
  have hs : ∀ q ∈ p.slots, q ∈ p.slots := fun _ hq => hq
  cases p with
  | nothing | string d text | load d name | width d | height d | rows d | columns d =>
    exact .leaf rfl rfl
  | count d x => exact .nested hroom (count_consistsOf (firstSlot hs))
  | cell d x y => exact .nested hroom (cell_consistsOf (firstSlot hs) (secondSlot hs))
  | columnName d x => exact .nested hroom (columnName_consistsOf (firstSlot hs))
  | binary d x y operator =>
    exact .nested hroom (binary_consistsOf (firstSlot hs) (secondSlot hs) operator)
  | stat d x operator => exact .nested hroom (stat_consistsOf (firstSlot hs) operator)
  | store d name x next =>
    cases d with
    | true => exact .disabled
    | false => exact .statement hroom (store_consistsOf (firstSlot hs) name)
  | color d paint c next =>
    cases d with
    | true => exact .disabled
    | false => exact .statement hroom (color_consistsOf paint c)
  | alpha d opacity x next =>
    cases d with
    | true => exact .disabled
    | false => exact .statement hroom (alpha_consistsOf (firstSlot hs) opacity)
  | forEach d x name child next =>
    cases d with
    | true => exact .disabled
    | false => exact .statement hroom (forEach_consistsOf (firstSlot hs) (secondSlot hs) name)
  | conditional d x child next =>
    cases d with
    | true => exact .disabled
    | false => exact .statement hroom (conditional_consistsOf (firstSlot hs) (secondSlot hs))
  | translate d x y child next =>
    cases d with
    | true => exact .disabled
    | false =>
      exact .statement hroom
        (translate_consistsOf (firstSlot hs) (secondSlot hs) (thirdSlot hs))
  | rotate d x child =>
    exact .statement hroom (rotate_consistsOf (firstSlot hs) (secondSlot hs))
  | scale d x child =>
    exact .statement hroom (scale_consistsOf (firstSlot hs) (secondSlot hs))
  | align d horizontal vertical child next =>
    cases d with
    | true => exact .disabled
    | false => exact .statement hroom (align_consistsOf (firstSlot hs) horizontal vertical)
  | margin d x child next =>
    cases d with
    | true => exact .disabled
    | false => exact .statement hroom (margin_consistsOf (firstSlot hs) (secondSlot hs))
  | circle d x child next =>
    cases d with
    | true => exact .disabled
    | false => exact .statement hroom (circle_consistsOf (firstSlot hs) (secondSlot hs))
  | rect d x y child next =>
    cases d with
    | true => exact .disabled
    | false =>
      exact .statement hroom (rect_consistsOf (firstSlot hs) (secondSlot hs) (thirdSlot hs))
  | text d x child next =>
    cases d with
    | true => exact .disabled
    | false => exact .statement hroom (text_consistsOf (firstSlot hs) (secondSlot hs))

end Program

/-! ### Runs -/

namespace Activation

variable {limit : Nat}

/-- **The transform that a run writes itself**, when its node does its step. -/
inductive Writes (limit : Nat) : Activation → ElementId → Transform Float → Prop
  | input {p : Program} {f : FrameId} {s : Session} {i : ElementId} {t : Transform Float}
      (room : s.depth < limit) (node : p.Writes limit f { s with depth := s.depth + 1 } i t) :
      Writes limit (.input p f s) i t

/-- A node that is run alone. -/
theorem interleaving_input (limit : Nat) (p : Program) (f : FrameId) (s : Session) :
    Interleaving limit (· ∈ p.slots) ((input p f s).Writes limit) s.drawing
      ((input p f s).parts limit) ((input p f s).final limit).drawing := by
  rw [parts]
  by_cases hroom : s.depth < limit
  · rw [if_pos hroom]
    exact (p.eval_consistsOf f hroom).mono (fun _ h => h) fun _ _ h => .input hroom h
  · have hstays : (input p f s).final limit = s :=
      Program.session_eval_of_limit_le (Nat.not_lt.mp hroom) p f
    rw [if_neg hroom, hstays]
    exact .last (.refl _)

/-- A chain consists of its first node and of the chain that follows it. -/
theorem interleaving_body (limit : Nat) (p : Program) (f : FrameId) (s : Session) :
    Interleaving limit (fun _ => True) ((body p f s).Writes limit) s.drawing
      ((body p f s).parts limit) ((body p f s).final limit).drawing := by
  rw [parts]
  -- a chain without a block has no parts
  by_cases hp : p = .nothing
  · subst hp
    exact .last (.refl _)
  · have hchain : ConsistsOf limit (fun _ => True) ((body p f s).Writes limit) s
        ([.input p f s] ++ (p.eval limit f).ifOk s fun _ s => [.body p.next f s])
        (p.runChain limit f) := by
      rw [Program.runChain_eq hp]
      refine .bind (.of_final trivial rfl rfl) fun v s₁ _ => ?_
      cases hm : p.next.meaning? limit with
      -- the chain ends here, or goes on with the next block
      | none =>
        rw [Program.eq_nothing_of_meaning? hm]
        exact .of_final trivial rfl rfl
      | some m => exact .chain trivial hm
    rw [if_neg hp]
    exact hchain

/-- **A run goes through its parts**, and adds what it writes itself. -/
theorem interleaving (limit : Nat) (a : Activation) :
    Interleaving limit (fun _ => True) (a.Writes limit) a.session.drawing (a.parts limit)
      (a.final limit).drawing := by
  cases a with
  | input p f s => exact (interleaving_input limit p f s).mono (fun _ _ => trivial) fun _ _ h => h
  | body p f s => exact interleaving_body limit p f s

/-- **Induction over runs**: what every run inherits from its parts holds of every run. -/
theorem parts_induction (limit : Nat) {motive : Activation → Prop}
    (run : ∀ a : Activation, (∀ b ∈ a.parts limit, motive b) → motive a) (a : Activation) :
    motive a := by
  -- on the program; a chain has its own first node as a part, so that comes first
  have hprogram : ∀ p : Program, ∀ f s, motive (.input p f s) ∧ motive (.body p f s) := by
    intro p
    induction p using Program.slots_induction with
    | node p ih =>
      have hinput : ∀ f s, motive (.input p f s) := by
        intro f s
        refine run _ fun b hb => ?_
        have hslots := (interleaving_input limit p f s).program_of_mem hb
        cases b with
        | input q g s' => exact (ih q hslots g s').1
        | body q g s' => exact (ih q hslots g s').2
      refine fun f s => ⟨hinput f s, run _ fun b hb => ?_⟩
      rw [parts] at hb
      split at hb
      · exact absurd hb List.not_mem_nil
      · rcases List.mem_append.mp hb with hfirst | hrest
        · obtain rfl := List.mem_singleton.mp hfirst
          exact hinput f s
        · obtain ⟨_, s₁, -, hmem⟩ := mem_ifOk hrest
          obtain rfl := List.mem_singleton.mp hmem
          by_cases hnext : p.next = .nothing
          · refine run _ fun b hb => ?_
            rw [parts, if_pos hnext] at hb
            exact absurd hb List.not_mem_nil
          · exact (ih _ (Program.next_mem_slots hnext) f s₁).2
  cases a with
  | input p f s => exact (hprogram p f s).1
  | body p f s => exact (hprogram p f s).2

end Activation

/-! ### What is written stays -/

namespace Step

variable {s s₁ : Session} {f : FrameId} {c : ElementId} {v : Value} {x child : Slot}
  {t : Transform Float}

theorem run_top (htop : s.scopes.top f = .ok c) : (Action.top f).run s = (.ok c, s) :=
  congrArg (·, s) htop

/-- After a node that wraps its child the new group has the transform. -/
theorem attributeOf?_wrap {name : String} (hkeeps : KeepsTo f (child.block name f))
    (htop : s.scopes.top f = .ok c) :
    ((wrap t child name f).run s).2.drawing.attributeOf? s.drawing.size "transform"
      = some t.text := by
  have hwritten := s.attributeOf?_grouped c t
  unfold wrap
  rw [run_bind_of_ok _ (run_top htop), run_group,
    hkeeps.attributeOf?_withContext _ (Drawing.lt_size_of_attributeOf? hwritten)]
  exact hwritten

/-- `margin` once its input is there. -/
theorem run_margin (htop : s.scopes.top f = .ok c)
    (hv : (x.required "margin.size" f).run s = (.ok v, s₁)) :
    (margin .plain x child f).run s = (do
      filler s₁.drawing.size (chartText ((s.drawing.bounds c).width - 2 * v.toNumber))
        (chartText ((s.drawing.bounds c).height - 2 * v.toNumber))
      withContext f s₁.drawing.size (child.blockIfAny f)).run
        (s₁.grouped c (.translate v.toNumber v.toNumber)) := by
  have hbounds : (Action.bounds c).run s = (.ok (s.drawing.bounds c), s) := rfl
  unfold margin
  rw [run_bind_of_ok _ (run_top htop), run_bind_of_ok _ hbounds, run_bind_of_ok _ hv]
  rfl

/-- After a margin the group that was made behind the input has it. -/
theorem attributeOf?_margin (hkeeps : KeepsTo f (child.blockIfAny f))
    (htop : s.scopes.top f = .ok c) (hv : (x.required "margin.size" f).run s = (.ok v, s₁)) :
    ((margin .plain x child f).run s).2.drawing.attributeOf? s₁.drawing.size "transform"
      = some (Transform.translate v.toNumber v.toNumber).text := by
  have hwritten := s₁.attributeOf?_grouped c (.translate v.toNumber v.toNumber)
  rw [run_margin htop hv]
  -- whatever sizes the filler gets, writing them adds no transform
  generalize chartText ((s.drawing.bounds c).width - 2 * v.toNumber) = w
  generalize chartText ((s.drawing.bounds c).height - 2 * v.toNumber) = h
  obtain ⟨s₂, hfiller⟩ : ∃ s₂, (filler s₁.drawing.size w h).run
    (s₁.grouped c (.translate v.toNumber v.toNumber)) = (.ok (), s₂) := ⟨_, rfl⟩
  have hadds : AddsTransforms (fun _ _ => False) (filler s₁.drawing.size w h) :=
    filler_addsTransforms _ w h
  have hkept := (hadds _).kept _ _ hwritten
  rw [hfiller] at hkept
  rw [run_bind_of_ok _ hfiller,
    hkeeps.attributeOf?_withContext _ (Drawing.lt_size_of_attributeOf? hkept)]
  exact hkept

/-- The last step of `align`. -/
theorem run_align (htop : s.scopes.top f = .ok c) (horizontal vertical : String)
    (hdrawn : (withContext f s.drawing.size (child.blockIfAny f)).run (s.opened c)
      = (.ok (), s₁)) :
    ((align .plain horizontal vertical child f).run s).2
      = s₁.drawn s.drawing.size (s₁.drawing.setAttribute s.drawing.size "transform"
          (alignment horizontal vertical s s₁ c).text) := by
  have hbounds : (Action.bounds c).run s = (.ok (s.drawing.bounds c), s) := rfl
  have happend : (Action.append c LayoutTags.plain.aligned).run s
      = (.ok s.drawing.size, s.opened c) := rfl
  unfold align
  rw [run_bind_of_ok _ (run_top htop), run_bind_of_ok _ hbounds, run_bind_of_ok _ happend,
    run_bind_of_ok _ hdrawn]
  rfl

/-- After an alignment the group has the offset that was measured. -/
theorem attributeOf?_align (hkeeps : KeepsTo f (child.blockIfAny f)) (htop : s.scopes.top f = .ok c)
    (horizontal vertical : String)
    (hdrawn : (withContext f s.drawing.size (child.blockIfAny f)).run (s.opened c)
      = (.ok (), s₁)) :
    ((align .plain horizontal vertical child f).run s).2.drawing.attributeOf? s.drawing.size
        "transform"
      = some (alignment horizontal vertical s s₁ c).text := by
  rw [run_align htop horizontal vertical hdrawn]
  refine Drawing.attributeOf?_setAttribute_self ?_ _
  -- the group is still there after its content has been drawn
  have heffect := hkeeps.withContext (s.made_opened c)
  unfold HasEffect at heffect
  rw [hdrawn] at heffect
  exact Nat.lt_of_lt_of_le (s.size_lt_size_opened c) heffect.residue.grows

end Step

namespace Program

open Step

variable {limit : Nat} {p : Program} {f : FrameId} {s : Session}

/-- A statement that is run alone leaves the drawing that its step leaves. -/
theorem drawing_eval (p : Program) {step : FrameId → Action Unit} {next : Slot}
    (hp : p.meaning? limit = some (.statement limit false step next)) (hroom : s.depth < limit) :
    ((p.eval limit f).run s).2.drawing
      = ((step f).run { s with depth := s.depth + 1 }).2.drawing := by
  -- the statement's value is always `unit`, so its drawing is that of the step
  let body : Action Value := step f >>= fun _ => pure .unit
  have hbody : ∀ s : Session, (body.run s).2 = ((step f).run s).2 := by
    intro s
    cases hrun : (step f).run s with
    | mk r s₁ =>
      cases r with
      | ok _ => exact congrArg Prod.snd (run_bind_of_ok _ hrun)
      | error e => exact congrArg Prod.snd (run_bind_of_error _ hrun)
  have hnested : (Action.nested limit body).run s
      = ((body.run { s with depth := s.depth + 1 }).1,
        { (body.run { s with depth := s.depth + 1 }).2 with
          depth := (body.run { s with depth := s.depth + 1 }).2.depth - 1 }) :=
    if_neg (Nat.not_le.mpr hroom)
  have heval : p.eval limit f = Action.nested limit body := by
    unfold eval
    rw [hp]
    rfl
  rw [heval, hnested, hbody]

/-- **What a node writes is there** when it is done, or has failed. -/
theorem Writes.attributeOf?_eval {i : ElementId} {t : Transform Float} (hroom : s.depth < limit)
    (h : p.Writes limit f { s with depth := s.depth + 1 } i t) :
    ((p.eval limit f).run s).2.drawing.attributeOf? i "transform" = some t.text := by
  have hchild (child : Program) := (child.meaning?_keepsTo limit).chained
  cases h with
  | @translate x y child next s₁ s₂ a b c first second context =>
    -- the inputs are evaluated first; the wrapped group then gets the transform
    have hstep : (Step.translate (x.meaning? limit) (y.meaning? limit) (child.meaning? limit) f).run
        { s with depth := s.depth + 1 }
          = (wrap (.translate a b) (child.meaning? limit) "translate.child" f).run s₂ := by
      rw [Step.translate, run_bind_of_ok _ first, run_bind_of_ok _ second]
    rw [drawing_eval (.translate false x y child next) rfl hroom]
    exact hstep ▸ attributeOf?_wrap ((hchild child).block _ f) context
  | @rotate d degrees child s₁ v c input context =>
    have hstep : (Step.rotate (degrees.meaning? limit) (child.meaning? limit) f).run
        { s with depth := s.depth + 1 }
          = (wrap (.rotate v.toNumber) (child.meaning? limit) "rotate.child" f).run s₁ := by
      rw [Step.rotate, run_bind_of_ok _ input]
    rw [drawing_eval (.rotate d degrees child) rfl hroom]
    exact hstep ▸ attributeOf?_wrap ((hchild child).block _ f) context
  | @scale d factor child s₁ v c input context =>
    have hstep : (Step.scale (factor.meaning? limit) (child.meaning? limit) f).run
        { s with depth := s.depth + 1 }
          = (wrap (.scale v.toNumber) (child.meaning? limit) "scale.child" f).run s₁ := by
      rw [Step.scale, run_bind_of_ok _ input]
    rw [drawing_eval (.scale d factor child) rfl hroom]
    exact hstep ▸ attributeOf?_wrap ((hchild child).block _ f) context
  | @margin size child next s₁ v c context input =>
    rw [drawing_eval (.margin false size child next) rfl hroom]
    exact attributeOf?_margin ((hchild child).blockIfAny f) context input
  | @align horizontal vertical child next s₁ c context drawn =>
    rw [drawing_eval (.align false horizontal vertical child next) rfl hroom]
    exact attributeOf?_align ((hchild child).blockIfAny f) context horizontal vertical drawn

end Program

namespace Activation

variable {limit : Nat} {a b : Activation} {i : ElementId} {t : Transform Float}

/-- **What a run writes**, itself or in a run that it goes through. -/
def Wrote (limit : Nat) (a : Activation) (i : ElementId) (t : Transform Float) : Prop :=
  ∃ b, a.Visits limit b ∧ b.Writes limit i t

/-- **A run adds what it writes**, and keeps all else. -/
theorem addsTransforms (limit : Nat) (a : Activation) :
    a.session.drawing.AddsTransforms (a.Wrote limit) (a.final limit).drawing := by
  induction a using parts_induction limit with
  | run a ih =>
    refine (a.interleaving limit).addsTransforms (fun i t h => ⟨a, .refl, h⟩) fun b hb => ?_
    refine (ih b hb).mono ?_
    rintro i t ⟨c, hvisits, h⟩
    exact ⟨c, .head hb hvisits, h⟩

/-- **All that a run writes is there** when it is done, or has failed. -/
theorem Wrote.attributeOf?_final (h : a.Wrote limit i t) :
    (a.final limit).drawing.attributeOf? i "transform" = some t.text := by
  obtain ⟨b, hvisits, hwrites⟩ := h
  induction hvisits using Relation.ReflTransGen.head_induction_on with
  | refl =>
    cases hwrites with
    | input room node => exact node.attributeOf?_eval room
  | @head a c hc _ ih =>
    -- the rest of the run, whatever it adds, keeps it
    have hrest : (c.final limit).drawing.AddsTransforms (fun _ _ => True) (a.final limit).drawing :=
      (a.interleaving limit).addsTransforms_of_mem (fun _ _ _ => trivial)
        (fun d _ => (d.addsTransforms limit).mono fun _ _ _ => trivial) hc
    exact hrest.kept i _ ih

end Activation

end BlockChart
