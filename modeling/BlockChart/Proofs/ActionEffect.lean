import BlockChart.Evaluation.Meaning
import BlockChart.Proofs.Effect

namespace BlockChart

/-!
# Effects of actions

One rule for each way to build an action.  `Action.HasEffect` is about a single
session, so that a rule may say what it needs to know there: which context is the
innermost one, and which elements are the node's own.  `Action.KeepsTo f` is about
all sessions in which `f` is live, and is what the meanings of programs have.
-/

namespace Session

variable {s s' : Session} {n : Nat} {f : FrameId} {o : Option Fault} {c : ElementId}

/-- A session in which a node may start that calls the elements from `n` on its own. -/
structure Ready (s : Session) (n : Nat) (f : FrameId) : Prop where
  live : s.scopes.Live f
  bound : n ≤ s.drawing.size

/-- After an effect of the node the session is still ready for it. -/
theorem Ready.after (h : s.Ready n f) (he : Effect n f s o s') : s'.Ready n f :=
  ⟨he.live h.live, Nat.le_trans h.bound he.residue.grows⟩

/-- What a node owns is not beyond the end of the drawing. -/
theorem Owns.le_size (h : s.Owns n c) : n ≤ s.drawing.size :=
  Nat.le_trans h.1 (Nat.le_of_lt h.2)

/-- What a node owns it still owns after an effect: no element is taken away. -/
theorem Owns.after (h : s.Owns n c) (he : Effect n f s o s') : s'.Owns n c :=
  ⟨h.1, Nat.lt_of_lt_of_le h.2 he.residue.grows⟩

/-- An element that was made keeps its tag. -/
theorem Made.after {tag : String} (h : s.Made n tag c) (he : Effect n f s o s') :
    s'.Made n tag c :=
  ⟨h.own.after he, (he.tag?_eq h.own.2).trans h.tag⟩

end Session

namespace Action

variable {α β : Type} {n : Nat} {f : FrameId} {s : Session}

/-- What the action does to the session is an effect of frame `f`. -/
def HasEffect (a : Action α) (n : Nat) (f : FrameId) (s : Session) : Prop :=
  Effect n f s (Fault.of? (a.run s).1) (a.run s).2

/-! ### Running sequences and brackets -/

/-- The first action ends well, so the second goes on from its session. -/
theorem run_bind_of_ok {a : Action α} (k : α → Action β) {x : α} {s₁ : Session}
    (h : a.run s = (.ok x, s₁)) : (a >>= k).run s = (k x).run s₁ := by
  unfold run at h
  simp only [run, bind, h]

/-- The first action fails, so the second is never run. -/
theorem run_bind_of_error {a : Action α} (k : α → Action β) {e : Fault} {s₁ : Session}
    (h : a.run s = (.error e, s₁)) : (a >>= k).run s = (.error e, s₁) := by
  unfold run at h
  simp only [run, bind, h]

/-- A bracket for a drawing context, step by step. -/
theorem run_withContext (f : FrameId) (c : ElementId) (body : Action Unit) (s : Session) :
    (withContext f c body).run s =
      match s.scopes.push f c with
      | .error e => (.error e, s)
      | .ok t =>
        match body.run { s with scopes := t } with
        | (.error e, s₁) => (.error e, s₁)
        | (.ok _, s₁) =>
          match s₁.scopes.pop f with
          | .error e => (.error e, s₁)
          | .ok (x, u) => (noteImbalance c x).run { s₁ with scopes := u } := by
  simp only [withContext, run, bind, push, changeScopes]
  -- in the order of the action: pushing may fail, then the body, then popping
  cases hpush : s.scopes.push f c with
  | error e => rfl
  | ok t =>
    simp only [Except.map]
    rcases hbody : body { s with scopes := t } with ⟨_ | _, s₁⟩
    · rfl
    · simp only [pop, changeScopes]
      cases s₁.scopes.pop f with
      | error e => rfl
      | ok found => rfl

@[simp] theorem run_noteImbalance_self (c : ElementId) (s : Session) :
    (noteImbalance c c).run s = (.ok (), s) :=
  if_pos rfl

/-! ### Single sessions -/

namespace HasEffect

/-- Actions that leave the session as it is. -/
theorem of_same {a : Action α} (h : (a.run s).2 = s)
    (hfault : ∀ e, (a.run s).1 = .error e → s.scopes.Raises f e) : a.HasEffect n f s := by
  unfold HasEffect
  rw [h]
  cases hr : (a.run s).1 with
  | ok x => exact .idle
  | error e => exact .fault (hfault e hr)

/-- **One action after another.**  What follows may use that the first one ended well,
    and what it did. -/
theorem bind {a : Action α} {k : α → Action β} (ha : a.HasEffect n f s)
    (hk : ∀ x s₁, a.run s = (.ok x, s₁) → Effect n f s none s₁ → (k x).HasEffect n f s₁) :
    (a >>= k).HasEffect n f s := by
  unfold HasEffect at ha ⊢
  cases hr : a.run s with
  | mk r s₁ =>
    rw [hr] at ha
    cases r with
    | ok x =>
      rw [run_bind_of_ok k hr]
      exact .seq ha (hk x s₁ hr ha)
    | error e =>
      rw [run_bind_of_error k hr]
      exact ha

/-- Asking for the innermost context. -/
theorem top_bind {k : ElementId → Action β}
    (hk : ∀ c, s.scopes.top f = .ok c → (k c).HasEffect n f s) :
    (Action.top f >>= k).HasEffect n f s := by
  refine bind (of_same rfl fun _ => .context) fun c s₁ hrun _ => ?_
  obtain ⟨htop, rfl⟩ := Prod.mk.inj hrun
  exact hk c htop

/-- Appending an element, which is the node's own from then on. -/
theorem append_bind {k : ElementId → Action β} {c : ElementId} {tag : String}
    (shape : tag ∈ Drawing.shapeTags) (hn : n ≤ s.drawing.size) (spot : s.DrawsIn n f c)
    (hk : ∀ g s₁, s₁.Made n tag g → Effect n f s none s₁ → (k g).HasEffect n f s₁) :
    (Action.append c tag >>= k).HasEffect n f s := by
  refine bind (.append shape spot) fun g s₁ hrun he => hk g s₁ ?_ he
  obtain ⟨hg, rfl⟩ := Prod.mk.inj hrun
  cases hg
  refine ⟨⟨hn, ?_⟩, Drawing.tag?_append_new⟩
  show s.drawing.size < (s.drawing.append c tag).2.size
  rw [Drawing.size_append]
  exact Nat.lt_succ_self _

/-- Attributes are set on the node's own elements only. -/
theorem setAttribute {c : ElementId} {name : String} (known : name ∈ Drawing.attributeNames)
    (own : s.Owns n c) (value : String) : (Action.setAttribute c name value).HasEffect n f s :=
  Effect.setAttribute known value own

/-- Styles may also be set on the element that is drawn into. -/
theorem setStyle {c : ElementId} (reach : s.Reaches n f c) (name value : String) :
    (Action.setStyle c name value).HasEffect n f s :=
  Effect.setStyle name value reach

/-- A content is given only to a text that the node has made. -/
theorem setText {c : ElementId} (made : s.Made n "text" c) (content : String) :
    (Action.setText c content).HasEffect n f s :=
  Effect.setText content made

/-- **The bracket for a drawing context** finds the context again that it put on. -/
theorem withContext {c : ElementId} {body : Action Unit} (made : s.Made n "g" c)
    (hbody : ∀ t, s.scopes.push f c = .ok t →
      body.HasEffect s.drawing.size f { s with scopes := t }) :
    (Action.withContext f c body).HasEffect n f s := by
  unfold HasEffect
  rw [run_withContext]
  cases hpush : s.scopes.push f c with
  | error e => exact .fault ((Scopes.misses_of_modify hpush).raises)
  | ok t =>
    have he := hbody t hpush
    unfold HasEffect at he
    simp only
    cases hrun : body.run { s with scopes := t } with
    | mk r s₁ =>
      rw [hrun] at he
      cases r with
      | error e => exact .faultInContext made hpush he
      | ok _ =>
        -- the body ended well, so the stack of `f` is the one with `c` put on
        obtain ⟨hlive, -⟩ := Scopes.modify_eq_ok_iff.mp hpush
        have hself := Scopes.frames_modify_self hpush
        rw [Array.getElem?_eq_getElem hlive, Option.map_some] at hself
        obtain ⟨b, hb, hab⟩ := he.residue.own_of_none hself
        obtain ⟨u, hpop, -⟩ := Scopes.pop_of_contexts hb hab.contexts
        simp only [hpop, run_noteImbalance_self]
        exact .inContext made hpush he hpop

/-- **The bracket for a fresh frame.** -/
theorem inFreshFrame {body : FrameId → Action α} (live : s.scopes.Live f)
    (hbody : (body (s.scopes.openFrame f).1).HasEffect n (s.scopes.openFrame f).1
      { s with scopes := (s.scopes.openFrame f).2 }) :
    (Action.inFreshFrame f body).HasEffect n f s :=
  Effect.inFrame live hbody

/-- **The bracket for a level of nesting.** -/
theorem nested {limit : Nat} {body : Action α}
    (hbody : body.HasEffect n f { s with depth := s.depth + 1 }) :
    (Action.nested limit body).HasEffect n f s := by
  unfold HasEffect
  by_cases hlimit : limit ≤ s.depth
  · rw [show (Action.nested limit body).run s = (.error (.recursionLimit limit), s) from
      if_pos hlimit]
    exact .fault (.data (.recursionLimit limit))
  · rw [show (Action.nested limit body).run s
        = ((body.run { s with depth := s.depth + 1 }).1,
          { (body.run { s with depth := s.depth + 1 }).2 with
            depth := (body.run { s with depth := s.depth + 1 }).2.depth - 1 }) from if_neg hlimit]
    exact .nested hbody

end HasEffect

/-! ### All sessions in which the frame is live -/

/-- **The action keeps to the effects of frame `f`**, whichever elements are there when
    it starts. -/
def KeepsTo (f : FrameId) (a : Action α) : Prop :=
  ∀ n s, s.Ready n f → a.HasEffect n f s

namespace KeepsTo

/-- To do nothing keeps to any frame. -/
theorem pure (x : α) : KeepsTo f (Pure.pure x : Action α) :=
  fun _ _ _ => .of_same rfl fun _ => nofun

/-- To fail does too, if the cause is in the data. -/
theorem fail {e : Fault} (cause : e.DataDependent) : KeepsTo f (Action.fail e : Action α) := by
  refine fun _ _ _ => .of_same rfl fun e' he => ?_
  cases he
  exact .data cause

/-- Reading the scopes changes nothing, and fails for one of the causes that are known. -/
theorem readScopes {r : Scopes → Except Fault α} (hr : ∀ s e, r s = .error e → s.Raises f e) :
    KeepsTo f (Action.readScopes r) :=
  fun _ s _ => .of_same rfl (hr s.scopes)

/-- Looking up a variable, which nobody may have bound. -/
theorem lookup (name : String) : KeepsTo f (Action.lookup f name) := by
  refine readScopes fun s e he => ?_
  rcases Scopes.misses_of_lookup he with rfl | hmisses
  · exact .data (.undefinedVariable name)
  · exact hmisses.raises

/-- So does measuring: nothing is changed. -/
theorem bounds (c : ElementId) : KeepsTo f (Action.bounds c) :=
  fun _ _ _ => .of_same rfl fun _ => nofun

/-- One action after the other, whatever the first one gives. -/
theorem bind {a : Action α} {k : α → Action β} (ha : KeepsTo f a) (hk : ∀ x, KeepsTo f (k x)) :
    KeepsTo f (a >>= k) :=
  fun n s hs => .bind (ha n s hs) fun x s₁ _ he => hk x n s₁ (hs.after he)

/-- Assigning changes a variable, and no context. -/
theorem assign (name : String) (v : Value) : KeepsTo f (Action.assign f name v) := by
  intro n s _
  unfold HasEffect
  cases hassign : s.scopes.assign f name v with
  | error e =>
    rw [show (Action.assign f name v).run s = (.error e, s) by
      simp only [Action.run, Action.assign, changeScopes, hassign, Except.map]]
    exact .fault ((Scopes.misses_of_modify hassign).raises)
  | ok t =>
    rw [show (Action.assign f name v).run s = (.ok (), { s with scopes := t }) by
      simp only [Action.run, Action.assign, changeScopes, hassign, Except.map]]
    exact .assign hassign

/-- Drawing inside a group of the node's own. -/
theorem withContext {c : ElementId} {body : Action Unit} (hbody : KeepsTo f body)
    (made : s.Made n "g" c) : (Action.withContext f c body).HasEffect n f s := by
  refine .withContext made fun t hpush => hbody _ _ ⟨?_, Nat.le_refl _⟩
  exact Scopes.live_of_top (Scopes.top_of_push hpush)

/-- The fresh frame is given back at the end, so what is done in it keeps to that frame. -/
theorem inFreshFrame {body : FrameId → Action α} (hbody : ∀ g, KeepsTo g (body g)) :
    KeepsTo f (Action.inFreshFrame f body) := by
  intro n s hs
  refine .inFreshFrame hs.live (hbody _ n _ ⟨?_, hs.bound⟩)
  exact Scopes.live_openFrame s.scopes f

/-- The depth is set back, whether the body ends well or not. -/
theorem nested (limit : Nat) {body : Action α} (hbody : KeepsTo f body) :
    KeepsTo f (Action.nested limit body) :=
  fun n _ hs => .nested (hbody n _ ⟨hs.live, hs.bound⟩)

end KeepsTo

end Action

end BlockChart
