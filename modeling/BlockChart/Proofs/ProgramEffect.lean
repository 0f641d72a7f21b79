import BlockChart.Proofs.ActionEffect
import BlockChart.Proofs.Comparison

namespace BlockChart

/-!
# Effects of programs

Keeping to the effects of one's frame is a discipline, `Discipline.keeping`: while an operation
draws, its stage is the session, and the number from which on elements are its own.  So every
program keeps to the effects of its frame, and what is to be shown of all runs can be shown of
effects.

* `Program.meaning?_keepsTo` — the meaning of every program;
* `Program.eval_keepsTo`, `Program.runChain_keepsTo` and `Program.run_keepsTo` — the ways to run
  one.
-/

open Action

/-- **Keeping to the effects of one's frame.**  It is about a single run. -/
def Discipline.keeping : Discipline where
  rel f a _ := KeepsTo f a
  pure := .pure
  fail cause := .fail cause.dataDependent
  bind := .bind
  read hr := .readScopes fun s e he => (hr s e he).raises
  Stage := Nat × Session
  during g f a _ := a.HasEffect g.1 f g.2
  ready g f := g.2.Ready g.1 f
  innermost g f c := g.2.scopes.top f = .ok c
  made g tag c := g.2.Made g.1 tag c
  after f g g' := g'.1 = g.1 ∧ Effect g.1 f g.2 none g'.2
  ready_after := by
    rintro f ⟨n, s⟩ ⟨_, s'⟩ ⟨rfl, he⟩ hs
    exact hs.after he
  innermost_after := by
    rintro f ⟨n, s⟩ ⟨_, s'⟩ c ⟨rfl, he⟩ htop
    exact (he.top_eq f).trans htop
  made_after := by
    rintro f ⟨n, s⟩ ⟨_, s'⟩ tag c ⟨rfl, he⟩ hmade
    exact hmade.after he
  rel_of_during h n s hs := h (n, s) hs
  during_of_rel h hs := h _ _ hs
  bind_during ha hk := .bind ha fun x s₁ _ he => hk x (_, s₁) ⟨rfl, he⟩
  top_bind hk := .top_bind hk
  append_bind shape hs spot hk :=
    .append_bind shape hs.bound spot fun i s₁ made he => hk i (_, s₁) ⟨rfl, he⟩ made
  setAttribute value known made := .setAttribute known made.own value
  setStyle name value reach := by
    refine .setStyle (reach.imp id ?_) name value
    rintro ⟨tag, made⟩
    exact made.own
  setText content made := .setText made content
  withContext made hbody := hbody.withContext made
  assign v _ := .assign _ v
  inFreshFrame hbody := .inFreshFrame hbody

/-- What is plugged into the slot keeps to the effects of the frame in which it runs, alone and
    with the chain after it. -/
abbrev Slot.KeepsTo (slot : Slot) : Prop :=
  slot.Rel Discipline.keeping.toReading slot

namespace Program

/-- **Every program keeps to the effects of its frame.** -/
theorem meaning?_keepsTo (limit : Nat) (p : Program) : (p.meaning? limit).KeepsTo :=
  meaning?_rel (D := .keeping) (fun h => .nested limit h) (fun _ => .bounds)
    (fun name _ => .lookup name) p

/-- The first node of a program alone. -/
theorem eval_keepsTo (limit : Nat) (p : Program) (f : FrameId) : KeepsTo f (p.eval limit f) :=
  (p.meaning?_keepsTo limit).alone.required _ f

/-- A program with the chain after its first node. -/
theorem runChain_keepsTo (limit : Nat) (p : Program) (f : FrameId) :
    KeepsTo f (p.runChain limit f) :=
  runChain_rel (p.meaning?_keepsTo limit).chained f

/-- A program in the root frame. -/
theorem run_keepsTo (limit : Nat) (p : Program) : KeepsTo Scopes.root (p.run limit) :=
  runAs_rel (p.meaning?_keepsTo limit).chained

end Program

end BlockChart
