import BlockChart.Evaluation.Action
import BlockChart.Proofs.Elements
import BlockChart.Proofs.Frames

namespace BlockChart

/-!
# Effects

What a running node can do to a session, said once for all operations.  An effect of
frame `f` leads from one session to another and ends well or in a fault that has its
cause there.  It is put together from single steps: a variable of `f` is bound, an
element is appended, an attribute, a style or a text is written; and from three
brackets, for a drawing context, for a fresh frame and for a level of nesting.

The number `n` is how many elements there were when the node began.  Those from `n`
on are its own: it sets their attributes, draws inside the groups among them and gives a
text to the `text` elements, while of the others it only reaches the innermost context, to
style it and to append to it.

* `Effect.residue` is what every effect leaves behind of scopes and depth;
* `Effect.top_eq` says that an effect that ends well keeps the innermost context;
* `Effect.tag?_eq` says that no effect changes a tag.
-/

/-- The fault of a result, if it is one. -/
def Fault.of? {α : Type} : Except Fault α → Option Fault
  | .ok _ => none
  | .error e => some e

/-- An element of the drawing that was made after there were `n`. -/
def Session.Owns (s : Session) (n : Nat) (c : ElementId) : Prop :=
  n ≤ c ∧ c < s.drawing.size

/-- An element that is the innermost context of the frame, or was made after there
    were `n`. -/
def Session.Reaches (s : Session) (n : Nat) (f : FrameId) (c : ElementId) : Prop :=
  s.scopes.top f = .ok c ∨ s.Owns n c

/-- An element of a tag that was made after there were `n`. -/
structure Session.Made (s : Session) (n : Nat) (tag : String) (c : ElementId) : Prop where
  own : s.Owns n c
  tag : s.drawing.tag? c = some tag

/-- An element to append to: the innermost context of the frame, or a group that was made
    after there were `n` elements. -/
def Session.DrawsIn (s : Session) (n : Nat) (f : FrameId) (c : ElementId) : Prop :=
  s.scopes.top f = .ok c ∨ s.Made n "g" c

/-- Where a node may draw it may also set a style. -/
theorem Session.DrawsIn.reaches {s : Session} {n : Nat} {f : FrameId} {c : ElementId}
    (h : s.DrawsIn n f c) : s.Reaches n f c :=
  h.imp_right Session.Made.own

/-- **Effects** of a node in a frame, from one session to another. -/
inductive Effect : Nat → FrameId → Session → Option Fault → Session → Prop
  | idle {n : Nat} {f : FrameId} {s : Session} : Effect n f s none s
  | fault {n : Nat} {f : FrameId} {s : Session} {e : Fault} (cause : s.scopes.Raises f e) :
      Effect n f s (some e) s
  | seq {n : Nat} {f : FrameId} {s s₁ s₂ : Session} {o : Option Fault}
      (first : Effect n f s none s₁) (second : Effect n f s₁ o s₂) : Effect n f s o s₂
  | assign {n : Nat} {f : FrameId} {s : Session} {t : Scopes} {name : String} {v : Value}
      (bound : s.scopes.assign f name v = .ok t) : Effect n f s none { s with scopes := t }
  | append {n : Nat} {f : FrameId} {s : Session} {c : ElementId} {tag : String}
      (shape : tag ∈ Drawing.shapeTags) (spot : s.DrawsIn n f c) :
      Effect n f s none (s.drawn c (s.drawing.append c tag).2)
  | setAttribute {n : Nat} {f : FrameId} {s : Session} {c : ElementId} {name : String}
      (known : name ∈ Drawing.attributeNames) (value : String) (own : s.Owns n c) :
      Effect n f s none (s.drawn c (s.drawing.setAttribute c name value))
  | setStyle {n : Nat} {f : FrameId} {s : Session} {c : ElementId} (name value : String)
      (reach : s.Reaches n f c) :
      Effect n f s none (s.drawn c (s.drawing.setStyle c name value))
  | setText {n : Nat} {f : FrameId} {s : Session} {c : ElementId} (content : String)
      (made : s.Made n "text" c) :
      Effect n f s none (s.drawn c (s.drawing.setText c content))
  /-- A bracket for a drawing context that ends well takes off what it put on. -/
  | inContext {n : Nat} {f : FrameId} {s s₁ : Session} {c : ElementId} {t u : Scopes}
      (made : s.Made n "g" c) (push : s.scopes.push f c = .ok t)
      (body : Effect s.drawing.size f { s with scopes := t } none s₁)
      (pop : s₁.scopes.pop f = .ok (c, u)) : Effect n f s none { s₁ with scopes := u }
  /-- After a fault the context stays on. -/
  | faultInContext {n : Nat} {f : FrameId} {s s₁ : Session} {c : ElementId} {t : Scopes}
      {e : Fault} (made : s.Made n "g" c) (push : s.scopes.push f c = .ok t)
      (body : Effect s.drawing.size f { s with scopes := t } (some e) s₁) :
      Effect n f s (some e) s₁
  /-- A fresh frame is released however its body ends. -/
  | inFrame {n : Nat} {f : FrameId} {s s₁ : Session} {o : Option Fault}
      (live : s.scopes.Live f)
      (body : Effect n (s.scopes.openFrame f).1 { s with scopes := (s.scopes.openFrame f).2 }
        o s₁) :
      Effect n f s o { s₁ with scopes := s₁.scopes.release (s.scopes.openFrame f).1 }
  /-- So is a level of nesting. -/
  | nested {n : Nat} {f : FrameId} {s s₁ : Session} {o : Option Fault}
      (body : Effect n f { s with depth := s.depth + 1 } o s₁) :
      Effect n f s o { s₁ with depth := s₁.depth - 1 }

/-! ### What an effect leaves behind -/

/-- A frame after an effect: the parent and the table are the same, and on the stack
    of contexts there may be `extra` ones. -/
structure Frame.LeftWith (extra : List ElementId) (a b : Frame) : Prop where
  parent : b.parent = a.parent
  table : b.table = a.table
  contexts : b.contexts = extra ++ a.contexts

/-- **The residue of an effect.**  All frames are still there, and only the variables
    and the contexts of `f` may differ; contexts are left on by faults only, and they
    are elements of the node's own. -/
structure Residue (n : Nat) (f : FrameId) (s : Session) (o : Option Fault) (s' : Session) :
    Prop where
  size : s'.scopes.frames.size = s.scopes.frames.size
  others : ∀ i ≠ f, s'.scopes.frames[i]? = s.scopes.frames[i]?
  own : ∀ a, s.scopes.frames[f]? = some a → ∃ b extra, s'.scopes.frames[f]? = some b ∧
    a.LeftWith extra b ∧ (∀ c ∈ extra, s'.Owns n c) ∧ (o = none → extra = [])
  depth : s'.depth = s.depth
  imbalances : s'.imbalances = s.imbalances
  grows : s.drawing.size ≤ s'.drawing.size

namespace Residue

variable {n : Nat} {f : FrameId} {s s₁ s₂ : Session} {o : Option Fault}

/-- An effect that leaves scopes, depth and imbalances alone, and removes no element. -/
theorem of_scopes_eq (hscopes : s₁.scopes = s.scopes) (hdepth : s₁.depth = s.depth)
    (himb : s₁.imbalances = s.imbalances) (hgrows : s.drawing.size ≤ s₁.drawing.size) :
    Residue n f s o s₁ where
  size := by rw [hscopes]
  others := fun i _ => by rw [hscopes]
  own := fun a ha => by
    rw [hscopes]
    exact ⟨a, [], ha, ⟨rfl, rfl, rfl⟩, by simp, fun _ => rfl⟩
  depth := hdepth
  imbalances := himb
  grows := hgrows

/-- Residues of effects that follow one another. -/
theorem trans (h₁ : Residue n f s none s₁) (h₂ : Residue n f s₁ o s₂) :
    Residue n f s o s₂ where
  size := h₂.size.trans h₁.size
  others := fun i hi => (h₂.others i hi).trans (h₁.others i hi)
  own := fun a ha => by
    obtain ⟨b, extra, hb, hab, -, hnone⟩ := h₁.own a ha
    obtain ⟨b', extra', hb', hbb', hown, hnone'⟩ := h₂.own b hb
    -- the first effect ended well, so all that is left on comes from the second
    have hextra : extra = [] := hnone rfl
    subst hextra
    refine ⟨b', extra', hb', ⟨hbb'.parent.trans hab.parent, hbb'.table.trans hab.table, ?_⟩,
      hown, hnone'⟩
    rw [hbb'.contexts, hab.contexts, List.nil_append]
  depth := h₂.depth.trans h₁.depth
  imbalances := h₂.imbalances.trans h₁.imbalances
  grows := Nat.le_trans h₁.grows h₂.grows

/-- The frame of an effect that ended well has its contexts again. -/
theorem own_of_none (h : Residue n f s none s₁) {a : Frame}
    (ha : s.scopes.frames[f]? = some a) :
    ∃ b, s₁.scopes.frames[f]? = some b ∧ a.LeftWith [] b := by
  obtain ⟨b, extra, hb, hab, -, hnone⟩ := h.own a ha
  obtain rfl : extra = [] := hnone rfl
  exact ⟨b, hb, hab⟩

end Residue

namespace Effect

variable {n : Nat} {f : FrameId} {s s' : Session} {o : Option Fault}

/-- A bracket for a context in which the body ended well: the context comes off, and
    the frame is as it was. -/
private theorem residue_inContext {s₁ : Session} {c : ElementId} {t u : Scopes}
    (hpush : s.scopes.push f c = .ok t)
    (hbody : Residue s.drawing.size f { s with scopes := t } none s₁)
    (hpop : s₁.scopes.pop f = .ok (c, u)) : Residue n f s none { s₁ with scopes := u } := by
  -- every frame on the way is a live one: `push` succeeded
  obtain ⟨hlive, -⟩ := Scopes.modify_eq_ok_iff.mp hpush
  obtain ⟨a, ha⟩ : ∃ a, s.scopes.frames[f]? = some a := ⟨_, Array.getElem?_eq_getElem hlive⟩
  have hta := Scopes.frames_modify_self hpush
  rw [ha, Option.map_some] at hta
  obtain ⟨b, hb, hab⟩ := hbody.own_of_none hta
  obtain ⟨u', hpop', hmod⟩ := Scopes.pop_of_contexts hb hab.contexts
  obtain rfl : u' = u := by
    rw [hpop] at hpop'
    cases hpop'
    rfl
  refine ⟨?_, ?_, ?_, hbody.depth, hbody.imbalances, hbody.grows⟩
  · exact (Scopes.size_modify hmod).trans (hbody.size.trans (Scopes.size_modify hpush))
  · intro i hi
    exact (Scopes.frames_modify_of_ne hmod hi).trans
      ((hbody.others i hi).trans (Scopes.frames_modify_of_ne hpush hi))
  · intro a' ha'
    obtain rfl : a = a' := Option.some.inj (ha.symm.trans ha')
    have hub := Scopes.frames_modify_self hmod
    rw [hb, Option.map_some] at hub
    refine ⟨_, [], hub, ⟨hab.parent, hab.table, ?_⟩, by simp, fun _ => rfl⟩
    show b.contexts.tail = a.contexts
    rw [hab.contexts]
    rfl

/-- A bracket for a context in which the body failed: the context stays on, below what
    the body left on. -/
private theorem residue_faultInContext {s₁ : Session} {c : ElementId} {t : Scopes} {e : Fault}
    (own : s.Owns n c) (hpush : s.scopes.push f c = .ok t)
    (hbody : Residue s.drawing.size f { s with scopes := t } (some e) s₁) :
    Residue n f s (some e) s₁ := by
  refine ⟨hbody.size.trans (Scopes.size_modify hpush), ?_, ?_, hbody.depth, hbody.imbalances,
    hbody.grows⟩
  · intro i hi
    exact (hbody.others i hi).trans (Scopes.frames_modify_of_ne hpush hi)
  · intro a ha
    have hta := Scopes.frames_modify_self hpush
    rw [ha, Option.map_some] at hta
    -- the body leaves what it put on the stack above `c`, which was not taken off
    obtain ⟨b, extra, hb, hab, hextra, -⟩ := hbody.own _ hta
    refine ⟨b, extra ++ [c], hb, ⟨hab.parent, hab.table, ?_⟩, ?_, by simp⟩
    · rw [hab.contexts, List.append_assoc]
      rfl
    · intro x hx
      -- what the body left is newer than `c`, and `c` itself is one of the new elements
      rcases List.mem_append.mp hx with hx | hx
      · obtain ⟨hlo, hhi⟩ := hextra x hx
        exact ⟨Nat.le_trans own.1 (Nat.le_trans (Nat.le_of_lt own.2) hlo), hhi⟩
      · obtain rfl := List.mem_singleton.mp hx
        exact ⟨own.1, Nat.lt_of_lt_of_le own.2 hbody.grows⟩

/-- **Every effect has a residue.** -/
theorem residue (h : Effect n f s o s') : Residue n f s o s' := by
  induction h with
  | idle => exact .of_scopes_eq rfl rfl rfl (Nat.le_refl _)
  | fault _ => exact .of_scopes_eq rfl rfl rfl (Nat.le_refl _)
  | seq _ _ ih₁ ih₂ => exact ih₁.trans ih₂
  | assign hbound =>
    refine ⟨Scopes.size_modify hbound, fun i hi => Scopes.frames_modify_of_ne hbound hi, ?_, rfl,
      rfl, Nat.le_refl _⟩
    intro a ha
    have hta := Scopes.frames_modify_self hbound
    rw [ha, Option.map_some] at hta
    exact ⟨_, [], hta, ⟨rfl, rfl, rfl⟩, by simp, fun _ => rfl⟩
  | append _ _ =>
    exact .of_scopes_eq rfl rfl rfl
      (Nat.le_trans (Nat.le_succ _) (Nat.le_of_eq (Drawing.size_append ..).symm))
  | setAttribute _ value _ =>
    exact .of_scopes_eq rfl rfl rfl (Nat.le_of_eq (Drawing.size_setAttribute ..).symm)
  | setStyle name value _ =>
    exact .of_scopes_eq rfl rfl rfl (Nat.le_of_eq (Drawing.size_setStyle ..).symm)
  | setText content _ =>
    exact .of_scopes_eq rfl rfl rfl (Nat.le_of_eq (Drawing.size_setText ..).symm)
  | inContext _ hpush _ hpop ih => exact residue_inContext hpush ih hpop
  | faultInContext made hpush _ ih => exact residue_faultInContext made.own hpush ih
  | inFrame live _ ih =>
    -- the body touched no frame but the fresh one, which goes
    have hscopes := Scopes.release_openFrame live ih.size ih.others
    exact .of_scopes_eq hscopes ih.depth ih.imbalances ih.grows
  | nested _ ih =>
    refine ⟨ih.size, ih.others, ih.own, ?_, ih.imbalances, ih.grows⟩
    show _ - 1 = _
    rw [ih.depth]
    exact Nat.add_sub_cancel ..

/-- An effect that ends well keeps the innermost context of every frame. -/
theorem top_eq (h : Effect n f s none s') (g : FrameId) :
    s'.scopes.top g = s.scopes.top g := by
  have hres := h.residue
  refine Scopes.top_congr hres.size (fun i => ?_) g
  -- a run that ends well leaves its own frame with the contexts that it had
  by_cases hi : i = f
  · subst hi
    cases ha : s.scopes.frames[i]? with
    | none =>
      have hnone := Array.getElem?_eq_none_iff.mp ha
      rw [Array.getElem?_eq_none (Nat.le_trans (Nat.le_of_eq hres.size) hnone)]
    | some a =>
      obtain ⟨b, hb, hab⟩ := hres.own_of_none ha
      rw [hb, Option.map_some, Option.map_some, hab.contexts, hab.parent, List.nil_append]
  · rw [hres.others i hi]

/-- A live frame stays live. -/
theorem live (h : Effect n f s o s') {g : FrameId} (hg : s.scopes.Live g) :
    s'.scopes.Live g := by
  unfold Scopes.Live
  rw [h.residue.size]
  exact hg

/-- **Tags stay**: an element has the tag that it was made with. -/
theorem tag?_eq (h : Effect n f s o s') {c : ElementId} (hc : c < s.drawing.size) :
    s'.drawing.tag? c = s.drawing.tag? c := by
  induction h with
  | idle => rfl
  | fault _ => rfl
  | seq first _ ih₁ ih₂ =>
    exact (ih₂ (Nat.lt_of_lt_of_le hc first.residue.grows)).trans (ih₁ hc)
  | assign _ => rfl
  | append _ _ => exact Drawing.tag?_append hc
  | setAttribute _ value _ => exact Drawing.tag?_setAttribute _ value
  | setStyle name value _ => exact Drawing.tag?_setStyle name value
  | setText content _ => exact Drawing.tag?_setText content
  | inContext _ _ _ _ ih => exact ih hc
  | faultInContext _ _ _ ih => exact ih hc
  | inFrame _ _ ih => exact ih hc
  | nested _ ih => exact ih hc

end Effect

end BlockChart
