import BlockChart.Proofs.BoxLocality
import BlockChart.Proofs.ReadOnly

namespace BlockChart

open BlockChart.Action

/-!
# Adding transforms

How the transforms of a drawing may change while a program runs: they are only added, and a
relation `W` says which element may get which.

* `Drawing.AddsTransforms W` — the drawing before and after;
* `Action.AddsTransforms W` — the same of an action, with one rule for each way to build one;
* `Session.grouped` — a new group with a transform.
-/

namespace Drawing

variable {d d₁ d₂ : Drawing} {c i : ElementId} {name : String}

/-! ### Attributes after a write -/

@[simp] theorem attributeOf?_setStyle (key value : String) :
    (d.setStyle c key value).attributeOf? i name = d.attributeOf? i name :=
  attributeOf?_modify fun _ => rfl

@[simp] theorem attributeOf?_setText (content : String) :
    (d.setText c content).attributeOf? i name = d.attributeOf? i name :=
  attributeOf?_modify fun _ => rfl

/-- A new element has no attributes, whatever its parent is. -/
@[simp] theorem attributeOf?_append (p : ElementId) (tag : String) :
    (d.append p tag).2.attributeOf? i name = d.attributeOf? i name := by
  have hlinked : (d.append p tag).2.attributeOf? i name
      = attributeOf? ⟨d.elements.push (.plain tag (some p))⟩ i name :=
    attributeOf?_modify fun _ => rfl
  rw [hlinked]
  show ((d.elements.push (.plain tag (some p)))[i]?).bind _ = (d.elements[i]?).bind _
  by_cases hi : i = d.elements.size
  · rw [hi, Array.getElem?_push_size, Array.getElem?_eq_none (Nat.le_refl _)]
    rfl
  · rw [Array.getElem?_push, if_neg hi]

/-- Another element, or another attribute. -/
theorem attributeOf?_setAttribute_of_ne {key : String} (hne : i ≠ c ∨ name ≠ key)
    (value : String) :
    (d.setAttribute c key value).attributeOf? i name = d.attributeOf? i name := by
  unfold attributeOf? setAttribute
  by_cases hi : i = c
  · subst hi
    have hname : name ≠ key := hne.resolve_left fun h => h rfl
    rw [get?_modify_self, Option.bind_map]
    congr 1
    exact funext fun e => lookupEntry_upsertEntry_of_ne hname value e.attributes
  · rw [get?_modify_of_ne hi]

/-- The attribute that is set has the new value, if the element is there. -/
theorem attributeOf?_setAttribute_self (hc : c < d.size) (value : String) :
    (d.setAttribute c name value).attributeOf? c name = some value := by
  obtain ⟨e, he⟩ := exists_get?_of_lt hc
  unfold attributeOf? setAttribute
  rw [get?_modify_self, he]
  exact lookupEntry_upsertEntry_self name value e.attributes

/-- Only elements of the drawing have attributes. -/
theorem lt_size_of_attributeOf? {value : String} (h : d.attributeOf? i name = some value) :
    i < d.size := by
  obtain ⟨e, he, -⟩ := Option.bind_eq_some_iff.mp h
  exact lt_size_of_get? he

/-! ### Adding transforms -/

/-- **Transforms are only added**: an element keeps the one that it has, and gets none but
    what `W` has for it. -/
structure AddsTransforms (W : ElementId → Transform Float → Prop) (d d' : Drawing) : Prop where
  kept : ∀ i a, d.attributeOf? i "transform" = some a → d'.attributeOf? i "transform" = some a
  added : ∀ i a, d'.attributeOf? i "transform" = some a →
    d.attributeOf? i "transform" = some a ∨ ∃ t, W i t ∧ a = t.text

namespace AddsTransforms

variable {W W' : ElementId → Transform Float → Prop}

/-- Where no transform changes, none is added. -/
theorem of_eq (h : ∀ i, d₁.attributeOf? i "transform" = d.attributeOf? i "transform") :
    d.AddsTransforms W d₁ where
  kept i _ ha := (h i).trans ha
  added i _ ha := .inl ((h i).symm.trans ha)

theorem refl (d : Drawing) : d.AddsTransforms W d :=
  .of_eq fun _ => rfl

theorem trans (h₁ : d.AddsTransforms W d₁) (h₂ : d₁.AddsTransforms W d₂) :
    d.AddsTransforms W d₂ where
  kept i a ha := h₂.kept i a (h₁.kept i a ha)
  added i a ha := (h₂.added i a ha).elim (h₁.added i a) .inr

/-- `W` may allow more. -/
theorem mono (h : d.AddsTransforms W d₁) (hW : ∀ i t, W i t → W' i t) :
    d.AddsTransforms W' d₁ where
  kept := h.kept
  added i a ha := (h.added i a ha).imp_right fun ⟨t, ht, htext⟩ => ⟨t, hW i t ht, htext⟩

/-- An element without a transform gets one. -/
theorem setTransform (hnone : d.attributeOf? c "transform" = none) {t : Transform Float}
    (hW : W c t) : d.AddsTransforms W (d.setAttribute c "transform" t.text) where
  kept i a ha := by
    -- an element that has a transform already is not the one that gets it
    have hi : i ≠ c := by
      rintro rfl
      rw [hnone] at ha
      cases ha
    exact (attributeOf?_setAttribute_of_ne (.inl hi) _).trans ha
  added i a ha := by
    by_cases hi : i = c
    · subst hi
      have hsize := lt_size_of_attributeOf? ha
      rw [size_setAttribute] at hsize
      rw [attributeOf?_setAttribute_self hsize] at ha
      exact .inr ⟨t, hW, (Option.some.inj ha).symm⟩
    · exact .inl ((attributeOf?_setAttribute_of_ne (.inl hi) _).symm.trans ha)

end AddsTransforms

end Drawing

namespace Action

variable {α β : Type} {W : ElementId → Transform Float → Prop} {s : Session} {f : FrameId}

/-- From this session, the action adds transforms as `W` has them. -/
def AddsTransformsFrom (W : ElementId → Transform Float → Prop) (s : Session) (a : Action α) :
    Prop :=
  s.drawing.AddsTransforms W (a.run s).2.drawing

/-- **The action adds transforms** as `W` has them, and touches no other. -/
def AddsTransforms (W : ElementId → Transform Float → Prop) (a : Action α) : Prop :=
  ∀ s, a.AddsTransformsFrom W s

/-! ### Actions -/

/-- One action after another, the first of which ended in a certain way. -/
theorem AddsTransformsFrom.bind {a : Action α} {k : α → Action β}
    (ha : a.AddsTransformsFrom W s)
    (hk : ∀ x s₁, a.run s = (.ok x, s₁) → (k x).AddsTransformsFrom W s₁) :
    (a >>= k).AddsTransformsFrom W s := by
  unfold AddsTransformsFrom at ha ⊢
  cases hr : a.run s with
  | mk r s₁ =>
    rw [hr] at ha
    cases r with
    | ok x =>
      rw [run_bind_of_ok k hr]
      exact ha.trans (hk x s₁ hr)
    | error e =>
      rw [run_bind_of_error k hr]
      exact ha

namespace AddsTransforms

/-- What only reads adds nothing. -/
theorem of_readOnly {a : Action α} (h : a.ReadOnly) : AddsTransforms W a := by
  intro s
  unfold AddsTransformsFrom
  rw [h s]
  exact .refl s.drawing

/-- To do nothing adds nothing. -/
theorem pure (x : α) : AddsTransforms W (Pure.pure x : Action α) :=
  of_readOnly (.pure x)

/-- To read variables and contexts adds nothing. -/
theorem readScopes (r : Scopes → Except Fault α) : AddsTransforms W (Action.readScopes r) :=
  of_readOnly (.readScopes r)

/-- To change them leaves the drawing alone. -/
theorem changeScopes (change : Scopes → Except Fault (α × Scopes)) :
    AddsTransforms W (Action.changeScopes change) := by
  intro s
  unfold AddsTransformsFrom Action.run Action.changeScopes
  cases change s.scopes with
  | ok r => exact .refl s.drawing
  | error e => exact .refl s.drawing

/-- A note about a context that was left over is no transform. -/
theorem noteImbalance (pushed popped : ElementId) :
    AddsTransforms W (Action.noteImbalance pushed popped) := by
  intro s
  unfold AddsTransformsFrom Action.run Action.noteImbalance
  split
  · exact .refl s.drawing
  · exact .refl s.drawing

/-- One action after the other, whatever the first one gives. -/
theorem bind {a : Action α} {k : α → Action β} (ha : AddsTransforms W a)
    (hk : ∀ x, AddsTransforms W (k x)) : AddsTransforms W (a >>= k) :=
  fun s => (ha s).bind fun x s₁ _ => hk x s₁

/-- A new element has no transform yet. -/
theorem append (c : ElementId) (tag : String) : AddsTransforms W (Action.append c tag) :=
  fun _ => .of_eq fun _ => Drawing.attributeOf?_append c tag

/-- Any attribute but the one in question. -/
theorem setAttribute (c : ElementId) {name : String} (hname : "transform" ≠ name)
    (value : String) : AddsTransforms W (Action.setAttribute c name value) :=
  fun _ => .of_eq fun _ => Drawing.attributeOf?_setAttribute_of_ne (.inr hname) value

theorem setStyle (c : ElementId) (name value : String) :
    AddsTransforms W (Action.setStyle c name value) :=
  fun _ => .of_eq fun _ => Drawing.attributeOf?_setStyle name value

theorem setText (c : ElementId) (content : String) :
    AddsTransforms W (Action.setText c content) :=
  fun _ => .of_eq fun _ => Drawing.attributeOf?_setText content

/-- The depth is not part of the drawing. -/
theorem nested {body : Action α} (hbody : AddsTransforms W body) (limit : Nat) :
    AddsTransforms W (Action.nested limit body) := by
  intro s
  unfold AddsTransformsFrom Action.run Action.nested
  split
  · exact .refl s.drawing
  · exact hbody { s with depth := s.depth + 1 }

end AddsTransforms

end Action

/-! ### Groups with a transform -/

namespace Session

variable {W : ElementId → Transform Float → Prop} {s : Session} {c : ElementId}
  {t : Transform Float}

/-- The session in which a new group has been put below `c`. -/
def opened (s : Session) (c : ElementId) : Session :=
  s.drawn c (s.drawing.append c "g").2

/-- The session in which a new group with a transform has been put below `c`. -/
def grouped (s : Session) (c : ElementId) (t : Transform Float) : Session :=
  (s.opened c).drawn s.drawing.size
    ((s.opened c).drawing.setAttribute s.drawing.size "transform" t.text)

/-- The new group is the last element. -/
theorem size_lt_size_opened (s : Session) (c : ElementId) :
    s.drawing.size < (s.opened c).drawing.size := by
  show s.drawing.size < (s.drawing.append c "g").2.size
  rw [Drawing.size_append]
  exact Nat.lt_succ_self _

/-- It has been made by the node, and is a group. -/
theorem made_opened (s : Session) (c : ElementId) :
    (s.opened c).Made s.drawing.size "g" s.drawing.size :=
  ⟨⟨Nat.le_refl _, s.size_lt_size_opened c⟩, Drawing.tag?_append_new⟩

/-- A group that is new has no transform yet. -/
theorem attributeOf?_opened (s : Session) (c : ElementId) (name : String) :
    (s.opened c).drawing.attributeOf? s.drawing.size name = none := by
  refine (Drawing.attributeOf?_append c "g").trans ?_
  unfold Drawing.attributeOf? Drawing.get?
  rw [Array.getElem?_eq_none (Nat.le_refl _)]
  rfl

/-- To open a group adds no transform. -/
theorem addsTransforms_opened (s : Session) (c : ElementId) :
    s.drawing.AddsTransforms W (s.opened c).drawing :=
  .of_eq fun _ => Drawing.attributeOf?_append c "g"

/-- The group has the text of the transform. -/
theorem attributeOf?_grouped (s : Session) (c : ElementId) (t : Transform Float) :
    (s.grouped c t).drawing.attributeOf? s.drawing.size "transform" = some t.text :=
  Drawing.attributeOf?_setAttribute_self (s.size_lt_size_opened c) _

/-- To group adds that one transform, which `W` must allow. -/
theorem addsTransforms_grouped (hW : W s.drawing.size t) :
    s.drawing.AddsTransforms W (s.grouped c t).drawing :=
  (s.addsTransforms_opened c).trans (.setTransform (s.attributeOf?_opened c _) hW)

end Session

namespace Action

/-- An action that makes a group with a transform first. -/
theorem run_group {α : Type} (c : ElementId) (t : Transform Float) (inside : ElementId → Action α)
    (s : Session) :
    (do let group ← append c "g"
        setAttribute group "transform" t.text
        inside group).run s = (inside s.drawing.size).run (s.grouped c t) := rfl

end Action

end BlockChart
