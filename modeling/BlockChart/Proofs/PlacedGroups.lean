import BlockChart.Proofs.GroupTransforms
import BlockChart.Proofs.SoundSession
import BlockChart.Proofs.TransformText

namespace BlockChart

/-!
# Boxes are placed by what was written

An operation writes a transform into the text of the drawing, and a box is measured by
reading it there.  Nothing is lost on the way but the sign of zero.

* `Drawing.Carries` — an element has a transform, and is seen through it;
* `Drawing.Placed` — so is every element of the drawing, each through the transform that an
  operation wrote, and through no other;
* `Session.Wrote` — what is written in the runs that some calls are made of;
* `Session.after_placed` — the drawings after any calls.
-/

namespace Drawing

/-- **Element `i` carries the transform**: it is written there, and whatever the element shows
    is seen from outside through it, up to the sign of zero. -/
structure Carries (d : Drawing) (i : ElementId) (t : Transform Float) : Prop where
  written : d.attributeOf? i "transform" = some t.text
  mapped : d.placedContent? i = (d.content? i).map (t.mapNumbers unsigned).mapBox

/-- **All boxes are placed by the transforms that `W` has.** -/
structure Placed (W : ElementId → Transform Float → Prop) (d : Drawing) : Prop where
  /-- A box is put around that of the shape and those of the children, as they are placed. -/
  joined : ∀ i e, d.get? i = some e → (d.bounds i : Box Float)
    = ((e.children.filterMap d.placedContent?).foldl Tree.joinBox? e.shapeBox?).getD .zero
  moved : ∀ i t, W i t → d.Carries i t
  unmoved : ∀ i, d.attributeOf? i "transform" = none →
    (d.placedContent? i : Option (Box Float)) = d.content? i
  /-- There is no other transform in the drawing. -/
  legible : ∀ i a, d.attributeOf? i "transform" = some a →
    ∃ t, W i t ∧ a = t.text ∧ Transform.parse a = .ok (t.mapNumbers unsigned)

variable {d : Drawing} {i : ElementId}

/-- What is written is read. -/
theorem carries_of_attributeOf? {t : Transform Float}
    (h : d.attributeOf? i "transform" = some t.text) : d.Carries i t := by
  obtain ⟨e, he, hattribute⟩ := Option.bind_eq_some_iff.mp h
  have hread : e.transform? = some (t.mapNumbers unsigned) := by
    unfold Element.transform?
    rw [hattribute, Option.bind_some, Transform.parse_text_of_survives survives_unsigned]
    rfl
  have hplace : e.placeBox = (t.mapNumbers unsigned).mapBox := by
    funext b
    unfold Element.placeBox
    rw [hread]
  exact ⟨h, by rw [placedContent?_of_get? he, hplace]⟩

/-- Without a transform an element is seen as it is. -/
theorem placedContent?_of_no_transform (h : d.attributeOf? i "transform" = none) :
    (d.placedContent? i : Option (Box Float)) = d.content? i := by
  cases he : d.get? i with
  | none => rw [(content?_of_absent he).1, (content?_of_absent he).2]
  | some e =>
    have hnone : lookupEntry "transform" e.attributes = none := by
      rwa [attributeOf?, he, Option.bind_some] at h
    have hplace : (e.placeBox : Box Float → Box Float) = id := by
      funext b
      unfold Element.placeBox Element.transform?
      rw [hnone]
      rfl
    rw [placedContent?_of_get? he, hplace, Option.map_id, id]

/-- Where every child is later than its parent, all of them count. -/
theorem WellFormed.bounds_eq_foldl (hd : d.WellFormed) {e : Element} (he : d.get? i = some e) :
    (d.bounds i : Box Float)
      = ((e.children.filterMap d.placedContent?).foldl Tree.joinBox? e.shapeBox?).getD .zero := by
  rw [bounds_eq_getD, content?_of_get? he]
  congr 2
  refine List.filterMap_congr fun c hc => ?_
  rw [if_pos (hd.hasChild ((hasChild_of_get? he).mpr hc)).1]

/-- A canvas has no transforms. -/
theorem attributeOf?_canvas (width height : Float) (i : ElementId) :
    (canvas width height).attributeOf? i "transform" = none := by
  have hroot : attributeOf? ⟨#[.plain "svg" none]⟩ i "transform" = none := by
    cases i with
    | zero => rfl
    | succ i => rfl
  have hother {d : Drawing} {c : ElementId} {name value : String} (hname : "transform" ≠ name) :
      (d.setAttribute c name value).attributeOf? i "transform" = d.attributeOf? i "transform" :=
    attributeOf?_setAttribute_of_ne (.inr hname) value
  unfold canvas
  rw [hother (by decide), hother (by decide), hother (by decide), hother (by decide),
    attributeOf?_append, hother (by decide), hother (by decide), hroot]

/-- **A drawing that grew from one without transforms** is placed by those that were added. -/
theorem AddsTransforms.placed {W : ElementId → Transform Float → Prop} {d₀ : Drawing}
    (h : d₀.AddsTransforms W d) (hnone : ∀ i, d₀.attributeOf? i "transform" = none)
    (hW : ∀ i t, W i t → d.attributeOf? i "transform" = some t.text) (hd : d.WellFormed) :
    d.Placed W where
  joined _ _ he := hd.bounds_eq_foldl he
  moved i t ht := carries_of_attributeOf? (hW i t ht)
  unmoved _ := placedContent?_of_no_transform
  legible i a ha := by
    obtain hbefore | ⟨t, ht, rfl⟩ := h.added i a ha
    · rw [hnone i] at hbefore
      cases hbefore
    · exact ⟨t, ht, rfl, Transform.parse_text_of_survives survives_unsigned t⟩

end Drawing

/-! ### Calls -/

/-- The run that a call is. -/
def Call.activation (s : Session) : Call → Activation
  | run p => .body p Scopes.root s
  | eval p => .input p Scopes.root s

/-- The session after a call is the one that its run ends in. -/
theorem Call.final_activation (limit : Nat) (call : Call) (s : Session) :
    (call.activation s).final limit = ((call.action limit).run s).2 := by
  cases call with
  | run p => cases p <;> rfl
  | eval p => rfl

/-- A call starts in the session that it is made in. -/
theorem Call.session_activation (call : Call) (s : Session) : (call.activation s).session = s := by
  cases call <;> rfl

namespace Session

/-- The runs that some calls are, one after the other. -/
def activations (limit : Nat) (s : Session) : List Call → List Activation
  | [] => []
  | call :: rest => call.activation s :: activations limit ((call.action limit).run s).2 rest

/-- **What some calls write**, in runs at any depth. -/
def Wrote (limit : Nat) (s : Session) (calls : List Call) (i : ElementId) (t : Transform Float) :
    Prop :=
  ∃ a ∈ s.activations limit calls, a.Wrote limit i t

/-- Between the calls nothing is added. -/
theorem after_interleaving {own : ElementId → Transform Float → Prop} (limit : Nat) (s : Session)
    (calls : List Call) :
    Interleaving limit (fun _ => True) own s.drawing (s.activations limit calls)
      (s.after limit calls).drawing := by
  induction calls generalizing s with
  | nil => exact .last (.refl _)
  | cons call rest ih =>
    refine .part trivial ?_ ?_
    · rw [call.session_activation]
      exact .refl _
    · rw [call.final_activation]
      exact ih _

/-- **Calls add what they write**, and keep all else. -/
theorem after_addsTransforms (limit : Nat) (s : Session) (calls : List Call) :
    s.drawing.AddsTransforms (s.Wrote limit calls) (s.after limit calls).drawing :=
  (s.after_interleaving limit calls).addsTransforms (fun _ _ h => h) fun a ha =>
    (a.addsTransforms limit).mono fun _ _ h => ⟨a, ha, h⟩

/-- **All that calls write is there** in the end, whatever is run later. -/
theorem Wrote.attributeOf?_after {limit : Nat} {s : Session} {calls : List Call} {i : ElementId}
    {t : Transform Float} (h : s.Wrote limit calls i t) :
    (s.after limit calls).drawing.attributeOf? i "transform" = some t.text := by
  obtain ⟨a, ha, hwrote⟩ := h
  have hrest : (a.final limit).drawing.AddsTransforms (s.Wrote limit calls)
      (s.after limit calls).drawing :=
    (s.after_interleaving limit calls).addsTransforms_of_mem (fun _ _ h => h)
      (fun b hb => (b.addsTransforms limit).mono fun _ _ h => ⟨b, hb, h⟩) ha
  exact hrest.kept i _ hwrote.attributeOf?_final

/-- **Transforms survive their text.**  Every transform, whatever its numbers are, is read from
    its text, up to the sign of zero.  So in the drawing after any calls the elements that have a
    transform are those for which a node that was run wrote one, each of them can be read, and
    boxes are mapped through exactly what was written. -/
theorem after_placed (limit : Nat) :
    (∀ t : Transform Float, Transform.parse t.text = .ok (t.mapNumbers unsigned)) ∧
    (∀ (table : Table) (width height : Float) (calls : List Call),
      ((start table (.canvas width height)).after limit calls).drawing.Placed
        ((start table (.canvas width height)).Wrote limit calls)) := by
  refine ⟨Transform.parse_text_of_survives survives_unsigned, fun table width height calls => ?_⟩
  have hsound := (sound_start table (Drawing.isTree_canvas width height)).after limit calls
  exact ((start table _).after_addsTransforms limit calls).placed
    (Drawing.attributeOf?_canvas width height) (fun _ _ h => h.attributeOf?_after)
    hsound.tree.wellFormed

/-- An empty page. -/
def page : Session :=
  start ⟨[], []⟩ (.canvas 10 10)

/-- A circle that is scaled by minus zero. -/
def flattened : Program :=
  .scale false (.string false "-0") (.circle false (.string false "1") .nothing .nothing)

/-- The scaled circle in a group that is shifted. -/
def shiftedFlattened : Program :=
  .translate false (.string false "3") .nothing flattened .nothing

/-- The sign is lost on the way through the text, and nothing else; what is run afterwards leaves
    the inner group alone.  That group has the box of the circle, and the group around it that of
    the circle scaled by zero. -/
theorem after_placed_flattened :
    let d := (page.after 8 [.run shiftedFlattened, .run shiftedCircle]).drawing
    page.Wrote 8 [.run shiftedFlattened, .run shiftedCircle] 3 (.scale (-0.0)) ∧
      d.Carries 3 (.scale (-0.0)) ∧
      (Transform.scale (-0.0 : Float)).text = "scale(0)" ∧
      (Transform.parse "scale(0)" : Except Fault (Transform Float)) = .ok (.scale 0) ∧
      (d.bounds 3 : Box Float) = ⟨-1, -1, 2, 2⟩ ∧
      (d.bounds 2 : Box Float) = ⟨-0.0, -0.0, 0, 0⟩ := by
  intro d
  obtain ⟨hread, hplaced⟩ := after_placed 8
  -- the session in which the inner group is made
  let shifted : Session := ((Action.push Scopes.root 2).run
    (({ page with depth := 1 } : Session).grouped 0 (.translate (Value.str "3").toNumber 0))).2
  have hfirst : Activation.input shiftedFlattened Scopes.root page
      ∈ (Activation.body shiftedFlattened Scopes.root page).parts 8 := .head _
  have hinner : Activation.body flattened Scopes.root shifted
      ∈ (Activation.input shiftedFlattened Scopes.root page).parts 8 := .tail _ (.tail _ (.head _))
  have hnode : Activation.input flattened Scopes.root shifted
      ∈ (Activation.body flattened Scopes.root shifted).parts 8 := .head _
  have hwrites : flattened.Writes 8 Scopes.root { shifted with depth := shifted.depth + 1 }
      ({ shifted with depth := shifted.depth + 1 } : Session).drawing.size
      (.scale (Value.str "-0").toNumber) := .scale rfl rfl
  have hwrote : page.Wrote 8 [.run shiftedFlattened, .run shiftedCircle] 3 (.scale (-0.0)) :=
    ⟨_, .head _, _, .head hfirst (.head hinner (.head hnode .refl)), .input (by decide) hwrites⟩
  have htext : (Transform.scale (-0.0 : Float)).text = "scale(0)" := rfl
  have hzero : Transform.mapNumbers unsigned (.scale (-0.0)) = .scale 0 := rfl
  have hparse := hread (.scale (-0.0))
  rw [htext, hzero] at hparse
  have hinside : (d.bounds 3 : Box Float) = ⟨-1, -1, 2, 2⟩ := by decide +kernel
  have houtside : (d.bounds 2 : Box Float) = ⟨-0.0, -0.0, 0, 0⟩ := by decide +kernel
  exact ⟨hwrote, (hplaced ⟨[], []⟩ 10 10 _).moved 3 _ hwrote, htext, hparse, hinside, houtside⟩

end Session

end BlockChart
