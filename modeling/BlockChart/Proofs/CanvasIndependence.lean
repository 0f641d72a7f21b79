import BlockChart.Proofs.DrawingLikeness
import BlockChart.Proofs.Legibility
import BlockChart.Proofs.Likeness

namespace BlockChart

/-!
# The size of the canvas

A program that does not ask for a size cannot tell how large its canvas is.  `align` and
`margin` do measure, and they write what they measured into the drawing, where it is
measured again; but none of it gets into a value.

* `Drawing.sizeless` blanks the attributes that follow the canvas.  The group of an `align` is a
  `g` like many others, and the filler of a `margin` is a `rect`; which elements they are is told
  by the marks of a run with `LayoutTags.marked`;
* `Likeness.layout` compares a run with a marked one, given some marks that are known;
* `Program.marked_alike` — on every canvas, a run is alike to the marked run on any other;
* `Program.run_canvas` — so on two canvases a program gives the same result and the same
  scopes, and drawings that are the same but for those attributes.
-/

/-- **Marks**: tags for layout elements that no other element has. -/
def LayoutTags.marked : LayoutTags :=
  ⟨"aligned", "filler"⟩

/-! ### Blanking attributes -/

/-- The entry, without its value if that is asked for. -/
def blankEntry (blank : String → Bool) (entry : String × String) : String × String :=
  (entry.1, if blank entry.1 then "" else entry.2)

/-- Blanking entries, and setting one. -/
theorem map_blankEntry_upsertEntry (blank : String → Bool) (name value : String)
    (entries : List (String × String)) :
    (upsertEntry name value entries).map (blankEntry blank)
      = upsertEntry name (if blank name then "" else value)
          (entries.map (blankEntry blank)) := by
  induction entries with
  | nil => rfl
  | cons entry rest ih =>
    obtain ⟨k, v⟩ := entry
    -- the entry that is written, or one before it
    by_cases hk : k = name
    · subst hk
      simp only [upsertEntry, List.map_cons, blankEntry, if_pos]
    · simp only [upsertEntry, List.map_cons, blankEntry, if_neg hk]
      exact congrArg _ ih

namespace Element

/-- The element with some attributes blank; their names stay in order. -/
def blanked (blank : String → Bool) (e : Element) : Element :=
  { e with attributes := e.attributes.map (blankEntry blank) }

/-- Blanking after a write is a write of the blanked value. -/
theorem blanked_setAttribute (blank : String → Bool) (e : Element) (name value : String) :
    blanked blank { e with attributes := upsertEntry name value e.attributes }
      = { e.blanked blank with
          attributes := upsertEntry name (if blank name then "" else value)
            (e.blanked blank).attributes } := by
  simp only [blanked, map_blankEntry_upsertEntry]

/-- The tag that a marked element has in a usual run. -/
def plainTag (tag : String) : String :=
  if tag = LayoutTags.marked.aligned then LayoutTags.plain.aligned
  else if tag = LayoutTags.marked.filler then LayoutTags.plain.filler
  else tag

/-- The element with its usual tag. -/
def unmarked (a : Element) : Element :=
  { a with tag := plainTag a.tag }

end Element

/-- The backdrop of a canvas. -/
def Drawing.backdrop : ElementId := 1

/-- **The attributes that follow the canvas**, by the id of an element and its mark: the width
    and the height of the root, of the backdrop and of a filler, and the transform of an
    aligned group. -/
def followsCanvas (i : ElementId) (mark : Option String) (name : String) : Bool :=
  (name = "width" || name = "height")
      && (i = Drawing.root || i = Drawing.backdrop || mark = some LayoutTags.marked.filler)
    || name = "transform" && mark = some LayoutTags.marked.aligned

namespace Drawing

/-- The drawing without the attributes that follow the canvas, by the marks of another. -/
def sizeless (d marks : Drawing) : Drawing :=
  ⟨d.elements.mapIdx fun i e => e.blanked (followsCanvas i (marks.tag? i))⟩

/-- The drawing with the usual tags. -/
def unmarked (d : Drawing) : Drawing :=
  ⟨d.elements.map Element.unmarked⟩

end Drawing

/-! ### A run and its marked run -/

/-- **An element and its marked counterpart**: they agree but for the tag, if that is a mark,
    and the attributes that follow the canvas. -/
structure Element.Marks (i : ElementId) (e a : Element) : Prop where
  tag : a.tag = e.tag ∨ a.tag = LayoutTags.marked.aligned ∧ e.tag = LayoutTags.plain.aligned
    ∨ a.tag = LayoutTags.marked.filler ∧ e.tag = LayoutTags.plain.filler
  same : a.blanked (followsCanvas i (some a.tag))
    = { e.blanked (followsCanvas i (some a.tag)) with tag := a.tag }

/-- Setting an attribute on both sides, to the same value unless it follows the canvas. -/
theorem Element.Marks.setAttribute {i : ElementId} {e a : Element} (h : e.Marks i a)
    {name v w : String} (hvalue : w = v ∨ followsCanvas i (some a.tag) name = true) :
    Element.Marks i { e with attributes := upsertEntry name v e.attributes }
      { a with attributes := upsertEntry name w a.attributes } := by
  refine ⟨h.tag, ?_⟩
  have hblank : (if followsCanvas i (some a.tag) name then "" else w)
      = if followsCanvas i (some a.tag) name then "" else v := by
    rcases hvalue with rfl | hfollows
    · rfl
    · rw [if_pos hfollows, if_pos hfollows]
  rw [blanked_setAttribute, blanked_setAttribute, hblank, h.same]

/-- An element with one of the usual tags is its counterpart without the mark. -/
theorem Element.Marks.blanked_eq {i : ElementId} {e a : Element} (h : e.Marks i a)
    (he : e.tag ∈ Drawing.tags) :
    e.blanked (followsCanvas i (some a.tag))
      = a.unmarked.blanked (followsCanvas i (some a.tag)) := by
  have hplain : ∀ tag ∈ Drawing.tags, plainTag tag = tag := by decide
  have htag : plainTag a.tag = e.tag := by
    -- a mark stands for the tag of a group or of a rectangle, which the plain tag undoes
    rcases h.tag with htag | ⟨hmark, htag⟩ | ⟨hmark, htag⟩
    · rw [htag, hplain _ he]
    · rw [hmark, htag]
      rfl
    · rw [hmark, htag]
      rfl
  have hsame := congrArg (fun x : Element => { x with tag := e.tag }) h.same
  rw [Element.unmarked, htag]
  exact hsame.symm

/-- The comparison survives the same writes on both sides. -/
def ElementLikeness.marks : ElementLikeness where
  alike := Element.Marks
  plain := fun _ _ _ => ⟨.inl rfl, rfl⟩
  addChild := fun c h =>
    ⟨h.tag, congrArg (fun a : Element => { a with children := a.children ++ [c] }) h.same⟩
  setAttribute := fun _ _ h => h.setAttribute (.inl rfl)
  setStyle := fun name value h =>
    ⟨h.tag, congrArg (fun a : Element => { a with style := upsertEntry name value a.style }) h.same⟩
  setText := fun content h =>
    ⟨h.tag, congrArg (fun a : Element => { a with text := some content }) h.same⟩

/-- Some elements with their tags. -/
abbrev KnownTags := List (ElementId × String)

/-- All of the tags are those of the drawing. -/
def KnownTags.Hold (known : KnownTags) (d : Drawing) : Prop :=
  ∀ x ∈ known, d.tag? x.1 = some x.2

namespace Likeness

/-- **The likeness of a run to its marked run**, given some tags of the marked drawing.  Tags
    stay as they are, so whatever both runs do, the tags are still known afterwards. -/
def layout (known : KnownTags) : Likeness :=
  let base := ElementLikeness.marks.likeness fun _ => False
  { base with
    drawing := fun d m => base.drawing d m ∧ known.Hold m
    size_eq := fun h => base.size_eq h.1
    append := fun c tag h => ⟨base.append c tag h.1, fun x hx => by
      rw [Drawing.tag?_append (Drawing.lt_size_of_tag? (h.2 x hx))]
      exact h.2 x hx⟩
    setAttribute := fun c name value h => ⟨base.setAttribute c name value h.1, fun x hx => by
      rw [Drawing.tag?_setAttribute]
      exact h.2 x hx⟩
    setStyle := fun c name value h => ⟨base.setStyle c name value h.1, fun x hx => by
      rw [Drawing.tag?_setStyle]
      exact h.2 x hx⟩
    setText := fun c content h => ⟨base.setText c content h.1, fun x hx => by
      rw [Drawing.tag?_setText]
      exact h.2 x hx⟩ }

variable {known : KnownTags}

/-- One may know less. -/
theorem Outcomes.forget {α : Type} {x : ElementId × String} {o o' : Except Fault α × Session}
    (h : (layout (x :: known)).Outcomes o o') : (layout known).Outcomes o o' := by
  have hsessions {s t : Session} (h : (layout (x :: known)).Sessions s t) :
      (layout known).Sessions s t := by
    obtain ⟨m, w, ⟨hm, hknown⟩, -, rfl⟩ := h
    exact ⟨m, w, ⟨hm, fun y hy => hknown y (List.mem_cons_of_mem x hy)⟩, trivial, rfl⟩
  cases h with
  | ok sessions => exact .ok (hsessions sessions)
  | error faults sessions =>
    refine .error ?_ (hsessions sessions)
    cases faults with
    | undefined spelled => exact .undefined spelled
    | same nameless => exact .same nameless
  | excused excuse => exact excuse.elim

end Likeness

namespace Action.Alike

open Likeness

variable {known : KnownTags}

/-- A new element that is marked: from now on its tag is known. -/
theorem append_marked {α : Type} {parent : ElementId} {tag mark : String}
    (hmark : ∀ i, Element.Marks i (.plain tag (some parent)) (.plain mark (some parent)))
    {k k' : ElementId → Action α}
    (hk : ∀ i, Alike (layout ((i, mark) :: known)) (k i) (k' i)) :
    Alike (layout known) (Action.append parent tag >>= k) (Action.append parent mark >>= k') := by
  intro s t h
  -- the two drawings have one size, so the new element gets the same id in both
  obtain ⟨m, w, ⟨hm, hknown⟩, -, rfl⟩ := id h
  have hsize : m.size = s.drawing.size := hm.size_eq
  have hdrawing : (layout ((s.drawing.size, mark) :: known)).drawing
      (s.drawing.append parent tag).2 (m.append parent mark).2 := by
    refine ⟨hm.append (hmark _) fun _ _ => ElementLikeness.marks.addChild _, fun x hx => ?_⟩
    rcases List.mem_cons.mp hx with rfl | hx
    · rw [← hsize]
      exact Drawing.tag?_append_new
    · rw [Drawing.tag?_append (Drawing.lt_size_of_tag? (hknown x hx))]
      exact hknown x hx
  show (layout known).Outcomes
    ((k s.drawing.size).run (s.drawn parent (s.drawing.append parent tag).2))
    ((k' m.size).run (Session.drawn _ parent (m.append parent mark).2))
  rw [hsize]
  exact (hk _ _ _ ⟨_, _, hdrawing, trivial, rfl⟩).forget

/-- A write that follows the canvas, to an element whose tag is known. -/
theorem setAttribute_marked {c : ElementId} {mark : String} (hc : (c, mark) ∈ known)
    {name : String} (hname : followsCanvas c (some mark) name = true) (v w : String) :
    Alike (layout known) (Action.setAttribute c name v) (Action.setAttribute c name w) := by
  refine write fun d m h => ⟨h.1.modify fun e a _ ha hea => ?_, fun x hx => ?_⟩
  · have htag : a.tag = mark := by
      have hmark := h.2 _ hc
      rw [Drawing.tag?, ha] at hmark
      exact Option.some.inj hmark
    exact hea.setAttribute (.inr (htag ▸ hname))
  · rw [Drawing.tag?_setAttribute]
    exact h.2 x hx

end Action.Alike

namespace Discipline

open Slot Likeness

/-- **The likenesses of runs to their marked runs**, whatever tags are known. -/
def marking : Discipline :=
  .alike fun l => ∃ known, l = layout known

variable {x x' child child' : Slot}

/-- `align` measures, and only the transform of its group shows what. -/
theorem align_marked (hchild : Chained marking.toReading child child')
    (horizontal vertical : String) (f : FrameId) :
    marking.rel f (Step.align .plain horizontal vertical child f)
      (Step.align .marked horizontal vertical child' f) := by
  rintro _ ⟨known, rfl⟩
  refine .bind (.top f) fun parent => .bounds_either parent fun outer outer' => ?_
  -- the group of an alignment is marked, since its transform follows the canvas
  have hmark (i : ElementId) : Element.Marks i (.plain LayoutTags.plain.aligned (some parent))
      (.plain LayoutTags.marked.aligned (some parent)) := ⟨.inr (.inl ⟨rfl, rfl⟩), rfl⟩
  refine .append_marked hmark fun group => ?_
  refine .bind (.withContext f group (hchild.blockIfAny f _ ⟨_, rfl⟩)) fun _ => ?_
  refine .bounds_either group fun inner inner' => ?_
  have hfollows :
      followsCanvas group (some LayoutTags.marked.aligned) "transform" = true := by
    simp [followsCanvas]
  exact .setAttribute_marked List.mem_cons_self hfollows _ _

/-- `margin` measures, and only the size of its filler shows what. -/
theorem margin_marked (hx : Alone marking.toReading x x')
    (hchild : Chained marking.toReading child child') (f : FrameId) :
    marking.rel f (Step.margin .plain x child f) (Step.margin .marked x' child' f) := by
  rintro _ ⟨known, rfl⟩
  refine .bind (.top f) fun parent => .bounds_either parent fun outer outer' => ?_
  refine .bind (hx.required _ f _ ⟨known, rfl⟩) fun v => .bind (.append parent "g") fun group => ?_
  refine .bind (.setAttribute group _ _) fun _ => ?_
  have hmark (i : ElementId) : Element.Marks i (.plain LayoutTags.plain.filler (some group))
      (.plain LayoutTags.marked.filler (some group)) := ⟨.inr (.inr ⟨rfl, rfl⟩), rfl⟩
  refine .append_marked hmark fun filler => ?_
  -- the sizes of the filler follow those of the parent, so they are not compared
  have hwidth : followsCanvas filler (some LayoutTags.marked.filler) "width" = true := by
    simp [followsCanvas]
  have hheight : followsCanvas filler (some LayoutTags.marked.filler) "height" = true := by
    simp [followsCanvas]
  refine .bind (.setAttribute filler _ _) fun _ => .bind (.setAttribute filler _ _) fun _ => ?_
  refine .bind (.setAttribute_marked List.mem_cons_self hwidth _ _) fun _ => ?_
  refine .bind (.setAttribute_marked List.mem_cons_self hheight _ _) fun _ => ?_
  exact .withContext f group (hchild.blockIfAny f _ ⟨_, rfl⟩)

end Discipline

namespace Program

/-- No node asks for a size, at any depth. -/
def AsksNoSize (p : Program) : Prop :=
  ∀ q : Program, q.Within p → ¬ q.AsksSize

/-- A program asks no size if neither its first node does nor what is in its slots. -/
theorem AsksNoSize.of_slots {p : Program} (hp : ¬ p.AsksSize)
    (hslots : ∀ q ∈ p.slots, q.AsksNoSize) : p.AsksNoSize :=
  forall_within.mpr ⟨hp, hslots⟩

/-- **A program that asks for no size is alike to its marked run.** -/
theorem marked_alike {p : Program} (hp : p.AsksNoSize) (limit : Nat) :
    Action.Alike (.layout []) (p.run limit) (p.runAs .marked limit) := by
  have hcompared : Comparison .marking .plain .marked limit limit {} :=
    { nests := Discipline.nests_alike fun l _ => l.limits_self limit
      name := fun _ => rfl
      color := Discipline.recolors_name _ id
      layout := ⟨Discipline.align_marked, Discipline.margin_marked⟩ }
  have hlooks : ∀ name, p.Loads name → Discipline.marking.Looks name name := by
    rintro name - f _ ⟨known, rfl⟩
    exact .lookup rfl rfl f
  have hrel := hcompared.rel (fun q hq hasks => absurd hasks (hp q hq)) hlooks
  rw [relabel_id] at hrel
  exact runAs_rel hrel.chained _ ⟨[], rfl⟩

end Program

/-! ### Two canvases -/

namespace Drawing

open Element

/-- A write that follows the canvas may differ in the value: the mark blanks it on both sides. -/
theorem Related.setAttribute_follows {d m : Drawing} (h : Related Marks d m) {c : ElementId}
    {name : String} (hname : ∀ mark, followsCanvas c mark name = true) (v w : String) :
    Related Marks (d.setAttribute c name v) (m.setAttribute c name w) :=
  h.modify fun _ _ _ _ hea => hea.setAttribute (.inr (hname _))

/-- The root of a canvas with its size, before anything else is there. -/
def sizedRoot (width height : Float) : Drawing :=
  (setAttribute ⟨#[.plain "svg" none]⟩ root "width" (chartText width)).setAttribute root
    "height" (chartText height)

/-- A canvas, written as the sized root and the backdrop that is put on it. -/
theorem canvas_eq (width height : Float) :
    canvas width height
      = (((((sizedRoot width height).append root "rect").2.setAttribute backdrop "width"
          (chartText width)).setAttribute backdrop "height" (chartText height)).setAttribute
          backdrop "fill" "transparent").setAttribute backdrop "stroke" "none" := by
  have hsize : (sizedRoot width height).elements.size = backdrop := by
    show (sizedRoot width height).size = backdrop
    rw [sizedRoot, size_setAttribute, size_setAttribute]
    rfl
  rw [← hsize]
  rfl

/-- Canvases of any two sizes: only attributes that follow the canvas differ. -/
theorem related_canvas (width height width' height' : Float) :
    Related Marks (canvas width height) (canvas width' height') := by
  have hbare : Related Marks ⟨#[.plain "svg" none]⟩ ⟨#[.plain "svg" none]⟩ := by
    refine ⟨rfl, fun i e a he ha => ?_⟩
    rw [he] at ha
    cases ha
    exact ⟨.inl rfl, rfl⟩
  -- the two sizes are written on the root and on the backdrop, where they follow the canvas
  have hwidth (c : ElementId) (hc : c = root ∨ c = backdrop) (mark : Option String) :
      followsCanvas c mark "width" = true := by
    rcases hc with rfl | rfl <;> simp [followsCanvas]
  have hheight (c : ElementId) (hc : c = root ∨ c = backdrop) (mark : Option String) :
      followsCanvas c mark "height" = true := by
    rcases hc with rfl | rfl <;> simp [followsCanvas]
  have hroot : Related Marks (sizedRoot width height) (sizedRoot width' height') :=
    (hbare.setAttribute_follows (hwidth root (.inl rfl)) _ _).setAttribute_follows
      (hheight root (.inl rfl)) _ _
  have hrect := hroot.append (ElementLikeness.marks.plain _ "rect" (some root))
    fun _ _ => ElementLikeness.marks.addChild _
  have hsized := (hrect.setAttribute_follows (hwidth backdrop (.inr rfl)) (chartText width)
    (chartText width')).setAttribute_follows (hheight backdrop (.inr rfl)) (chartText height)
    (chartText height')
  rw [canvas_eq, canvas_eq]
  exact (hsized.modify fun _ _ _ _ hea => hea.setAttribute (.inl rfl)).modify
    fun _ _ _ _ hea => hea.setAttribute (.inl rfl)

/-- **What the marked drawing says about a drawing** whose tags are the usual ones. -/
theorem Related.sizeless_eq {d m : Drawing} (h : Related Marks d m) (hd : d.Legible) :
    d.sizeless m = m.unmarked.sizeless m := by
  have hsize : m.elements.size = d.elements.size := h.size_eq
  have helements : (d.elements.mapIdx fun i e => e.blanked (followsCanvas i (m.tag? i)))
      = (m.elements.map Element.unmarked).mapIdx
          fun i e => e.blanked (followsCanvas i (m.tag? i)) := by
    refine Array.ext (by simp [hsize]) fun i hi hi' => ?_
    rw [Array.size_mapIdx] at hi hi'
    rw [Array.size_map] at hi'
    -- element by element: the mark of an element says which of its attributes to blank
    have he : d.get? i = some d.elements[i] := Array.getElem?_eq_getElem hi
    have ha : m.get? i = some m.elements[i] := Array.getElem?_eq_getElem hi'
    have hmark : m.tag? i = some m.elements[i].tag := congrArg (Option.map Element.tag) ha
    rw [Array.getElem_mapIdx, Array.getElem_mapIdx, Array.getElem_map, hmark]
    exact (h.element i _ _ he ha).blanked_eq (hd i _ he).tag
  rw [sizeless, sizeless, unmarked, helements]

end Drawing

/-- The outcome of a run, by that of the marked run. -/
theorem Likeness.eq_of_outcomes_layout {α : Type} {out marked : Except Fault α × Session}
    (h : (Likeness.layout []).Outcomes out marked) (hd : out.2.drawing.Legible) :
    out.1 = marked.1 ∧ out.2.scopes = marked.2.scopes ∧
      out.2.drawing.sizeless marked.2.drawing
        = marked.2.drawing.unmarked.sizeless marked.2.drawing := by
  cases h with
  | ok sessions =>
    obtain ⟨m, w, hm, -, rfl⟩ := sessions
    exact ⟨rfl, rfl, hm.1.sizeless_eq hd⟩
  | error faults sessions =>
    obtain ⟨m, w, hm, -, rfl⟩ := sessions
    cases faults.eq fun _ _ => Eq.symm
    exact ⟨rfl, rfl, hm.1.sizeless_eq hd⟩
  | excused excuse => exact excuse.elim

namespace Program

/-- On a canvas, a program that asks for no size does what it does when it is marked on any
    other canvas. -/
theorem run_marked {p : Program} (hp : p.AsksNoSize) (limit : Nat) (table : Table)
    (width height width' height' : Float) :
    let out := (p.run limit).run (.start table (.canvas width height))
    let marked := (p.runAs .marked limit).run (.start table (.canvas width' height'))
    out.1 = marked.1 ∧ out.2.scopes = marked.2.scopes ∧
      out.2.drawing.sizeless marked.2.drawing
        = marked.2.drawing.unmarked.sizeless marked.2.drawing := by
  intro out marked
  -- the plain run is legible, so all its tags are known and the marks can be taken off
  have hsound := Session.sound_start table (Drawing.isTree_canvas width height)
  have hlegible := Session.legible_start table (Drawing.legible_canvas width height)
    (.inl (Drawing.tag?_canvas width height))
  have hout : out.2.Legible := hlegible.call hsound.live_root limit (.run p)
  have hcanvas := Drawing.related_canvas width height width' height'
  have hsessions : (Likeness.layout []).Sessions (.start table (.canvas width height))
      (.start table (.canvas width' height')) :=
    ⟨_, _, ⟨hcanvas, fun _ hx => absurd hx List.not_mem_nil⟩, trivial, rfl⟩
  exact Likeness.eq_of_outcomes_layout (marked_alike hp limit _ _ hsessions) hout.drawing

/-- **The size of the canvas does not leak.**  Let no node of a program ask for a width or a
    height.  On canvases of any two sizes, with the same table and under the same limit, the
    program gives the same value or the same fault and the same scopes; and the drawings
    are the same but for the attributes that follow the canvas.  These are told by the marks
    of a third run, whose drawing is the same as well but for these attributes and marks. -/
theorem run_canvas {p : Program} (hp : p.AsksNoSize) (limit : Nat) (table : Table)
    (width height width' height' : Float) :
    let out := (p.run limit).run (.start table (.canvas width height))
    let out' := (p.run limit).run (.start table (.canvas width' height'))
    let marks := ((p.runAs .marked limit).run (.start table (.canvas width height))).2.drawing
    out'.1 = out.1 ∧ out'.2.scopes = out.2.scopes ∧
      out'.2.drawing.sizeless marks = out.2.drawing.sizeless marks ∧
      marks.unmarked.sizeless marks = out.2.drawing.sizeless marks := by
  intro out out' marks
  obtain ⟨hresult, hscopes, hdrawing⟩ := run_marked hp limit table width height width height
  obtain ⟨hresult', hscopes', hdrawing'⟩ := run_marked hp limit table width' height' width height
  exact ⟨hresult'.trans hresult.symm, hscopes'.trans hscopes.symm,
    hdrawing'.trans hdrawing.symm, hdrawing.symm⟩

/-- A circle in the middle of a margin. -/
def framedCircle : Program :=
  .margin false (.string false "4")
    (.align false "middle" "middle" (.circle false (.string false "5") .nothing .nothing) .nothing)
    .nothing

/-- A frame around a circle, drawn on two canvases of different sizes. -/
theorem run_canvas_framedCircle :
    framedCircle.AsksNoSize ∧
      let out := (framedCircle.run 8).run (.start .empty (.canvas 640 480))
      let out' := (framedCircle.run 8).run (.start .empty (.canvas 100 50))
      let marks := ((framedCircle.runAs .marked 8).run (.start .empty (.canvas 640 480))).2.drawing
      out'.1 = out.1 ∧ out'.2.scopes = out.2.scopes ∧
        out'.2.drawing.sizeless marks = out.2.drawing.sizeless marks := by
  have hnothing : nothing.AsksNoSize := .of_slots (by decide) (by simp [slots])
  have hstring (s : String) : (string false s).AsksNoSize :=
    .of_slots (by simp [AsksSize, opcode?]) (by simp [slots])
  have hcircle : (circle false (.string false "5") .nothing .nothing).AsksNoSize :=
    .of_slots (by decide) (by simp [slots, hnothing, hstring])
  have hasks : framedCircle.AsksNoSize := by
    refine .of_slots (by decide) ?_
    simp only [framedCircle, slots, List.forall_mem_cons]
    refine ⟨hstring "4", .of_slots (by decide) ?_, hnothing, by simp⟩
    simp [slots, hcircle, hnothing]
  obtain ⟨hresult, hscopes, hdrawing, -⟩ := run_canvas hasks 8 .empty 640 480 100 50
  exact ⟨hasks, hresult, hscopes, hdrawing⟩

end Program

end BlockChart
