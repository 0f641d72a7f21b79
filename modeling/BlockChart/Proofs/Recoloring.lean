import BlockChart.Proofs.Comparison
import BlockChart.Proofs.DrawingLikeness
import BlockChart.Proofs.SoundSession

namespace BlockChart

/-!
# Colours are only colours

What a `color` node says has no effect but on the colours of the drawing.

* `Program.uncolored` and `Drawing.uncolored` forget all that has to do with colours;
* `ElementLikeness.coloring` relates elements that differ in their colours at most;
* `Program.uncolored_alike` — a program is alike to the one in which all `color` nodes are
  disabled;
* `Program.run_recolored` — so programs that differ in their `color` nodes only have the
  same result, the same scopes and, up to colours, the same drawing.
-/

/-! ### Drawings without colours -/

/-- Whether a style property is a colour. -/
def isPaint (name : String) : Bool :=
  name = "fill" || name = "stroke"

theorem isPaint_name (paint : Paint) : isPaint paint.name = true := by
  cases paint <;> rfl

/-- The element without its colours; the other style properties stay in order. -/
def Element.uncolored (e : Element) : Element :=
  { e with style := e.style.filter fun entry => !isPaint entry.1 }

/-- The drawing without its colours. -/
def Drawing.uncolored (d : Drawing) : Drawing :=
  ⟨d.elements.map Element.uncolored⟩

/-- Keeping some of the entries, and setting one. -/
theorem filter_upsertEntry {α : Type} (keep : String → Bool) (key : String) (value : α)
    (entries : List (String × α)) :
    (upsertEntry key value entries).filter (fun entry => keep entry.1)
      = if keep key then upsertEntry key value (entries.filter fun entry => keep entry.1)
        else entries.filter fun entry => keep entry.1 := by
  induction entries with
  | nil => cases hkey : keep key <;> simp [upsertEntry, hkey]
  | cons entry rest ih =>
    obtain ⟨k, v⟩ := entry
    by_cases hk : k = key
    · subst hk
      cases hkey : keep k <;> simp [upsertEntry, hkey]
    · cases hkey : keep key <;> cases hkeep : keep k <;>
        simp [upsertEntry, hk, hkey, hkeep, ih]

/-- To set a style of an uncoloured element is to set it and take the paint off. -/
theorem Element.uncolored_setStyle (e : Element) (name value : String) :
    uncolored { e with style := upsertEntry name value e.style }
      = if isPaint name then e.uncolored
        else { e.uncolored with style := upsertEntry name value e.uncolored.style } := by
  have hfilter := filter_upsertEntry (fun name => !isPaint name) name value e.style
  cases hname : isPaint name <;> simp [uncolored, hfilter, hname]

/-- **Elements that differ in their colours at most.** -/
def ElementLikeness.coloring : ElementLikeness where
  alike := fun _ e e' => e'.uncolored = e.uncolored
  plain := fun _ _ _ => rfl
  addChild := fun c =>
    congrArg fun e : Element => { e with children := e.children ++ [c] }
  setAttribute := fun name value =>
    congrArg fun e : Element => { e with attributes := upsertEntry name value e.attributes }
  setStyle := fun name value h => by
    rw [Element.uncolored_setStyle, Element.uncolored_setStyle, h]
  setText := fun content => congrArg fun e : Element => { e with text := some content }

/-- Colours are no part of the extent. -/
theorem Element.sameExtent_of_uncolored {e e' : Element} (h : e'.uncolored = e.uncolored) :
    e.SameExtent e' where
  tag := (congrArg Element.tag h :)
  attributes := (congrArg Element.attributes h :)
  text := (congrArg Element.text h :)
  children := (congrArg Element.children h :)

/-- Setting a colour. -/
theorem Element.uncolored_setPaint (e : Element) (paint : Paint) (c : String) :
    uncolored { e with style := upsertEntry paint.name c e.style } = e.uncolored := by
  rw [uncolored_setStyle, if_pos (isPaint_name paint)]

/-- Drawings that differ in paint only are the same without it. -/
theorem Drawing.uncolored_eq_of_related {d d' : Drawing}
    (h : Related ElementLikeness.coloring.alike d d') : d'.uncolored = d.uncolored := by
  have helements : d'.elements.map Element.uncolored = d.elements.map Element.uncolored := by
    refine Array.ext ?_ fun i hi hi' => ?_
    · simpa only [Array.size_map] using h.size_eq
    · rw [Array.size_map] at hi hi'
      rw [Array.getElem_map, Array.getElem_map]
      exact h.element i _ _ (Array.getElem?_eq_getElem hi') (Array.getElem?_eq_getElem hi)
  rw [uncolored, uncolored, helements]

/-! ### Programs without colours -/

/-- A drawing context that is missing is not the fault of the data. -/
theorem Scopes.not_dataDependent_of_top {s : Scopes} {f : FrameId} {e : Fault}
    (h : s.top f = .error e) : ¬ e.DataDependent := by
  rcases isArenaFault_of_top h with rfl | rfl
  · exact fun hdata => by cases hdata
  · exact fun hdata => by cases hdata

/-- Runs whose drawings differ in their colours at most, up to faults that are not those of
    the program and its data. -/
def Likeness.coloring : Likeness :=
  ElementLikeness.coloring.likeness fun e => ¬ e.DataDependent

/-- Paint has no extent, so boxes are the same. -/
theorem Likeness.measured_coloring : Likeness.coloring.Measured :=
  fun _ _ h => h.bounds_eq fun _ _ _ => Element.sameExtent_of_uncolored

/-- Disables every `color` node, and takes away what it says. -/
def Relabeling.uncolored : Relabeling where
  flag := fun _ => true
  paint := fun _ => .fill
  color := fun _ => ""

/-- **A `color` node is like one that does nothing**, if there is a context to colour. -/
theorem Discipline.recolors_uncolored : (alike (· = .coloring)).Recolors .uncolored := by
  rintro disabled paint c f _ rfl
  cases disabled with
  | true => exact .pure _
  | false =>
    intro s t h
    obtain ⟨d, w, hd, -, rfl⟩ := id h
    show Likeness.coloring.Outcomes
      ((Step.color paint c f >>= fun _ => pure .unit : Action Value).run s) (.ok .unit, _)
    cases htop : s.scopes.top f with
    -- the fault comes from the frames and not from the data, so it is excused
    | error e =>
      have hrun : (Action.top f).run s = (.error e, s) := by rw [← htop]; rfl
      have hcolor : (Step.color paint c f).run s = (.error e, s) :=
        Action.run_bind_of_error _ hrun
      rw [Action.run_bind_of_error _ hcolor]
      exact .excused (Scopes.not_dataDependent_of_top htop)
    | ok target =>
      have hrun : (Action.top f).run s = (.ok target, s) := by rw [← htop]; rfl
      have hcolor : (Step.color paint c f).run s
          = (.ok (), s.drawn target (s.drawing.setStyle target paint.name c)) :=
        Action.run_bind_of_ok _ hrun
      -- the style is written on one side only, and leaving out the colours hides it
      have hd' : Likeness.coloring.drawing (s.drawing.setStyle target paint.name c) d :=
        hd.modify_left fun e _ he => he.trans (e.uncolored_setPaint paint c).symm
      rw [Action.run_bind_of_ok _ hcolor]
      exact .ok ⟨d, w, hd', trivial, rfl⟩

/-- A run that fails through its data only, if at all, is like the other one but for
    colours. -/
theorem Likeness.eq_of_outcomes_coloring {α : Type} {out out' : Except Fault α × Session}
    (h : Likeness.coloring.Outcomes out out')
    (hdata : ∀ e, out.1 = .error e → e.DataDependent) :
    out'.1 = out.1 ∧ out'.2.scopes = out.2.scopes ∧
      out'.2.drawing.uncolored = out.2.drawing.uncolored := by
  cases h with
  | ok sessions =>
    obtain ⟨d, w, hd, -, rfl⟩ := sessions
    exact ⟨rfl, rfl, Drawing.uncolored_eq_of_related hd⟩
  | error faults sessions =>
    obtain ⟨d, w, hd, -, rfl⟩ := sessions
    cases faults.eq fun _ _ => Eq.symm
    exact ⟨rfl, rfl, Drawing.uncolored_eq_of_related hd⟩
  | excused excuse => exact absurd (hdata _ rfl) excuse

namespace Program

/-- The program with all `color` nodes disabled and blank. -/
def uncolored (p : Program) : Program :=
  p.relabel .uncolored

/-- **A program is alike to itself without colours.** -/
theorem uncolored_alike (limit : Nat) (p : Program) :
    Action.Alike .coloring (p.run limit) (p.uncolored.run limit) :=
  relabel_alike Likeness.measured_coloring (Likeness.limits_self _ limit)
    Discipline.recolors_uncolored (fun _ => rfl) fun _ _ => rfl

/-- On a sound session, the program without colours has the same outcome but for colours. -/
theorem run_uncolored (limit : Nat) (p : Program) {s : Session} (hs : s.Sound) :
    let out := (p.run limit).run s
    let plain := (p.uncolored.run limit).run s
    plain.1 = out.1 ∧ plain.2.scopes = out.2.scopes ∧
      plain.2.drawing.uncolored = out.2.drawing.uncolored := by
  have hself : Likeness.coloring.Sessions s s :=
    ⟨s.drawing, s.strays, ⟨rfl, fun i e e' he he' => ?_⟩, trivial, rfl⟩
  · exact Likeness.eq_of_outcomes_coloring (p.uncolored_alike limit s s hself)
      (hs.call limit (.run p)).2
  · rw [he] at he'
    cases he'
    rfl

/-- **Colouring has no effect besides colour.**  Let two programs differ only in their `color`
    nodes: in whether these are enabled, in what they paint and with which colour.  Started
    on the same canvas with the same table, both give the same value or the same fault and
    the same scopes, and the drawings are the same once all fills and strokes have been
    taken out of the styles. -/
theorem run_recolored {p q : Program} (h : p.uncolored = q.uncolored) (limit : Nat)
    (table : Table) (width height : Float) :
    let start := Session.start table (.canvas width height)
    let out := (p.run limit).run start
    let out' := (q.run limit).run start
    out'.1 = out.1 ∧ out'.2.scopes = out.2.scopes ∧
      out'.2.drawing.uncolored = out.2.drawing.uncolored := by
  intro start out out'
  have hs : start.Sound := Session.sound_start table (Drawing.isTree_canvas width height)
  obtain ⟨hresult, hscopes, hdrawing⟩ := run_uncolored limit p hs
  obtain ⟨hresult', hscopes', hdrawing'⟩ := run_uncolored limit q hs
  rw [h] at hresult hscopes hdrawing
  exact ⟨hresult'.symm.trans hresult, hscopes'.symm.trans hscopes, hdrawing'.symm.trans hdrawing⟩

/-- `shiftedCircle` with one colour changed and the other one disabled. -/
def repaintedCircle : Program :=
  .translate false .nothing .nothing
    (.circle false (.string false "1") (.color true .fill "red" .nothing) .nothing)
    (.color false .fill "green" .nothing)

/-- One colour is changed and one is switched off; the drawings differ in paint only. -/
theorem run_recolored_shiftedCircle :
    shiftedCircle.uncolored = repaintedCircle.uncolored ∧ shiftedCircle ≠ repaintedCircle ∧
      let start := Session.start .empty (.canvas 640 480)
      ((repaintedCircle.run 8).run start).2.drawing.uncolored
        = ((shiftedCircle.run 8).run start).2.drawing.uncolored := by
  have hsame : shiftedCircle.uncolored = repaintedCircle.uncolored := rfl
  exact ⟨hsame, by decide, (run_recolored hsame 8 .empty 640 480).2.2⟩

end Program

end BlockChart
