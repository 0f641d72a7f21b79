import BlockChart.Proofs.ContextStack

namespace BlockChart

/-!
# Rounds of a loop

A loop runs its body for each item in a frame of its own.  Whatever the body does there,
and however it ends, the frame goes and the scopes are what they were: one round tells the
next nothing but what it has drawn.

* `Scopes.withItem` is the arena that a round starts in, `Session.withSurfaceOf` a session
  that has kept nothing of another one but its drawing;
* `Step.run_forItems_cons` — the loop, round by round;
* `Step.run_forItems_append` — the loop, part by part;
* `Step.forEach_isolated` puts the rounds and the parts together for the statement.
-/

/-- The arena with a frame on top that is below `f`, has no drawing context and binds
    nothing but an item. -/
def Scopes.withItem (s : Scopes) (f : FrameId) (name : String) (item : Value) : Scopes :=
  ⟨s.frames.push ⟨none, [(lowerCase name, item)], [], some f⟩⟩

/-- **The session with the surface of another one**: its drawing, and the writes that found
    no element there. -/
def Session.withSurfaceOf (s t : Session) : Session :=
  { s with drawing := t.drawing, strays := t.strays }

namespace Step

variable {child : Slot} {f : FrameId} {s : Session}

/-! ### One round -/

/-- Binding the item in the fresh frame. -/
theorem run_assign_openFrame (f : FrameId) (name : String) (item : Value) (s : Session) :
    (Action.assign (s.scopes.openFrame f).1 name item).run
        { s with scopes := (s.scopes.openFrame f).2 }
      = (.ok (), { s with scopes := s.scopes.withItem f name item }) := by
  have hbound : (s.scopes.openFrame f).2.assign (s.scopes.openFrame f).1 name item
      = .ok (s.scopes.withItem f name item) := by
    refine Scopes.modify_eq_ok_iff.mpr ⟨Scopes.live_openFrame .., ?_⟩
    unfold Scopes.withItem Scopes.openFrame
    congr 1
    -- the frame was pushed last, so the assignment changes that one only
    apply Array.ext_getElem?
    intro i
    rw [Array.getElem?_modify, Array.getElem?_push, Array.getElem?_push]
    by_cases hi : i = s.scopes.frames.size
    · simp [hi, Frame.fresh, upsertEntry]
    · simp [hi, Ne.symm hi]
  simp only [Action.run, Action.assign, Action.changeScopes, hbound, Except.map]

/-- **One round** of a loop over a body that keeps to its frame: the body runs in the frame
    of the item, and of what it leaves behind only the surface is kept. -/
theorem run_round (name : String) (hchild : child.KeepsTo) (hf : s.scopes.Live f)
    (item : Value) :
    let out := (child.block "forEach.child" s.scopes.frames.size).run
      { s with scopes := s.scopes.withItem f name item }
    (Action.inFreshFrame f fun g => do
        Action.assign g name item
        child.block "forEach.child" g).run s = (out.1, s.withSurfaceOf out.2) := by
  intro out
  let g := (s.scopes.openFrame f).1
  have hstart : (do
      Action.assign g name item
      child.block "forEach.child" g).run { s with scopes := (s.scopes.openFrame f).2 } = out :=
    Action.run_bind_of_ok _ (run_assign_openFrame f name item s)
  have hlive : (s.scopes.withItem f name item).Live g := by
    show s.scopes.frames.size < (s.scopes.frames.push _).size
    rw [Array.size_push]
    exact Nat.lt_succ_self _
  have hout : (child.block "forEach.child" g).run { s with scopes := s.scopes.withItem f name item }
      = (out.1, out.2) := rfl
  have hkeeps : Action.KeepsTo g (child.block "forEach.child" g) := hchild.chained.block _ g
  have hres := hkeeps.residue hlive hout
  -- the body has changed no frame but its own, so the release gives the arena back
  have hrelease : out.2.scopes.release g = s.scopes := by
    refine Scopes.release_openFrame hf (hres.size.trans ?_) fun i hi => (hres.others i hi).trans ?_
    · show (s.scopes.frames.push _).size = (s.scopes.frames.push _).size
      rw [Array.size_push, Array.size_push]
    · show (s.scopes.frames.push _)[i]? = (s.scopes.frames.push _)[i]?
      have hne : i ≠ s.scopes.frames.size := hi
      rw [Array.getElem?_push, Array.getElem?_push, if_neg hne, if_neg hne]
  have hsession : { out.2 with scopes := out.2.scopes.release g } = s.withSurfaceOf out.2 := by
    rw [hrelease, Session.withSurfaceOf, ← hres.depth, ← hres.imbalances]
  calc (Action.inFreshFrame f fun g => do
        Action.assign g name item
        child.block "forEach.child" g).run s
      = (out.1, { out.2 with scopes := out.2.scopes.release g }) := by
        rw [← hstart]
        rfl
    _ = (out.1, s.withSurfaceOf out.2) := by rw [hsession]

/-! ### The loop -/

/-- **The loop, round by round.** -/
theorem run_forItems_cons (name : String) (hchild : child.KeepsTo) (hf : s.scopes.Live f)
    (item : Value) (rest : List Value) :
    (forItems name child f (item :: rest)).run s
      = match (child.block "forEach.child" s.scopes.frames.size).run
          { s with scopes := s.scopes.withItem f name item } with
        | (.ok _, t) => (forItems name child f rest).run (s.withSurfaceOf t)
        | (.error e, t) => (.error e, s.withSurfaceOf t) := by
  have hround := run_round name hchild hf item
  cases hout : (child.block "forEach.child" s.scopes.frames.size).run
      { s with scopes := s.scopes.withItem f name item } with
  | mk r t =>
    rw [hout] at hround
    cases r with
    | ok _ => exact Action.run_bind_of_ok _ hround
    | error e => exact Action.run_bind_of_error _ hround

/-- **A loop keeps the surface only**, however it ends. -/
theorem run_forItems_surface (name : String) (hchild : child.KeepsTo) (hf : s.scopes.Live f)
    (items : List Value) :
    ((forItems name child f items).run s).2
      = s.withSurfaceOf ((forItems name child f items).run s).2 := by
  induction items generalizing s with
  | nil => rfl
  -- a round leaves the frames of `s`, and so do the rounds after it
  | cons item rest ih =>
    rw [run_forItems_cons name hchild hf]
    split
    · rename_i t _
      have hrest := ih (s := s.withSurfaceOf t) hf
      rw [hrest]
      rfl
    · rfl

/-- **The loop, part by part**: what comes after a first part that ended well starts from
    the session before that part, but for the surface. -/
theorem run_forItems_append (name : String) (hchild : child.KeepsTo) (hf : s.scopes.Live f)
    (xs ys : List Value) :
    (forItems name child f (xs ++ ys)).run s
      = match (forItems name child f xs).run s with
        | (.ok _, t) => (forItems name child f ys).run (s.withSurfaceOf t)
        | (.error e, t) => (.error e, t) := by
  induction xs generalizing s with
  | nil => rfl
  | cons x rest ih =>
    rw [List.cons_append, run_forItems_cons name hchild hf, run_forItems_cons name hchild hf]
    split
    · rename_i t _
      rw [ih (s := s.withSurfaceOf t) hf]
      rfl
    · rfl

/-! ### The statement -/

/-- The set of a loop is evaluated first. -/
theorem run_forEach {set : Slot} {name : String} {v : Value} {t : Session}
    (hset : (set.required "forEach.set" f).run s = (.ok v, t)) :
    (forEach set name child f).run s = (forItems name child f v.toList).run t :=
  Action.run_bind_of_ok _ hset

/-- **Loops are isolated.**  Let `t` be the session in which the set of a loop has given the
    value `v`.

    * However the loop ends, the scopes are those of `t`.
    * The round of every item that the loop comes to starts in `t`, but for the surface, with
      a frame on top of the arena that is below the frame of the loop, has no drawing
      context and binds the item and nothing else.
    * The loop over two lists, one after the other, is the loop over the first and, if that
      ended well, the loop over the second, which again starts in `t` but for the
      surface. -/
theorem forEach_isolated (limit : Nat) (set child : Program) (name : String) (f : FrameId)
    (s t : Session) (v : Value) (hf : s.scopes.Live f)
    (hset : ((set.meaning? limit).required "forEach.set" f).run s = (.ok v, t)) :
    let body := child.meaning? limit
    let out := (forEach (set.meaning? limit) name body f).run s
    out.2.scopes = t.scopes ∧
    (∀ (xs : List Value) (item : Value) (ys : List Value) (u : Session),
      v.toList = xs ++ item :: ys → (forItems name body f xs).run t = (.ok (), u) →
      u = t.withSurfaceOf u ∧
      out = match (body.block "forEach.child" t.scopes.frames.size).run
          { t.withSurfaceOf u with scopes := t.scopes.withItem f name item } with
        | (.ok _, w) => (forItems name body f ys).run (t.withSurfaceOf w)
        | (.error e, w) => (.error e, t.withSurfaceOf w)) ∧
    ∀ xs ys : List Value,
      (forItems name body f (xs ++ ys)).run t
        = match (forItems name body f xs).run t with
          | (.ok _, u) => (forItems name body f ys).run (t.withSurfaceOf u)
          | (.error e, u) => (.error e, u) := by
  intro body out
  have hbody : body.KeepsTo := child.meaning?_keepsTo limit
  -- the input leaves the frames in place, so `f` is still one of them
  have hft : t.scopes.Live f := by
    have hkeeps : Action.KeepsTo f ((set.meaning? limit).required "forEach.set" f) :=
      (set.meaning?_keepsTo limit).alone.required _ f
    have hres := hkeeps.residue hf hset
    unfold Scopes.Live
    rw [hres.size]
    exact hf
  have hout : out = (forItems name body f v.toList).run t := run_forEach hset
  refine ⟨?_, fun xs item ys u hitems hxs => ?_, run_forItems_append name hbody hft⟩
  · rw [hout, run_forItems_surface name hbody hft]
    rfl
  -- the rounds before the item leave nothing behind but the drawing
  · have hu := run_forItems_surface name hbody hft xs
    rw [hxs] at hu
    refine ⟨hu, ?_⟩
    rw [hout, hitems, run_forItems_append name hbody hft, hxs]
    exact run_forItems_cons (s := t.withSurfaceOf u) name hbody hft item ys

/-- A session in which the root binds a list of two texts, the first of them empty. -/
def lettered : Session :=
  ((Action.assign Scopes.root "letters" (.list [.str "", .str "b"])).run .blank).2

/-- A body that draws `strayCircle`, which fails, for a text that is not empty. -/
def strayLetter : Program :=
  .conditional false (.load false "letter") strayCircle .nothing

/-- The second round fails while its frame has a drawing context on; the scopes are still
    those from before the loop. -/
theorem forEach_isolated_strayLetter :
    lettered.scopes.Live Scopes.root ∧
    (((Program.load false "letters").meaning? 8).required "forEach.set" Scopes.root).run lettered
      = (.ok (.list [.str "", .str "b"]), lettered) ∧
    let out := (forEach ((Program.load false "letters").meaning? 8) "Letter"
      (strayLetter.meaning? 8) Scopes.root).run lettered
    out.1 = .error (.undefinedVariable "ghost") ∧ out.2.drawing.size = 3 ∧
      out.2.scopes = lettered.scopes := by
  have hlive : lettered.scopes.Live Scopes.root := Nat.one_pos
  have hset : (((Program.load false "letters").meaning? 8).required "forEach.set"
      Scopes.root).run lettered = (.ok (.list [.str "", .str "b"]), lettered) := rfl
  obtain ⟨hscopes, -, -⟩ := forEach_isolated 8 (.load false "letters") strayLetter "Letter"
    Scopes.root lettered lettered _ hlive hset
  exact ⟨hlive, hset, rfl, rfl, hscopes⟩

end Step

end BlockChart
