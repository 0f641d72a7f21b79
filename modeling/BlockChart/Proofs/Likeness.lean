import BlockChart.Proofs.ActionEffect
import BlockChart.Proofs.Comparison

namespace BlockChart

/-!
# Runs side by side

Two runs are compared step by step.  A `Likeness` says how the drawings of the two may
differ and the writes that went astray, how the two may spell the name of an undefined
variable, and which faults of the first one excuse it from being compared any further;
scopes, depth, results and all other faults must be the same.

* `Likeness.Sessions` and `Likeness.Outcomes` carry a likeness over to sessions and to
  what actions give;
* `Action.Alike` relates two actions, with one rule for each way to build an action;
* `Discipline.alike` has these rules, for all likenesses of a family at once;
* `Program.relabel_alike` — a program runs like its relabelling.
-/

/-- **How two runs may differ.**  Drawings that are alike have the same elements, and
    stay alike when the same is written to both. -/
structure Likeness where
  drawing : Drawing → Drawing → Prop
  strays : List ElementId → List ElementId → Prop
  /-- How the two may spell a variable that neither of them finds. -/
  spelling : String → String → Prop
  /-- The first run need not be like the second after such a fault. -/
  excused : Fault → Prop
  size_eq {d d' : Drawing} : drawing d d' → d'.size = d.size
  append {d d' : Drawing} (c : ElementId) (tag : String) :
    drawing d d' → drawing (d.append c tag).2 (d'.append c tag).2
  setAttribute {d d' : Drawing} (c : ElementId) (name value : String) :
    drawing d d' → drawing (d.setAttribute c name value) (d'.setAttribute c name value)
  setStyle {d d' : Drawing} (c : ElementId) (name value : String) :
    drawing d d' → drawing (d.setStyle c name value) (d'.setStyle c name value)
  setText {d d' : Drawing} (c : ElementId) (content : String) :
    drawing d d' → drawing (d.setText c content) (d'.setText c content)
  goAstray {w w' : List ElementId} (c : ElementId) :
    strays w w' → strays (w ++ [c]) (w' ++ [c])

namespace Likeness

/-- No difference at all. -/
def same : Likeness where
  drawing := Eq
  strays := Eq
  spelling := Eq
  excused := fun _ => False
  size_eq := fun h => h ▸ rfl
  append := fun _ _ h => h ▸ rfl
  setAttribute := fun _ _ _ h => h ▸ rfl
  setStyle := fun _ _ _ h => h ▸ rfl
  setText := fun _ _ h => h ▸ rfl
  goAstray := fun _ h => h ▸ rfl

/-- No difference, but the first run may end in an excused fault. -/
def excusing (excused : Fault → Prop) : Likeness :=
  { same with excused }

/-- **Limits of two runs** on nesting: the same one, or a smaller one for the first run,
    which is then excused where it meets its limit. -/
def Limits (l : Likeness) (limit limit' : Nat) : Prop :=
  limit = limit' ∨ limit ≤ limit' ∧ l.excused (.recursionLimit limit)

theorem limits_self (l : Likeness) (limit : Nat) : l.Limits limit limit :=
  .inl rfl

/-- Drawings that are alike have the same extent. -/
def Measured (l : Likeness) : Prop :=
  ∀ d d', l.drawing d d' → ∀ c, (d'.bounds c : Box Float) = d.bounds c

/-- Drawings that are the same have the same boxes. -/
theorem measured_same : same.Measured := by
  rintro d d' rfl c
  rfl

/-- To excuse a fault does not touch the drawing. -/
theorem measured_excusing (excused : Fault → Prop) : (excusing excused).Measured :=
  measured_same

/-- Sessions that differ in the drawing and the writes astray at most. -/
def Sessions (l : Likeness) (s t : Session) : Prop :=
  ∃ d w, l.drawing s.drawing d ∧ l.strays s.strays w ∧ t = { s with drawing := d, strays := w }

/-- **Faults of two runs that are alike**: the same, up to the spelling of a variable. -/
inductive Faults (l : Likeness) : Fault → Fault → Prop
  | undefined {name name' : String} (spelled : l.spelling name name') :
      Faults l (.undefinedVariable name) (.undefinedVariable name')
  | same {e : Fault} (nameless : ∀ name, e ≠ .undefinedVariable name) : Faults l e e

/-- **Outcomes of two runs that are alike.** -/
inductive Outcomes (l : Likeness) {α : Type} :
    Except Fault α × Session → Except Fault α × Session → Prop
  | ok {x : α} {s t : Session} (sessions : l.Sessions s t) : Outcomes l (.ok x, s) (.ok x, t)
  | error {e e' : Fault} {s t : Session} (faults : l.Faults e e') (sessions : l.Sessions s t) :
      Outcomes l (.error e, s) (.error e', t)
  | excused {e : Fault} {s : Session} {r : Except Fault α × Session} (excuse : l.excused e) :
      Outcomes l (.error e, s) r

variable {l : Likeness} {α : Type} {s t : Session}

/-- Where names may not differ, faults are the same. -/
theorem Faults.eq {e e' : Fault} (h : l.Faults e e')
    (hname : ∀ name name', l.spelling name name' → name' = name) : e' = e := by
  cases h with
  | undefined spelled => rw [hname _ _ spelled]
  | same => rfl

/-- The same result of two sessions that are alike. -/
theorem Outcomes.of_result (h : l.Sessions s t) {r : Except Fault α}
    (hr : ∀ name, r ≠ .error (.undefinedVariable name)) : l.Outcomes (r, s) (r, t) := by
  cases r with
  | ok x => exact .ok h
  | error e => exact .error (.same fun name he => hr name (he ▸ rfl)) h

/-- What is done to both sessions afterwards. -/
theorem Outcomes.map {o o' : Except Fault α × Session} (h : l.Outcomes o o')
    (change change' : Session → Session)
    (hchange : ∀ s t, l.Sessions s t → l.Sessions (change s) (change' t)) :
    l.Outcomes (o.1, change o.2) (o'.1, change' o'.2) := by
  cases h with
  | ok sessions => exact .ok (hchange _ _ sessions)
  | error faults sessions => exact .error faults (hchange _ _ sessions)
  | excused excuse => exact .excused excuse

/-- Scopes are changed alike. -/
theorem Sessions.withScopes (h : l.Sessions s t) (scopes : Scopes) :
    l.Sessions { s with scopes } { t with scopes } := by
  obtain ⟨d, w, hd, hw, rfl⟩ := h
  exact ⟨d, w, hd, hw, rfl⟩

/-- A write to the same element of both drawings, which have the same elements. -/
theorem Sessions.drawn (h : l.Sessions s t) (c : ElementId) {d d' : Drawing}
    (hd : l.drawing d d') : l.Sessions (s.drawn c d) (t.drawn c d') := by
  obtain ⟨_, w, -, hw, rfl⟩ := h
  have hsize : d'.elements.size = d.elements.size := l.size_eq hd
  simp only [Session.drawn, hsize]
  by_cases hc : c < d.elements.size
  · simp only [if_pos hc]
    exact ⟨d', w, hd, hw, rfl⟩
  · simp only [if_neg hc]
    exact ⟨d', _, hd, l.goAstray c hw, rfl⟩

/-- Where no difference is allowed, there is none, up to an excuse. -/
theorem eq_or_excused_of_outcomes {excused : Fault → Prop} {o o' : Except Fault α × Session}
    (h : (excusing excused).Outcomes o o') : o = o' ∨ ∃ e, excused e ∧ o.1 = .error e := by
  cases h with
  | ok sessions =>
    obtain ⟨d, w, hd, hw, rfl⟩ := sessions
    cases hd
    cases hw
    exact .inl rfl
  | error faults sessions =>
    obtain ⟨d, w, hd, hw, rfl⟩ := sessions
    cases hd
    cases hw
    cases faults.eq fun _ _ => Eq.symm
    exact .inl rfl
  | excused excuse => exact .inr ⟨_, excuse, rfl⟩

/-- Alike without any difference is the same. -/
theorem eq_of_outcomes_same {o o' : Except Fault α × Session} (h : same.Outcomes o o') :
    o = o' := by
  have hnever : (excusing fun _ => False).Outcomes o o' := h
  rcases eq_or_excused_of_outcomes hnever with heq | ⟨_, excuse, -⟩
  · exact heq
  · exact excuse.elim

end Likeness

/-! ### Actions -/

/-- **Actions that are alike**: started in sessions that are alike, they have outcomes
    that are alike. -/
def Action.Alike (l : Likeness) {α : Type} (a b : Action α) : Prop :=
  ∀ s t, l.Sessions s t → l.Outcomes (a.run s) (b.run t)

namespace Action.Alike

variable {l : Likeness} {α β : Type} {f : FrameId}

theorem pure (x : α) : Alike l (Pure.pure x : Action α) (Pure.pure x) :=
  fun _ _ h => .ok h

/-- To fail, but for a variable, whose name may differ. -/
theorem fail {e : Fault} (he : ∀ name, e ≠ .undefinedVariable name) :
    Alike l (Action.fail e : Action α) (Action.fail e) :=
  fun _ _ h => .error (.same he) h

/-- **One action after another.** -/
theorem bind {a b : Action α} {k k' : α → Action β} (hab : Alike l a b)
    (hk : ∀ x, Alike l (k x) (k' x)) : Alike l (a >>= k) (b >>= k') := by
  intro s t h
  have hout := hab s t h
  cases ha : a.run s with
  | mk r s₁ =>
    cases hb : b.run t with
    | mk r' t₁ =>
      rw [ha, hb] at hout
      cases hout with
      | ok sessions =>
        rw [run_bind_of_ok k ha, run_bind_of_ok k' hb]
        exact hk _ _ _ sessions
      | error faults sessions =>
        rw [run_bind_of_error k ha, run_bind_of_error k' hb]
        exact .error faults sessions
      | excused excuse =>
        -- The second action may well go on to `k'`; it is not looked at any more.
        rw [run_bind_of_error k ha]
        exact .excused excuse

/-- To read, if no variable is asked for by its name. -/
theorem readScopes {r : Scopes → Except Fault α}
    (hr : ∀ s name, r s ≠ .error (.undefinedVariable name)) :
    Alike l (Action.readScopes r) (Action.readScopes r) := by
  intro s t h
  obtain ⟨d, w, -, -, rfl⟩ := id h
  exact .of_result h (hr s.scopes)

theorem top (f : FrameId) : Alike l (Action.top f) (Action.top f) :=
  readScopes fun _ name h => (Scopes.isArenaFault_of_top h).isSilent.2 name rfl

/-- **Looking up a variable** under two names that are the same in lower case. -/
theorem lookup {name name' : String} (hname : lowerCase name = lowerCase name')
    (hspelled : l.spelling name name') (f : FrameId) :
    Alike l (Action.lookup f name) (Action.lookup f name') := by
  intro s t h
  obtain ⟨d, w, -, -, rfl⟩ := id h
  -- the search sees the name in lower case only, the fault tells it as it was spelled
  show l.Outcomes (s.scopes.lookup f name, s) (s.scopes.lookup f name', _)
  unfold Scopes.lookup
  rw [← hname]
  cases hfind : s.scopes.find (fun frame => lookupEntry (lowerCase name) frame.bindings) f with
  | error e =>
    cases Scopes.eq_deadFrame_of_find hfind
    exact .error (.same fun _ he => by cases he) h
  | ok found =>
    cases found with
    | none => exact .error (.undefined hspelled) h
    | some _ => exact .ok h

/-- To change scopes, under the same condition. -/
theorem changeScopes {change : Scopes → Except Fault (α × Scopes)}
    (hchange : ∀ s name, change s ≠ .error (.undefinedVariable name)) :
    Alike l (Action.changeScopes change) (Action.changeScopes change) := by
  intro s t h
  obtain ⟨d, w, -, -, rfl⟩ := id h
  simp only [Action.run, Action.changeScopes]
  cases hscopes : change s.scopes with
  | ok r => exact .ok (h.withScopes r.2)
  | error e => exact .error (.same fun name he => hchange _ name (he ▸ hscopes)) h

/-- A change to one frame. -/
theorem modify (f : FrameId) (change : Frame → Frame) :
    Alike l (Action.changeScopes fun s => (s.modify f change).map ((), ·))
      (Action.changeScopes fun s => (s.modify f change).map ((), ·)) := by
  refine changeScopes fun s name h => ?_
  cases hmod : s.modify f change with
  | ok t => rw [hmod] at h; cases h
  | error e =>
    rw [hmod] at h
    cases h
    exact (Scopes.isArenaFault_of_modify hmod).isSilent.2 name rfl

/-- A context is pushed and popped alike. -/
theorem push (f : FrameId) (c : ElementId) : Alike l (Action.push f c) (Action.push f c) :=
  modify f _

theorem pop (f : FrameId) : Alike l (Action.pop f) (Action.pop f) :=
  changeScopes fun _ name h => (Scopes.isArenaFault_of_pop h).isSilent.2 name rfl

/-- **Binding a variable** under two names that are the same in lower case. -/
theorem assign {name name' : String} (hname : lowerCase name = lowerCase name') (f : FrameId)
    (v : Value) : Alike l (Action.assign f name v) (Action.assign f name' v) := by
  have heq : Action.assign f name v = Action.assign f name' v := by
    simp only [Action.assign, Scopes.assign, hname]
  rw [heq]
  exact modify f _

/-- To measure, if the likeness keeps boxes. -/
theorem bounds (hl : l.Measured) (c : ElementId) :
    Alike l (Action.bounds c) (Action.bounds c) := by
  intro s t h
  obtain ⟨d, w, hd, hw, rfl⟩ := id h
  show l.Outcomes (.ok (s.drawing.bounds c), s) (.ok (d.bounds c), _)
  rw [hl _ _ hd]
  exact .ok h

/-- Measuring in drawings that need not have the same extent. -/
theorem bounds_either (c : ElementId) {k k' : Box Float → Action β}
    (hk : ∀ b b', Alike l (k b) (k' b')) :
    Alike l (Action.bounds c >>= k) (Action.bounds c >>= k') :=
  fun s t h => hk _ _ s t h

/-- Writing to an element, given that both drawings are alike afterwards. -/
theorem write {c : ElementId} {change change' : Drawing → Drawing}
    (hchange : ∀ d d', l.drawing d d' → l.drawing (change d) (change' d')) :
    Alike l (Action.write c change) (Action.write c change') := by
  intro s t h
  obtain ⟨d, w, hd, hw, rfl⟩ := id h
  exact .ok (h.drawn c (hchange _ _ hd))

/-- Writes with the same values; see `write`. -/
theorem setAttribute (c : ElementId) (name value : String) :
    Alike l (Action.setAttribute c name value) (Action.setAttribute c name value) :=
  write fun _ _ hd => l.setAttribute c name value hd

theorem setStyle (c : ElementId) (name value : String) :
    Alike l (Action.setStyle c name value) (Action.setStyle c name value) :=
  write fun _ _ hd => l.setStyle c name value hd

theorem setText (c : ElementId) (content : String) :
    Alike l (Action.setText c content) (Action.setText c content) :=
  write fun _ _ hd => l.setText c content hd

/-- The new element has the same id in both drawings. -/
theorem append (c : ElementId) (tag : String) :
    Alike l (Action.append c tag) (Action.append c tag) := by
  intro s t h
  obtain ⟨d, w, hd, hw, rfl⟩ := id h
  show l.Outcomes (.ok s.drawing.size, s.drawn c (s.drawing.append c tag).2)
    (.ok d.size, Session.drawn _ c (d.append c tag).2)
  rw [l.size_eq hd]
  exact .ok (h.drawn c (l.append c tag hd))

theorem noteImbalance (pushed popped : ElementId) :
    Alike l (Action.noteImbalance pushed popped) (Action.noteImbalance pushed popped) := by
  intro s t h
  obtain ⟨d, w, hd, hw, rfl⟩ := id h
  simp only [Action.run, Action.noteImbalance]
  split
  · exact .ok h
  · exact .ok ⟨d, w, hd, hw, rfl⟩

/-- **The bracket for a drawing context.** -/
theorem withContext (f : FrameId) (c : ElementId) {body body' : Action Unit}
    (hbody : Alike l body body') :
    Alike l (Action.withContext f c body) (Action.withContext f c body') :=
  bind (push f c) fun _ => bind hbody fun _ => bind (pop f) fun popped => noteImbalance c popped

/-- **The bracket for a fresh frame.** -/
theorem inFreshFrame (f : FrameId) {body body' : FrameId → Action α}
    (hbody : ∀ g, Alike l (body g) (body' g)) :
    Alike l (Action.inFreshFrame f body) (Action.inFreshFrame f body') := by
  intro s t h
  obtain ⟨d, w, -, -, rfl⟩ := id h
  -- The scopes are the same, so both bodies get the same frame, and it is released in both.
  let g := (s.scopes.openFrame f).1
  have hout := hbody g _ _ (h.withScopes (s.scopes.openFrame f).2)
  let close (s : Session) : Session := { s with scopes := s.scopes.release g }
  refine hout.map close close ?_
  rintro s₁ _ ⟨d₁, w₁, hd₁, hw₁, rfl⟩
  exact ⟨d₁, w₁, hd₁, hw₁, rfl⟩

/-- **The bracket for a level of nesting.**  Where the first run is at its limit, either the
    second one is too, or the first one is excused. -/
theorem nested {limit limit' : Nat} (hlimit : l.Limits limit limit') {body body' : Action α}
    (hbody : Alike l body body') :
    Alike l (Action.nested limit body) (Action.nested limit' body') := by
  intro s t h
  obtain ⟨d, w, hd, hw, rfl⟩ := id h
  simp only [Action.run, Action.nested]
  by_cases hs : limit ≤ s.depth
  · rw [if_pos hs]
    -- at the limit: the same fault, or one that is excused
    rcases hlimit with rfl | ⟨-, excuse⟩
    · rw [if_pos hs]
      exact .error (.same fun _ he => by cases he) h
    · exact .excused excuse
  · have hle : limit ≤ limit' := by
      rcases hlimit with rfl | ⟨hle, -⟩
      · exact Nat.le_refl _
      · exact hle
    rw [if_neg hs, if_neg (by omega)]
    have hout := hbody { s with depth := s.depth + 1 } _ ⟨d, w, hd, hw, rfl⟩
    -- on the way out both depths are taken back alike
    let leave (s : Session) : Session := { s with depth := s.depth - 1 }
    refine hout.map leave leave ?_
    rintro s₁ _ ⟨d₁, w₁, hd₁, hw₁, rfl⟩
    exact ⟨d₁, w₁, hd₁, hw₁, rfl⟩

end Action.Alike

/-! ### Programs -/

/-- **Being alike**, in all likenesses of a family.  It does not depend on what an operation has
    found or made, since both runs find and make the same. -/
def Discipline.alike (L : Likeness → Prop) : Discipline where
  rel _ a b := ∀ l, L l → Action.Alike l a b
  pure x _ _ := .pure x
  fail cause _ _ := .fail (Scopes.isSilent_of_unfound cause).2
  bind ha hk l hl := .bind (ha l hl) fun x => hk x l hl
  read hr _ _ := .readScopes fun s name h => (hr s _ h).isSilent.2 name rfl
  Stage := Unit
  during _ _ a b := ∀ l, L l → Action.Alike l a b
  ready _ _ := True
  innermost _ _ _ := True
  made _ _ _ := True
  after _ _ _ := True
  ready_after _ _ := trivial
  innermost_after _ _ := trivial
  made_after _ _ := trivial
  rel_of_during h := h () trivial
  during_of_rel h _ := h
  bind_during ha hk l hl := .bind (ha l hl) fun x => hk x () trivial l hl
  top_bind hk l hl := .bind (.top _) fun c => hk c trivial l hl
  append_bind _ _ _ hk l hl := .bind (.append _ _) fun i => hk i () trivial trivial l hl
  setAttribute value _ _ _ _ := .setAttribute _ _ value
  setStyle name value _ _ _ := .setStyle _ name value
  setText content _ _ _ := .setText _ content
  withContext _ hbody l hl := .withContext _ _ (hbody l hl)
  assign v hname _ _ := .assign hname _ v
  inFreshFrame hbody l hl := .inFreshFrame _ fun g => hbody g l hl

namespace Discipline

variable {L : Likeness → Prop}

/-- Levels nest alike under limits that the likeness allows. -/
theorem nests_alike {limit limit' : Nat} (h : ∀ l, L l → l.Limits limit limit') :
    (alike L).toReading.Nests (alike L).toReading limit limit' :=
  fun hbody l hl => .nested (h l hl) (hbody l hl)

/-- Elements may be measured if the likeness keeps boxes. -/
theorem measures_alike (h : ∀ l, L l → l.Measured) : (alike L).Measures :=
  fun _ c l hl => .bounds (h l hl) c

end Discipline

/-- **A program runs like its relabelling**, under limits that may be compared, if drawings that
    are alike have the same extent and the variables that it looks up may be respelled. -/
theorem Program.relabel_alike {l : Likeness} (hl : l.Measured) {limit limit' : Nat}
    (hlimit : l.Limits limit limit') {r : Relabeling}
    (hcolor : (Discipline.alike (· = l)).Recolors r)
    (hname : ∀ name, lowerCase name = lowerCase (r.name name)) {p : Program}
    (hloads : ∀ name, p.Loads name → l.spelling name (r.name name)) :
    Action.Alike l (p.run limit) ((p.relabel r).run limit') := by
  have hmeasures : (Discipline.alike (· = l)).Measures := by
    refine Discipline.measures_alike ?_
    rintro _ rfl
    exact hl
  have hcompared : Comparison (.alike (· = l)) .plain .plain limit limit' r :=
    { nests := Discipline.nests_alike (by rintro _ rfl; exact hlimit)
      name := hname
      color := hcolor
      layout := Discipline.laysOut_plain hmeasures }
  have hlooks : ∀ name, p.Loads name → (Discipline.alike (· = l)).Looks name (r.name name) := by
    rintro name h f _ rfl
    exact .lookup (hname name) (hloads name h) f
  exact runAs_rel (hcompared.rel (fun _ _ _ => hmeasures) hlooks).chained l rfl

end BlockChart
