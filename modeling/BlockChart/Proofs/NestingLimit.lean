import BlockChart.Proofs.ContextStack
import BlockChart.Proofs.Likeness
import Mathlib.Data.List.MinMax
import Mathlib.Order.Nat

namespace BlockChart

/-!
# The limit on nesting

A program runs under a limit on how deeply its nodes may be nested.

* `Program.run_eq_of_limit_le` — the limit only ever cuts a run short: under a larger one
  the run is the same, unless it failed at the smaller one.
* `Program.levels` is how deeply a node nests its inputs and its body; what follows a node
  in its chain does not count.
* `Action.FitsIn` says that an action gets along with a number of levels; that is a discipline,
  `Discipline.fitting`, and `Program.fits` — a program gets along with its own levels.
* `Program.run_ne_recursionLimit` — so a program whose nodes take no more levels than the
  limit does not meet it, however long its chains are and however often its loops go round.
-/

/-! ### A larger limit -/

namespace Program

/-- **The limit cuts a run short and changes nothing else.**  From every session, a run under
    a limit fails with that limit, or gives what it gives under any larger one: the same
    value or fault, the same scopes and the same drawing. -/
theorem run_eq_of_limit_le {limit limit' : Nat} (hle : limit ≤ limit') (p : Program)
    (s : Session) :
    ((p.run limit).run s).1 = .error (.recursionLimit limit) ∨
      (p.run limit).run s = (p.run limit').run s := by
  -- the lower limit is excused where it is met, and nothing else is
  let l := Likeness.excusing (· = .recursionLimit limit)
  have hlimit : l.Limits limit limit' := .inr ⟨hle, rfl⟩
  have halike : Action.Alike l (p.run limit) ((p.relabel {}).run limit') :=
    relabel_alike (Likeness.measured_excusing _) hlimit (Discipline.recolors_name _ id)
      (fun _ => rfl) fun _ _ => rfl
  rw [relabel_id] at halike
  rcases Likeness.eq_or_excused_of_outcomes (halike s s ⟨s.drawing, s.strays, rfl, rfl, rfl⟩) with
    heq | ⟨_, rfl, hfault⟩
  · exact .inr heq
  · exact .inl hfault

/-- Three levels are enough for `shiftedCircle`, so more make no difference; two are not. -/
theorem run_eq_of_limit_le_shiftedCircle :
    3 ≤ 512 ∧ (shiftedCircle.run 3).run .blank = (shiftedCircle.run 512).run .blank ∧
      ((shiftedCircle.run 2).run .blank).1 = .error (.recursionLimit 2) := by
  have hle : 3 ≤ 512 := by decide
  refine ⟨hle, ?_, rfl⟩
  rcases run_eq_of_limit_le hle shiftedCircle .blank with hfault | heq
  · have hok : ((shiftedCircle.run 3).run .blank).1 = .ok .unit := rfl
    rw [hok] at hfault
    cases hfault
  · exact heq

end Program

/-! ### Levels of nesting -/

namespace Program

/-- **The levels of a node**: one more than the most that an input takes, or a node of the
    chain in its body. -/
def levels (p : Program) : Nat :=
  if p = nothing then 0
  else 1 + ((p.inputs ++ p.body.nodes).attach.map fun q => q.1.levels).foldr max 0
termination_by sizeOf p
decreasing_by
  rcases List.mem_append.mp q.2 with hq | hq
  · exact sizeOf_lt_of_mem_inputs hq
  · exact sizeOf_lt_of_mem_body hq

/-- Inside a node there is one level less. -/
theorem levels_lt {p q : Program} (h : q ∈ p.inputs ++ p.body.nodes) : q.levels < p.levels := by
  have hp : p ≠ nothing := by
    rintro rfl
    exact List.not_mem_nil h
  have hmem : q.levels ∈ (p.inputs ++ p.body.nodes).attach.map fun q => q.1.levels :=
    List.mem_map.mpr ⟨⟨q, h⟩, List.mem_attach _ _, rfl⟩
  have hle := List.le_max_of_le hmem (Nat.le_refl _)
  rw [levels.eq_def p, if_neg hp]
  exact Nat.lt_one_add_iff.mpr hle

end Program

/-! ### Actions that fit -/

/-- **The action fits into `k` levels**: where so many are left under the limit, it does not
    fail for want of one, and it gives back those that it took. -/
def Action.FitsIn (limit k : Nat) {α : Type} (a : Action α) : Prop :=
  ∀ s : Session, s.depth + k ≤ limit →
    (a.run s).2.depth = s.depth ∧ ∀ m, (a.run s).1 ≠ .error (.recursionLimit m)

namespace Action.FitsIn

variable {limit k : Nat} {α β : Type} {f : FrameId}

/-- Actions that take no level themselves. -/
theorem of_depth_eq {a : Action α} (hdepth : ∀ s, (a.run s).2.depth = s.depth)
    (hfault : ∀ s m, (a.run s).1 ≠ .error (.recursionLimit m)) : FitsIn limit k a :=
  fun s _ => ⟨hdepth s, hfault s⟩

/-- To do nothing. -/
theorem pure (x : α) : FitsIn limit k (Pure.pure x : Action α) :=
  of_depth_eq (fun _ => rfl) fun _ _ => nofun

/-- To fail, but for the depth. -/
theorem fail {e : Fault} (he : ∀ m, e ≠ .recursionLimit m) :
    FitsIn limit k (Action.fail e : Action α) :=
  of_depth_eq (fun _ => rfl) fun _ m hm => he m (by cases hm; rfl)

/-- **One action after another**: the first one gives its levels back, so they need not be
    counted together. -/
theorem bind {a : Action α} {b : α → Action β} (ha : FitsIn limit k a)
    (hb : ∀ x, FitsIn limit k (b x)) : FitsIn limit k (a >>= b) := by
  intro s hs
  obtain ⟨hdepth, hfault⟩ := ha s hs
  cases hr : a.run s with
  | mk r s₁ =>
    rw [hr] at hdepth hfault
    cases r with
    | ok x =>
      rw [run_bind_of_ok b hr]
      -- the first action gave back the depth it took
      have hs₁ : s₁.depth + k ≤ limit := hdepth ▸ hs
      obtain ⟨hdepth', hfault'⟩ := hb x s₁ hs₁
      exact ⟨hdepth'.trans hdepth, hfault'⟩
    | error e =>
      rw [run_bind_of_error b hr]
      refine ⟨hdepth, fun m hm => hfault m ?_⟩
      cases hm
      rfl

/-- To read, if that does not fail for the depth. -/
theorem readScopes {r : Scopes → Except Fault α}
    (hr : ∀ s m, r s ≠ .error (.recursionLimit m)) : FitsIn limit k (Action.readScopes r) :=
  of_depth_eq (fun _ => rfl) fun s => hr s.scopes

/-- A variable that nobody bound has nothing to do with levels. -/
theorem lookup (name : String) : FitsIn limit k (Action.lookup f name) := by
  refine readScopes fun s m h => ?_
  rcases Scopes.misses_of_lookup h with h | h
  · cases h
  · exact h.isSilent.1 m rfl

/-- To change scopes, under the same condition. -/
theorem changeScopes {change : Scopes → Except Fault (α × Scopes)}
    (hchange : ∀ s m, change s ≠ .error (.recursionLimit m)) :
    FitsIn limit k (Action.changeScopes change) := by
  intro s _
  simp only [Action.run, Action.changeScopes]
  cases hr : change s.scopes with
  | ok r => exact ⟨rfl, fun _ h => by cases h⟩
  | error e =>
    refine ⟨rfl, fun m hm => hchange s.scopes m ?_⟩
    cases hm
    exact hr

/-- Changing one frame, as `push` and `assign` do. -/
theorem changeFrame (change : Frame → Frame) :
    FitsIn limit k (Action.changeScopes fun s => (s.modify f change).map ((), ·)) := by
  refine changeScopes fun s m h => ?_
  cases hmod : s.modify f change with
  | ok t => rw [hmod] at h; cases h
  | error e =>
    rw [hmod] at h
    cases h
    exact (Scopes.isArenaFault_of_modify hmod).isSilent.1 m rfl

/-- Popping a context fails for want of one, and not for the depth. -/
theorem pop : FitsIn limit k (Action.pop f) :=
  changeScopes fun _ m h => (Scopes.isArenaFault_of_pop h).isSilent.1 m rfl

theorem bounds (c : ElementId) : FitsIn limit k (Action.bounds c) :=
  of_depth_eq (fun _ => rfl) fun _ _ => nofun

/-- Writing never fails. -/
theorem write (c : ElementId) (change : Drawing → Drawing) :
    FitsIn limit k (Action.write c change) :=
  of_depth_eq (fun _ => rfl) fun _ _ => nofun

theorem append (c : ElementId) (tag : String) : FitsIn limit k (Action.append c tag) :=
  of_depth_eq (fun _ => rfl) fun _ _ => nofun

theorem noteImbalance (pushed popped : ElementId) :
    FitsIn limit k (Action.noteImbalance pushed popped) := by
  intro s _
  simp only [Action.run, Action.noteImbalance]
  split <;> exact ⟨rfl, fun _ h => by cases h⟩

/-- **The bracket for a drawing context.** -/
theorem withContext (c : ElementId) {body : Action Unit} (hbody : FitsIn limit k body) :
    FitsIn limit k (Action.withContext f c body) :=
  bind (changeFrame _) fun _ => bind hbody fun _ => bind pop fun popped => noteImbalance c popped

/-- **The bracket for a fresh frame.** -/
theorem inFreshFrame {body : FrameId → Action α} (hbody : ∀ g, FitsIn limit k (body g)) :
    FitsIn limit k (Action.inFreshFrame f body) :=
  fun s hs => hbody _ { s with scopes := (s.scopes.openFrame f).2 } hs

/-- **The bracket for a level of nesting** is where levels are taken. -/
theorem nested {body : Action α} (hbody : FitsIn limit k body) :
    FitsIn limit (k + 1) (Action.nested limit body) := by
  intro s hs
  have hinside : s.depth + 1 + k ≤ limit := by omega
  obtain ⟨hdepth, hfault⟩ := hbody { s with depth := s.depth + 1 } hinside
  have hbelow : ¬ limit ≤ s.depth := by omega
  simp only [Action.run, Action.nested, if_neg hbelow] at hdepth hfault ⊢
  rw [hdepth]
  exact ⟨Nat.add_sub_cancel .., hfault⟩

end Action.FitsIn

/-- **Fitting into some levels.**  It is about a single run, and does not depend on what an
    operation has found or made. -/
def Discipline.fitting (limit k : Nat) : Discipline where
  rel _ a _ := Action.FitsIn limit k a
  pure := .pure
  fail cause := .fail (Scopes.isSilent_of_unfound cause).1
  bind := .bind
  read hr := .readScopes fun s m h => (hr s _ h).isSilent.1 m rfl
  Stage := Unit
  during _ _ a _ := Action.FitsIn limit k a
  ready _ _ := True
  innermost _ _ _ := True
  made _ _ _ := True
  after _ _ _ := True
  ready_after _ _ := trivial
  innermost_after _ _ := trivial
  made_after _ _ := trivial
  rel_of_during h := h () trivial
  during_of_rel h _ := h
  bind_during ha hk := .bind ha fun x => hk x () trivial
  top_bind hk := .bind (.readScopes fun _ m h => (Scopes.isArenaFault_of_top h).isSilent.1 m rfl)
    fun c => hk c trivial
  append_bind _ _ _ hk := .bind (.append _ _) fun i => hk i () trivial trivial
  setAttribute _ _ _ := .write _ _
  setStyle _ _ _ := .write _ _
  setText _ _ := .write _ _
  withContext _ hbody := .withContext _ hbody
  assign _ _ := .changeFrame _
  inFreshFrame hbody := .inFreshFrame hbody

/-! ### Programs that fit -/

namespace Program

/-- A program fits into its levels: alone into those of its first node, with its chain into
    as many as each node of the chain gets along with. -/
structure Fits (limit : Nat) (p : Program) : Prop where
  alone : ∀ k, p.levels ≤ k →
    Slot.Alone (Discipline.fitting limit k).toReading (p.meaning? limit) (p.meaning? limit)
  chained : ∀ k, (∀ q ∈ p.nodes, q.levels ≤ k) →
    Slot.Chained (Discipline.fitting limit k).toReading (p.meaning? limit) (p.meaning? limit)

/-- The nodes of a chain are its first one and those that follow. -/
theorem nodes_eq_cons {p : Program} (hp : p ≠ nothing) : p.nodes = p :: p.next.nodes := by
  cases p
  case nothing => exact absurd rfl hp
  all_goals rfl

/-- **A step fits** into what is left for the inputs and the body of its node. -/
theorem stepsRel_fitting {limit k : Nat} {p : Program} (hp : p ≠ nothing)
    (hinputs : ∀ x ∈ p.inputs, x.Fits limit ∧ x.levels ≤ k) (hbody : p.body.Fits limit)
    (hlevels : ∀ q ∈ p.body.nodes, q.levels ≤ k) :
    StepsRel (Discipline.fitting limit k).toReading .plain .plain limit limit p p := by
  have hmeasures : (Discipline.fitting limit k).Measures := fun _ c => .bounds c
  refine Discipline.stepsRel ⟨fun _ name _ _ => .lookup name, fun _ => hmeasures⟩
    (Discipline.recolors_name _ id) (fun _ => rfl) (Discipline.laysOut_plain hmeasures) ?_
  exact matches_self hp (fun x hx => (hinputs x hx).1.alone k (hinputs x hx).2)
    (hbody.chained k hlevels)

/-- **Every program fits into its levels.** -/
theorem fits (limit : Nat) (p : Program) : p.Fits limit := by
  induction p using parts_induction with
  | nothing => exact ⟨fun _ _ => .none, fun _ _ => .none⟩
  | node p hp hinputs hbody hnext =>
    -- inside the node there is one level less, and its step fits into the rest
    have hsteps : ∀ k, p.levels ≤ k + 1 →
        StepsRel (Discipline.fitting limit k).toReading .plain .plain limit limit p p := by
      intro k hk
      have hinside : ∀ q ∈ p.inputs ++ p.body.nodes, q.levels ≤ k := fun q hq =>
        Nat.le_of_lt_succ (Nat.lt_of_lt_of_le (levels_lt hq) hk)
      refine stepsRel_fitting hp (fun x hx => ⟨hinputs x hx, ?_⟩) hbody fun q hq => ?_
      · exact hinside x (List.mem_append_left _ hx)
      · exact hinside q (List.mem_append_right _ hq)
    have hlevels : ∀ k, p.levels ≤ k → ∃ j, k = j + 1 := by
      intro k hk
      rw [levels, if_neg hp] at hk
      exact ⟨k - 1, by omega⟩
    refine ⟨fun k hk => ?_, fun k hk => ?_⟩
    · obtain ⟨j, rfl⟩ := hlevels k hk
      exact (hsteps j hk).alone fun h => .nested h
    · rw [nodes_eq_cons hp, List.forall_mem_cons] at hk
      obtain ⟨j, rfl⟩ := hlevels k hk.1
      exact (hsteps j hk.1).chained (fun h => .nested h) (hnext.chained _ hk.2)

/-- **The limit is on nesting, not on length.**  If no node of its chain takes more levels
    than the limit, a program does not fail at the limit, over any table, on any drawing and
    after any calls; the length of its chains and the number of items in its loops do not
    matter. -/
theorem run_ne_recursionLimit (limit : Nat) (p : Program)
    (hlevels : ∀ q ∈ p.nodes, q.levels ≤ limit) (table : Table) (drawing : Drawing)
    (calls : List Call) (m : Nat) :
    ((p.run limit).run ((Session.start table drawing).after limit calls)).1
      ≠ .error (.recursionLimit m) := by
  obtain ⟨-, hdepth⟩ := (Session.atRest_start table drawing).after limit calls
  generalize (Session.start table drawing).after limit calls = s at hdepth ⊢
  have hfits : Action.FitsIn limit limit (p.run limit) :=
    runAs_rel ((p.fits limit).chained limit hlevels)
  have hroom : s.depth + limit ≤ limit := by omega
  exact (hfits s hroom).2 m

/-- The three levels of `shiftedCircle` are needed and are enough. -/
theorem run_ne_recursionLimit_shiftedCircle :
    (∀ q ∈ shiftedCircle.nodes, q.levels ≤ 3) ∧
      (∀ m, ((shiftedCircle.run 3).run .blank).1 ≠ .error (.recursionLimit m)) ∧
      ((shiftedCircle.run 2).run .blank).1 = .error (.recursionLimit 2) := by
  have hlevels : ∀ q ∈ shiftedCircle.nodes, q.levels ≤ 3 := by decide +kernel
  refine ⟨hlevels, fun m => ?_, rfl⟩
  exact run_ne_recursionLimit 3 shiftedCircle hlevels .empty ⟨#[.plain "svg" none]⟩ [] m

end Program

end BlockChart
