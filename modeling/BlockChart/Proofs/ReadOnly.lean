import BlockChart.Proofs.Comparison
import BlockChart.Proofs.ContextStack

namespace BlockChart

/-!
# Expressions only read

Every node is handed the whole session and may change it.  An expression does not: when it
is done, with a value or with a fault, the session is the one that it started in.  The level
of nesting that it counts on the way is given back, also where an input runs into the limit.

* `Action.ReadOnly` — the action leaves every session as it is; `Reading.readOnly` has the rules;
* `Program.IsExpression` — the node and all nodes in its slots, at any depth, are
  expressions;
* `Program.IsExpression.readOnly` — their meanings only read;
* `Program.eval_readOnly` — an expression can be evaluated again with the same outcome.
-/

namespace Action

variable {α β : Type}

/-- **The action leaves every session as it is**, whether it gives a result or a fault. -/
def ReadOnly (a : Action α) : Prop :=
  ∀ s, (a.run s).2 = s

namespace ReadOnly

theorem pure (x : α) : ReadOnly (Pure.pure x : Action α) :=
  fun _ => rfl

theorem fail (e : Fault) : ReadOnly (Action.fail e : Action α) :=
  fun _ => rfl

theorem readScopes (r : Scopes → Except Fault α) : ReadOnly (Action.readScopes r) :=
  fun _ => rfl

theorem bounds (c : ElementId) : ReadOnly (Action.bounds c) :=
  fun _ => rfl

/-- One action after another; after a fault in the first one the second is not run. -/
theorem bind {a : Action α} {k : α → Action β} (ha : a.ReadOnly) (hk : ∀ x, (k x).ReadOnly) :
    (a >>= k).ReadOnly := by
  intro s
  have hs := ha s
  cases hr : a.run s with
  | mk r s₁ =>
    rw [hr] at hs
    obtain rfl : s₁ = s := hs
    cases r with
    | ok x =>
      rw [run_bind_of_ok k hr]
      exact hk x s₁
    | error e => rw [run_bind_of_error k hr]

/-- **A level of nesting** is given back after a result and after a fault; at the limit it is
    not taken at all. -/
theorem nested (limit : Nat) {body : Action α} (hbody : body.ReadOnly) :
    (Action.nested limit body).ReadOnly := by
  intro s
  by_cases hlimit : limit ≤ s.depth
  · rw [show (Action.nested limit body).run s = (.error (.recursionLimit limit), s) from
      if_pos hlimit]
  · have hinner : (body.run { s with depth := s.depth + 1 }).2 = { s with depth := s.depth + 1 } :=
      hbody _
    rw [show ((Action.nested limit body).run s).2
        = { (body.run { s with depth := s.depth + 1 }).2 with
            depth := (body.run { s with depth := s.depth + 1 }).2.depth - 1 } from
      congrArg Prod.snd (if_neg hlimit), hinner]
    rfl

end ReadOnly

end Action

/-- Leaving every session as it is, as a property of what only reads. -/
def Reading.readOnly : Reading where
  rel _ a _ := a.ReadOnly
  pure := .pure
  fail {_ _ e} _ := .fail e
  bind := .bind
  read {_ _ r} _ := .readScopes r

/-! ### Programs -/

namespace Program

/-- **Expressions all the way down**: neither the first node nor any node in its slots is a
    statement. -/
def IsExpression (p : Program) : Prop :=
  ∀ q : Program, q.Within p → q.opcode?.any Opcode.isStatement = false

/-- A program is an expression if it is no statement and its slots are expressions. -/
theorem isExpression_iff {p : Program} :
    p.IsExpression ↔ p.opcode?.any Opcode.isStatement = false ∧ ∀ q ∈ p.slots, q.IsExpression :=
  forall_within

/-- **The meaning of an expression only reads**, when it is run alone. -/
theorem IsExpression.readOnly {p : Program} (h : p.IsExpression) (limit : Nat) :
    Slot.Alone .readOnly (p.meaning? limit) (p.meaning? limit) := by
  induction p using parts_induction with
  | nothing => exact .none
  | node p hp ih _ _ =>
    obtain ⟨hop, hslots⟩ := isExpression_iff.mp h
    have hinputs : ∀ x ∈ p.inputs, InputsRel .readOnly .plain .plain limit limit x x :=
      fun x hx => ih x hx (hslots x (mem_slots_of_mem_inputs hx))
    have hallows : Reading.readOnly.Allows {} p :=
      { loads := fun _ _ _ _ => .readScopes _
        sizes := fun _ _ c => .bounds c }
    -- an expression has no body, so nothing is asked of one
    have hmatches : p.Matches {} (InputsRel .readOnly .plain .plain limit limit) (fun _ _ => True)
        p := matches_self hp hinputs trivial
    exact (Reading.stepsRel hop hallows hmatches).alone fun h => .nested limit h

/-- **Evaluating an expression is pure.**  Whether it ends in a value or in a fault, scopes,
    drawing, depth and all else in the session are as before; and evaluated again, right after
    the first time, it ends in the same way. -/
theorem eval_readOnly {p : Program} (h : p.IsExpression) (limit : Nat) (f : FrameId)
    (s : Session) :
    let first := (p.eval limit f).run s
    let second := (p.eval limit f).run first.2
    first.2 = s ∧ second.1 = first.1 ∧ second.2 = s := by
  intro first second
  have hfirst : first.2 = s := (h.readOnly limit).required "program" f s
  have hsecond : second = first := congrArg (p.eval limit f).run hfirst
  exact ⟨hfirst, by rw [hsecond], by rw [hsecond, hfirst]⟩

/-- The length of a text, plus a variable. -/
def lengthPlusVariable : Program :=
  .binary false (.count false (.string false "abc")) (.load false "x") "+"

/-- Two levels are too few for the text, and the fault comes out of the innermost node; with
    three levels the text is counted before the variable is missed. -/
theorem eval_readOnly_lengthPlusVariable :
    lengthPlusVariable.IsExpression ∧
      (lengthPlusVariable.eval 2 Scopes.root).run .blank = (.error (.recursionLimit 2), .blank) ∧
      (lengthPlusVariable.eval 3 Scopes.root).run .blank
        = (.error (.undefinedVariable "x"), .blank) := by
  have htext : (string false "abc").IsExpression :=
    isExpression_iff.mpr ⟨rfl, List.forall_mem_nil _⟩
  have hload : (load false "x").IsExpression :=
    isExpression_iff.mpr ⟨rfl, List.forall_mem_nil _⟩
  have hcount : (count false (string false "abc")).IsExpression :=
    isExpression_iff.mpr ⟨rfl, List.forall_mem_singleton.mpr htext⟩
  have hexpr : lengthPlusVariable.IsExpression :=
    isExpression_iff.mpr
      ⟨rfl, List.forall_mem_cons.mpr ⟨hcount, List.forall_mem_singleton.mpr hload⟩⟩
  obtain ⟨htwo, -⟩ := eval_readOnly hexpr 2 Scopes.root .blank
  obtain ⟨hthree, -⟩ := eval_readOnly hexpr 3 Scopes.root .blank
  exact ⟨hexpr, Prod.ext rfl htwo, Prod.ext rfl hthree⟩

end Program

end BlockChart
