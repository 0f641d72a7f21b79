import BlockChart.Evaluation.Run
import BlockChart.Proofs.ActionEffect
import Mathlib

namespace BlockChart

/-!
# Loose equality

`Value.looselyEqual` does not depend on the order of its operands.  A list and a text are
compared by display text, but the text is looked for on both sides, and it is itself one of
the sides.  So a list is equal to every text, whatever it is displayed as.

* `Value.looselyEqual_comm` — the order of the operands;
* `Value.eitherReads_str` — a text is displayed as itself;
* `Step.run_binary` — an operator, once its operands are known;
* `Value.list_equals_every_text` — lists and texts, and the operators `==` and `!=` on them.
-/

/-! ### Numbers -/

/-- Numbers are equal in either order. -/
theorem float_beq_comm (a b : Float) : (a == b) = (b == a) := by
  rw [Bool.eq_iff_iff, Float.beq_iff_ne_nan_and_eq, Float.beq_iff_ne_nan_and_eq]
  grind

namespace Value

/-! ### The order of the operands -/

mutual

theorem same_comm : ∀ a b : Value, a.same b = b.same a
  | .list as, .list bs => by
    rw [same, same]
    exact sameItems_comm as bs
  | .num a, .num b => by
    rw [same, same]
    exact float_beq_comm a b
  | .bool a, .bool b => by
    rw [same, same]
    exact Bool.beq_comm
  | .str a, .str b => by
    rw [same, same]
    exact Bool.beq_comm
  -- values of different kinds are never the same
  | .unit, b => by cases b <;> rfl
  | .bool _, .unit | .bool _, .num _ | .bool _, .str _ | .bool _, .list _ => rfl
  | .num _, .unit | .num _, .bool _ | .num _, .str _ | .num _, .list _ => rfl
  | .str _, .unit | .str _, .bool _ | .str _, .num _ | .str _, .list _ => rfl
  | .list _, .unit | .list _, .bool _ | .list _, .num _ | .list _, .str _ => rfl

theorem sameItems_comm : ∀ as bs : List Value, sameItems as bs = sameItems bs as
  | [], [] => rfl
  | [], _ :: _ => rfl
  | _ :: _, [] => rfl
  | a :: as, b :: bs => by
    rw [sameItems, sameItems, same_comm a b, sameItems_comm as bs]

end

/-- **Loose equality does not depend on the order of the operands.** -/
theorem looselyEqual_comm (a b : Value) : looselyEqual a b = looselyEqual b a := by
  cases a with
  | unit => cases b <;> rfl
  | bool x =>
    cases b with
    | unit => rfl
    | bool | num | str | list => exact float_beq_comm _ _
  | num x =>
    cases b with
    | unit => rfl
    | bool | num | str | list => exact float_beq_comm _ _
  | str s =>
    cases b with
    | unit => rfl
    | str t => exact Bool.beq_comm
    -- either of the two may be the one that is displayed as the text
    | list items => exact Bool.or_comm _ _
    | bool | num => exact float_beq_comm _ _
  | list items =>
    cases b with
    | unit => rfl
    | str s => exact Bool.or_comm _ _
    | list others => exact sameItems_comm items others
    | bool | num => exact float_beq_comm _ _

/-! ### Lists and texts -/

/-- A text is displayed as itself, so one of two values is displayed as `s` whenever the
    second one is `s`. -/
theorem eitherReads_str (a : Value) (s : String) : eitherReads a (.str s) s = true := by
  have hself : (Value.str s).text = s := by rw [text]
  unfold eitherReads
  rw [hself, beq_self_eq_true, Bool.or_true]

/-- The text is displayed as itself, so the two are equal whatever is in the list. -/
theorem looselyEqual_list_str (items : List Value) (s : String) :
    looselyEqual (.list items) (.str s) = true := by
  rw [looselyEqual]
  exact eitherReads_str (.list items) s

/-- A list and a text, in either order. -/
inductive ListAndText (items : List Value) (s : String) : Value → Value → Prop
  | listFirst : ListAndText items s (.list items) (.str s)
  | textFirst : ListAndText items s (.str s) (.list items)

/-- Loose equality is symmetric, so the order does not matter. -/
theorem ListAndText.looselyEqual_eq {items : List Value} {s : String} {a b : Value}
    (h : ListAndText items s a b) : looselyEqual a b = true := by
  cases h with
  | listFirst => exact looselyEqual_list_str items s
  | textFirst =>
    rw [looselyEqual_comm]
    exact looselyEqual_list_str items s

end Value

/-! ### The operators -/

theorem BinaryOperator.applyNamed?_equal (a b : Value) :
    applyNamed? "==" a b = some (.ofFlag (Value.looselyEqual a b)) :=
  rfl

theorem BinaryOperator.applyNamed?_unequal (a b : Value) :
    applyNamed? "!=" a b = some (.ofFlag (!Value.looselyEqual a b)) :=
  rfl

/-- An operator whose operands have values. -/
theorem Step.run_binary {x y : Slot} {f : FrameId} {s s₁ s₂ : Session} {a b : Value}
    (hx : (x.operand f).run s = (.ok a, s₁)) (hy : (y.operand f).run s₁ = (.ok b, s₂))
    (operator : String) :
    (binary x y operator f).run s =
      (.ok ((BinaryOperator.applyNamed? operator a b).getD .unit), s₂) := by
  unfold binary
  rw [Action.run_bind_of_ok _ hx, Action.run_bind_of_ok _ hy]
  rfl

/-- **A list is equal to every text**, in either order, and not only to the text that it is
    displayed as.  So `==` gives one and `!=` gives zero for every list and every text. -/
theorem Value.list_equals_every_text (items : List Value) (s : String) {a b : Value}
    (h : ListAndText items s a b) :
    looselyEqual a b = true ∧
      ∀ (x y : Slot) (f : FrameId) (s₀ s₁ s₂ : Session),
        (x.operand f).run s₀ = (.ok a, s₁) → (y.operand f).run s₁ = (.ok b, s₂) →
        (Step.binary x y "==" f).run s₀ = (.ok (.num 1), s₂) ∧
          (Step.binary x y "!=" f).run s₀ = (.ok (.num 0), s₂) := by
  have hequal := h.looselyEqual_eq
  refine ⟨hequal, ?_⟩
  intro x y f s₀ s₁ s₂ hx hy
  rw [Step.run_binary hx hy, Step.run_binary hx hy, BinaryOperator.applyNamed?_equal,
    BinaryOperator.applyNamed?_unequal, hequal]
  exact ⟨rfl, rfl⟩

/-- A session over a table of two rows without cells. -/
def twoRows : Session :=
  .start ⟨[], [[], []]⟩ ⟨#[.plain "svg" none]⟩

/-- The numbers of the rows are displayed as `0,1`, and equal the text `none`. -/
theorem Value.list_equals_every_text_twoRows :
    (Value.list [ofNat 0, ofNat 1]).text = "0,1" ∧
      ListAndText [ofNat 0, ofNat 1] "none" (.list [ofNat 0, ofNat 1]) (.str "none") ∧
      (((Program.rows false).meaning? 4).operand Scopes.root).run twoRows
        = (.ok (.list [ofNat 0, ofNat 1]), twoRows) ∧
      (((Program.string false "none").meaning? 4).operand Scopes.root).run twoRows
        = (.ok (.str "none"), twoRows) ∧
      (Step.binary ((Program.rows false).meaning? 4) ((Program.string false "none").meaning? 4)
        "==" Scopes.root).run twoRows = (.ok (.num 1), twoRows) := by
  have hdisplay : (Value.list [ofNat 0, ofNat 1]).text = "0,1" := by decide +kernel
  have hmixed : ListAndText [ofNat 0, ofNat 1] "none" (.list [ofNat 0, ofNat 1]) (.str "none") :=
    .listFirst
  have hx : (((Program.rows false).meaning? 4).operand Scopes.root).run twoRows
      = (.ok (.list [ofNat 0, ofNat 1]), twoRows) := rfl
  have hy : (((Program.string false "none").meaning? 4).operand Scopes.root).run twoRows
      = (.ok (.str "none"), twoRows) := rfl
  obtain ⟨-, hrun⟩ := list_equals_every_text _ _ hmixed
  exact ⟨hdisplay, hmixed, hx, hy, (hrun _ _ _ _ _ _ hx hy).1⟩

end BlockChart
