import BlockChart.Program.Basic

namespace BlockChart.Program

/-!
# Nodes of a program

The nodes of a program at any depth, and what it means to change their flags and
nothing else:

* `slots` are the programs that are plugged into the first node, `Within` reaches the
  nodes at any depth;
* `inputs` and `body` are the slots apart from the rest of the chain, by what they are
  for; `parts_induction` is the induction over them;
* `mapFlags` changes the disabled flag of every node, by its operation;
* `mapFlags_eq_self` — a change that every single node passes unchanged changes nothing.
-/

/-- The programs in the slots of the first node, the rest of the chain among them. -/
def slots : Program → List Program
  | nothing | string .. | load .. | width _ | height _ | rows _ | columns _ => []
  | count _ x | columnName _ x | stat _ x _ | color _ _ _ x => [x]
  | cell _ x y | binary _ x y _ | store _ _ x y | alpha _ _ x y | rotate _ x y | scale _ x y
  | align _ _ _ x y => [x, y]
  | forEach _ x _ y z | conditional _ x y z | margin _ x y z | circle _ x y z | text _ x y z =>
    [x, y, z]
  | translate _ x y z w | rect _ x y z w => [x, y, z, w]

/-- **Induction over slots**: what every node inherits from its slots holds of every
    program. -/
theorem slots_induction {motive : Program → Prop}
    (node : ∀ p, (∀ r ∈ p.slots, motive r) → motive p) (p : Program) : motive p := by
  induction p <;> apply node <;> clear node <;> simp [slots, *]

/-- `q` is the program `p`, or stands in one of its slots at any depth. -/
inductive Within (q : Program) : Program → Prop
  | self : Within q q
  | slot {p r : Program} (mem : r ∈ p.slots) (within : Within q r) : Within q p

/-- What holds at any depth holds of the program and at any depth of its slots. -/
theorem forall_within {P : Program → Prop} {p : Program} :
    (∀ q, q.Within p → P q) ↔ P p ∧ ∀ r ∈ p.slots, ∀ q, q.Within r → P q := by
  constructor
  · intro h
    exact ⟨h p .self, fun r hr q hq => h q (.slot hr hq)⟩
  · rintro ⟨hp, hslots⟩ q hq
    cases hq with
    | self => exact hp
    | slot hr hq => exact hslots _ hr q hq

section

variable {P : Program → Prop} {x y z : Program} {rest : List Program}

/-- What holds of all slots holds of the first one, and so on. -/
theorem firstSlot (h : ∀ q ∈ x :: rest, P q) : P x :=
  h x List.mem_cons_self

theorem secondSlot (h : ∀ q ∈ x :: y :: rest, P q) : P y :=
  firstSlot fun q hq => h q (List.mem_cons_of_mem x hq)

theorem thirdSlot (h : ∀ q ∈ x :: y :: z :: rest, P q) : P z :=
  secondSlot fun q hq => h q (List.mem_cons_of_mem x hq)

end

/-! ### Inputs and bodies -/

/-- The programs in the value inputs of the first node. -/
def inputs : Program → List Program
  | count _ x | columnName _ x | stat _ x _ | store _ _ x _ | alpha _ _ x _ | forEach _ x _ _ _
  | conditional _ x _ _ | rotate _ x _ | scale _ x _ | margin _ x _ _ | circle _ x _ _
  | text _ x _ _ => [x]
  | cell _ x y | binary _ x y _ | translate _ x y _ _ | rect _ x y _ _ => [x, y]
  | _ => []

/-- The chain in the body of the first node. -/
def body : Program → Program
  | forEach _ _ _ child _ | conditional _ _ child _ | translate _ _ _ child _ | rotate _ _ child
  | scale _ _ child | align _ _ _ child _ | margin _ _ child _ | circle _ _ child _
  | rect _ _ _ child _ | text _ _ child _ => child
  | _ => nothing

/-- Inputs are slots. -/
theorem mem_slots_of_mem_inputs {p q : Program} (h : q ∈ p.inputs) : q ∈ p.slots := by
  cases p <;> simp only [inputs, slots, List.mem_cons, List.not_mem_nil, or_false] at h ⊢
  all_goals grind

/-- The body is a slot, if there is any. -/
theorem body_mem_slots {p : Program} (hbody : p.body ≠ nothing) : p.body ∈ p.slots := by
  cases p <;> simp_all [body, slots]

/-- The rest of a chain is a slot of its first node, if there is any. -/
theorem next_mem_slots {p : Program} (hnext : p.next ≠ nothing) : p.next ∈ p.slots := by
  cases p <;> simp_all [next, slots]

/-- **Induction over inputs, bodies and chains**: what every node inherits from its inputs, from
    its body and from what follows it holds of every program. -/
theorem parts_induction {motive : Program → Prop} (nothing : motive nothing)
    (node : ∀ p, p ≠ Program.nothing → (∀ x ∈ p.inputs, motive x) → motive p.body → motive p.next →
      motive p) (p : Program) : motive p := by
  induction p using slots_induction with
  | node p ih =>
    -- what is empty has the property anyhow
    have hchain : ∀ q, (q ≠ Program.nothing → q ∈ p.slots) → motive q := by
      intro q hq
      by_cases hempty : q = Program.nothing
      · exact hempty ▸ nothing
      · exact ih q (hq hempty)
    by_cases hp : p = Program.nothing
    · exact hp ▸ nothing
    · exact node p hp (fun x hx => ih x (mem_slots_of_mem_inputs hx)) (hchain _ body_mem_slots)
        (hchain _ next_mem_slots)

/-- Inputs are smaller programs. -/
theorem sizeOf_lt_of_mem_inputs {p q : Program} (h : q ∈ p.inputs) : sizeOf q < sizeOf p := by
  cases p <;> simp only [inputs, List.mem_cons, List.not_mem_nil, or_false] at h
  all_goals grind

/-- The programs behind each other in a chain become no larger. -/
theorem sizeOf_le_of_mem_nodes {p q : Program} (h : q ∈ p.nodes) : sizeOf q ≤ sizeOf p := by
  induction p
  case nothing => exact absurd h List.not_mem_nil
  all_goals
    simp only [nodes, List.mem_cons, List.not_mem_nil, or_false] at h
    grind

/-- Bodies are smaller programs, however long the chain. -/
theorem sizeOf_lt_of_mem_body {p q : Program} (h : q ∈ p.body.nodes) : sizeOf q < sizeOf p := by
  have hle := sizeOf_le_of_mem_nodes h
  cases p <;> simp only [body, nodes, List.not_mem_nil] at h hle
  all_goals simp; omega

/-- The first node asks for the size of what is around it. -/
def AsksSize (p : Program) : Prop :=
  p.opcode? = some .width ∨ p.opcode? = some .height

instance (p : Program) : Decidable p.AsksSize :=
  inferInstanceAs (Decidable (_ ∨ _))

/-! ### Flags -/

/-- Changes the flag of every node. -/
def mapFlags (change : Opcode → Bool → Bool) : Program → Program
  | nothing => nothing
  | string d s => string (change .string d) s
  | load d name => load (change .load d) name
  | width d => width (change .width d)
  | height d => height (change .height d)
  | count d x => count (change .count d) (x.mapFlags change)
  | cell d x y => cell (change .cell d) (x.mapFlags change) (y.mapFlags change)
  | rows d => rows (change .rows d)
  | columns d => columns (change .columns d)
  | columnName d x => columnName (change .columnName d) (x.mapFlags change)
  | binary d x y operator =>
    binary (change .binary d) (x.mapFlags change) (y.mapFlags change) operator
  | stat d x operator => stat (change .stat d) (x.mapFlags change) operator
  | store d name x next =>
    store (change .store d) name (x.mapFlags change) (next.mapFlags change)
  | color d paint c next => color (change .color d) paint c (next.mapFlags change)
  | alpha d opacity x next =>
    alpha (change .alpha d) opacity (x.mapFlags change) (next.mapFlags change)
  | forEach d x name child next =>
    forEach (change .forEach d) (x.mapFlags change) name (child.mapFlags change)
      (next.mapFlags change)
  | conditional d x child next =>
    conditional (change .conditional d) (x.mapFlags change) (child.mapFlags change)
      (next.mapFlags change)
  | translate d x y child next =>
    translate (change .translate d) (x.mapFlags change) (y.mapFlags change)
      (child.mapFlags change) (next.mapFlags change)
  | rotate d x child => rotate (change .rotate d) (x.mapFlags change) (child.mapFlags change)
  | scale d x child => scale (change .scale d) (x.mapFlags change) (child.mapFlags change)
  | align d horizontal vertical child next =>
    align (change .align d) horizontal vertical (child.mapFlags change) (next.mapFlags change)
  | margin d x child next =>
    margin (change .margin d) (x.mapFlags change) (child.mapFlags change) (next.mapFlags change)
  | circle d x child next =>
    circle (change .circle d) (x.mapFlags change) (child.mapFlags change) (next.mapFlags change)
  | rect d x y child next =>
    rect (change .rect d) (x.mapFlags change) (y.mapFlags change) (child.mapFlags change)
      (next.mapFlags change)
  | text d x child next =>
    text (change .text d) (x.mapFlags change) (child.mapFlags change) (next.mapFlags change)

/-- The first node stays if its flag and the programs in its slots do. -/
private theorem mapFlags_eq_self_of_slots {change : Opcode → Bool → Bool} {p : Program}
    (hflag : ∀ op, p.opcode? = some op → change op p.disabled = p.disabled)
    (hslots : ∀ r ∈ p.slots, r.mapFlags change = r) : p.mapFlags change = p := by
  cases p
  case nothing => rfl
  all_goals
    have hd := hflag _ rfl
    simp only [disabled] at hd
    simp only [slots, List.forall_mem_cons] at hslots
    simp only [mapFlags, hd, hslots]

/-- A change that leaves the flag of every node alone leaves the program alone. -/
theorem mapFlags_eq_self {change : Opcode → Bool → Bool} {p : Program}
    (h : ∀ q : Program, q.Within p →
      ∀ op, q.opcode? = some op → change op q.disabled = q.disabled) :
    p.mapFlags change = p := by
  induction p using slots_induction with
  | node p ih =>
    obtain ⟨hflag, hslots⟩ := forall_within.mp h
    exact mapFlags_eq_self_of_slots hflag fun r hr => ih r hr (hslots r hr)

end BlockChart.Program
