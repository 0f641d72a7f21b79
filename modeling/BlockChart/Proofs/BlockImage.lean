import BlockChart.Block.Compile
import BlockChart.Proofs.ProgramGrammar
import Mathlib.Data.List.Forall2

namespace BlockChart

/-!
# Programs are images of blocks

A compiled program has a node for every block that can be reached, and no other.  What a
kind of block reads is said here once, in two tables:

* `Opcode.plugs` — the places where it looks for other blocks, in the order of the slots of
  its node;
* `Opcode.fields` — the fields that it requires, some of them with certain words only.

From these follow, for every block,

* `Block.exists_compile_iff` — it compiles if its own fields are in order and what is plugged
  into it compiles;
* `Block.mirroredBy_of_compile` — its node mirrors it;
* `Block.compile_unknown` — an operation is unknown if a block that can be reached has it;
* `Block.compile_image` — the same for everything that can be reached.
-/

/-- A place of a block where another block may be plugged in. -/
inductive Plug
  /-- An input. -/
  | input (name : String)
  /-- The input `child`, or the input `next` if nothing is plugged into `child`. -/
  | body
  /-- The place below the block. -/
  | next

namespace Opcode

/-- The places where a kind of block looks for other blocks. -/
def plugs : Opcode → List Plug
  | string | load | width | height | rows | columns => []
  | count => [.input "value"]
  | cell => [.input "row", .input "column"]
  | columnName => [.input "index"]
  | binary => [.input "x", .input "y"]
  | stat => [.input "column"]
  | store => [.input "value", .next]
  | color => [.next]
  | alpha => [.input "alpha", .next]
  | forEach => [.input "set", .body, .next]
  | conditional => [.input "condition", .input "child", .next]
  | translate => [.input "x", .input "y", .input "child", .next]
  | rotate => [.input "degrees", .body]
  | scale => [.input "factor", .body]
  | align => [.input "child", .next]
  | margin => [.input "size", .input "child", .next]
  | circle => [.input "radius", .input "child", .next]
  | rect => [.input "width", .input "height", .input "child", .next]
  | text => [.input "text", .input "child", .next]

/-- The fields that a kind of block requires, each with the words that are supported there if
    not every value is. -/
def fields : Opcode → List (String × Option (List String))
  | string => [("data", none)]
  | load | store | forEach => [("variable", none)]
  | binary | stat => [("operator", none)]
  | color => [("attribute", some ["fill", "stroke"]), ("color", none)]
  | alpha => [("type", some ["opacity", "stroke-opacity", "fill-opacity"])]
  | align =>
    [("horizontal", some ["left", "middle", "right"]),
      ("vertical", some ["top", "middle", "bottom"])]
  | _ => []

/-- The words that fields may hold are names, so they are what they are written as. -/
theorem isName_of_mem_fields (op : Opcode) :
    ∀ field ∈ op.fields, ∀ words ∈ field.2, ∀ word ∈ words, Json.isName word = true := by
  cases op <;> decide

end Opcode

/-- The words for the anchors along the first axis. -/
theorem Anchor.isSome_horizontal?_iff {s : String} :
    (horizontal? s).isSome = true ↔ s ∈ ["left", "middle", "right"] := by
  unfold horizontal?
  split <;> simp_all

/-- Those along the second axis. -/
theorem Anchor.isSome_vertical?_iff {s : String} :
    (vertical? s).isSome = true ↔ s ∈ ["top", "middle", "bottom"] := by
  unfold vertical?
  split <;> simp_all

/-! ### Picking the pieces -/

namespace Pieces

variable {p : Pieces} {op : Opcode} {q : Program} {name x : String}

/-- What the block in a place compiled to. -/
def plug (p : Pieces) : Plug → Except Fault Program
  | .input name => p.input name
  | .body => p.body
  | .next => p.next

/-- A field is read if it is there and has a text. -/
theorem field_eq_ok_iff {s : String} :
    p.field name = .ok s ↔ ∃ v, lookupEntry name p.fields = some v ∧ fieldText? v = some s := by
  unfold field
  cases lookupEntry name p.fields with
  | none => simp
  | some v => cases hv : fieldText? v <;> simp [hv]

/-- Two words stand for the paint of an element. -/
theorem exists_paint_iff :
    (∃ paint, p.paint = .ok paint) ↔ ∃ s, p.field "attribute" = .ok s ∧ s ∈ ["fill", "stroke"] := by
  unfold paint
  simp only [exists_bind_iff, ← Paint.exists_name_iff, ← Paint.ofName?_eq_some_iff]
  refine exists_congr fun s => and_congr_right fun _ => ?_
  cases Paint.ofName? s <;> simp

/-- Three words stand for an opacity. -/
theorem exists_opacity_iff :
    (∃ opacity, p.opacity = .ok opacity) ↔
      ∃ s, p.field "type" = .ok s ∧ s ∈ ["opacity", "stroke-opacity", "fill-opacity"] := by
  unfold opacity
  simp only [exists_bind_iff, ← Opacity.exists_name_iff, ← Opacity.ofName?_eq_some_iff]
  refine exists_congr fun s => and_congr_right fun _ => ?_
  cases Opacity.ofName? s <;> simp

/-- A check that fails gives no result. -/
theorem exists_ite_iff {ε α : Type} {c : Prop} [Decidable c] {a : α} {e : ε} :
    (∃ b, (if c then .ok a else .error e) = (.ok b : Except ε α)) ↔ c := by
  split <;> simp_all

/-- An anchor needs a word for each axis. -/
theorem exists_anchors_iff :
    (∃ h v, p.anchors = .ok (h, v)) ↔
      (∃ s, p.field "horizontal" = .ok s ∧ s ∈ ["left", "middle", "right"]) ∧
        ∃ s, p.field "vertical" = .ok s ∧ s ∈ ["top", "middle", "bottom"] := by
  rw [← Prod.exists (p := fun pair => p.anchors = .ok pair)]
  unfold anchors
  simp only [exists_bind_iff, exists_ite_iff, Anchor.isSome_horizontal?_iff,
    Anchor.isSome_vertical?_iff]
  constructor
  · rintro ⟨h, hh, v, hv, hhwords, hvwords⟩
    exact ⟨⟨h, hh, hhwords⟩, v, hv, hvwords⟩
  · rintro ⟨⟨h, hh, hhwords⟩, v, hv, hvwords⟩
    exact ⟨h, hh, v, hv, hhwords, hvwords⟩

/-- **When a block has its node**: its fields are in order, and so is what is plugged into it. -/
theorem exists_node_iff (p : Pieces) (op : Opcode) :
    (∃ q, p.node op = .ok q) ↔
      (∀ field ∈ op.fields, ∃ s, p.field field.1 = .ok s ∧ ∀ words ∈ field.2, s ∈ words) ∧
      ∀ plug ∈ op.plugs, ∃ q, p.plug plug = .ok q := by
  cases op <;>
    simp only [node, Opcode.fields, Opcode.plugs, exists_bind_iff, exists_pure]
  all_goals simp [plug, exists_paint_iff, exists_opacity_iff, exists_anchors_iff, and_assoc]
  all_goals tauto

/-- **What the node of a block is**: it has the operation and the flag, and in its slots what
    is in the places of the block. -/
theorem node_eq_ok (h : p.node op = .ok q) :
    q.opcode? = some op ∧ q.disabled = p.disabled ∧
      op.plugs.map p.plug = q.slots.map .ok := by
  cases op <;> simp only [node, bind_eq_ok_iff, pure_eq_ok_iff] at h
  -- each part that was picked is peeled off, until the node itself is left
  all_goals
    repeat obtain ⟨_, _, h⟩ := h
    simp [Program.opcode?, Program.disabled, Program.slots, Opcode.plugs, plug, *]

/-- A field that cannot be read is no unknown operation.  With the three lemmas below, only the
    name of a block is to blame for one. -/
theorem field_ne_unknown : p.field name = .error (.unknownOperation x) ↔ False := by
  unfold field
  split <;> simp

theorem paint_ne_unknown : p.paint = .error (.unknownOperation x) ↔ False := by
  simp only [paint, bind_eq_error_iff, field_ne_unknown, false_or]
  refine iff_false_intro ?_
  rintro ⟨s, -, hs⟩
  cases hpaint : Paint.ofName? s <;> simp [hpaint] at hs

theorem opacity_ne_unknown : p.opacity = .error (.unknownOperation x) ↔ False := by
  simp only [opacity, bind_eq_error_iff, field_ne_unknown, false_or]
  refine iff_false_intro ?_
  rintro ⟨s, -, hs⟩
  cases hopacity : Opacity.ofName? s <;> simp [hopacity] at hs

theorem anchors_ne_unknown : p.anchors = .error (.unknownOperation x) ↔ False := by
  simp only [anchors, bind_eq_error_iff, field_ne_unknown, false_or]
  refine iff_false_intro ?_
  rintro ⟨h, -, v, -, hv⟩
  split at hv <;> cases hv

/-- **An unknown operation is plugged in**: the fields of a block never complain of one. -/
theorem exists_plug_of_unknown (h : p.node op = .error (.unknownOperation x)) :
    ∃ plug ∈ op.plugs, p.plug plug = .error (.unknownOperation x) := by
  cases op <;> simp only [node, bind_eq_error_iff, pure_eq_error_iff, field_ne_unknown,
    paint_ne_unknown, opacity_ne_unknown, anchors_ne_unknown, and_false, exists_false, or_false,
    false_or, reduceCtorEq] at h
  all_goals
    simp only [Opcode.plugs, List.exists_mem_cons_iff, plug]
    grind

end Pieces

/-- Every value but null has a text. -/
theorem exists_fieldText?_iff (v : Json) : (∃ s, fieldText? v = some s) ↔ v ≠ .null := by
  cases v <;> simp [fieldText?]

/-- Only a text has a name as its field text. -/
theorem fieldText?_eq_some_of_isName {v : Json} {s : String} (hs : Json.isName s = true) :
    fieldText? v = some s ↔ v = .string s := by
  constructor
  · intro h
    cases v with
    | string t => exact congrArg Json.string (Option.some.inj h)
    | null => cases h
    | bool | int | float | array | object =>
      have hcompact := Option.some.inj h
      rw [← hcompact, Json.isName_compact] at hs
      cases hs
  · rintro rfl
    rfl

/-! ### One block -/

namespace Block

variable {b c : Block} {plug : Plug} {p q : Program} {x : String}

/-- The block that is plugged into a place. -/
def plugged? (b : Block) : Plug → Option Block
  | .input name => lookupEntry name b.inputs
  | .body => (lookupEntry "child" b.inputs).or (lookupEntry "next" b.inputs)
  | .next => b.next

/-- **A block in order**: its kind is in the catalog, and each field that the kind requires is
    there, is not null, and holds one of its words if it has any. -/
def InOrder (b : Block) : Prop :=
  ∃ op : Opcode, op.name = b.kind ∧
    ∀ field ∈ op.fields, ∃ v, lookupEntry field.1 b.fields = some v ∧ v ≠ .null ∧
      ∀ words ∈ field.2, ∃ word ∈ words, v = .string word

/-- **The node of a block mirrors it**: it has its kind and its flag, a slot is filled if a
    block is plugged into the place, and then with what that block compiles to. -/
def MirroredBy (b : Block) (q : Program) : Prop :=
  ∃ op : Opcode, op.name = b.kind ∧ q.opcode? = some op ∧
    q.disabled = b.isDisabled ∧
    List.Forall₂
      (fun plug r => (r ≠ .nothing ↔ (b.plugged? plug).isSome = true) ∧
        ∀ c, b.plugged? plug = some c → c.compile = .ok r)
      op.plugs q.slots

/-- What the parts of a block compile to. -/
def pieces (b : Block) : Pieces :=
  ⟨b.kind, b.fields, compileInputs b.inputs, compileNext b.next, b.isDisabled⟩

/-- A block is compiled by the operation that its name stands for. -/
theorem compile_eq (b : Block) : b.compile = Opcode.dispatch b.kind b.pieces.node := by
  obtain ⟨kind, fields, inputs, next, enabled, disabled⟩ := b
  unfold compile
  rfl

/-- The inputs are compiled one by one, each under its own name. -/
theorem lookupEntry_compileInputs (name : String) (inputs : List (String × Block)) :
    lookupEntry name (compileInputs inputs) = (lookupEntry name inputs).map compile := by
  induction inputs with
  | nil => simp [compileInputs]
  | cons x xs ih =>
    obtain ⟨k, b⟩ := x
    by_cases hk : k = name
    · simp [lookupEntry, compileInputs, hk]
    · simp [lookupEntry, compileInputs, hk, ih]

/-- A place holds what the block in it compiles to, and nothing if there is none. -/
theorem plug_pieces (b : Block) (plug : Plug) :
    b.pieces.plug plug = ((b.plugged? plug).map compile).getD (.ok .nothing) := by
  cases plug with
  | input name => simp [pieces, Pieces.plug, Pieces.input, plugged?, lookupEntry_compileInputs]
  | body =>
    simp only [pieces, Pieces.plug, Pieces.body, Pieces.input, plugged?, lookupEntry_compileInputs]
    cases lookupEntry "child" b.inputs <;> simp
  | next => cases hnext : b.next <;> simp [pieces, Pieces.plug, plugged?, compileNext, hnext]

/-- A node can be made if the fields are there and what is plugged in compiles. -/
theorem exists_node_pieces_iff {op : Opcode} :
    (∃ q, b.pieces.node op = .ok q) ↔
      (∀ field ∈ op.fields, ∃ v, lookupEntry field.1 b.fields = some v ∧ v ≠ .null ∧
        ∀ words ∈ field.2, ∃ word ∈ words, v = .string word) ∧
      ∀ plug ∈ op.plugs, ∀ c, b.plugged? plug = some c → ∃ q, c.compile = .ok q := by
  rw [Pieces.exists_node_iff]
  simp only [plug_pieces, exists_getD_map_iff, Pieces.field_eq_ok_iff]
  refine and_congr_left' (forall₂_congr fun field hfield => ?_)
  exact Json.exists_word_iff exists_fieldText?_iff (fun _ _ => fieldText?_eq_some_of_isName)
    (op.isName_of_mem_fields field hfield)

/-- **When a block compiles**: it is in order, and what is plugged into it compiles. -/
theorem exists_compile_iff (b : Block) :
    (∃ p, b.compile = .ok p) ↔
      b.InOrder ∧ ∀ op : Opcode, op.name = b.kind → ∀ plug ∈ op.plugs, ∀ c,
        b.plugged? plug = some c → ∃ p, c.compile = .ok p := by
  simp only [compile_eq b, Opcode.dispatch_eq_ok_iff]
  constructor
  · rintro ⟨q, op, hname, hnode⟩
    obtain ⟨hfields, hplugs⟩ := exists_node_pieces_iff.mp ⟨q, hnode⟩
    refine ⟨⟨op, hname, hfields⟩, fun op' hname' => ?_⟩
    -- names tell operations apart, so there is no other operation to look at
    obtain rfl := Opcode.name_injective (hname'.trans hname.symm)
    exact hplugs
  · rintro ⟨⟨op, hname, hfields⟩, hplugs⟩
    obtain ⟨q, hnode⟩ := exists_node_pieces_iff.mpr ⟨hfields, hplugs op hname⟩
    exact ⟨q, op, hname, hnode⟩

/-- The node of a block has its kind and its flag, and in the slots what its places hold. -/
theorem compile_eq_ok (h : b.compile = .ok q) :
    ∃ op : Opcode, op.name = b.kind ∧ q.opcode? = some op ∧
      q.disabled = b.isDisabled ∧
      op.plugs.map b.pieces.plug = q.slots.map .ok := by
  rw [compile_eq] at h
  obtain ⟨op, hname, hnode⟩ := Opcode.dispatch_eq_ok_iff.mp h
  exact ⟨op, hname, Pieces.node_eq_ok hnode⟩

/-- A block never becomes nothing. -/
theorem ne_nothing_of_compile (h : b.compile = .ok q) : q ≠ .nothing := by
  obtain ⟨op, -, hop, -⟩ := compile_eq_ok h
  rintro rfl
  cases hop

/-- The node mirrors the block in its name, its flag and its fields. -/
theorem mirroredBy_of_compile (h : b.compile = .ok q) : b.MirroredBy q := by
  obtain ⟨op, hname, hop, hflag, hslots⟩ := compile_eq_ok h
  refine ⟨op, hname, hop, hflag, ?_⟩
  rw [← List.forall₂_eq_eq_eq, List.forall₂_map_left_iff, List.forall₂_map_right_iff] at hslots
  refine hslots.imp fun plug r hr => ?_
  rw [plug_pieces] at hr
  cases hplugged : b.plugged? plug with
  | none =>
    simp only [hplugged, Option.map_none, Option.getD_none, Except.ok.injEq] at hr
    simp [← hr]
  | some c =>
    simp only [hplugged, Option.map_some, Option.getD_some] at hr
    simp [hr, ne_nothing_of_compile hr]

/-! ### Everything that can be reached -/

/-- The block `c` can be reached from `b`: it is `b`, or it is plugged in somewhere, always in
    a place where the kind of the block looks. -/
inductive ReachableFrom (c : Block) : Block → Prop
  | self : ReachableFrom c c
  | plug {b d : Block} {op : Opcode} {plug : Plug} (name : op.name = b.kind)
      (reads : plug ∈ op.plugs) (plugged : b.plugged? plug = some d)
      (reachable : ReachableFrom c d) : ReachableFrom c b

/-- What holds of all blocks that are reached holds of the first one, and from each of its plugs.
    -/
theorem forall_reachableFrom {P : Block → Prop} :
    (∀ c, ReachableFrom c b → P c) ↔
      P b ∧ ∀ op : Opcode, op.name = b.kind → ∀ plug ∈ op.plugs, ∀ d, b.plugged? plug = some d →
        ∀ c, ReachableFrom c d → P c := by
  constructor
  · intro h
    exact ⟨h b .self, fun op hop plug hplug d hd c hc => h c (.plug hop hplug hd hc)⟩
  · rintro ⟨hb, hplugs⟩ c hc
    cases hc with
    | self => exact hb
    | plug hop hplug hd hc => exact hplugs _ hop _ hplug _ hd c hc

/-- What is plugged into a block is smaller. -/
theorem sizeOf_lt_of_plugged? (h : b.plugged? plug = some c) : sizeOf c < sizeOf b := by
  obtain ⟨kind, fields, inputs, next, enabled, disabled⟩ := b
  have hinput {name : String} (h : lookupEntry name inputs = some c) :
      sizeOf c < sizeOf inputs := by
    have hlt := List.sizeOf_lt_of_mem (mem_of_lookupEntry h)
    simp only [Prod.mk.sizeOf_spec] at hlt
    omega
  -- an input and a body are among the inputs, the next block is a part of its own
  cases plug with
  | input name =>
    have hlt := hinput h
    simp
    omega
  | body =>
    have hlt : sizeOf c < sizeOf inputs := by
      rcases Option.or_eq_some_iff.mp h with hchild | ⟨-, hnext⟩
      · exact hinput hchild
      · exact hinput hnext
    simp
    omega
  | next =>
    have hnext : next = some c := h
    subst hnext
    simp
    omega

/-- Induction along the places of blocks. -/
theorem plug_induction {P : Block → Prop}
    (step : ∀ b, (∀ plug c, b.plugged? plug = some c → P c) → P b) (b : Block) : P b :=
  step b fun plug c hc =>
    have : sizeOf c < sizeOf b := sizeOf_lt_of_plugged? hc
    plug_induction step c
termination_by sizeOf b

/-- A block compiles if every block that can be reached is in order. -/
theorem exists_compile_iff_reachable (b : Block) :
    (∃ p, b.compile = .ok p) ↔ ∀ c, ReachableFrom c b → c.InOrder := by
  induction b using plug_induction with
  | step b ih =>
    rw [exists_compile_iff, forall_reachableFrom]
    refine and_congr_right' (forall₂_congr fun op _ => forall₂_congr fun plug _ => ?_)
    exact forall₂_congr fun c hc => ih plug c hc

/-- Every node was compiled from a block that can be reached. -/
theorem exists_block_of_within (hb : b.compile = .ok p) (hq : q.Within p) (hne : q ≠ .nothing) :
    ∃ c, ReachableFrom c b ∧ c.compile = .ok q := by
  induction hq generalizing b with
  | self => exact ⟨b, .self, hb⟩
  | @slot p r hr hq ih =>
    obtain ⟨op, hname, -, -, hslots⟩ := compile_eq_ok hb
    have hmem : Except.ok r ∈ op.plugs.map b.pieces.plug := by
      rw [hslots]
      exact List.mem_map_of_mem hr
    obtain ⟨plug, hplug, hpieces⟩ := List.mem_map.mp hmem
    rw [plug_pieces] at hpieces
    cases hplugged : b.plugged? plug with
    | none =>
      -- an empty place has no nodes
      simp only [hplugged, Option.map_none, Option.getD_none, Except.ok.injEq] at hpieces
      subst hpieces
      cases hq with
      | self => exact absurd rfl hne
      | slot hmem _ => exact absurd hmem List.not_mem_nil
    | some d =>
      simp only [hplugged, Option.map_some, Option.getD_some] at hpieces
      obtain ⟨c, hc, hcompile⟩ := ih hpieces
      exact ⟨c, .plug hname hplug hplugged hc, hcompile⟩

/-- Every block that can be reached has its node. -/
theorem exists_node_of_reachableFrom (hc : ReachableFrom c b) (hb : b.compile = .ok p) :
    ∃ q : Program, q.Within p ∧ c.compile = .ok q := by
  induction hc generalizing p with
  | self => exact ⟨p, .self, hb⟩
  | @plug b d op plug hname hplug hplugged _ ih =>
    obtain ⟨op', hname', -, -, hslots⟩ := compile_eq_ok hb
    obtain rfl := Opcode.name_injective (hname'.trans hname.symm)
    -- what is plugged in is compiled into one of the slots
    have hmem : b.pieces.plug plug ∈ p.slots.map Except.ok := by
      rw [← hslots]
      exact List.mem_map_of_mem hplug
    obtain ⟨r, hr, hpieces⟩ := List.mem_map.mp hmem
    rw [plug_pieces, hplugged] at hpieces
    obtain ⟨q, hq, hcompile⟩ := ih hpieces.symm
    exact ⟨q, .slot hr hq, hcompile⟩

/-- An unknown operation is the kind of a block that can be reached. -/
theorem compile_unknown (b : Block) (h : b.compile = .error (.unknownOperation x)) :
    ∃ c, ReachableFrom c b ∧ c.kind = x ∧ x ∉ Opcode.all.map Opcode.name := by
  induction b using plug_induction with
  | step b ih =>
    rw [compile_eq] at h
    rcases Opcode.dispatch_eq_error h with ⟨he, hkind⟩ | ⟨op, hname, hnode⟩
    · cases he
      exact ⟨b, .self, rfl, hkind⟩
    · obtain ⟨plug, hplug, hpieces⟩ := Pieces.exists_plug_of_unknown hnode
      rw [plug_pieces] at hpieces
      obtain ⟨d, hplugged, hd⟩ := getD_map_eq_error hpieces
      obtain ⟨c, hc, hunknown⟩ := ih plug d hplugged hd
      exact ⟨c, .plug hname hplug hplugged hc, hunknown⟩

/-- **Compilation gives the image of the blocks.**  It succeeds exactly if every block that can
    be reached is in order.  Then the nodes of the program are the images of these blocks, each
    of which has one that mirrors it.  If it fails for an unknown operation, that is the kind of
    a block that can be reached, and not in the catalog. -/
theorem compile_image (b : Block) :
    ((∃ p, b.compile = .ok p) ↔ ∀ c, ReachableFrom c b → c.InOrder) ∧
      (∀ p, b.compile = .ok p →
        (∀ q : Program, q.Within p → q ≠ .nothing →
          ∃ c, ReachableFrom c b ∧ c.compile = .ok q ∧ c.MirroredBy q) ∧
        ∀ c, ReachableFrom c b →
          ∃ q : Program, q.Within p ∧ c.compile = .ok q ∧ c.MirroredBy q) ∧
      ∀ x, b.compile = .error (.unknownOperation x) →
        ∃ c, ReachableFrom c b ∧ c.kind = x ∧ x ∉ Opcode.all.map Opcode.name := by
  refine ⟨exists_compile_iff_reachable b, fun p hp => ⟨fun q hq hne => ?_, fun c hc => ?_⟩,
    fun x => compile_unknown b⟩
  · obtain ⟨c, hc, hcompile⟩ := exists_block_of_within hp hq hne
    exact ⟨c, hc, hcompile, mirroredBy_of_compile hcompile⟩
  · obtain ⟨q, hq, hcompile⟩ := exists_node_of_reachableFrom hc hp
    exact ⟨q, hq, hcompile, mirroredBy_of_compile hcompile⟩

/-- A body in the older place is read, and a block in a place where `rotate` does not look is
    never compiled. -/
example :
    compile ⟨"rotate", [],
      [("value", ⟨"unheard", [], [], none, true, false⟩),
        ("next", ⟨"rows", [], [], none, true, true⟩)], none, false, false⟩
      = .ok (.rotate true .nothing (.rows true)) :=
  rfl

end Block

end BlockChart
