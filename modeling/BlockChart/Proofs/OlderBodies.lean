import BlockChart.Proofs.BlockImage
import BlockChart.Proofs.NullEntries
import Mathlib.Logic.Relation

namespace BlockChart

/-!
# Bodies under their older name

What `rotate` and `scale` are applied to once stood under `next`, and in the editor so did the
body of `forEach`.  Both are still read: where nothing stands under `child`, the reader of
serialized programs and the compiler of blocks look under `next`.  So a body may be moved there,
anywhere in a program and as often as one likes.

* `BodyMoved` says that entries differ in the name of the body only;
* `Json.MovesBody` and `Block.MovesBody` move one body at any depth, and
  `Json.MovesBodies` and `Block.MovesBodies` any number of them;
* `Program.readsAlike_of_movesBody` and `Block.compile_eq_of_movesBody` — what one move leaves the
  same;
* `older_bodies_read` — the same for any number of them.

In a serialized `forEach`, `next` is what comes after the loop; there it is no other name of the
body.
-/

/-! ### Moving a body -/

/-- **Only the body has moved**: what is under `child` in `entries` is under `next` in `moved`,
    where nothing was before.  All else is under the same key in both. -/
structure BodyMoved {α : Type} (entries moved : List (String × α)) : Prop where
  free : lookupEntry "next" entries = none
  gone : lookupEntry "child" moved = none
  body : lookupEntry "next" moved = lookupEntry "child" entries
  others : ∀ key, key ≠ "child" → key ≠ "next" → lookupEntry key moved = lookupEntry key entries

/-- A body that is renamed where it stands. -/
theorem bodyMoved_rename {α : Type} (before after : List (String × α)) (body : α)
    (hchild : lookupEntry "child" (before ++ after) = none)
    (hnext : lookupEntry "next" (before ++ after) = none) :
    BodyMoved (before ++ ("child", body) :: after) (before ++ ("next", body) :: after) := by
  rw [lookupEntry_append, Option.or_eq_none_iff] at hchild hnext
  refine ⟨?_, ?_, ?_, fun key hne hne' => ?_⟩
  · simp [lookupEntry, hnext]
  · simp [lookupEntry, hchild]
  · simp [lookupEntry, hchild, hnext]
  · simp [lookupEntry, hne.symm, hne'.symm]

namespace Json

/-- **One body is moved**: that of a `rotate` or a `scale` which stands anywhere in the value. -/
inductive MovesBody : Json → Json → Prop
  | here (op : Opcode) {entries moved : List (String × Json)} (takes : op.takesBody = true)
      (body : BodyMoved entries moved) :
      MovesBody (.array [.string op.name, .object entries])
        (.array [.string op.name, .object moved])
  | item (before after : List Json) {v w : Json} (inside : MovesBody v w) :
      MovesBody (.array (before ++ v :: after)) (.array (before ++ w :: after))
  | member (before after : List (String × Json)) (key : String) {v w : Json}
      (inside : MovesBody v w) :
      MovesBody (.object (before ++ (key, v) :: after)) (.object (before ++ (key, w) :: after))

/-- Any number of bodies are moved. -/
def MovesBodies : Json → Json → Prop :=
  Relation.ReflTransGen MovesBody

/-- A value in which a body can be moved is an array or an object, and stays one. -/
theorem MovesBody.shape {v w : Json} (h : MovesBody v w) :
    (∃ items items', v = .array items ∧ w = .array items') ∨
      ∃ entries entries', v = .object entries ∧ w = .object entries' := by
  cases h with
  | here => exact .inl ⟨_, _, rfl, rfl⟩
  | item => exact .inl ⟨_, _, rfl, rfl⟩
  | member => exact .inr ⟨_, _, rfl, rfl⟩

end Json

namespace Block

/-- **One body is moved**: that of a `forEach`, a `rotate` or a `scale` that is plugged in
    anywhere, or that is below. -/
inductive MovesBody : Block → Block → Prop
  | here (op : Opcode) {fields : List (String × Json)} {inputs moved : List (String × Block)}
      {next : Option Block} {enabled disabled : Bool} (takes : op ∈ [.forEach, .rotate, .scale])
      (body : BodyMoved inputs moved) :
      MovesBody ⟨op.name, fields, inputs, next, enabled, disabled⟩
        ⟨op.name, fields, moved, next, enabled, disabled⟩
  | input (before after : List (String × Block)) (name : String) {kind : String}
      {fields : List (String × Json)} {b c : Block} {next : Option Block}
      {enabled disabled : Bool} (inside : MovesBody b c) :
      MovesBody ⟨kind, fields, before ++ (name, b) :: after, next, enabled, disabled⟩
        ⟨kind, fields, before ++ (name, c) :: after, next, enabled, disabled⟩
  | chain {kind : String} {fields : List (String × Json)} {inputs : List (String × Block)}
      {b c : Block} {enabled disabled : Bool} (inside : MovesBody b c) :
      MovesBody ⟨kind, fields, inputs, some b, enabled, disabled⟩
        ⟨kind, fields, inputs, some c, enabled, disabled⟩

/-- Any number of bodies are moved. -/
def MovesBodies : Block → Block → Prop :=
  Relation.ReflTransGen MovesBody

end Block

/-! ### Serialized programs -/

namespace Program

variable {op : Opcode} {v w : Json}

/-- **A payload does not mind where its body stands.** -/
theorem Payload.node_of_bodyMoved {entries moved : List (String × Json)}
    (hop : op.takesBody = true) (hmoved : BodyMoved entries moved) :
    (read op moved).node = (read op entries).node := by
  have hflag : (read op moved).flag "disabled" = (read op entries).flag "disabled" := by
    unfold flag read
    rw [hmoved.others "disabled" (by decide) (by decide)]
  have hlink : ∀ key, key ≠ "child" → key ≠ "next" →
      (read op moved).link key = (read op entries).link key := by
    intro key hchild hnext
    rw [link_read, link_read, hmoved.others key hchild hnext]
  -- `child` is gone, so the body is looked for under `next`, which is where it has been moved
  have hbody : (read op moved).body = (read op entries).body := by
    rw [body_eq, body_eq, bodyKey_links_read, bodyKey_links_read, link_read, link_read]
    unfold bodyKey
    rw [hmoved.gone]
    cases hchild : lookupEntry "child" entries with
    | none => simp [hmoved.body, hchild, hmoved.free]
    | some v => simp [hmoved.body, hchild]
  have hread : (read op entries).op = op ∧ (read op moved).op = op := ⟨rfl, rfl⟩
  cases op
  case rotate | scale => simp [node, hread, hflag, hlink, hbody]
  all_goals cases hop

/-- Two values read alike, as a program and as the payload of any operation. -/
structure ReadsAlike (v w : Json) : Prop where
  program : Agree (ofJson v) (ofJson w)
  payload : ∀ op, Agree (readPayload op v) (readPayload op w)

/-- No array is a payload. -/
theorem readPayload_array_agree (op : Opcode) (items items' : List Json) :
    Agree (readPayload op (.array items)) (readPayload op (.array items')) := by
  show Agree (bareNode op (.array items)) (bareNode op (.array items'))
  cases op <;> exact .of_kind rfl

/-- An array that is no pair of a text and something else is no program. -/
theorem ofJson_array {items : List Json} (h : ∀ tag payload, items ≠ [.string tag, payload]) :
    ofJson (.array items) = .error (.malformed (.notPair (.array items))) := by
  rcases ofJson_shape (.array items) with hnull | ⟨tag, payload, hpair⟩ | hrefused
  · cases hnull
  · exact absurd (Json.array.inj hpair) (h tag payload)
  · exact hrefused

/-- A pair of a text and something else in which one item is marked that is no text. -/
theorem append_cons_eq_pair {before after : List Json} {x payload : Json} {tag : String}
    (hx : ∀ s, x ≠ .string s) (h : before ++ x :: after = [.string tag, payload]) :
    before = [.string tag] ∧ x = payload ∧ after = [] := by
  cases before with
  | nil => exact absurd (List.cons.inj h).1 (hx tag)
  | cons y ys =>
    obtain ⟨rfl, hrest⟩ := List.cons.inj h
    cases ys with
    | nil =>
      obtain ⟨rfl, rfl⟩ := List.cons.inj hrest
      exact ⟨rfl, rfl, rfl⟩
    | cons z zs => simp at hrest

/-- An item that is no text may be put in place of one that reads alike. -/
theorem ReadsAlike.item (h : ReadsAlike v w) (hv : ∀ s, v ≠ .string s) (hw : ∀ s, w ≠ .string s)
    (before after : List Json) :
    ReadsAlike (.array (before ++ v :: after)) (.array (before ++ w :: after)) where
  program := by
    by_cases hpair : ∃ tag, before = [.string tag] ∧ after = []
    · -- the item is the payload of an operation
      obtain ⟨tag, rfl, rfl⟩ := hpair
      rw [List.singleton_append, List.singleton_append, ofJson_pair, ofJson_pair]
      exact Opcode.dispatch_agree fun op _ => h.payload op
    · -- neither array is a pair, and both are refused for that
      have hrefused : ∀ x, (∀ s, x ≠ .string s) → ofJson (.array (before ++ x :: after))
          = .error (.malformed (.notPair (.array (before ++ x :: after)))) := by
        refine fun x hx => ofJson_array fun tag payload heq => hpair ?_
        obtain ⟨hbefore, -, hafter⟩ := append_cons_eq_pair hx heq
        exact ⟨tag, hbefore, hafter⟩
      rw [hrefused v hv, hrefused w hw]
      exact .of_kind rfl
  payload := fun op => readPayload_array_agree op _ _

/-- What is found where one value stands in place of another: the same, or one and the other. -/
theorem lookupEntry_replace {α : Type} (before after : List (String × α)) (key : String) (x y : α)
    (name : String) :
    lookupEntry name (before ++ (key, x) :: after)
        = lookupEntry name (before ++ (key, y) :: after) ∨
      lookupEntry name (before ++ (key, x) :: after) = some x ∧
        lookupEntry name (before ++ (key, y) :: after) = some y := by
  simp only [lookupEntry_append, lookupEntry]
  by_cases hkey : key = name
  · cases lookupEntry name before <;> simp [hkey]
  · simp [hkey]

/-- **One entry in place of another that reads alike**, if it is an array or an object: then it is
    no text and no flag. -/
theorem ReadsAlike.member (h : ReadsAlike v w) (hmoves : v.MovesBody w)
    (before after : List (String × Json)) (key : String) :
    ReadsAlike (.object (before ++ (key, v) :: after)) (.object (before ++ (key, w) :: after)) where
  program := by
    unfold ofJson
    exact .of_kind rfl
  payload := fun op => by
    have hfound := lookupEntry_replace before after key v w
    have hbodyKey : bodyKey (before ++ (key, w) :: after)
        = bodyKey (before ++ (key, v) :: after) := by
      unfold bodyKey
      -- only whether there is an entry counts, and a replaced one is there before and after
      rcases hfound "child" with heq | ⟨hv, hw⟩
      · rw [heq]
      · rw [hv, hw]
        rfl
    refine Payload.node_agree rfl ?_ (fun name => ?_) ?_
    · unfold Payload.flag Payload.read
      rcases hfound "disabled" with heq | ⟨hv, hw⟩
      · simp only [heq]
      -- an array or an object is neither a flag nor a text
      · rcases hmoves.shape with ⟨_, _, rfl, rfl⟩ | ⟨_, _, rfl, rfl⟩ <;> simp only [hv, hw]
    · unfold Payload.text Payload.read
      rcases hfound name with heq | ⟨hv, hw⟩
      · simp only [heq]
      · rcases hmoves.shape with ⟨_, _, rfl, rfl⟩ | ⟨_, _, rfl, rfl⟩ <;>
          simp only [hv, hw, Option.bind_some, textOf?]
    · rw [Payload.linked_read, Payload.linked_read, hbodyKey, List.forall₂_map_left_iff,
        List.forall₂_map_right_iff, List.forall₂_same]
      intro name _
      rw [Payload.link_read, Payload.link_read]
      rcases hfound name with heq | ⟨hv, hw⟩
      · rw [heq]
        exact .refl _
      · rw [hv, hw]
        exact h.program

/-- **Moving one body** leaves alike what is read. -/
theorem readsAlike_of_movesBody (h : v.MovesBody w) : ReadsAlike v w := by
  induction h with
  | @here op entries moved hop hmoved =>
    refine ⟨?_, fun op => readPayload_array_agree op _ _⟩
    rw [ofJson_pair, ofJson_pair, Opcode.dispatch_name, Opcode.dispatch_name]
    show Agree (Payload.read op entries).node (Payload.read op moved).node
    rw [Payload.node_of_bodyMoved hop hmoved]
    exact .refl _
  | item before after hmoves ih =>
    rcases hmoves.shape with ⟨_, _, rfl, rfl⟩ | ⟨_, _, rfl, rfl⟩ <;>
      exact ih.item (by simp) (by simp) before after
  | member before after key hmoves ih => exact ih.member hmoves before after key

/-- **Moving any number of bodies** does, too. -/
theorem agree_of_movesBodies (h : v.MovesBodies w) : Agree (ofJson v) (ofJson w) := by
  induction h with
  | refl => exact .refl _
  | tail _ hstep ih => exact ih.trans (readsAlike_of_movesBody hstep).program

end Program

/-! ### Blocks -/

/-- **A block does not mind into which input its body is plugged.** -/
theorem Pieces.node_of_bodyMoved {p : Pieces} {moved : List (String × Except Fault Program)}
    {op : Opcode} (hop : op ∈ [.forEach, .rotate, .scale]) (hmoved : BodyMoved p.inputs moved) :
    { p with inputs := moved }.node op = p.node op := by
  have hfield : ∀ name, { p with inputs := moved }.field name = p.field name := fun _ => rfl
  have hinput : ∀ name, name ≠ "child" → name ≠ "next" →
      { p with inputs := moved }.input name = p.input name := by
    intro name hchild hnext
    rw [input, input, hmoved.others name hchild hnext]
  have hbody : { p with inputs := moved }.body = p.body := by
    unfold body input
    -- nothing stands under `child` after the move, and nothing stood under `next` before it
    rw [hmoved.gone, hmoved.body]
    cases hchild : lookupEntry "child" p.inputs <;> simp [hmoved.free]
  simp only [List.mem_cons, List.not_mem_nil, or_false] at hop
  rcases hop with rfl | rfl | rfl <;> simp [node, hfield, hinput, hbody]

namespace Block

variable {b c : Block}

/-- Inputs are compiled one by one. -/
theorem compileInputs_eq_map (inputs : List (String × Block)) :
    compileInputs inputs = inputs.map fun input => (input.1, input.2.compile) := by
  induction inputs with
  | nil => simp [compileInputs]
  | cons input rest ih => simp [compileInputs, ih]

/-- What the inputs compile to has moved with them. -/
theorem bodyMoved_compileInputs {inputs moved : List (String × Block)}
    (h : BodyMoved inputs moved) : BodyMoved (compileInputs inputs) (compileInputs moved) where
  free := by rw [lookupEntry_compileInputs, h.free, Option.map_none]
  gone := by rw [lookupEntry_compileInputs, h.gone, Option.map_none]
  body := by rw [lookupEntry_compileInputs, lookupEntry_compileInputs, h.body]
  others := fun key hchild hnext => by
    rw [lookupEntry_compileInputs, lookupEntry_compileInputs, h.others key hchild hnext]

/-- **Moving one body** leaves what is compiled as it is. -/
theorem compile_eq_of_movesBody (h : b.MovesBody c) : b.compile = c.compile := by
  induction h with
  | here op hop hmoved =>
    rw [compile_eq, compile_eq, Opcode.dispatch_name, Opcode.dispatch_name]
    exact (Pieces.node_of_bodyMoved hop (bodyMoved_compileInputs hmoved)).symm
  | input before after name _ ih =>
    simp only [compile, isDisabled, compileInputs_eq_map, List.map_append, List.map_cons, ih]
  | chain _ ih => simp only [compile, isDisabled, compileNext, ih]

/-- **Moving any number of bodies** does, too. -/
theorem compile_eq_of_movesBodies (h : b.MovesBodies c) : b.compile = c.compile := by
  induction h with
  | refl => rfl
  | tail _ hstep ih => exact ih.trans (compile_eq_of_movesBody hstep)

end Block

/-! ### Both -/

/-- **Bodies may stand under their older name.**  Moving the bodies of any `rotate` and `scale`
    nodes of a serialized program, at any depth, from `child` to `next`, where nothing was, leaves
    the program that is read as it is, or the kind of the fault.  Moving the bodies of any
    `forEach`, `rotate` and `scale` blocks in the same way leaves what is compiled as it is. -/
theorem older_bodies_read :
    (∀ v w : Json, v.MovesBodies w → Agree (Program.ofJson v) (Program.ofJson w)) ∧
      ∀ b c : Block, b.MovesBodies c → b.compile = c.compile :=
  ⟨fun _ _ => Program.agree_of_movesBodies, fun _ _ => Block.compile_eq_of_movesBodies⟩

/-- A circle that is scaled and turned. -/
def scaledTurn (outer inner : String) : Json :=
  .array [.string "rotate", .object [("degrees", .array [.string "string", .string "45"]),
    (outer, .array [.string "scale", .object [(inner, .array [.string "circle", .object []])]])]]

/-- A loop in which a circle is turned. -/
def turnInLoop (outer inner : String) : Block :=
  ⟨"forEach", [("variable", .string "row")],
    [(outer, ⟨"rotate", [], [(inner, ⟨"circle", [], [], none, true, false⟩)], none, true, false⟩)],
    none, true, false⟩

/-- The inner body is moved first, then the outer one. -/
theorem older_bodies_read_nested :
    (scaledTurn "child" "child").MovesBodies (scaledTurn "next" "next") ∧
      Program.ofJson (scaledTurn "next" "next") = .ok (.rotate false (.string false "45")
        (.scale false .nothing (.circle false .nothing .nothing .nothing))) ∧
      (turnInLoop "child" "child").MovesBodies (turnInLoop "next" "next") ∧
      (turnInLoop "next" "next").compile = .ok (.forEach false .nothing "row"
        (.rotate false .nothing (.circle false .nothing .nothing .nothing)) .nothing) := by
  have hvalues : (scaledTurn "child" "child").MovesBodies (scaledTurn "next" "next") := by
    have hinner : (scaledTurn "child" "child").MovesBody (scaledTurn "child" "next") :=
      .item [_] [] (.member [_] [] _ (.here .scale rfl (bodyMoved_rename [] [] _ rfl rfl)))
    have houter : (scaledTurn "child" "next").MovesBody (scaledTurn "next" "next") :=
      .here .rotate rfl (bodyMoved_rename [_] [] _ rfl rfl)
    exact .tail (.single hinner) houter
  have hblocks : (turnInLoop "child" "child").MovesBodies (turnInLoop "next" "next") := by
    have hinner : (turnInLoop "child" "child").MovesBody (turnInLoop "child" "next") :=
      .input [] [] _ (.here .rotate (by decide) (bodyMoved_rename [] [] _ rfl rfl))
    have houter : (turnInLoop "child" "next").MovesBody (turnInLoop "next" "next") :=
      .here .forEach (by decide) (bodyMoved_rename [] [] _ rfl rfl)
    exact .tail (.single hinner) houter
  obtain ⟨hread, hcompile⟩ := older_bodies_read
  exact ⟨hvalues, (hread _ _ hvalues).eq_ok, hblocks, (hcompile _ _ hblocks).symm⟩

end BlockChart
