import BlockChart.Proofs.AddedTransforms

namespace BlockChart

open BlockChart.Action

/-!
# What a node runs

A node that is run evaluates its inputs, opens groups and frames, and runs its body in them,
once or for every item of a list.  Each of these is a run of its own, of another program, in
some frame and from some session.

* `Activation` — a program that is run, where and from what;
* `Program.parts` — the runs that the step of a node is made of, in order;
* `Activation.Visits` — all runs at any depth;
* `Interleaving` — a drawing that goes through the drawings of some runs, with transforms
  added in between;
* `Step.*_consistsOf` — each operation that writes no transform is such an interleaving.  Of which
  runs is a matter of the operation, so there is one lemma for each that runs another node;
* `Action.ConsistsOf.leaf` — the other expressions run none.
-/

/-- **A run of a program** in a frame and from a session: of its first node alone, as for an
    input, or of the whole chain, as for a body. -/
inductive Activation where
  | input (p : Program) (f : FrameId) (s : Session)
  | body (p : Program) (f : FrameId) (s : Session)

namespace Activation

def program : Activation → Program
  | input p _ _ => p
  | body p _ _ => p

/-- The session that the run begins with. -/
def session : Activation → Session
  | input _ _ s => s
  | body _ _ s => s

/-- What is run. -/
def action (limit : Nat) : Activation → Action Value
  | input p f _ => p.eval limit f
  | body p f _ => p.runChain limit f

/-- The session when the run is done, or has failed. -/
def final (limit : Nat) (a : Activation) : Session :=
  ((a.action limit).run a.session).2

end Activation

/-- Only the empty program means nothing. -/
theorem Program.eq_nothing_of_meaning? {limit : Nat} {p : Program}
    (h : p.meaning? limit = none) : p = .nothing := by
  cases p <;> first | rfl | cases h

/-- A program with a meaning has a first node. -/
theorem Program.ne_nothing_of_meaning? {limit : Nat} {p : Program} {m : Meaning}
    (h : p.meaning? limit = some m) : p ≠ .nothing := by
  rintro rfl
  cases h

/-- A chain is its first node and then the rest. -/
theorem Program.runChain_eq {p : Program} (hp : p ≠ .nothing) (limit : Nat) (f : FrameId) :
    p.runChain limit f = p.eval limit f >>= fun v =>
      match p.next.meaning? limit with
      | some m => m.chain f
      | none => pure v := by
  cases p
  case nothing => exact absurd rfl hp
  all_goals rfl

/-- Where there is no room for another level, a node does nothing. -/
theorem Program.session_eval_of_limit_le {limit : Nat} {s : Session} (h : limit ≤ s.depth)
    (p : Program) (f : FrameId) : ((p.eval limit f).run s).2 = s := by
  cases p
  case nothing => rfl
  all_goals exact congrArg Prod.snd (if_pos h)

/-! ### The runs in a step -/

/-- What follows from the result of an action and the session that it leaves; nothing if it
    fails. -/
def Action.ifOk {α β : Type} (a : Action α) (s : Session) (k : α → Session → List β) : List β :=
  match a.run s with
  | (.ok x, s₁) => k x s₁
  | (.error _, _) => []

/-- What an action leads to when it ends well. -/
theorem Action.mem_ifOk {α β : Type} {a : Action α} {s : Session} {k : α → Session → List β}
    {y : β} (h : y ∈ a.ifOk s k) : ∃ x s₁, a.run s = (.ok x, s₁) ∧ y ∈ k x s₁ := by
  unfold ifOk at h
  split at h
  · exact ⟨_, _, by assumption, h⟩
  · exact absurd h List.not_mem_nil

namespace Step

/-- The invisible element that gives the group of a margin its extent. -/
def filler (group : ElementId) (w h : String) : Action Unit := do
  let filler ← Action.append group "rect"
  Action.setAttribute filler "fill" "transparent"
  Action.setAttribute filler "stroke" "none"
  Action.setAttribute filler "width" w
  Action.setAttribute filler "height" h

end Step

namespace Program

/-- The body of a node that is drawn in a context. -/
def drawnIn (child : Program) (f : FrameId) (c : ElementId) (s : Session) : List Activation :=
  (Action.push f c).ifOk s fun _ s => [.body child f s]

/-- The body of a node that makes a group with a transform for it. -/
def wrapped (child : Program) (t : Transform Float) (f : FrameId) (s : Session) :
    List Activation :=
  (Action.top f).ifOk s fun c s => child.drawnIn f s.drawing.size (s.grouped c t)

/-- The body of a node that makes a shape, if it has one. -/
def shaped (child : Program) (tag : String) (dress : ElementId → Action Unit) (f : FrameId)
    (s : Session) : List Activation :=
  (Action.top f).ifOk s fun c s => (Action.append c "g").ifOk s fun group s =>
    (Action.append group tag).ifOk s fun e s => (dress e).ifOk s fun _ s =>
      if child = nothing then [] else child.drawnIn f group s

/-- The body of a loop, item by item. -/
def rounds (limit : Nat) (child : Program) (name : String) (f : FrameId) :
    List Value → Session → List Activation
  | [], _ => []
  | item :: rest, s =>
    let (g, scopes) := s.scopes.openFrame f
    (Action.assign g name item).ifOk { s with scopes } (fun _ s => [.body child g s]) ++
      (Step.forItems name (child.meaning? limit) f [item]).ifOk s fun _ s =>
        rounds limit child name f rest s

/-- **The runs that the step of a node is made of.**  A node that is disabled runs nothing. -/
def parts (limit : Nat) (f : FrameId) (s : Session) : Program → List Activation
  | count _ x | columnName _ x | stat _ x _ | store false _ x _ | alpha false _ x _ =>
    [.input x f s]
  | cell _ x y =>
    [.input x f s] ++ ((x.meaning? limit).required "cell.row" f).ifOk s fun _ s =>
      [.input y f s]
  | binary _ x y _ =>
    [.input x f s] ++ ((x.meaning? limit).operand f).ifOk s fun _ s => [.input y f s]
  | forEach false x name child _ =>
    [.input x f s] ++ ((x.meaning? limit).required "forEach.set" f).ifOk s fun v s =>
      rounds limit child name f v.toList s
  | conditional false x child _ =>
    if child = nothing then []
    else [.input x f s] ++ ((x.meaning? limit).required "conditional.condition" f).ifOk s fun v s =>
      if v.truthy then [.body child f s] else []
  | translate false x y child _ =>
    [.input x f s] ++ ((x.meaning? limit).number f).ifOk s fun a s =>
      [.input y f s] ++ ((y.meaning? limit).number f).ifOk s fun b s =>
        child.wrapped (.translate a b) f s
  | rotate _ x child =>
    [.input x f s] ++ ((x.meaning? limit).required "rotate.degrees" f).ifOk s fun v s =>
      child.wrapped (.rotate v.toNumber) f s
  | scale _ x child =>
    [.input x f s] ++ ((x.meaning? limit).required "scale.factor" f).ifOk s fun v s =>
      child.wrapped (.scale v.toNumber) f s
  | align false _ _ child _ =>
    (Action.top f).ifOk s fun c s => child.drawnIn f s.drawing.size (s.opened c)
  | margin false x child _ =>
    (Action.top f).ifOk s fun c s => [.input x f s] ++
      ((x.meaning? limit).required "margin.size" f).ifOk s fun v s₁ =>
        let outer := s.drawing.bounds c
        let m := v.toNumber
        (Step.filler s₁.drawing.size (chartText (outer.width - 2 * m))
          (chartText (outer.height - 2 * m))).ifOk (s₁.grouped c (.translate m m)) fun _ s₂ =>
            child.drawnIn f s₁.drawing.size s₂
  | circle false x child _ =>
    [.input x f s] ++ ((x.meaning? limit).required "circle.radius" f).ifOk s fun r s =>
      child.shaped "circle" (fun e => Action.setAttribute e "r" r.text) f s
  | rect false x y child _ =>
    [.input x f s] ++ ((x.meaning? limit).required "rect.width" f).ifOk s fun w s =>
      [.input y f s] ++ ((y.meaning? limit).required "rect.height" f).ifOk s fun h s =>
        child.shaped "rect" (fun e => do
          Action.setAttribute e "width" w.text
          Action.setAttribute e "height" h.text) f s
  | text false x child _ =>
    [.input x f s] ++ ((x.meaning? limit).required "text.text" f).ifOk s fun v s =>
      child.shaped "text" (fun e => do
        Action.setStyle e "text-anchor" "start"
        Action.setText e v.text) f s
  | _ => []

end Program

namespace Activation

/-- **The runs that a run is made of.**  Alone, the node counts as a level of nesting and does
    its step; a chain is its first node alone and then the rest. -/
def parts (limit : Nat) : Activation → List Activation
  | input p f s =>
    if s.depth < limit then p.parts limit f { s with depth := s.depth + 1 } else []
  | body p f s =>
    if p = .nothing then []
    else [.input p f s] ++ (p.eval limit f).ifOk s fun _ s => [.body p.next f s]

/-- **All runs in a run**, at any depth, itself among them. -/
def Visits (limit : Nat) : Activation → Activation → Prop :=
  Relation.ReflTransGen fun a b => b ∈ a.parts limit

end Activation

/-! ### Interleavings -/

/-- **A drawing goes through the drawings of some runs**, one after the other.  The programs that
    are run are `inside`, and in between only transforms that `own` has are added. -/
inductive Interleaving (limit : Nat) (inside : Program → Prop)
    (own : ElementId → Transform Float → Prop) : Drawing → List Activation → Drawing → Prop
  | last {d d' : Drawing} (adds : d.AddsTransforms own d') : Interleaving limit inside own d [] d'
  | part {d d' : Drawing} {a : Activation} {rest : List Activation} (program : inside a.program)
      (adds : d.AddsTransforms own a.session.drawing)
      (next : Interleaving limit inside own (a.final limit).drawing rest d') :
      Interleaving limit inside own d (a :: rest) d'

namespace Interleaving

variable {limit : Nat} {inside : Program → Prop} {own W : ElementId → Transform Float → Prop}
  {d d₁ d' : Drawing} {as bs : List Activation}

/-- Transforms that are added first can be counted to the gap before the first run. -/
theorem of_adds (hadds : d.AddsTransforms own d₁) (h : Interleaving limit inside own d₁ as d') :
    Interleaving limit inside own d as d' := by
  cases h with
  | last adds => exact .last (hadds.trans adds)
  | part program adds next => exact .part program (hadds.trans adds) next

/-- Two interleavings in a row; the gaps where they meet become one. -/
theorem append (h₁ : Interleaving limit inside own d as d₁)
    (h₂ : Interleaving limit inside own d₁ bs d') :
    Interleaving limit inside own d (as ++ bs) d' := by
  induction h₁ with
  | last adds => exact h₂.of_adds adds
  | part program adds _ ih => exact .part program adds (ih h₂)

/-- More may be inside, and more may be added between. -/
theorem mono {inside' : Program → Prop} {own' : ElementId → Transform Float → Prop}
    (h : Interleaving limit inside own d as d') (hinside : ∀ q, inside q → inside' q)
    (hown : ∀ i t, own i t → own' i t) : Interleaving limit inside' own' d as d' := by
  induction h with
  | last adds => exact .last (adds.mono hown)
  | part program adds _ ih => exact .part (hinside _ program) (adds.mono hown) ih

/-- All the runs are of programs inside. -/
theorem program_of_mem (h : Interleaving limit inside own d as d') {a : Activation}
    (ha : a ∈ as) : inside a.program := by
  induction h with
  | last => exact absurd ha List.not_mem_nil
  | part program _ _ ih =>
    rcases List.mem_cons.mp ha with rfl | ha
    · exact program
    · exact ih ha

/-- What is added on the whole: by the runs, and in between. -/
theorem addsTransforms (h : Interleaving limit inside own d as d')
    (hown : ∀ i t, own i t → W i t)
    (hruns : ∀ a ∈ as, a.session.drawing.AddsTransforms W (a.final limit).drawing) :
    d.AddsTransforms W d' := by
  induction h with
  | last adds => exact adds.mono hown
  | part _ adds _ ih =>
    obtain ⟨hrun, hrest⟩ := List.forall_mem_cons.mp hruns
    exact ((adds.mono hown).trans hrun).trans (ih hrest)

/-- What is added once a run is done. -/
theorem addsTransforms_of_mem (h : Interleaving limit inside own d as d')
    (hown : ∀ i t, own i t → W i t)
    (hruns : ∀ a ∈ as, a.session.drawing.AddsTransforms W (a.final limit).drawing)
    {a : Activation} (ha : a ∈ as) : (a.final limit).drawing.AddsTransforms W d' := by
  induction h with
  | last => exact absurd ha List.not_mem_nil
  | part _ _ next ih =>
    obtain ⟨-, hrest⟩ := List.forall_mem_cons.mp hruns
    rcases List.mem_cons.mp ha with rfl | ha
    · exact next.addsTransforms hown hrest
    · exact ih hrest ha

end Interleaving

/-! ### Actions -/

/-- From this session, the action goes through the runs. -/
def Action.ConsistsOf {α : Type} (limit : Nat) (inside : Program → Prop)
    (own : ElementId → Transform Float → Prop) (s : Session) (as : List Activation)
    (a : Action α) : Prop :=
  Interleaving limit inside own s.drawing as (a.run s).2.drawing

namespace Action.ConsistsOf

variable {α β : Type} {limit : Nat} {inside : Program → Prop}
  {own : ElementId → Transform Float → Prop} {s : Session} {f : FrameId} {as : List Activation}
  {p : Program}

/-- An action that runs no program is one gap. -/
theorem of_adds {a : Action α} (h : a.AddsTransformsFrom own s) :
    ConsistsOf limit inside own s [] a :=
  .last h

/-- **One action after another.** -/
theorem bind {a : Action α} {k : α → Action β} {bs : α → Session → List Activation}
    (ha : ConsistsOf limit inside own s as a)
    (hk : ∀ x s₁, a.run s = (.ok x, s₁) → ConsistsOf limit inside own s₁ (bs x s₁) (k x)) :
    ConsistsOf limit inside own s (as ++ a.ifOk s bs) (a >>= k) := by
  unfold ConsistsOf at ha ⊢
  unfold ifOk
  cases hr : a.run s with
  | mk r s₁ =>
    rw [hr] at ha
    cases r with
    | ok x =>
      rw [run_bind_of_ok k hr]
      exact ha.append (hk x s₁ hr)
    | error e =>
      rw [run_bind_of_error k hr, List.append_nil]
      exact ha

/-- An action that runs no node comes first. -/
theorem adds_bind {a : Action α} {k : α → Action β} {bs : α → Session → List Activation}
    (ha : a.AddsTransformsFrom own s)
    (hk : ∀ x s₁, a.run s = (.ok x, s₁) → ConsistsOf limit inside own s₁ (bs x s₁) (k x)) :
    ConsistsOf limit inside own s (a.ifOk s bs) (a >>= k) :=
  bind (.of_adds ha) hk

/-- Actions that run no node come last. -/
theorem bind_adds {a : Action α} {k : α → Action β} (ha : ConsistsOf limit inside own s as a)
    (hk : ∀ x s₁, a.run s = (.ok x, s₁) → (k x).AddsTransformsFrom own s₁) :
    ConsistsOf limit inside own s as (a >>= k) := by
  have hall := bind ha fun x s₁ hr => of_adds (hk x s₁ hr)
  have hnone : a.ifOk s (fun _ _ => ([] : List Activation)) = [] := by
    unfold ifOk
    split <;> rfl
  rwa [hnone, List.append_nil] at hall

/-! ### Slots -/

/-- A run by itself. -/
theorem of_final {a : Action α} {b : Activation} (hb : inside b.program)
    (hsession : b.session = s) (hfinal : (a.run s).2 = b.final limit) :
    ConsistsOf limit inside own s [b] a := by
  refine .part hb ?_ (.last ?_)
  · rw [hsession]
    exact .refl _
  · rw [hfinal]
    exact .refl _

/-- An input is run once, as a part of its own. -/
theorem once {m : Meaning} (hp : inside p) (hm : p.meaning? limit = some m) :
    ConsistsOf limit inside own s [.input p f s] (m.once f) := by
  refine of_final hp rfl ?_
  show _ = ((p.eval limit f).run s).2
  unfold Program.eval
  rw [hm]
  rfl

/-- A required input is run, or the node fails before anything is run. -/
theorem required (hp : inside p) (name : String) :
    ConsistsOf limit inside own s [.input p f s] ((p.meaning? limit).required name f) := by
  cases hm : p.meaning? limit with
  | none =>
    obtain rfl := Program.eq_nothing_of_meaning? hm
    exact of_final hp rfl rfl
  | some m => exact once hp hm

/-- An input, and then actions that run no node. -/
theorem input_bind {k : Value → Action α} (hp : inside p) (name : String)
    (hk : ∀ v, AddsTransforms own (k v)) :
    ConsistsOf limit inside own s [.input p f s] ((p.meaning? limit).required name f >>= k) :=
  bind_adds (required hp name) fun v s₁ _ => hk v s₁

/-- An operand that is missing is zero, and nothing is run for it. -/
theorem operand (hp : inside p) :
    ConsistsOf limit inside own s [.input p f s] ((p.meaning? limit).operand f) := by
  cases hm : p.meaning? limit with
  | none =>
    obtain rfl := Program.eq_nothing_of_meaning? hm
    exact of_final hp rfl rfl
  | some m => exact once hp hm

/-- So it is with a number. -/
theorem number (hp : inside p) :
    ConsistsOf limit inside own s [.input p f s] ((p.meaning? limit).number f) :=
  bind_adds (operand hp) fun _ s₁ _ => .refl s₁.drawing

/-- A body is run as a chain, which is a part of its own. -/
theorem chain {m : Meaning} (hp : inside p) (hm : p.meaning? limit = some m) :
    ConsistsOf limit inside own s [.body p f s] (m.chain f) := by
  refine of_final hp rfl ?_
  show _ = ((p.runChain limit f).run s).2
  unfold Program.runChain
  rw [hm]

/-- A block that has to be there. -/
theorem block (hp : inside p) (name : String) :
    ConsistsOf limit inside own s [.body p f s] ((p.meaning? limit).block name f) := by
  cases hm : p.meaning? limit with
  | none =>
    obtain rfl := Program.eq_nothing_of_meaning? hm
    exact of_final hp rfl rfl
  | some m => exact bind_adds (chain hp hm) fun _ s₁ _ => .refl s₁.drawing

/-- A block that may be left out. -/
theorem blockIfAny (hp : inside p) :
    ConsistsOf limit inside own s [.body p f s] ((p.meaning? limit).blockIfAny f) := by
  cases hm : p.meaning? limit with
  | none =>
    obtain rfl := Program.eq_nothing_of_meaning? hm
    exact of_final hp rfl rfl
  | some m => exact bind_adds (chain hp hm) fun _ s₁ _ => .refl s₁.drawing

/-! ### Brackets -/

/-- Pushing the context and popping it add nothing; the body runs between the two. -/
theorem withContext {body : Action Unit}
    (hbody : ∀ s, ConsistsOf limit inside own s [.body p f s] body) (c : ElementId) :
    ConsistsOf limit inside own s (p.drawnIn f c s) (Action.withContext f c body) := by
  have hclose : ∀ _ : Unit, AddsTransforms own (do
      let popped ← Action.pop f
      Action.noteImbalance c popped) := fun _ =>
    .bind (.changeScopes _) fun popped => .noteImbalance c popped
  exact adds_bind (AddsTransforms.changeScopes _ s) fun _ s₁ _ =>
    bind_adds (hbody s₁) fun x s₂ _ => hclose x s₂

/-- A new group, and what is done once it is there. -/
theorem opened {c : ElementId} {k : ElementId → Action α}
    (hk : ConsistsOf limit inside own (s.opened c) as (k s.drawing.size)) :
    ConsistsOf limit inside own s as (Action.append c "g" >>= k) :=
  Interleaving.of_adds (s.addsTransforms_opened c) hk

/-- A new group with a transform, and what is done once it is there. -/
theorem grouped {c : ElementId} {t : Transform Float} {k : ElementId → Action α}
    (hown : own s.drawing.size t)
    (hk : ConsistsOf limit inside own (s.grouped c t) as (k s.drawing.size)) :
    ConsistsOf limit inside own s as (do
      let group ← Action.append c "g"
      Action.setAttribute group "transform" t.text
      k group) := by
  unfold ConsistsOf
  rw [run_group]
  exact Interleaving.of_adds (Session.addsTransforms_grouped hown) hk

/-- Measuring changes nothing. -/
theorem measured {c : ElementId} {k : Box Float → Action α}
    (hk : ConsistsOf limit inside own s as (k (s.drawing.bounds c))) :
    ConsistsOf limit inside own s as (Action.bounds c >>= k) :=
  hk

/-- A node that is not too deep adds nothing by counting the level. -/
theorem nested {body : Action α} (hroom : s.depth < limit)
    (hbody : ConsistsOf limit inside own { s with depth := s.depth + 1 } as body) :
    ConsistsOf limit inside own s as (Action.nested limit body) := by
  unfold ConsistsOf Action.run Action.nested
  rw [if_neg (Nat.not_le.mpr hroom)]
  exact hbody

/-- A statement that is enabled. -/
theorem statement {step : FrameId → Action Unit} {next : Slot} (hroom : s.depth < limit)
    (hstep : ConsistsOf limit inside own { s with depth := s.depth + 1 } as (step f)) :
    ConsistsOf limit inside own s as ((Meaning.statement limit false step next).once f) :=
  nested hroom (bind_adds hstep fun _ s₁ _ => .refl s₁.drawing)

/-- A node without slots only reads, and runs no other node. -/
theorem leaf (hop : p.opcode?.any Opcode.isStatement = false) (hslots : p.slots = []) :
    ConsistsOf limit inside own s [] (p.eval limit f) := by
  have hexpression : p.IsExpression :=
    Program.isExpression_iff.mpr ⟨hop, by rw [hslots]; exact List.forall_mem_nil _⟩
  exact of_adds (AddsTransforms.of_readOnly ((hexpression.readOnly limit).required _ f) s)

/-- A statement that is disabled runs nothing. -/
theorem disabled {step : FrameId → Action Unit} {next : Slot} :
    ConsistsOf limit inside own s [] ((Meaning.statement limit true step next).once f) :=
  of_adds (AddsTransforms.nested (.pure _) limit s)

end Action.ConsistsOf

/-! ### Operations that write no transform -/

namespace Step

open Action.ConsistsOf

variable {limit : Nat} {inside : Program → Prop} {own : ElementId → Transform Float → Prop}
  {s : Session} {f : FrameId} {x y child next : Program} {d : Bool}

/-- Counting runs its one input. -/
theorem count_consistsOf (hx : inside x) :
    ConsistsOf limit inside own s ((Program.count d x).parts limit f s)
      (count (x.meaning? limit) f) :=
  input_bind hx _ fun _ => .pure _

/-- A cell is found by two inputs, of which the second is run in the session that the first leaves.
    -/
theorem cell_consistsOf (hx : inside x) (hy : inside y) :
    ConsistsOf limit inside own s ((Program.cell d x y).parts limit f s)
      (cell (x.meaning? limit) (y.meaning? limit) f) :=
  bind (required hx _) fun _ _ _ => input_bind hy _ fun _ => .readScopes _

/-- The name of a column is looked up after its input. -/
theorem columnName_consistsOf (hx : inside x) :
    ConsistsOf limit inside own s ((Program.columnName d x).parts limit f s)
      (columnName (x.meaning? limit) f) := by
  refine input_bind hx _ fun v => .of_readOnly (.bind (.readScopes _) fun t => ?_)
  simp only
  split
  · exact .pure _
  · exact .fail _

/-- Both operands are run, the left one first. -/
theorem binary_consistsOf (hx : inside x) (hy : inside y) (operator : String) :
    ConsistsOf limit inside own s ((Program.binary d x y operator).parts limit f s)
      (binary (x.meaning? limit) (y.meaning? limit) operator f) :=
  bind (operand hx) fun _ _ _ => bind_adds (operand hy) fun _ s₂ _ => .refl s₂.drawing

/-- A statistic runs the input that names the column. -/
theorem stat_consistsOf (hx : inside x) (operator : String) :
    ConsistsOf limit inside own s ((Program.stat d x operator).parts limit f s)
      (stat (x.meaning? limit) operator f) := by
  refine input_bind hx _ fun v => ?_
  cases Aggregate.ofName? operator with
  | none => exact .pure _
  | some op => exact .readScopes _

/-- Storing runs the input and adds nothing. -/
theorem store_consistsOf (hx : inside x) (name : String) :
    ConsistsOf limit inside own s ((Program.store false name x next).parts limit f s)
      (store name (x.meaning? limit) f) :=
  input_bind hx _ fun _ => .changeScopes _

/-- A colour is no program, so nothing is run. -/
theorem color_consistsOf (paint : Paint) (c : String) :
    ConsistsOf limit inside own s [] (color paint c f) :=
  of_adds (AddsTransforms.bind (.readScopes _) (fun e => .setStyle e paint.name c) s)

/-- An opacity is an input like any other. -/
theorem alpha_consistsOf (hx : inside x) (opacity : Opacity) :
    ConsistsOf limit inside own s ((Program.alpha false opacity x next).parts limit f s)
      (alpha opacity (x.meaning? limit) f) :=
  input_bind hx _ fun _ => .bind (.readScopes _) fun e => .setStyle e opacity.name _

/-- One round of a loop, in a frame of its own. -/
theorem round_consistsOf (hchild : inside child) (name : String) (item : Value) :
    ConsistsOf limit inside own s
      ((Action.assign (s.scopes.openFrame f).1 name item).ifOk
        { s with scopes := (s.scopes.openFrame f).2 }
        fun _ s₁ => [.body child (s.scopes.openFrame f).1 s₁])
      (forItems name (child.meaning? limit) f [item]) := by
  refine bind_adds ?_ fun _ s₁ _ => .refl s₁.drawing
  have hround : ConsistsOf limit inside own { s with scopes := (s.scopes.openFrame f).2 } _
      (Action.assign (s.scopes.openFrame f).1 name item >>= fun _ =>
        (child.meaning? limit).block "forEach.child" (s.scopes.openFrame f).1) :=
    adds_bind (AddsTransforms.changeScopes _ _) fun _ _ _ => block hchild _
  exact hround

/-- The first round, then the others. -/
theorem run_forItems_split (name : String) (slot : Slot) (item : Value) (rest : List Value) :
    (forItems name slot f (item :: rest)).run s
      = (forItems name slot f [item] >>= fun _ => forItems name slot f rest).run s := by
  let round : Action Unit := Action.inFreshFrame f fun g => do
    Action.assign g name item
    slot.block "forEach.child" g
  -- a loop over no items ends at once, so one round is a loop of its own
  have hcons : ∀ items, forItems name slot f (item :: items)
      = round >>= fun _ => forItems name slot f items := fun _ => rfl
  rw [hcons rest, hcons []]
  cases hround : round.run s with
  | mk r s₁ =>
    cases r with
    | ok u =>
      have hone : (round >>= fun _ => forItems name slot f []).run s = (.ok (), s₁) :=
        run_bind_of_ok _ hround
      rw [run_bind_of_ok _ hround, run_bind_of_ok _ hone]
    | error e =>
      have hone : (round >>= fun _ => forItems name slot f []).run s = (.error e, s₁) :=
        run_bind_of_error _ hround
      rw [run_bind_of_error _ hround, run_bind_of_error _ hone]

/-- The rounds of a loop, one after the other; each runs the body in a frame of its own. -/
theorem forItems_consistsOf (hchild : inside child) (name : String) (items : List Value) :
    ConsistsOf limit inside own s (Program.rounds limit child name f items s)
      (forItems name (child.meaning? limit) f items) := by
  induction items generalizing s with
  | nil => exact of_adds (.refl s.drawing)
  | cons item rest ih =>
    have hall : ConsistsOf limit inside own s (Program.rounds limit child name f (item :: rest) s)
        (forItems name (child.meaning? limit) f [item] >>= fun _ =>
          forItems name (child.meaning? limit) f rest) :=
      bind (round_consistsOf hchild name item) fun _ _ _ => ih
    unfold ConsistsOf at hall ⊢
    rwa [run_forItems_split]

/-- A loop runs its input once, and then the rounds over the items. -/
theorem forEach_consistsOf (hx : inside x) (hchild : inside child) (name : String) :
    ConsistsOf limit inside own s ((Program.forEach false x name child next).parts limit f s)
      (forEach (x.meaning? limit) name (child.meaning? limit) f) :=
  bind (required hx _) fun v _ _ => forItems_consistsOf hchild name v.toList

/-- Without a body the condition is not evaluated. -/
theorem conditional_consistsOf (hx : inside x) (hchild : inside child) :
    ConsistsOf limit inside own s ((Program.conditional false x child next).parts limit f s)
      (conditional (x.meaning? limit) (child.meaning? limit) f) := by
  rw [Program.parts]
  -- without a body the condition is not even evaluated
  cases hm : child.meaning? limit with
  | none =>
    rw [if_pos (Program.eq_nothing_of_meaning? hm)]
    exact of_adds (.refl s.drawing)
  | some m =>
    rw [if_neg (Program.ne_nothing_of_meaning? hm)]
    refine bind (required hx _) fun v s₁ _ => ?_
    by_cases hv : v.truthy = true
    · rw [if_pos hv, if_pos hv]
      exact bind_adds (chain hchild hm) fun _ s₂ _ => .refl s₂.drawing
    · rw [if_neg hv, if_neg hv]
      exact of_adds (.refl s₁.drawing)

/-- A shape, with the body in the group of the shape. -/
theorem shape_consistsOf (hchild : inside child) {dress : ElementId → Action Unit}
    (hdress : ∀ e, AddsTransforms own (dress e)) (tag : String) :
    ConsistsOf limit inside own s (child.shaped tag dress f s)
      (shape tag dress (child.meaning? limit) f) := by
  refine adds_bind (AddsTransforms.readScopes _ s) fun c s₁ _ => ?_
  refine adds_bind (AddsTransforms.append c "g" s₁) fun group s₂ _ => ?_
  refine adds_bind (AddsTransforms.append group tag s₂) fun e s₃ _ => ?_
  refine adds_bind (hdress e s₃) fun _ s₄ _ => ?_
  -- the element is there in any case; only the child may be missing
  cases hm : child.meaning? limit with
  | none =>
    rw [if_pos (Program.eq_nothing_of_meaning? hm)]
    exact of_adds (.refl s₄.drawing)
  | some m =>
    rw [if_neg (Program.ne_nothing_of_meaning? hm)]
    refine withContext (fun s => ?_) group
    exact bind_adds (chain hchild hm) fun _ s₅ _ => .refl s₅.drawing

/-- A circle runs its radius, and then its child inside the new element. -/
theorem circle_consistsOf (hx : inside x) (hchild : inside child) :
    ConsistsOf limit inside own s ((Program.circle false x child next).parts limit f s)
      (circle (x.meaning? limit) (child.meaning? limit) f) :=
  bind (required hx _) fun _ _ _ =>
    shape_consistsOf hchild (fun e => .setAttribute e (by decide) _) "circle"

/-- A rectangle runs its two sizes in order, and then its child. -/
theorem rect_consistsOf (hx : inside x) (hy : inside y) (hchild : inside child) :
    ConsistsOf limit inside own s ((Program.rect false x y child next).parts limit f s)
      (rect (x.meaning? limit) (y.meaning? limit) (child.meaning? limit) f) := by
  refine bind (required hx _) fun w s₁ _ => bind (required hy _) fun h s₂ _ => ?_
  refine shape_consistsOf hchild (fun e => ?_) "rect"
  exact .bind (.setAttribute e (by decide) _) fun _ => .setAttribute e (by decide) _

/-- A text runs what it shows, and then its child. -/
theorem text_consistsOf (hx : inside x) (hchild : inside child) :
    ConsistsOf limit inside own s ((Program.text false x child next).parts limit f s)
      (text (x.meaning? limit) (child.meaning? limit) f) := by
  refine bind (required hx _) fun v s₁ _ => shape_consistsOf hchild (fun e => ?_) "text"
  exact .bind (.setStyle e _ _) fun _ => .setText e _

end Step

end BlockChart
