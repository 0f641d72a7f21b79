import BlockChart.Program.Decode
import BlockChart.Program.Encode
import BlockChart.Proofs.Entries
import BlockChart.Proofs.Nodes

namespace BlockChart

/-!
# Programs survive their JSON form

`Program.toJson` writes a program, `Program.ofJson` reads one.  The payload of `string`
and `load` is a bare text with no room for the flag, so writing loses the flag of these
two operations and nothing else:

* `Program.written` is the program with these flags cleared, `Program.BareEnabled` says
  that there is none to clear;
* `Payload.written` is the payload that reading finds in a written node, with one lemma
  for each way of looking into a payload;
* `ofJson_toJson` — what is written reads as the written program, by induction over the
  program;
* `bareEnabled_of_ofJson` — what was read has no flag to lose, by induction over the
  value.
-/

/-! ### Results of readers -/

@[simp] theorem ok_bind {ε α β : Type} (a : α) (f : α → Except ε β) :
    (Except.ok a >>= f) = f a := rfl

@[simp] theorem map_ok {ε α β : Type} (f : α → β) (a : α) :
    f <$> (Except.ok a : Except ε α) = .ok (f a) := rfl

/-- A sequence succeeds if both of its parts do. -/
theorem bind_eq_ok_iff {ε α β : Type} {x : Except ε α} {f : α → Except ε β} {b : β} :
    (x >>= f) = .ok b ↔ ∃ a, x = .ok a ∧ f a = .ok b := by
  cases x with
  | error e => simp [bind, Except.bind]
  | ok a => simp

theorem pure_eq_ok_iff {ε α : Type} {a b : α} :
    (pure a : Except ε α) = .ok b ↔ a = b :=
  ⟨Except.ok.inj, congrArg Except.ok⟩

/-! ### Looking up written entries -/

namespace Opcode

@[simp] theorem ofName?_name (op : Opcode) : ofName? op.name = some op := by
  cases op <;> rfl

end Opcode

namespace Paint

@[simp] theorem ofName?_name (paint : Paint) : ofName? paint.name = some paint := by
  cases paint <;> rfl

end Paint

namespace Opacity

@[simp] theorem ofName?_name (opacity : Opacity) : ofName? opacity.name = some opacity := by
  cases opacity <;> rfl

end Opacity

namespace Program

/-- What is found under the key of a slot: nothing if the slot is empty. -/
def plugged? : Json → Option Json
  | .null => none
  | v => some v

/-- A slot is written under its key, unless it is empty. -/
@[simp] theorem lookupEntry_slotEntry (key k : String) (v : Json) :
    lookupEntry key (slotEntry k v) = if k = key then plugged? v else none := by
  cases v <;> simp [slotEntry, lookupEntry, plugged?]

@[simp] theorem lookupEntry_textEntry (key k s : String) :
    lookupEntry key (textEntry k s) = if k = key then some (.string s) else none := by
  simp [textEntry, lookupEntry]

/-- Entries are read one by one, each under its own key. -/
theorem lookupEntry_ofJsonEntries (key : String) (entries : List (String × Json)) :
    lookupEntry key (ofJsonEntries entries) = (lookupEntry key entries).map ofJson := by
  induction entries with
  | nil => rfl
  | cons x xs ih =>
    obtain ⟨k, v⟩ := x
    by_cases hk : k = key
    · simp [lookupEntry, ofJsonEntries, hk]
    · simp [lookupEntry, ofJsonEntries, hk, ih]

@[simp] theorem ofJson_null : ofJson .null = .ok nothing := by
  simp [ofJson]

/-- An empty slot reads as `nothing`, so leaving it out loses nothing. -/
@[simp] theorem getD_map_plugged? (v : Json) :
    ((plugged? v).map ofJson).getD (.ok nothing) = ofJson v := by
  cases v <;> simp [plugged?]

/-! ### The payload of a written node -/

/-- The entry of the flag, which stands last. -/
def flagEntry (disabled : Bool) : List (String × Json) :=
  if disabled then [("disabled", .bool true)] else []

/-- The flag is written only where it is set. -/
theorem lookupEntry_flagEntry (key : String) (disabled : Bool) :
    lookupEntry key (flagEntry disabled)
      = if "disabled" = key ∧ disabled = true then some (.bool true) else none := by
  cases disabled <;> simp [flagEntry, lookupEntry]

namespace Payload

/-- The payload that reading finds in a node written with these entries. -/
def written (op : Opcode) (disabled : Bool) (entries : List (String × Json)) : Payload :=
  ⟨op, entries ++ flagEntry disabled, ofJsonEntries (entries ++ flagEntry disabled)⟩

variable {op : Opcode} {d : Bool} {entries : List (String × Json)} {key : String}

@[simp] theorem op_written : (written op d entries).op = op := rfl

/-- The flag is no other entry. -/
theorem lookupEntry_entries_written (hkey : key ≠ "disabled") :
    lookupEntry key (written op d entries).entries = lookupEntry key entries := by
  simp [written, lookupEntry_flagEntry, hkey.symm]

/-- Nor is it a link. -/
theorem lookupEntry_links_written (hkey : key ≠ "disabled") :
    lookupEntry key (written op d entries).links = (lookupEntry key entries).map ofJson := by
  simp [written, lookupEntry_ofJsonEntries, lookupEntry_flagEntry, hkey.symm]

/-- The flag reads as it was written, whether its entry is there or not. -/
@[simp] theorem flag_written (h : lookupEntry "disabled" entries = none) :
    (written op d entries).flag "disabled" = d := by
  cases d <;> simp [written, flag, lookupEntry_flagEntry, h]

@[simp] theorem link_written (hkey : key ≠ "disabled") :
    (written op d entries).link key
      = ((lookupEntry key entries).map ofJson).getD (.ok nothing) := by
  rw [link, lookupEntry_links_written hkey]

/-- A text is read as it was written. -/
@[simp] theorem text_written {s : String} (hkey : key ≠ "disabled")
    (h : lookupEntry key entries = some (.string s)) : (written op d entries).text key = .ok s := by
  simp [text, lookupEntry_entries_written hkey, h, textOf?]

/-- A choice by its name. -/
@[simp] theorem choice_written {α : Type} {s : String} {ofName? : String → Option α} {a : α}
    (hkey : key ≠ "disabled") (h : lookupEntry key entries = some (.string s))
    (ha : ofName? s = some a) : (written op d entries).choice key ofName? = .ok a := by
  rw [choice, text_written hkey h]
  simp [bind, Except.bind, ha]

/-- A written body stands under `child`: its node has no key `next`. -/
@[simp] theorem body_written (h : lookupEntry "next" entries = none) :
    (written op d entries).body = (written op d entries).link "child" := by
  have hnext : lookupEntry "next" (written op d entries).links = none := by
    rw [lookupEntry_links_written (by simp), h, Option.map_none]
  unfold body link
  cases lookupEntry "child" (written op d entries).links with
  | none => rw [hnext]
  | some r => rfl

end Payload

/-- A node is read by its own operation. -/
theorem ofJson_nodeJson (op : Opcode) (d : Bool) (entries : List (String × Json)) :
    ofJson (nodeJson op d entries) = (Payload.written op d entries).node := by
  simp [nodeJson, ofJson, Payload.written, flagEntry]

/-! ### Reading what was written -/

/-- The flag that is left after writing: `string` and `load` have no room for it. -/
def writtenFlag : Opcode → Bool → Bool
  | .string, _ | .load, _ => false
  | _, disabled => disabled

/-- The program with the flag of every `string` and `load` node cleared. -/
def written (p : Program) : Program :=
  p.mapFlags writtenFlag

/-- **What is written reads as the written program.** -/
theorem ofJson_toJson (p : Program) : ofJson p.toJson = .ok p.written := by
  unfold written
  induction p
  case nothing => exact ofJson_null
  case string d s =>
    have hop : Opcode.ofName? "string" = some .string := rfl
    simp [toJson, ofJson, hop, bareNode, textOf?, mapFlags, writtenFlag]
  case load d name =>
    have hop : Opcode.ofName? "load" = some .load := rfl
    simp [toJson, ofJson, hop, bareNode, textOf?, mapFlags, writtenFlag]
  -- Every other node is an object of its inputs: the payload is searched key by key.
  all_goals
    simp [toJson, ofJson_nodeJson, Payload.node, mapFlags, writtenFlag, *]

/-! ### Writing what was read -/

namespace Payload

/-- The body is one of the links. -/
theorem body_eq_link (p : Payload) : ∃ key, p.body = p.link key := by
  unfold body
  cases hchild : lookupEntry "child" p.links with
  | none => exact ⟨"next", rfl⟩
  | some r => exact ⟨"child", by simp [link, hchild]⟩

/-- A node read from an object has the operation of the payload, which is not a bare one,
    and in each slot what stands under one of its keys. -/
theorem node_eq_ok {p : Payload} {q : Program} (h : p.node = .ok q) :
    q.opcode? = some p.op ∧ p.op ≠ .string ∧ p.op ≠ .load
      ∧ ∀ r ∈ q.slots, ∃ key, p.link key = .ok r := by
  obtain ⟨bodyKey, hbody⟩ := p.body_eq_link
  cases hop : p.op <;> simp only [node, hop, hbody, bind_eq_ok_iff, pure_eq_ok_iff] at h
  case string => cases h
  case load => cases h
  all_goals grind [slots, opcode?]

end Payload

/-- No `string` or `load` node is disabled. -/
def BareEnabled (p : Program) : Prop :=
  ∀ q : Program, q.Within p →
    q.opcode? = some .string ∨ q.opcode? = some .load → q.disabled = false

/-- It is enough to look at the first node and at the slots. -/
theorem BareEnabled.of_slots {p : Program}
    (hp : p.opcode? = some .string ∨ p.opcode? = some .load → p.disabled = false)
    (hslots : ∀ r ∈ p.slots, r.BareEnabled) : p.BareEnabled :=
  forall_within.mpr ⟨hp, hslots⟩

/-- Writing such a program loses nothing. -/
theorem written_eq_self {p : Program} (h : p.BareEnabled) : p.written = p := by
  refine mapFlags_eq_self fun q hq op hop => ?_
  cases op
  case string => exact (h q hq (.inl hop)).symm
  case load => exact (h q hq (.inr hop)).symm
  all_goals rfl

theorem bareEnabled_nothing : nothing.BareEnabled :=
  .of_slots (by simp [opcode?]) (List.forall_mem_nil _)

/-- A bare node is never disabled when it is read. -/
theorem bareEnabled_of_bareNode {op : Opcode} {v : Json} {p : Program}
    (h : bareNode op v = .ok p) : p.BareEnabled := by
  have hp : p.disabled = false ∧ p.slots = [] := by
    unfold bareNode at h
    grind [disabled, slots]
  refine .of_slots (fun _ => hp.1) ?_
  rw [hp.2]
  exact List.forall_mem_nil _

mutual

/-- What is read from a value has no disabled `string` or `load` node. -/
theorem bareEnabled_of_ofJson {v : Json} {p : Program} (h : ofJson v = .ok p) :
    p.BareEnabled := by
  unfold ofJson at h
  split at h
  -- null
  · obtain rfl := Except.ok.inj h
    exact bareEnabled_nothing
  -- an object as payload
  · split at h
    · obtain ⟨hop, hstring, hload, hslots⟩ := Payload.node_eq_ok h
      refine .of_slots ?_ fun r hr => ?_
      · rw [hop, Option.some_inj, Option.some_inj]
        rintro (hop | hop)
        · exact absurd hop hstring
        · exact absurd hop hload
      · obtain ⟨key, hkey⟩ := hslots r hr
        exact bareEnabled_of_ofJsonEntries hkey
    · exact nomatch h
  -- any other payload
  · split at h
    · exact bareEnabled_of_bareNode h
    · exact nomatch h
  · exact nomatch h

/-- Nor is one that is read under a key. -/
theorem bareEnabled_of_ofJsonEntries {entries : List (String × Json)} {key : String}
    {p : Program} (h : (lookupEntry key (ofJsonEntries entries)).getD (.ok nothing) = .ok p) :
    p.BareEnabled := by
  match entries with
  | [] =>
    obtain rfl := Except.ok.inj h
    exact bareEnabled_nothing
  | (k, v) :: rest =>
    rw [ofJsonEntries, lookupEntry] at h
    split at h
    · exact bareEnabled_of_ofJson h
    · exact bareEnabled_of_ofJsonEntries h

end

/-- Only nothing is written as nothing. -/
theorem written_eq_nothing_iff {p : Program} : p.written = nothing ↔ p = nothing := by
  cases p <;> simp [written, mapFlags]

/-- **Round trip.** Reading what was written always succeeds.  It gives a node for a node:
    the program with the flag of every `string` and `load` node cleared and all else as it
    was.  So it gives the program itself if there is no such flag to clear, and that is so
    for every program that was itself read from a value. -/
theorem json_roundTrip (p : Program) :
    (ofJson p.toJson = .ok p.written ∧ p.written.BareEnabled
        ∧ (p.written = nothing ↔ p = nothing))
      ∧ (p.BareEnabled → ofJson p.toJson = .ok p)
      ∧ ∀ v, ofJson v = .ok p → ofJson p.toJson = .ok p := by
  have hread : ofJson p.toJson = .ok p.written := ofJson_toJson p
  have hself : p.BareEnabled → ofJson p.toJson = .ok p := by
    intro h
    rw [hread, written_eq_self h]
  refine ⟨⟨hread, bareEnabled_of_ofJson hread, written_eq_nothing_iff⟩, hself, ?_⟩
  intro v hv
  exact hself (bareEnabled_of_ofJson hv)

/-- A rotation by a number, its body under the other key and its slots in another order. -/
def legacyTurn : Json :=
  .array [.string "rotate", .object [
    ("next", .array [.string "circle", .object [
      ("disabled", .bool true), ("radius", .array [.string "load", .string "r"])]]),
    ("degrees", .array [.string "string", .int 90])]]

/-- What `legacyTurn` reads as. -/
def turnedCircle : Program :=
  .rotate false (.string false "90") (.circle true (.load false "r") .nothing .nothing)

theorem json_roundTrip_legacyTurn :
    ofJson legacyTurn = .ok turnedCircle ∧ turnedCircle.BareEnabled
      ∧ turnedCircle.toJson ≠ legacyTurn ∧ ofJson turnedCircle.toJson = .ok turnedCircle := by
  have hread : ofJson legacyTurn = .ok turnedCircle := by rfl
  refine ⟨hread, bareEnabled_of_ofJson hread, ?_,
    (json_roundTrip turnedCircle).2.2 legacyTurn hread⟩
  simp [turnedCircle, legacyTurn, toJson, nodeJson, slotEntry]

end Program

end BlockChart
