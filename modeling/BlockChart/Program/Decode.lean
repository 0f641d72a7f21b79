import BlockChart.Fault
import BlockChart.Json.Parser
import BlockChart.Program.Basic

namespace BlockChart.Program

/-!
# Reading programs

`ofJson` reads a JSON value as a program.  Texts may also be given as numbers, keys
that an operation does not know are ignored, and the body of `rotate` and `scale`
may stand under `next` if there is no key `child`.

A payload is prepared once: `Payload.links` holds for every key what its value reads
as, so that an operation only picks its inputs in order.
-/

/-- The text of a value that may be given as text or number. -/
def textOf? : Json → Option String
  | .string s => some s
  | .int n => some (Json.int n).compact
  | .float x => some (Json.float x).compact
  | _ => none

/-- The payload object of a node, and what each of its values reads as. -/
structure Payload where
  op : Opcode
  entries : List (String × Json)
  links : List (String × Except Fault Program)

namespace Payload

/-- Whether a key is set to true. -/
def flag (p : Payload) (key : String) : Bool :=
  match lookupEntry key p.entries with
  | some (.bool b) => b
  | _ => false

/-- The text under a key. -/
def text (p : Payload) (key : String) : Except Fault String :=
  match (lookupEntry key p.entries).bind textOf? with
  | some s => .ok s
  | none => .error (.malformed (.keyNotText p.op key))

/-- The text under a key, as one of the choices that `ofName?` knows. -/
def choice {α : Type} (p : Payload) (key : String) (ofName? : String → Option α) :
    Except Fault α := do
  let s ← p.text key
  match ofName? s with
  | some a => .ok a
  | none => .error (.malformed (.unsupportedChoice p.op key s))

/-- The program under a key; a missing key is an empty slot. -/
def link (p : Payload) (key : String) : Except Fault Program :=
  (lookupEntry key p.links).getD (.ok nothing)

/-- The body of `rotate` and `scale`: under `child` if that key is there, else under
    `next`. -/
def body (p : Payload) : Except Fault Program :=
  match lookupEntry "child" p.links with
  | some r => r
  | none => p.link "next"

/-- The node of an operation with an object as payload. -/
def node (p : Payload) : Except Fault Program :=
  let d := p.flag "disabled"
  match p.op with
  | .string => .error (.malformed (.payloadNotText .string (.object p.entries)))
  | .load => .error (.malformed (.payloadNotText .load (.object p.entries)))
  | .width => .ok (.width d)
  | .height => .ok (.height d)
  | .rows => .ok (.rows d)
  | .columns => .ok (.columns d)
  | .count => return .count d (← p.link "value")
  | .cell => return .cell d (← p.link "row") (← p.link "column")
  | .columnName => return .columnName d (← p.link "index")
  | .binary => return .binary d (← p.link "x") (← p.link "y") (← p.text "operator")
  | .stat => return .stat d (← p.link "column") (← p.text "operator")
  | .store => return .store d (← p.text "variable") (← p.link "value") (← p.link "next")
  | .color =>
    return .color d (← p.choice "attribute" Paint.ofName?) (← p.text "color") (← p.link "next")
  | .alpha =>
    return .alpha d (← p.choice "type" Opacity.ofName?) (← p.link "alpha") (← p.link "next")
  | .forEach =>
    return .forEach d (← p.link "set") (← p.text "variable") (← p.link "child") (← p.link "next")
  | .conditional =>
    return .conditional d (← p.link "condition") (← p.link "child") (← p.link "next")
  | .translate =>
    return .translate d (← p.link "x") (← p.link "y") (← p.link "child") (← p.link "next")
  | .rotate => return .rotate d (← p.link "degrees") (← p.body)
  | .scale => return .scale d (← p.link "factor") (← p.body)
  | .align =>
    return .align d (← p.text "horizontal") (← p.text "vertical") (← p.link "child")
      (← p.link "next")
  | .margin => return .margin d (← p.link "size") (← p.link "child") (← p.link "next")
  | .circle => return .circle d (← p.link "radius") (← p.link "child") (← p.link "next")
  | .rect =>
    return .rect d (← p.link "width") (← p.link "height") (← p.link "child") (← p.link "next")
  | .text => return .text d (← p.link "text") (← p.link "child") (← p.link "next")

end Payload

/-- The node of an operation whose payload is no object. -/
def bareNode (op : Opcode) (payload : Json) : Except Fault Program :=
  match op with
  | .string | .load =>
    match textOf? payload with
    | some s => .ok (if op = .string then .string false s else .load false s)
    | none => .error (.malformed (.payloadNotText op payload))
  | _ => .error (.malformed (.payloadNotObject op payload))

mutual

/-- **Reads a program** from a JSON value; null is the absent program. -/
def ofJson : Json → Except Fault Program
  | .null => .ok nothing
  | .array [.string tag, .object entries] =>
    match Opcode.ofName? tag with
    | some op => Payload.node ⟨op, entries, ofJsonEntries entries⟩
    | none => .error (.unknownOperation tag)
  | .array [.string tag, payload] =>
    match Opcode.ofName? tag with
    | some op => bareNode op payload
    | none => .error (.unknownOperation tag)
  | v => .error (.malformed (.notPair v))

/-- What the value of each entry reads as. -/
def ofJsonEntries : List (String × Json) → List (String × Except Fault Program)
  | [] => []
  | (k, v) :: rest => (k, ofJson v) :: ofJsonEntries rest

end

/-- **Reads a program** from JSON text. -/
def parse (text : String) : Except Fault Program :=
  match Json.read? text with
  | some v => ofJson v
  | none => .error .notJson

end BlockChart.Program
