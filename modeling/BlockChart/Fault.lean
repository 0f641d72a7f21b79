import BlockChart.Json.Printer
import BlockChart.Opcode

namespace BlockChart

/-!
# Faults

Everything that can go wrong between a file and a finished drawing, by cause.
`Fault.kind` sorts the causes, `Fault.message` words them.
-/

/-- Why a JSON value is no program. -/
inductive Malformation where
  /-- A node that is not a pair of operation and payload. -/
  | notPair (found : Json)
  /-- A `string` or `load` whose payload is neither text nor number. -/
  | payloadNotText (op : Opcode) (found : Json)
  /-- Any other operation whose payload is no object. -/
  | payloadNotObject (op : Opcode) (found : Json)
  /-- A key that must hold text or a number. -/
  | keyNotText (op : Opcode) (key : String)
  /-- A key whose text is not one of its choices. -/
  | unsupportedChoice (op : Opcode) (key : String) (found : String)
  deriving Repr

/-- What went wrong. -/
inductive Fault where
  | unknownOperation (name : String)
  | undefinedVariable (name : String)
  /-- A slot that must be plugged is empty. -/
  | missingPiece (slot : String)
  | indexOutOfRange (what : String) (index : String) (size : Nat)
  | emptyContextStack
  | emptyAggregate (operator : String)
  | recursionLimit (limit : Nat)
  | malformed (cause : Malformation)
  /-- A block lacks a field that its kind requires. -/
  | missingField (kind : String) (field : String)
  | unsupportedAnchor (horizontal vertical : String)
  | unsupportedPaint (found : String)
  | unsupportedOpacity (found : String)
  /-- A transform without an opening parenthesis. -/
  | transformUnopened (found : String)
  /-- A transform that does not end in a closing parenthesis. -/
  | transformUnclosed (found : String)
  | unsupportedTransform (found : String)
  | unsupportedFormat (extension : String)
  /-- A text that is not JSON. -/
  | notJson
  /-- JSON of another shape than the one wanted. -/
  | unfitJson
  /-- A text that is not YAML, or not of the shape wanted. -/
  | unfitYaml
  /-- A scope handle without a frame. -/
  | deadFrame
  deriving Repr

namespace Malformation

/-- The wording of a malformation. -/
def message : Malformation → String
  | notPair v => "expected [opcode, payload], got " ++ v.compact
  | payloadNotText op v => op.name ++ " payload must be text, got " ++ v.compact
  | payloadNotObject op v => op.name ++ " payload must be an object, got " ++ v.compact
  | keyNotText op key => op.name ++ "." ++ key ++ " must be text"
  | unsupportedChoice op key found =>
    op.name ++ "." ++ key ++ ": unsupported value '" ++ found ++ "'"

end Malformation

namespace Fault

/-- The kinds of fault that a report tells apart. -/
inductive Kind where
  | unknownOperation | undefinedVariable | missingProgram | indexOutOfRange
  | emptyContextStack | emptyAggregate | recursionLimit | malformedProgram
  | other | jsonSyntax | jsonData | yaml | deadFrame
  deriving Repr, DecidableEq

/-- The kind of a fault. -/
def kind : Fault → Kind
  | unknownOperation _ => .unknownOperation
  | undefinedVariable _ => .undefinedVariable
  | missingPiece _ => .missingProgram
  | indexOutOfRange _ _ _ => .indexOutOfRange
  | emptyContextStack => .emptyContextStack
  | emptyAggregate _ => .emptyAggregate
  | recursionLimit _ => .recursionLimit
  | malformed _ => .malformedProgram
  | missingField _ _ | unsupportedAnchor _ _ | unsupportedPaint _ | unsupportedOpacity _
  | transformUnopened _ | transformUnclosed _ | unsupportedTransform _ | unsupportedFormat _ =>
    .other
  | notJson => .jsonSyntax
  | unfitJson => .jsonData
  | unfitYaml => .yaml
  | deadFrame => .deadFrame

/-- The hint after an unknown name. -/
def hint (name : String) : String :=
  match Opcode.suggest? name with
  | some op => " (did you mean '" ++ op.name ++ "'?)"
  | none => ""

/-- **The wording of a fault.** -/
def message : Fault → String
  | unknownOperation name => "unknown operation '" ++ name ++ "'" ++ hint name
  | undefinedVariable name => "variable '" ++ name ++ "' does not exist"
  | missingPiece slot => "missing puzzle piece: " ++ slot
  | indexOutOfRange what index size =>
    "index " ++ index ++ " out of range for " ++ what ++ " (len " ++ toString size ++ ")"
  | emptyContextStack => "drawing context stack is empty"
  | emptyAggregate op => "cannot compute '" ++ op ++ "' over an empty column"
  | recursionLimit limit => "program nesting exceeded max depth of " ++ toString limit
  | malformed cause => "malformed program: " ++ cause.message
  | missingField kind field => kind ++ " block has no field '" ++ field ++ "'"
  | unsupportedAnchor h v => "align: unsupported anchor '" ++ h ++ "'/'" ++ v ++ "'"
  | unsupportedPaint found => "color: unsupported attribute '" ++ found ++ "'"
  | unsupportedOpacity found => "alpha: unsupported type '" ++ found ++ "'"
  | transformUnopened found => "transform needs '(': " ++ found
  | transformUnclosed found => "transform needs ')': " ++ found
  | unsupportedTransform found => "unsupported transform: " ++ found
  | unsupportedFormat extension => "dataset format unsupported: " ++ extension
  | notJson => "the text is not JSON"
  | unfitJson => "the JSON value does not have the expected shape"
  | unfitYaml => "the text is not YAML of the expected shape"
  | deadFrame => "the frame has been released"

end Fault

end BlockChart
