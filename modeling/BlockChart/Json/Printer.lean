import BlockChart.Json.Basic
import BlockChart.Number.Layout

namespace BlockChart.Json

/-!
# Printing JSON

`compact` writes no white space; `pretty` writes one entry a line, indented by two
spaces a level, and empty arrays and objects as `[]` and `{}`.  In strings the quote,
the backslash and the control characters are escaped, everything else stands for
itself.
-/

/-- The text of a character inside a quoted string. -/
def escapeChar (c : Char) : String :=
  match c with
  | '"' => "\\\""
  | '\\' => "\\\\"
  | '\n' => "\\n"
  | '\r' => "\\r"
  | '\t' => "\\t"
  | c =>
    if c.toNat = 8 then "\\b"
    else if c.toNat = 12 then "\\f"
    else if c.toNat < 32 then
      let digits := Nat.toDigits 16 c.toNat
      "\\u" ++ String.ofList (List.replicate (4 - digits.length) '0' ++ digits)
    else String.ofList [c]

/-- A text in quotes. -/
def quoted (s : String) : String :=
  "\"" ++ String.join (s.toList.map escapeChar) ++ "\""

/-- Number text; JSON cannot write infinities and not-a-number. -/
def floatText (x : Float) : String :=
  (jsonText? x).getD "null"

/-- Values between separators and brackets. -/
def bracketed (opening closing separator : String) (parts : List String) : String :=
  opening ++ separator.intercalate parts ++ closing

mutual

/-- **Compact text** of a value. -/
def compact : Json → String
  | .null => "null"
  | .bool b => if b then "true" else "false"
  | .int n => toString n
  | .float x => floatText x
  | .string s => quoted s
  | .array items => bracketed "[" "]" "," (compactItems items)
  | .object entries => bracketed "\x7b" "\x7d" "," (compactEntries entries)

/-- Compact texts of the items of an array. -/
def compactItems : List Json → List String
  | [] => []
  | v :: rest => v.compact :: compactItems rest

/-- Compact texts of the entries of an object. -/
def compactEntries : List (String × Json) → List String
  | [] => []
  | (k, v) :: rest => (quoted k ++ ":" ++ v.compact) :: compactEntries rest

end

/-- A new line at a level of nesting. -/
def newline (level : Nat) : String :=
  "\n" ++ String.ofList (List.replicate (2 * level) ' ')

/-- The parts of a non-empty array or object, one a line. -/
def stacked (level : Nat) (opening closing : String) (parts : List String) : String :=
  bracketed (opening ++ newline (level + 1)) (newline level ++ closing)
    ("," ++ newline (level + 1)) parts

mutual

/-- Indented text of a value whose own line is at `level`. -/
def prettyAt (level : Nat) : Json → String
  | .array [] => "[]"
  | .object [] => "\x7b\x7d"
  | .array items => stacked level "[" "]" (prettyItems (level + 1) items)
  | .object entries => stacked level "\x7b" "\x7d" (prettyEntries (level + 1) entries)
  | .null => "null"
  | .bool b => if b then "true" else "false"
  | .int n => toString n
  | .float x => floatText x
  | .string s => quoted s

/-- Indented texts of the items of an array. -/
def prettyItems (level : Nat) : List Json → List String
  | [] => []
  | v :: rest => v.prettyAt level :: prettyItems level rest

/-- Indented texts of the entries of an object. -/
def prettyEntries (level : Nat) : List (String × Json) → List String
  | [] => []
  | (k, v) :: rest => (quoted k ++ ": " ++ v.prettyAt level) :: prettyEntries level rest

end

/-- **Indented text** of a value, without a final newline. -/
def pretty (v : Json) : String :=
  v.prettyAt 0

end BlockChart.Json
