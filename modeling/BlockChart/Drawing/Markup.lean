import BlockChart.Drawing.Tree

namespace BlockChart

/-!
# SVG text

The text of a drawing: one element a line, indented by two spaces a level, an
element without text and children as `<tag />`.  Text follows its start tag at once,
and so does the first child after a text.

In attribute values the five markup characters and line breaks are escaped, in text
only `<`, `>` and `&`.
-/

namespace Markup

/-- A character in an attribute value. -/
def attributeChar : Char → String
  | '<' => "&lt;"
  | '>' => "&gt;"
  | '"' => "&quot;"
  | '\x27' => "&apos;"
  | '&' => "&amp;"
  | '\n' => "&#xA;"
  | '\r' => "&#xD;"
  | c => String.ofList [c]

/-- A character in text content. -/
def contentChar : Char → String
  | '<' => "&lt;"
  | '>' => "&gt;"
  | '&' => "&amp;"
  | c => String.ofList [c]

/-- An attribute, with the space before it. -/
def attributeText (name value : String) : String :=
  " " ++ name ++ "=\"" ++ String.join (value.toList.map attributeChar) ++ "\""

/-- Style properties as one text: `k: v; k: v`. -/
def styleText (style : List (String × String)) : String :=
  "; ".intercalate (style.map fun (name, value) => name ++ ": " ++ value)

/-- The name space of SVG. -/
def nameSpace : String := "http://www.w3.org/2000/svg"

/-- The attributes that an element is written with, in order; the root states the
    name space first, and the style comes last if there is one. -/
def attributesOf (id : ElementId) (e : Element) : List (String × String) :=
  (if id = Drawing.root then [("xmlns", nameSpace)] else [])
    ++ e.attributes
    ++ (if e.style.isEmpty then [] else [("style", styleText e.style)])

/-- A new line at a level of nesting. -/
def newline (level : Nat) : String :=
  "\n" ++ String.ofList (List.replicate (2 * level) ' ')

/-- The start tag without its closing bracket. -/
def opening (id : ElementId) (e : Element) : String :=
  "<" ++ e.tag ++ String.join ((attributesOf id e).map fun (name, value) => attributeText name value)

mutual

/-- The text of an element at a level of nesting. -/
def element (level : Nat) : Tree → String
  | .node id e children =>
    match e.text, children with
    | none, [] => opening id e ++ " />"
    | some s, [] =>
      opening id e ++ ">" ++ String.join (s.toList.map contentChar) ++ "</" ++ e.tag ++ ">"
    | none, first :: rest =>
      opening id e ++ ">" ++ elements (level + 1) (first :: rest)
        ++ newline level ++ "</" ++ e.tag ++ ">"
    | some s, first :: rest =>
      opening id e ++ ">" ++ String.join (s.toList.map contentChar)
        ++ element (level + 1) first ++ elements (level + 1) rest
        ++ newline level ++ "</" ++ e.tag ++ ">"

/-- The texts of elements that each begin a line. -/
def elements (level : Nat) : List Tree → String
  | [] => ""
  | t :: rest => newline level ++ element level t ++ elements level rest

end

end Markup

/-- **The SVG text of a drawing**, without a final newline. -/
def Drawing.svg (d : Drawing) : String :=
  match d.tree? root with
  | some t => Markup.element 0 t
  | none => ""

end BlockChart
