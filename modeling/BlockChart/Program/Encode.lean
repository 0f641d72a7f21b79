import BlockChart.Json.Basic
import BlockChart.Program.Basic

namespace BlockChart.Program

/-!
# Programs as JSON

A node is written as the pair of its operation and its payload.  The payload of
`string` and `load` is the text itself; every other payload is an object of the
inputs in a fixed order, empty slots left out, with `disabled` last if it is set.
-/

/-- The entry of a slot; an empty slot has none. -/
def slotEntry (key : String) : Json → List (String × Json)
  | .null => []
  | v => [(key, v)]

/-- The entry of a text. -/
def textEntry (key : String) (s : String) : List (String × Json) :=
  [(key, .string s)]

/-- A node with an object as payload. -/
def nodeJson (op : Opcode) (disabled : Bool) (entries : List (String × Json)) : Json :=
  let flag := if disabled then [("disabled", Json.bool true)] else []
  .array [.string op.name, .object (entries ++ flag)]

/-- **The JSON value of a program**; the absent program is null. -/
def toJson : Program → Json
  | nothing => .null
  | string _ s => .array [.string "string", .string s]
  | load _ name => .array [.string "load", .string name]
  | width d => nodeJson .width d []
  | height d => nodeJson .height d []
  | rows d => nodeJson .rows d []
  | columns d => nodeJson .columns d []
  | count d value => nodeJson .count d (slotEntry "value" value.toJson)
  | cell d row column =>
    nodeJson .cell d (slotEntry "row" row.toJson ++ slotEntry "column" column.toJson)
  | columnName d index => nodeJson .columnName d (slotEntry "index" index.toJson)
  | binary d x y operator =>
    nodeJson .binary d
      (slotEntry "x" x.toJson ++ slotEntry "y" y.toJson ++ textEntry "operator" operator)
  | stat d column operator =>
    nodeJson .stat d (slotEntry "column" column.toJson ++ textEntry "operator" operator)
  | store d name value next =>
    nodeJson .store d
      (textEntry "variable" name ++ slotEntry "value" value.toJson
        ++ slotEntry "next" next.toJson)
  | color d paint c next =>
    nodeJson .color d
      (textEntry "attribute" paint.name ++ textEntry "color" c ++ slotEntry "next" next.toJson)
  | alpha d opacity percent next =>
    nodeJson .alpha d
      (textEntry "type" opacity.name ++ slotEntry "alpha" percent.toJson
        ++ slotEntry "next" next.toJson)
  | forEach d set name child next =>
    nodeJson .forEach d
      (slotEntry "set" set.toJson ++ textEntry "variable" name
        ++ slotEntry "child" child.toJson ++ slotEntry "next" next.toJson)
  | conditional d condition child next =>
    nodeJson .conditional d
      (slotEntry "condition" condition.toJson ++ slotEntry "child" child.toJson
        ++ slotEntry "next" next.toJson)
  | translate d x y child next =>
    nodeJson .translate d
      (slotEntry "x" x.toJson ++ slotEntry "y" y.toJson ++ slotEntry "child" child.toJson
        ++ slotEntry "next" next.toJson)
  | rotate d degrees child =>
    nodeJson .rotate d (slotEntry "degrees" degrees.toJson ++ slotEntry "child" child.toJson)
  | scale d factor child =>
    nodeJson .scale d (slotEntry "factor" factor.toJson ++ slotEntry "child" child.toJson)
  | align d horizontal vertical child next =>
    nodeJson .align d
      (textEntry "horizontal" horizontal ++ textEntry "vertical" vertical
        ++ slotEntry "child" child.toJson ++ slotEntry "next" next.toJson)
  | margin d size child next =>
    nodeJson .margin d
      (slotEntry "size" size.toJson ++ slotEntry "child" child.toJson
        ++ slotEntry "next" next.toJson)
  | circle d radius child next =>
    nodeJson .circle d
      (slotEntry "radius" radius.toJson ++ slotEntry "child" child.toJson
        ++ slotEntry "next" next.toJson)
  | rect d w h child next =>
    nodeJson .rect d
      (slotEntry "width" w.toJson ++ slotEntry "height" h.toJson
        ++ slotEntry "child" child.toJson ++ slotEntry "next" next.toJson)
  | text d t child next =>
    nodeJson .text d
      (slotEntry "text" t.toJson ++ slotEntry "child" child.toJson
        ++ slotEntry "next" next.toJson)

end BlockChart.Program
