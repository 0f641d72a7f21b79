import BlockChart.Text.CaseTable

namespace BlockChart

/-!
# Lower-case texts

`lowerCase` maps a text to its full Unicode lower-case form.  Every character is
mapped on its own but one: the capital sigma at the end of a word becomes the final
small sigma.  Names of variables and of columns are compared through it.
-/

/-- The lower-case form of one character outside any context.  Only the capital I
    with a dot becomes two characters. -/
def lowerChar (c : Char) : List Char :=
  if c.toNat = 0x130 then ['i', Char.ofNat 0x307]
  else match lowerRuns.find? (·.covers c.toNat) with
    | some run => [Char.ofNat ((c.toNat : Int) + run.shift).toNat]
    | none => [c]

/-- Whether the nearest character that is not case-ignorable has case. -/
def meetsCased (cs : List Char) : Bool :=
  match cs.dropWhile fun c => inRanges caseIgnorableRanges c.toNat with
  | [] => false
  | c :: _ => inRanges casedRanges c.toNat

/-- Lower-case form of the characters after those in `before`, which stand in
    reverse order. -/
def lowerChars (before : List Char) : List Char → List Char
  | [] => []
  | c :: rest =>
    let lowered :=
      if c.toNat = 0x3A3 then
        if meetsCased before && !meetsCased rest then [Char.ofNat 0x3C2]
        else [Char.ofNat 0x3C3]
      else lowerChar c
    lowered ++ lowerChars (c :: before) rest

/-- **The lower-case form of a text.** -/
def lowerCase (text : String) : String :=
  String.ofList (lowerChars [] text.toList)

end BlockChart
