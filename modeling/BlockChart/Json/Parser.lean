import BlockChart.Json.Basic
import BlockChart.Number.Radix
import BlockChart.Number.Reader

namespace BlockChart.Json

/-!
# Reading JSON text

A recursive descent reader over the characters of the text.  Each step consumes
at least one character, so the number of characters bounds the recursion.  `room`
is the number of levels of arrays and objects that may still be opened.

* `readPrefix?` reads one value at the front of a text and returns the rest;
* `read?` reads a text that is exactly one value.

Repeated keys are kept; `Json.mergeKeys` resolves them.
-/

/-- The four characters that may stand between tokens. -/
def isSpace (c : Char) : Bool :=
  c == ' ' || c == '\n' || c == '\t' || c == '\r'

/-- Drops white space at the front. -/
def skipSpace (cs : List Char) : List Char :=
  cs.dropWhile isSpace

/-- Four hexadecimal digits. -/
def readHex4? : List Char → Option (Nat × List Char)
  | a :: b :: c :: d :: rest => do
    let a ← hexDigit? a
    let b ← hexDigit? b
    let c ← hexDigit? c
    let d ← hexDigit? d
    some (4096 * a + 256 * b + 16 * c + d, rest)
  | _ => none

/-- The character of a `\u` escape, after the `u`.  A leading surrogate takes the
    trailing one from the escape that must follow it; a lone surrogate is refused. -/
def readUnicode? (cs : List Char) : Option (Char × List Char) := do
  let (high, rest) ← readHex4? cs
  if high < 0xD800 ∨ 0xDFFF < high then some (Char.ofNat high, rest)
  else if 0xDC00 ≤ high then none
  else match rest with
    | '\\' :: 'u' :: more =>
      let (low, rest) ← readHex4? more
      if 0xDC00 ≤ low ∧ low ≤ 0xDFFF then
        some (Char.ofNat (0x10000 + (high - 0xD800) * 0x400 + (low - 0xDC00)), rest)
      else none
    | _ => none

/-- One escape, after the backslash. -/
def readEscape? : List Char → Option (Char × List Char)
  | '"' :: rest => some ('"', rest)
  | '\\' :: rest => some ('\\', rest)
  | '/' :: rest => some ('/', rest)
  | 'b' :: rest => some (Char.ofNat 8, rest)
  | 'f' :: rest => some (Char.ofNat 12, rest)
  | 'n' :: rest => some ('\n', rest)
  | 'r' :: rest => some ('\r', rest)
  | 't' :: rest => some ('\t', rest)
  | 'u' :: rest => readUnicode? rest
  | _ => none

/-- The characters up to the closing quote, with their escapes; `done` holds those
    before, reversed. -/
def takeQuoted? (done : List Char) : List Char → Option (List Char × List Char)
  | [] => none
  | '"' :: rest => some (done.reverse, rest)
  | '\\' :: c :: rest => takeQuoted? (c :: '\\' :: done) rest
  | c :: rest => if c.toNat < 32 then none else takeQuoted? (c :: done) rest

/-- Replaces escapes by what they stand for; `done` holds the characters before,
    reversed. -/
def unescape? : Nat → List Char → List Char → Option String
  | 0, done, _ => some (String.ofList done.reverse)
  | fuel + 1, done, cs =>
    match cs with
    | [] => some (String.ofList done.reverse)
    | '\\' :: rest => do
      let (c, rest) ← readEscape? rest
      unescape? fuel (c :: done) rest
    | c :: rest => unescape? fuel (c :: done) rest

/-- A string, after its opening quote. -/
def readQuoted? (cs : List Char) : Option (String × List Char) := do
  let (raw, rest) ← takeQuoted? [] cs
  let text ← unescape? (raw.length + 1) [] raw
  some (text, rest)

/-- A number that is not whole or does not fit 64 bits; one beyond the range of
    doubles is refused. -/
def finiteNumber? (x : Float) : Option Json :=
  if x.isFinite then some (.float x) else none

/-- A whole number: an `int` if it fits 64 bits and is not the negative zero. -/
def wholeNumber? (negative : Bool) (magnitude : Nat) : Option Json :=
  if negative then
    if magnitude ≠ 0 ∧ magnitude ≤ Nat.pow 2 63 then some (.int (-(magnitude : Int)))
    else finiteNumber? (-(nearestFloat magnitude 0))
  else if magnitude < Nat.pow 2 64 then some (.int magnitude)
  else finiteNumber? (nearestFloat magnitude 0)

/-- The digits before the point: a single zero, or no leading zero. -/
def readWhole? (cs : List Char) : Option (List Char × List Char) :=
  match takeDigits cs with
  | ([], _) => none
  | ('0' :: _ :: _, _) => none
  | (digits, rest) => some (digits, rest)

/-- The digits after the point, if there is one. -/
def readFraction? : List Char → Option (List Char × List Char)
  | '.' :: rest =>
    match takeDigits rest with
    | ([], _) => none
    | (digits, rest) => some (digits, rest)
  | rest => some ([], rest)

/-- The exponent, if there is one. -/
def readPower? : List Char → Option (Option Int × List Char)
  | c :: rest =>
    if c = 'e' ∨ c = 'E' then
      let (negative, rest) := takeSign rest
      match takeDigits rest with
      | ([], _) => none
      | (digits, rest) =>
        let power : Int := digitsValue digits
        some (some (if negative then -power else power), rest)
    else some (none, c :: rest)
  | [] => some (none, [])

/-- A number. -/
def readNumber? (cs : List Char) : Option (Json × List Char) := do
  let (negative, cs) := match cs with
    | '-' :: rest => (true, rest)
    | rest => (false, rest)
  let (whole, cs) ← readWhole? cs
  let (fraction, cs) ← readFraction? cs
  let (power, cs) ← readPower? cs
  if fraction.isEmpty ∧ power.isNone then
    let v ← wholeNumber? negative (digitsValue whole)
    some (v, cs)
  else
    let magnitude :=
      nearestFloat (digitsValue (whole ++ fraction)) (power.getD 0 - fraction.length)
    let v ← finiteNumber? (if negative then -magnitude else magnitude)
    some (v, cs)

/-- Consumes an expected word. -/
def readWord? (word : List Char) (v : Json) (cs : List Char) : Option (Json × List Char) :=
  if word.isPrefixOf cs then some (v, cs.drop word.length) else none

mutual

/-- One value, after white space. -/
def readValue? : Nat → Nat → List Char → Option (Json × List Char)
  | 0, _, _ => none
  | fuel + 1, room, cs =>
    match skipSpace cs with
    | '[' :: rest =>
      match room with
      | 0 => none
      | room + 1 =>
        match skipSpace rest with
        | ']' :: rest => some (.array [], rest)
        | rest => do
          let (items, rest) ← readItems? fuel room rest
          some (.array items, rest)
    | '\x7b' :: rest =>
      match room with
      | 0 => none
      | room + 1 =>
        match skipSpace rest with
        | '\x7d' :: rest => some (.object [], rest)
        | rest => do
          let (entries, rest) ← readEntries? fuel room rest
          some (.object entries, rest)
    | '"' :: rest => do
      let (s, rest) ← readQuoted? rest
      some (.string s, rest)
    | 't' :: rest => readWord? ['r', 'u', 'e'] (.bool true) rest
    | 'f' :: rest => readWord? ['a', 'l', 's', 'e'] (.bool false) rest
    | 'n' :: rest => readWord? ['u', 'l', 'l'] .null rest
    | rest => readNumber? rest

/-- The items of an array that is not empty, and its closing bracket. -/
def readItems? : Nat → Nat → List Char → Option (List Json × List Char)
  | 0, _, _ => none
  | fuel + 1, room, cs => do
    let (v, rest) ← readValue? fuel room cs
    match skipSpace rest with
    | ',' :: rest =>
      let (items, rest) ← readItems? fuel room rest
      some (v :: items, rest)
    | ']' :: rest => some ([v], rest)
    | _ => none

/-- The entries of an object that is not empty, and its closing brace. -/
def readEntries? : Nat → Nat → List Char → Option (List (String × Json) × List Char)
  | 0, _, _ => none
  | fuel + 1, room, cs =>
    match skipSpace cs with
    | '"' :: rest => do
      let (key, rest) ← readQuoted? rest
      match skipSpace rest with
      | ':' :: rest =>
        let (v, rest) ← readValue? fuel room rest
        match skipSpace rest with
        | ',' :: rest =>
          let (entries, rest) ← readEntries? fuel room rest
          some ((key, v) :: entries, rest)
        | '\x7d' :: rest => some ([(key, v)], rest)
        | _ => none
      | _ => none
    | _ => none

end

/-- **One value at the front of a text**, and the characters after it.  `nesting`
    bounds the depth of arrays and objects, `none` being no bound. -/
def readPrefix? (nesting : Option Nat) (text : String) : Option (Json × List Char) :=
  let cs := text.toList
  readValue? (2 * cs.length + 2) (nesting.getD (cs.length + 1)) cs

/-- Whether only white space is left. -/
def onlySpace (cs : List Char) : Bool :=
  cs.all isSpace

/-- **A text that is exactly one value**, with repeated keys merged. -/
def read? (text : String) : Option Json :=
  match readPrefix? none text with
  | some (v, rest) => if onlySpace rest then some v.mergeKeys else none
  | none => none

end BlockChart.Json
