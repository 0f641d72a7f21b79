import BlockChart.Toml.Scalar

namespace BlockChart.Toml

/-!
# Reading TOML text

A document is a list of lines: headers, and keys with values.  Values in brackets
may run over several lines.  `Toml.read?` reads a text; it refuses a key that is
given twice, and whatever else `Toml.insert?` and the headers refuse.
-/

/-! ### Keys -/

/-- The characters of a key without quotes. -/
def isKeyChar (c : Char) : Bool :=
  c.isAlphanum || c == '_' || c == '-'

/-- One part of a key. -/
def readPart? (cs : List Char) : Option (String × List Char) :=
  match cs with
  | [] => none
  | c :: rest =>
    if c == '"' || c == '\x27' then readLine? c (rest.length + 1) [] rest
    else
      let name := cs.takeWhile isKeyChar
      if name.isEmpty then none else some (String.ofList name, cs.drop name.length)

/-- The parts of a key, with blanks and a dot between them. -/
def readKey? : Nat → List Char → Option (List String × List Char)
  | 0, _ => none
  | fuel + 1, cs => do
    let (part, rest) ← readPart? (skipBlanks cs)
    match skipBlanks rest with
    | '.' :: rest =>
      let (parts, rest) ← readKey? fuel rest
      some (part :: parts, rest)
    | rest => some ([part], rest)

/-- The number of levels of tables and lists that a document may have. -/
def maxNesting : Nat := 80

/-- **A key**, which has not more parts than there may be levels. -/
def key? (cs : List Char) : Option (List String × List Char) := do
  let (parts, rest) ← readKey? (cs.length + 1) cs
  if parts.length ≤ maxNesting then some (parts, rest) else none

/-! ### Values -/

/-- Drops a comment at the front, up to a character that no comment may hold. -/
def skipComment (cs : List Char) : List Char :=
  match cs with
  | '#' :: rest => rest.dropWhile isTextChar
  | _ => cs

/-- Drops blanks, comments and line breaks, which may stand between the items of a
    list. -/
def skipFiller? : Nat → List Char → Option (List Char)
  | 0, cs => some cs
  | fuel + 1, cs =>
    let cs := skipBlanks cs
    match cs with
    | '#' :: _ =>
      match takeBreak? (skipComment cs) with
      | some rest => skipFiller? fuel rest
      | none => none
    | _ =>
      match takeBreak? cs with
      | some rest => skipFiller? fuel rest
      | none => some cs

mutual

/-- One value.  `room` is the number of lists and tables that may still be opened. -/
def readValue? : Nat → Nat → List Char → Option (Toml × List Char)
  | 0, _, _ => none
  | fuel + 1, room, cs =>
    match cs with
    | '[' :: rest =>
      match room with
      | 0 => none
      | room + 1 => do
        let (items, rest) ← readItems? fuel room rest
        some (.array items, rest)
    | '\x7b' :: rest =>
      match room with
      | 0 => none
      | room + 1 =>
        match skipBlanks rest with
        | '\x7d' :: rest => some (.table .inline [], rest)
        | rest => do
          let (entries, rest) ← readEntries? fuel room [] rest
          some (.table .inline entries, rest)
    | '"' :: _ => (readString? cs).map fun (s, rest) => (.string s, rest)
    | '\x27' :: _ => (readString? cs).map fun (s, rest) => (.string s, rest)
    | _ =>
      let (word, rest) := takeWord cs
      (ofWord? word).map (·, rest)

/-- The items of a list, up to its closing bracket.  A comma may follow the last
    item. -/
def readItems? : Nat → Nat → List Char → Option (List Toml × List Char)
  | 0, _, _ => none
  | fuel + 1, room, cs => do
    match ← skipFiller? cs.length cs with
    | ']' :: rest => some ([], rest)
    | cs =>
      let (v, rest) ← readValue? fuel room cs
      match ← skipFiller? rest.length rest with
      | ',' :: rest =>
        let (items, rest) ← readItems? fuel room rest
        some (v :: items, rest)
      | ']' :: rest => some ([v], rest)
      | _ => none

/-- The entries of a table in braces, up to the closing one; `done` holds those
    before. -/
def readEntries? : Nat → Nat → Entries → List Char → Option (Entries × List Char)
  | 0, _, _, _ => none
  | fuel + 1, room, done, cs => do
    let (path, rest) ← key? cs
    let (v, rest) ← readValue? fuel room (skipBlanks (← expect? '=' rest))
    let (_, entries) ← insert? path v .header done
    match skipBlanks rest with
    | ',' :: rest => readEntries? fuel room entries rest
    | '\x7d' :: rest => some (entries, rest)
    | _ => none

end

/-! ### Lines -/

/-- Moves behind the end of a line on which only a comment may be left. -/
def endLine? (cs : List Char) : Option (List Char) :=
  let rest := skipComment (skipBlanks cs)
  if rest.isEmpty then some [] else takeBreak? rest

/-- What has been read: the document, and the path of the last header. -/
structure Progress where
  header : List String
  document : Entries

/-- One line, of which the blanks at the front are dropped. -/
def readLineOf? (progress : Progress) (cs : List Char) : Option (Progress × List Char) :=
  match cs with
  | '[' :: '[' :: rest => do
    let (path, rest) ← key? rest
    let rest ← endLine? (← expect? ']' (← expect? ']' rest))
    some (⟨path, ← openItem? path progress.document⟩, rest)
  | '[' :: rest => do
    let (path, rest) ← key? rest
    let rest ← endLine? (← expect? ']' rest)
    some (⟨path, ← openTable? path progress.document⟩, rest)
  | c :: _ =>
    if c == '#' || c == '\n' || c == '\r' then (endLine? cs).map (progress, ·)
    else do
      let (path, rest) ← key? cs
      let rest := skipBlanks (← expect? '=' rest)
      let (v, rest) ← readValue? (2 * rest.length + 2) (maxNesting - 1) rest
      let document ← insertUnder? progress.header path v progress.document
      some (⟨progress.header, document⟩, ← endLine? rest)
  | [] => some (progress, [])

/-- All lines. -/
def readLinesOf? : Nat → Progress → List Char → Option Progress
  | 0, _, _ => none
  | fuel + 1, progress, cs =>
    match skipBlanks cs with
    | [] => some progress
    | cs => do
      let (progress, rest) ← readLineOf? progress cs
      readLinesOf? fuel progress rest

/-- **Reads a document.**  A mark of byte order may come first. -/
def read? (text : String) : Option Toml :=
  let cs := match text.toList with
    | '\ufeff' :: rest => rest
    | cs => cs
  (readLinesOf? (cs.length + 1) ⟨[], []⟩ cs).map fun progress => .table .header progress.document

end BlockChart.Toml
