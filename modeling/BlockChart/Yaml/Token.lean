import BlockChart.Yaml.Basic

namespace BlockChart.Yaml

/-!
# Tokens of a YAML text

A token is a scalar, an indicator, or a mark that stands for indentation: a block
collection starts at the column of its first entry and ends where the text goes
back to the left of it.

A cursor is a place in the text.  The readers of scalars return what they read and
the cursor after it:

* `quoted?` reads a scalar in quotes, after the opening one;
* `plain?` reads a scalar without quotes, which may run over several lines.

Inside a scalar a single line break is a space, and of several the first is
dropped.
-/

/-- A piece of a YAML text. -/
inductive Token where
  | documentStart
  | documentEnd
  | sequenceStart
  | mappingStart
  /-- The end of a block sequence or a block mapping. -/
  | blockEnd
  | flowSequenceStart
  | flowSequenceEnd
  | flowMappingStart
  | flowMappingEnd
  /-- A dash. -/
  | blockEntry
  /-- A comma. -/
  | flowEntry
  | key
  | value
  | plain (text : String)
  | quoted (text : String)
  deriving DecidableEq, Repr

/-- A place in the text: what follows it, its line and column, and the number of
    characters before it. -/
structure Cursor where
  rest : List Char
  line : Nat
  column : Nat
  index : Nat
  deriving Repr

/-- Spaces and tabs. -/
def isGap (c : Char) : Bool :=
  c == ' ' || c == '\t'

/-- Line breaks. -/
def isBreak (c : Char) : Bool :=
  c == '\n' || c == '\r' || c == '\u0085' || c == '\u2028' || c == '\u2029'

/-- The characters that a text may hold. -/
def isAllowed (c : Char) : Bool :=
  c == '\t' || c == '\n' || c == '\r' || c == '\u0085' ||
    (' ' ≤ c && c ≤ '~') || ('\u00a0' ≤ c && c ≤ '\ufffd') || '\uffff' < c

/-- Whether nothing, white space or a line break comes first. -/
def endsWord : List Char → Bool
  | [] => true
  | c :: _ => isGap c || isBreak c

namespace Cursor

/-- The cursor at the start of a text. -/
def start (cs : List Char) : Cursor := ⟨cs, 0, 0, 0⟩

/-- Moves over some characters of a line. -/
def skip (n : Nat) (c : Cursor) : Cursor :=
  ⟨c.rest.drop n, c.line, c.column + n, c.index + n⟩

/-- Moves over a line break. -/
def nextLine (c : Cursor) : Cursor :=
  match c.rest with
  | '\r' :: '\n' :: rest => ⟨rest, c.line + 1, 0, c.index + 2⟩
  | _ :: rest => ⟨rest, c.line + 1, 0, c.index + 1⟩
  | [] => c

/-- Whether the line starts with three of a character, as a word. -/
def atMarker (mark : Char) (c : Cursor) : Bool :=
  c.column == 0 && [mark, mark, mark].isPrefixOf c.rest && endsWord (c.rest.drop 3)

/-- Whether a mark between documents stands here. -/
def betweenDocuments (c : Cursor) : Bool :=
  c.atMarker '-' || c.atMarker '.'

end Cursor

/-! ### White space inside scalars -/

/-- A line break as it is kept in a scalar. -/
def keptBreak (c : Char) : Char :=
  if c == '\u2028' || c == '\u2029' then c else '\n'

/-- White space inside a scalar: the blanks before its first line break, the line
    breaks, and the cursor after it. -/
structure Gap where
  blanks : List Char
  breaks : List Char
  after : Cursor

/-- Reads white space.  `broken` says that a line break came before; after one, a tab
    to the left of column `indent` is refused. -/
def takeGap? (indent : Int) (broken : Bool) : Nat → List Char → List Char → Cursor → Option Gap
  | 0, blanks, breaks, cursor => some ⟨blanks.reverse, breaks.reverse, cursor⟩
  | fuel + 1, blanks, breaks, cursor =>
    match cursor.rest with
    | [] => some ⟨blanks.reverse, breaks.reverse, cursor⟩
    | c :: _ =>
      if isGap c then
        if broken || !breaks.isEmpty then
          if c == '\t' && cursor.column < indent then none
          else takeGap? indent broken fuel blanks breaks (cursor.skip 1)
        else takeGap? indent broken fuel (c :: blanks) breaks (cursor.skip 1)
      else if isBreak c then
        takeGap? indent broken fuel blanks (keptBreak c :: breaks) cursor.nextLine
      else some ⟨blanks.reverse, breaks.reverse, cursor⟩

/-- What white space inside a scalar stands for. -/
def Gap.folded (gap : Gap) : List Char :=
  match gap.breaks with
  | [] => gap.blanks
  | ['\n'] => [' ']
  | '\n' :: more => more
  | breaks => breaks

/-! ### Scalars in quotes -/

/-- One escape, after the backslash, and the number of its characters. -/
def readEscape? : List Char → Option (Char × Nat)
  | '0' :: _ => some (Char.ofNat 0, 1)
  | 'a' :: _ => some (Char.ofNat 7, 1)
  | 'b' :: _ => some (Char.ofNat 8, 1)
  | 't' :: _ => some ('\t', 1)
  | '\t' :: _ => some ('\t', 1)
  | 'n' :: _ => some ('\n', 1)
  | 'v' :: _ => some (Char.ofNat 11, 1)
  | 'f' :: _ => some (Char.ofNat 12, 1)
  | 'r' :: _ => some ('\r', 1)
  | 'e' :: _ => some (Char.ofNat 27, 1)
  | ' ' :: _ => some (' ', 1)
  | '"' :: _ => some ('"', 1)
  | '/' :: _ => some ('/', 1)
  | '\\' :: _ => some ('\\', 1)
  | 'N' :: _ => some ('\u0085', 1)
  | '_' :: _ => some ('\u00a0', 1)
  | 'L' :: _ => some ('\u2028', 1)
  | 'P' :: _ => some ('\u2029', 1)
  | 'x' :: digits => if digits.length < 2 then none else (charOfHex? (digits.take 2)).map (·, 3)
  | 'u' :: digits => if digits.length < 4 then none else (charOfHex? (digits.take 4)).map (·, 5)
  | 'U' :: digits => if digits.length < 8 then none else (charOfHex? (digits.take 8)).map (·, 9)
  | _ => none

/-- **A scalar in quotes**, after the opening one.  In single quotes a quote is
    written twice; in double quotes a backslash starts an escape, also of a line
    break.  `done` holds the characters read so far, reversed. -/
def quoted? (quote : Char) : Nat → List Char → Cursor → Option (String × Cursor)
  | 0, _, _ => none
  | fuel + 1, done, cursor =>
    if cursor.betweenDocuments then none
    else match cursor.rest with
    | [] => none
    | c :: rest =>
      if c == quote then
        if quote == '\x27' && rest.head? == some quote then
          quoted? quote fuel (c :: done) (cursor.skip 2)
        else some (String.ofList done.reverse, cursor.skip 1)
      else if isGap c || isBreak c then do
        let gap ← takeGap? 0 false fuel [] [] cursor
        quoted? quote fuel (gap.folded.reverse ++ done) gap.after
      else if c == '\\' && quote == '"' then
        if rest.head?.any isBreak then do
          let after := (cursor.skip 1).nextLine
          let gap ← takeGap? 0 true fuel [] [] after
          quoted? quote fuel (gap.breaks.reverse ++ done) gap.after
        else do
          let (e, n) ← readEscape? rest
          quoted? quote fuel (e :: done) (cursor.skip (n + 1))
      else quoted? quote fuel (c :: done) (cursor.skip 1)

/-! ### Scalars without quotes -/

/-- The characters that end a plain scalar inside brackets. -/
def isFlowIndicator (c : Char) : Bool :=
  c == ',' || c == '[' || c == ']' || c == '\x7b' || c == '\x7d'

/-- The characters of a plain scalar up to white space or its end.  `flow` says that
    it stands inside brackets, where a colon right before an indicator is refused. -/
def plainWord? (flow : Bool) : List Char → Option (List Char)
  | [] => some []
  | c :: rest =>
    if isGap c || isBreak c then some []
    else if flow && c == ':' && rest.head?.any (fun d => d == '?' || isFlowIndicator d) then none
    else if c == ':' && endsWord rest then some []
    else if flow && isFlowIndicator c then some []
    else (plainWord? flow rest).map (c :: ·)

/-- A plain scalar as it was read: its text, whether a line break came after it, and
    the cursor after the white space that follows it. -/
structure PlainScalar where
  text : String
  broken : Bool
  after : Cursor

/-- **A plain scalar.**  It goes on to the next line if that is indented to column
    `indent` at least.  `done` holds the characters read so far, reversed, and `gap`
    the white space after them. -/
def plain? (flow : Bool) (indent : Int) : Nat → List Char → Gap → Option PlainScalar
  | 0, _, _ => none
  | fuel + 1, done, gap => do
    let finished : PlainScalar := ⟨String.ofList done.reverse, !gap.breaks.isEmpty, gap.after⟩
    let cursor := gap.after
    if cursor.betweenDocuments || cursor.rest.head? == some '#' then some finished
    else
      let word ← plainWord? flow cursor.rest
      if word.isEmpty then some finished
      else
        let after := cursor.skip word.length
        let done := word.reverse ++ gap.folded.reverse ++ done
        if after.rest.head?.any (fun c => isGap c || isBreak c) then
          let gap ← takeGap? indent false fuel [] [] after
          if !flow && gap.after.column < indent then
            some ⟨String.ofList done.reverse, !gap.breaks.isEmpty, gap.after⟩
          else plain? flow indent fuel done gap
        else some ⟨String.ofList done.reverse, false, after⟩

end BlockChart.Yaml
