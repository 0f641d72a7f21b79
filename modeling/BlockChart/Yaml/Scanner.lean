import BlockChart.Yaml.Token

namespace BlockChart.Yaml

/-!
# From a YAML text to its tokens

The scanner goes through the text once, from token to token.  Whether a scalar is a
key is known only at the colon behind it.  So the scanner keeps, for every level of
brackets, the place of the last token that may turn out to be a key; at the colon it
inserts the mark of the key, and that of a new block mapping, in front of it.

* `Scanner.step?` reads one token;
* `tokens?` reads a whole text.
-/

/-- A token that is a key if a colon follows it on its line. -/
structure Candidate where
  /-- The number of tokens before it. -/
  position : Nat
  /-- Whether it stands where only a key can stand. -/
  required : Bool
  line : Nat
  column : Nat
  index : Nat
  deriving Repr

/-- The state between two tokens. -/
structure Scanner where
  cursor : Cursor
  /-- The columns of the open block collections, innermost first. -/
  indents : List Int
  /-- The candidate of every level of brackets, innermost first; the last is that of
      the text outside all brackets. -/
  candidates : List (Option Candidate)
  /-- Whether a key, or an entry of a block, may start here. -/
  keyAllowed : Bool
  /-- The tokens so far, the last one first. -/
  tokens : List Token
  /-- The number of tokens so far. -/
  count : Nat
  deriving Repr

namespace Scanner

/-- The scanner at the start of a text. -/
def start (cs : List Char) : Scanner :=
  ⟨.start cs, [], [none], true, [], 0⟩

/-- Whether the cursor stands inside brackets. -/
def inFlow (s : Scanner) : Bool :=
  1 < s.candidates.length

/-- The column of the innermost block collection. -/
def indent (s : Scanner) : Int :=
  s.indents.headD (-1)

/-- Adds a token. -/
def push (token : Token) (s : Scanner) : Scanner :=
  { s with tokens := token :: s.tokens, count := s.count + 1 }

/-- Inserts a token behind the first `position` ones. -/
def insert (position : Nat) (token : Token) (s : Scanner) : Scanner :=
  let behind := s.count - position
  { s with
    tokens := s.tokens.take behind ++ token :: s.tokens.drop behind
    count := s.count + 1 }

/-- Moves over some characters of a line. -/
def skip (n : Nat) (s : Scanner) : Scanner :=
  { s with cursor := s.cursor.skip n }

/-- Sets whether a key may start here. -/
def allow (keyAllowed : Bool) (s : Scanner) : Scanner :=
  { s with keyAllowed := keyAllowed }

/-! ### Candidates -/

/-- Gives up the candidate of the innermost brackets, which must not be required. -/
def dropCandidate? (s : Scanner) : Option Scanner :=
  match s.candidates with
  | some k :: outer => if k.required then none else some { s with candidates := none :: outer }
  | _ => some s

/-- Makes the token that starts here the candidate, if a key may stand here. -/
def noteCandidate? (s : Scanner) : Option Scanner :=
  if s.keyAllowed then do
    let s ← s.dropCandidate?
    let k : Candidate :=
      ⟨s.count, !s.inFlow && s.indent == s.cursor.column,
        s.cursor.line, s.cursor.column, s.cursor.index⟩
    some { s with candidates := some k :: s.candidates.tail }
  else some s

/-- The number of characters that a key may have. -/
def maxKeyLength : Nat := 1024

/-- Whether a candidate stands on the line of the cursor and not too far back. -/
def isFresh (s : Scanner) (k : Candidate) : Bool :=
  k.line == s.cursor.line && s.cursor.index ≤ k.index + maxKeyLength

/-! ### Indentation -/

/-- Opens a block collection at a column, if that is to the right of the innermost
    one; its mark goes behind the first `position` tokens. -/
def openBlock (column : Nat) (position : Nat) (mark : Token) (s : Scanner) : Scanner :=
  if !s.inFlow && s.indent < column then
    { s.insert position mark with indents := (column : Int) :: s.indents }
  else s

/-- Closes the block collections to the right of a column. -/
def closeBlocks (column : Int) (s : Scanner) : Scanner :=
  if s.inFlow then s
  else
    let closed := s.indents.takeWhile (column < ·)
    { s with
      indents := s.indents.drop closed.length
      tokens := List.replicate closed.length Token.blockEnd ++ s.tokens
      count := s.count + closed.length }

/-! ### White space between tokens -/

/-- Moves to the next token, over white space and comments.  A tab may not stand where
    indentation counts. -/
def toToken : Nat → Scanner → Scanner
  | 0, s => s
  | fuel + 1, s =>
    match s.cursor.rest with
    | [] => s
    | c :: _ =>
      if c == ' ' || (c == '\t' && (s.inFlow || !s.keyAllowed)) then toToken fuel (s.skip 1)
      else if c == '#' then
        toToken fuel (s.skip (s.cursor.rest.takeWhile (!isBreak ·)).length)
      else if isBreak c then
        toToken fuel { s with cursor := s.cursor.nextLine, keyAllowed := s.keyAllowed || !s.inFlow }
      else s

/-! ### Tokens -/

/-- A mark between documents. -/
def documentMark? (token : Token) (s : Scanner) : Option Scanner := do
  let s ← (s.closeBlocks (-1)).dropCandidate?
  some (((s.allow false).push token).skip 3)

/-- An opening bracket. -/
def flowStart? (token : Token) (s : Scanner) : Option Scanner := do
  let s ← s.noteCandidate?
  some (({ s with candidates := none :: s.candidates, keyAllowed := true }.push token).skip 1)

/-- A closing bracket. -/
def flowEnd? (token : Token) (s : Scanner) : Option Scanner := do
  let s ← s.dropCandidate?
  let candidates := if s.inFlow then s.candidates.tail else s.candidates
  some (({ s with candidates := candidates, keyAllowed := false }.push token).skip 1)

/-- A comma. -/
def comma? (s : Scanner) : Option Scanner := do
  let s ← s.dropCandidate?
  some (((s.allow true).push .flowEntry).skip 1)

/-- A dash. -/
def dash? (s : Scanner) : Option Scanner := do
  if !s.inFlow && !s.keyAllowed then none
  else
    let s ← (s.openBlock s.cursor.column s.count .sequenceStart).dropCandidate?
    some (((s.allow true).push .blockEntry).skip 1)

/-- A question mark that announces a key. -/
def key? (s : Scanner) : Option Scanner := do
  if !s.inFlow && !s.keyAllowed then none
  else
    let s ← (s.openBlock s.cursor.column s.count .mappingStart).dropCandidate?
    some (((s.allow !s.inFlow).push .key).skip 1)

/-- A colon behind a key that was announced, or behind none. -/
def bareValue? (s : Scanner) : Option Scanner :=
  if !s.inFlow && !s.keyAllowed then none
  else
    let s := s.openBlock s.cursor.column s.count .mappingStart
    some (((s.allow !s.inFlow).push .value).skip 1)

/-- A colon. -/
def value? (s : Scanner) : Option Scanner :=
  match s.candidates with
  | some k :: outer =>
    let rest := { s with candidates := none :: outer }
    if s.isFresh k then
      let s := (rest.insert k.position .key).openBlock k.column k.position .mappingStart
      some (((s.allow false).push .value).skip 1)
    else if k.required then none
    else rest.bareValue?
  | _ => s.bareValue?

/-- A scalar in quotes. -/
def quotedScalar? (fuel : Nat) (quote : Char) (s : Scanner) : Option Scanner := do
  let s ← s.noteCandidate?
  let (text, after) ← quoted? quote fuel [] (s.cursor.skip 1)
  some ({ s with cursor := after, keyAllowed := false }.push (.quoted text))

/-- A scalar without quotes. -/
def plainScalar? (fuel : Nat) (s : Scanner) : Option Scanner := do
  let s ← s.noteCandidate?
  let scalar ← plain? s.inFlow (s.indent + 1) fuel [] ⟨[], [], s.cursor⟩
  some ({ s with cursor := scalar.after, keyAllowed := scalar.broken }.push (.plain scalar.text))

/-- The characters that no plain scalar starts with, a dash, a question mark and a
    colon apart. -/
def isIndicator (c : Char) : Bool :=
  [',', '[', ']', '\x7b', '\x7d', '#', '&', '*', '!', '|', '>', '\x27', '"', '%', '@',
    '\x60'].contains c

/-- Whether a plain scalar starts with a character in front of the given ones. -/
def startsPlain (inFlow : Bool) (c : Char) (rest : List Char) : Bool :=
  if c == '-' then !rest.head?.any isGap
  else if c == '?' || c == ':' then !inFlow && !endsWord rest
  else !isGap c && !isBreak c && !isIndicator c

/-- The token that starts with a character in front of the given ones. -/
def token? (fuel : Nat) (c : Char) (rest : List Char) (s : Scanner) : Option Scanner :=
  if s.cursor.atMarker '-' then s.documentMark? .documentStart
  else if s.cursor.atMarker '.' then s.documentMark? .documentEnd
  else if c == '[' then s.flowStart? .flowSequenceStart
  else if c == '\x7b' then s.flowStart? .flowMappingStart
  else if c == ']' then s.flowEnd? .flowSequenceEnd
  else if c == '\x7d' then s.flowEnd? .flowMappingEnd
  else if c == ',' then s.comma?
  else if c == '-' && endsWord rest then s.dash?
  else if c == '?' && (s.inFlow || endsWord rest) then s.key?
  else if c == ':' && (s.inFlow || endsWord rest) then s.value?
  else if c == '\x27' || c == '"' then s.quotedScalar? fuel c
  else if startsPlain s.inFlow c rest then s.plainScalar? fuel
  else none

/-- **One token**, or the end of the text: the state after it, and whether it was the
    end. -/
def step? (fuel : Nat) (s : Scanner) : Option (Scanner × Bool) := do
  let s := s.toToken fuel
  let s := s.closeBlocks s.cursor.column
  match s.cursor.rest with
  | [] =>
    let s ← (s.closeBlocks (-1)).dropCandidate?
    some (s, true)
  | c :: rest =>
    let s ← s.token? fuel c rest
    some (s, false)

/-- All tokens from here on.  Every step reads a character at least, so that one bound
    serves for the steps and for the characters of each. -/
def run? : Nat → Scanner → Option (List Token)
  | 0, _ => none
  | fuel + 1, s => do
    let (s, ended) ← s.step? (fuel + 1)
    if ended then some s.tokens.reverse else run? fuel s

end Scanner

/-- **The tokens of a text.**  A mark of byte order may come first. -/
def tokens? (text : String) : Option (List Token) :=
  let cs := match text.toList with
    | '\ufeff' :: rest => rest
    | cs => cs
  if cs.all isAllowed then (Scanner.start cs).run? (cs.length + 2) else none

end BlockChart.Yaml
