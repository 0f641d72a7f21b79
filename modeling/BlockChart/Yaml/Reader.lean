import BlockChart.Yaml.Scanner

namespace BlockChart.Yaml

/-!
# From tokens to a YAML value

A recursive descent over the tokens.  Every function takes the number of steps that
it may take, which the number of tokens bounds, and the number of levels of
collections that it may still open.  A value that is left out is null.
-/

/-- Whether a token, or the end, comes after a place where a value may be left out. -/
def stops (ends : List Token) : List Token → Bool
  | [] => true
  | token :: _ => ends.contains token

mutual

/-- One value.  `block` says that a block collection may start here, `bare` that a
    sequence may start that is not indented. -/
def readNode? : Nat → Nat → Bool → Bool → List Token → Option (Yaml × List Token)
  | 0, _, _, _, _ => none
  | fuel + 1, room, block, bare, tokens =>
    match tokens with
    | .plain text :: rest => (ofPlain? text).map (·, rest)
    | .quoted text :: rest => some (.string text, rest)
    | token :: rest =>
      match room with
      | 0 => none
      | room + 1 =>
        if token = .blockEntry ∧ bare then do
          let (items, rest) ← readBareItems? fuel room tokens
          some (.sequence items, rest)
        else if token = .flowSequenceStart then do
          let (items, rest) ← readFlowItems? fuel room true rest
          some (.sequence items, rest)
        else if token = .flowMappingStart then do
          let (entries, rest) ← readFlowEntries? fuel room true rest
          some (.mapping entries, rest)
        else if token = .sequenceStart ∧ block then do
          let (items, rest) ← readBlockItems? fuel room rest
          some (.sequence items, rest)
        else if token = .mappingStart ∧ block then do
          let (entries, rest) ← readBlockEntries? fuel room rest
          some (.mapping entries, rest)
        else none
    | [] => none

/-- A value that may be left out in front of the given tokens. -/
def readOptional? :
    Nat → Nat → Bool → Bool → List Token → List Token → Option (Yaml × List Token)
  | 0, _, _, _, _, _ => none
  | fuel + 1, room, block, bare, ends, tokens =>
    if stops ends tokens then some (.null, tokens) else readNode? fuel room block bare tokens

/-- The value behind a colon, if there is one. -/
def readValueOf? :
    Nat → Nat → Bool → Bool → List Token → List Token → Option (Yaml × List Token)
  | 0, _, _, _, _, _ => none
  | fuel + 1, room, block, bare, ends, tokens =>
    match tokens with
    | .value :: rest => readOptional? fuel room block bare ends rest
    | _ => some (.null, tokens)

/-- The items of a block sequence, up to its end. -/
def readBlockItems? : Nat → Nat → List Token → Option (List Yaml × List Token)
  | 0, _, _ => none
  | fuel + 1, room, tokens =>
    match tokens with
    | .blockEntry :: rest => do
      let (v, rest) ← readOptional? fuel room true false [.blockEntry, .blockEnd] rest
      let (items, rest) ← readBlockItems? fuel room rest
      some (v :: items, rest)
    | .blockEnd :: rest => some ([], rest)
    | _ => none

/-- The items of a sequence that is not indented below the key of its mapping. -/
def readBareItems? : Nat → Nat → List Token → Option (List Yaml × List Token)
  | 0, _, _ => none
  | fuel + 1, room, tokens =>
    match tokens with
    | .blockEntry :: rest => do
      let (v, rest) ← readOptional? fuel room true false [.blockEntry, .key, .value, .blockEnd] rest
      let (items, rest) ← readBareItems? fuel room rest
      some (v :: items, rest)
    | _ => some ([], tokens)

/-- The entries of a block mapping, up to its end. -/
def readBlockEntries? : Nat → Nat → List Token → Option (List (Yaml × Yaml) × List Token)
  | 0, _, _ => none
  | fuel + 1, room, tokens =>
    match tokens with
    | .key :: rest => do
      let (k, rest) ← readOptional? fuel room true true [.key, .value, .blockEnd] rest
      let (v, rest) ← readValueOf? fuel room true true [.key, .value, .blockEnd] rest
      let (entries, rest) ← readBlockEntries? fuel room rest
      some ((k, v) :: entries, rest)
    | .blockEnd :: rest => some ([], rest)
    | _ => none

/-- The items of a sequence in brackets, up to the closing one.  An item may be a
    single entry of a mapping.  A comma may follow the last item. -/
def readFlowItems? : Nat → Nat → Bool → List Token → Option (List Yaml × List Token)
  | 0, _, _, _ => none
  | fuel + 1, room, first, tokens =>
    match tokens with
    | .flowSequenceEnd :: rest => some ([], rest)
    | _ => do
      let rest ← if first then some tokens else match tokens with
        | .flowEntry :: rest => some rest
        | _ => none
      match rest with
      | .flowSequenceEnd :: rest => some ([], rest)
      | .key :: rest =>
        match room with
        | 0 => none
        | inner + 1 =>
          let ends := [.value, .flowEntry, .flowSequenceEnd]
          let (k, rest) ← readOptional? fuel inner false false ends rest
          let (v, rest) ← readValueOf? fuel inner false false [.flowEntry, .flowSequenceEnd] rest
          let (items, rest) ← readFlowItems? fuel room false rest
          some (.mapping [(k, v)] :: items, rest)
      | _ =>
        let (v, rest) ← readNode? fuel room false false rest
        let (items, rest) ← readFlowItems? fuel room false rest
        some (v :: items, rest)

/-- The entries of a mapping in brackets, up to the closing one.  A key may stand
    without a value.  A comma may follow the last entry. -/
def readFlowEntries? :
    Nat → Nat → Bool → List Token → Option (List (Yaml × Yaml) × List Token)
  | 0, _, _, _ => none
  | fuel + 1, room, first, tokens =>
    match tokens with
    | .flowMappingEnd :: rest => some ([], rest)
    | _ => do
      let rest ← if first then some tokens else match tokens with
        | .flowEntry :: rest => some rest
        | _ => none
      match rest with
      | .flowMappingEnd :: rest => some ([], rest)
      | .key :: rest =>
        let ends := [.value, .flowEntry, .flowMappingEnd]
        let (k, rest) ← readOptional? fuel room false false ends rest
        let (v, rest) ← readValueOf? fuel room false false [.flowEntry, .flowMappingEnd] rest
        let (entries, rest) ← readFlowEntries? fuel room false rest
        some ((k, v) :: entries, rest)
      | _ =>
        let (k, rest) ← readNode? fuel room false false rest
        let (entries, rest) ← readFlowEntries? fuel room false rest
        some ((k, .null) :: entries, rest)

end

/-- The depth of sequences and mappings that a document may have. -/
def maxNesting : Nat := 128

/-- The tokens after the marks that end a document. -/
def afterDocumentEnds (tokens : List Token) : List Token :=
  tokens.dropWhile (· = .documentEnd)

/-- **Reads a text that is exactly one document.** -/
def read? (text : String) : Option Yaml := do
  let tokens := afterDocumentEnds (← tokens? text)
  let fuel := 4 * tokens.length + 8
  let (v, rest) ← match tokens with
    | [] => none
    | .documentStart :: rest =>
      readOptional? fuel maxNesting true false [.documentStart, .documentEnd] rest
    | _ => readNode? fuel maxNesting true false tokens
  if (afterDocumentEnds rest).isEmpty then some v else none

end BlockChart.Yaml
