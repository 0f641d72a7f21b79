import BlockChart.Number.Radix
import BlockChart.Number.Reader
import BlockChart.Toml.Basic

namespace BlockChart.Toml

/-!
# TOML scalars

Strings in four forms, truth values, whole numbers in four bases, other numbers, and
dates and times.  Every reader of strings takes the characters after the opening
quotes and returns the text and the characters after the closing ones; a scalar
without quotes is read off its whole word.
-/

/-! ### Strings -/

/-- The characters, quotes and backslashes apart, that a line of text may hold. -/
def isTextChar (c : Char) : Bool :=
  c == '\t' || (' ' ≤ c && c ≠ '\x7f')

/-- One escape, after the backslash. -/
def readEscape? : List Char → Option (Char × List Char)
  | 'b' :: rest => some (Char.ofNat 8, rest)
  | 't' :: rest => some ('\t', rest)
  | 'n' :: rest => some ('\n', rest)
  | 'f' :: rest => some (Char.ofNat 12, rest)
  | 'r' :: rest => some ('\r', rest)
  | '"' :: rest => some ('"', rest)
  | '\\' :: rest => some ('\\', rest)
  | 'u' :: rest =>
    if rest.length < 4 then none else (charOfHex? (rest.take 4)).map (·, rest.drop 4)
  | 'U' :: rest =>
    if rest.length < 8 then none else (charOfHex? (rest.take 8)).map (·, rest.drop 8)
  | _ => none

/-- The line break at the front, if there is one. -/
def takeBreak? : List Char → Option (List Char)
  | '\n' :: rest => some rest
  | '\r' :: '\n' :: rest => some rest
  | _ => none

/-- Drops spaces and tabs at the front. -/
def skipBlanks (cs : List Char) : List Char :=
  cs.dropWhile fun c => c == ' ' || c == '\t'

/-- A string on one line.  With double quotes a backslash starts an escape. -/
def readLine? (quote : Char) : Nat → List Char → List Char → Option (String × List Char)
  | 0, _, _ => none
  | fuel + 1, done, cs =>
    match cs with
    | [] => none
    | c :: rest =>
      if c == quote then some (String.ofList done.reverse, rest)
      else if c == '\\' && quote == '"' then do
        let (e, rest) ← readEscape? rest
        readLine? quote fuel (e :: done) rest
      else if isTextChar c then readLine? quote fuel (c :: done) rest
      else none

/-- Drops all white space and line breaks after a backslash that ends a line. -/
def skipLines : Nat → List Char → List Char
  | 0, cs => cs
  | fuel + 1, cs =>
    match takeBreak? (skipBlanks cs) with
    | some rest => skipLines fuel rest
    | none => skipBlanks cs

/-- A string over several lines, ended by three quotes; one or two more before these
    belong to it. -/
def readLines? (quote : Char) : Nat → List Char → List Char → Option (String × List Char)
  | 0, _, _ => none
  | fuel + 1, done, cs =>
    match cs with
    | [] => none
    | c :: rest =>
      if c == quote then
        let quotes := (cs.take 5).takeWhile (· == quote)
        if quotes.length < 3 then readLines? quote fuel (c :: done) rest
        else
          let text := (quotes.drop 3 ++ done).reverse
          some (String.ofList text, cs.drop quotes.length)
      else if c == '\\' && quote == '"' then
        match takeBreak? (skipBlanks rest) with
        | some after => readLines? quote fuel done (skipLines after.length after)
        | none => do
          let (e, rest) ← readEscape? rest
          readLines? quote fuel (e :: done) rest
      else match takeBreak? cs with
        | some rest => readLines? quote fuel ('\n' :: done) rest
        | none => if isTextChar c then readLines? quote fuel (c :: done) rest else none

/-- **A string**, from its opening quotes on.  A line break right after three opening
    quotes is dropped. -/
def readString? (cs : List Char) : Option (String × List Char) :=
  match cs with
  | q :: rest =>
    if [q, q, q].isPrefixOf cs then
      let body := cs.drop 3
      readLines? q (body.length + 1) [] ((takeBreak? body).getD body)
    else readLine? q (rest.length + 1) [] rest
  | [] => none

/-! ### Numbers -/

/-- Digits with single underscores between them, the underscores dropped. -/
def ungrouped? (isDigit : Char → Bool) : List Char → Option (List Char)
  | [] => none
  | [c] => if isDigit c then some [c] else none
  | c :: '_' :: rest =>
    if isDigit c then (ungrouped? isDigit rest).map (c :: ·) else none
  | c :: rest => if isDigit c then (ungrouped? isDigit rest).map (c :: ·) else none

/-- Whether digits start with a zero that is not the only one. -/
def isPadded : List Char → Bool
  | '0' :: _ :: _ => true
  | _ => false

/-- Decimal digits without leading zeros. -/
def readDecimal? (cs : List Char) : Option (List Char) :=
  if isPadded cs then none else ungrouped? Char.isDigit cs

/-- The whole numbers that can be written. -/
def ofInt? (n : Int) : Option Toml :=
  if -(Nat.pow 2 63 : Int) ≤ n ∧ n < Nat.pow 2 63 then some (.int n) else none

/-- Digits in a base, after its mark. -/
def readBased? (base : Nat) (cs : List Char) : Option Toml := do
  let digits ← ungrouped? (fun c => (digitIn? base c).isSome) cs
  ofInt? (← readDigits? base digits)

/-- A whole number. -/
def readWhole? (word : List Char) : Option Toml :=
  match word with
  | '0' :: 'x' :: digits => readBased? 16 digits
  | '0' :: 'o' :: digits => readBased? 8 digits
  | '0' :: 'b' :: digits => readBased? 2 digits
  | _ => do
    let (negative, digits) := takeSign word
    let n : Int := digitsValue (← readDecimal? digits)
    ofInt? (if negative then -n else n)

/-- The digits of an exponent after its mark, with their sign. -/
def readPower? (cs : List Char) : Option (List Char) :=
  match cs with
  | '+' :: digits => (ungrouped? Char.isDigit digits).map ('+' :: ·)
  | '-' :: digits => (ungrouped? Char.isDigit digits).map ('-' :: ·)
  | digits => ungrouped? Char.isDigit digits

/-- A number with a point or an exponent, its underscores dropped. -/
def spellReal? (cs : List Char) : Option (List Char) := do
  let isMark (c : Char) : Bool := c == 'e' || c == 'E'
  let mantissa := cs.takeWhile (!isMark ·)
  let power := cs.drop mantissa.length
  let whole := mantissa.takeWhile (· ≠ '.')
  let fraction := mantissa.drop whole.length
  if power.isEmpty ∧ fraction.isEmpty then none
  else
    let whole ← readDecimal? whole
    let fraction ← match fraction with
      | '.' :: digits => (ungrouped? Char.isDigit digits).map ('.' :: ·)
      | _ => some []
    let power ← match power with
      | _ :: digits => (readPower? digits).map ('e' :: ·)
      | [] => some []
    some (whole ++ fraction ++ power)

/-- A number that is not written as a whole one.  A positive one beyond the range of
    doubles is refused. -/
def readReal? (word : List Char) : Option Toml := do
  let (negative, body) := takeSign word
  match String.ofList body with
  | "inf" => some (.float (if negative then -infinity else infinity))
  | "nan" => some (.float notANumber)
  | _ =>
    let x ← readFloat? (String.ofList (← spellReal? body))
    if negative then some (.float (-x))
    else if x.isFinite then some (.float x)
    else none

/-! ### Dates and times -/

/-- A number of exactly `n` digits within bounds, and what follows it. -/
def takeField? (n low high : Nat) (cs : List Char) : Option (Nat × List Char) := do
  let digits := cs.take n
  if digits.length = n ∧ digits.all Char.isDigit then
    let v := digitsValue digits
    if low ≤ v ∧ v ≤ high then some (v, cs.drop n) else none
  else none

/-- Consumes an expected character. -/
def expect? (c : Char) : List Char → Option (List Char)
  | d :: rest => if c = d then some rest else none
  | [] => none

/-- The number of days of a month. -/
def daysIn (year month : Nat) : Nat :=
  if month = 2 then
    if year % 4 = 0 ∧ (year % 100 ≠ 0 ∨ year % 400 = 0) then 29 else 28
  else if [4, 6, 9, 11].contains month then 30
  else 31

/-- Consumes a date. -/
def takeDate? (cs : List Char) : Option (List Char) := do
  let (year, cs) ← takeField? 4 0 9999 cs
  let (month, cs) ← takeField? 2 1 12 (← expect? '-' cs)
  let (_, cs) ← takeField? 2 1 (daysIn year month) (← expect? '-' cs)
  some cs

/-- Consumes a time of day, with an optional fraction of its seconds. -/
def takeTime? (cs : List Char) : Option (List Char) := do
  let (_, cs) ← takeField? 2 0 23 cs
  let (_, cs) ← takeField? 2 0 59 (← expect? ':' cs)
  let (_, cs) ← takeField? 2 0 60 (← expect? ':' cs)
  match cs with
  | '.' :: rest => if rest.head?.any Char.isDigit then some (rest.dropWhile Char.isDigit) else none
  | _ => some cs

/-- Consumes an optional distance from universal time. -/
def takeOffset? (cs : List Char) : Option (List Char) :=
  match cs with
  | 'Z' :: rest => some rest
  | 'z' :: rest => some rest
  | c :: rest =>
    if c == '+' || c == '-' then do
      let (_, cs) ← takeField? 2 0 23 rest
      let (_, cs) ← takeField? 2 0 59 (← expect? ':' cs)
      some cs
    else some cs
  | [] => some []

/-- A date, a time, or a date and a time with a letter between them. -/
def readMoment? (word : List Char) : Option Toml := do
  let rest ← match takeDate? word with
    | some [] => some []
    | some (c :: rest) =>
      if c == 'T' || c == 't' then takeOffset? (← takeTime? rest) else none
    | none => takeTime? word
  if rest.isEmpty then some .moment else none

/-! ### Words -/

/-- The characters of scalars without quotes. -/
def isWordChar (c : Char) : Bool :=
  c.isAlphanum || c == '_' || c == '+' || c == '-' || c == '.' || c == ':'

/-- Whether a time of day may follow a date and a space. -/
def startsTime : List Char → Bool
  | a :: b :: ':' :: _ => a.isDigit && b.isDigit
  | _ => false

/-- The word at the front.  A date and a time may have a space between them, which is
    read as a letter. -/
def takeWord (cs : List Char) : List Char × List Char :=
  let word := cs.takeWhile isWordChar
  let rest := cs.drop word.length
  match takeDate? word, rest with
  | some [], ' ' :: more =>
    if startsTime more then
      let time := more.takeWhile isWordChar
      (word ++ 'T' :: time, more.drop time.length)
    else (word, rest)
  | _, _ => (word, rest)

/-- **The scalar that a word spells.** -/
def ofWord? (word : List Char) : Option Toml :=
  match String.ofList word with
  | "true" => some (.bool true)
  | "false" => some (.bool false)
  | _ => ((readWhole? word).orElse fun _ => readReal? word).orElse fun _ => readMoment? word

end BlockChart.Toml
