import BlockChart.Value.Coercion

namespace BlockChart.Value

/-!
# Loose comparisons

Two texts compare as texts.  Mixed values compare as the numbers that they stand
for, so a comparison with an unreadable text has no answer.
-/

/-- Order of two numbers; none with not-a-number. -/
def orderNumbers? (a b : Float) : Option Ordering :=
  if a < b then some .lt
  else if b < a then some .gt
  else if a == b then some .eq
  else none

/-- **Loose order**: texts by code point, anything else by number. -/
def order? : Value → Value → Option Ordering
  | .str a, .str b => some (compare a b)
  | a, b => orderNumbers? a.toNumber b.toNumber

/-- Whether one of two values is displayed as a text. -/
def eitherReads (a b : Value) (s : String) : Bool :=
  a.text == s || b.text == s

/-- **Loose equality.**  The unit equals only itself, texts are equal as texts and
    lists item by item, a list and a text are equal if one of the two is displayed as
    the text, and anything else is equal as numbers. -/
def looselyEqual : Value → Value → Bool
  | .unit, .unit => true
  | .unit, _ => false
  | _, .unit => false
  | .str a, .str b => a == b
  | .list a, .list b => sameItems a b
  | .list items, .str s => eitherReads (.list items) (.str s) s
  | .str s, .list items => eitherReads (.str s) (.list items) s
  | a, b => a.toNumber == b.toNumber

end BlockChart.Value
