namespace BlockChart

/-!
# Digits in a base

Digits up to `f` in either case, and whole numbers written with them.
-/

/-- The value of a hexadecimal digit. -/
def hexDigit? (c : Char) : Option Nat :=
  if '0' ≤ c ∧ c ≤ '9' then some (c.toNat - '0'.toNat)
  else if 'a' ≤ c ∧ c ≤ 'f' then some (c.toNat - 'a'.toNat + 10)
  else if 'A' ≤ c ∧ c ≤ 'F' then some (c.toNat - 'A'.toNat + 10)
  else none

/-- The value of a digit in a base of at most sixteen. -/
def digitIn? (base : Nat) (c : Char) : Option Nat :=
  (hexDigit? c).filter (· < base)

/-- The number that digits denote in a base: at least one digit, and nothing else. -/
def readDigits? (base : Nat) (cs : List Char) : Option Nat :=
  if cs.isEmpty then none
  else cs.foldlM (fun n c => (digitIn? base c).map (base * n + ·)) 0

/-- The character with the number that the digits denote in base sixteen.  Numbers of
    surrogates and numbers beyond the last character denote none. -/
def charOfHex? (cs : List Char) : Option Char := do
  let n ← readDigits? 16 cs
  if h : n.isValidChar then some (Char.ofNatAux n h) else none

end BlockChart
