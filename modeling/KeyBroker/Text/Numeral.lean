import KeyBroker.Width

/-!
# Numerals

Whole numbers as they are written with digits, in bases up to sixteen.
-/

namespace KeyBroker.Text

/-- Whether a character is one of the ten decimal digits. -/
def isDigit (c : Char) : Bool := 48 ≤ c.toNat && c.toNat ≤ 57

/-- The value of a digit; letters of either case continue after nine. -/
def digitValue? (c : Char) : Option Nat :=
  if isDigit c then some (c.toNat - 48)
  else if 97 ≤ c.toNat ∧ c.toNat ≤ 102 then some (c.toNat - 87)
  else if 65 ≤ c.toNat ∧ c.toNat ≤ 70 then some (c.toNat - 55)
  else none

/-- Appends digits in the given base to a number. -/
def appendDigits? (base : Nat) : Nat → List Char → Option Nat
  | number, [] => some number
  | number, c :: rest =>
    match digitValue? c with
    | some d => if d < base then appendDigits? base (number * base + d) rest else none
    | none => none

/-- The number that a text of one or more digits denotes. -/
def natural? (base : Nat) : List Char → Option Nat
  | [] => none
  | digits => appendDigits? base 0 digits

/-- Splits off a sign; `true` stands for minus. -/
def sign : List Char → Bool × List Char
  | '-' :: rest => (true, rest)
  | '+' :: rest => (false, rest)
  | text => (false, text)

/-- The number with its sign. -/
def signed (negative : Bool) (magnitude : Nat) : Int :=
  if negative then -magnitude else magnitude

/-- A number of 64 bits with an optional sign, in decimal digits. -/
def integer? (text : List Char) : Option Int :=
  let (negative, digits) := sign text
  (natural? 10 digits).bind fun magnitude =>
    if magnitude < signedLimit ∨ negative ∧ magnitude = signedLimit then
      some (signed negative magnitude)
    else none

/-- A number of 64 bits that is not negative, with an optional plus sign. -/
def word? (text : List Char) : Option Nat :=
  let digits := match text with
    | '+' :: rest => rest
    | text => text
  (natural? 10 digits).filter (· < wordLimit)

end KeyBroker.Text
