import KeyBroker.Binary64

/-!
# Numbers in TOML

A number may have underscores between its digits. A whole number is decimal, with
a sign and without leading zeros, or without a sign in base 16, 8 or 2, and has to
fit 64 bits with sign. A float has a fraction, an exponent or both.
-/

namespace KeyBroker.Settings.Toml

open KeyBroker.Text

/-- The digits of a group, without the underscores between them. There is at least
one digit, and every underscore has a digit on both sides. -/
def ungroup (isDigit : Char → Bool) : List Char → Option (List Char)
  | [] => none
  | [c] => if isDigit c then some [c] else none
  | c :: d :: rest =>
    if !isDigit c then none
    else if d = '_' then (ungroup isDigit rest).map (c :: ·)
    else (ungroup isDigit (d :: rest)).map (c :: ·)

/-- The digits of a decimal group that does not begin with a needless zero. -/
def wholeDigits (text : List Char) : Option (List Char) :=
  (ungroup isDigit text).filter fun digits => digits.head? ≠ some '0' ∨ digits.length = 1

/-- A number in a base other than ten. -/
def based? (base : Nat) (text : List Char) : Option Int :=
  let number := (ungroup (fun c => (digitValue? c).any (· < base)) text).bind (natural? base)
  (number.filter (· < signedLimit)).map Int.ofNat

/-- A whole number. -/
def integer? : List Char → Option Int
  | '0' :: 'x' :: rest => based? 16 rest
  | '0' :: 'o' :: rest => based? 8 rest
  | '0' :: 'b' :: rest => based? 2 rest
  | text =>
    let (negative, rest) := sign text
    (wholeDigits rest).bind fun digits =>
      KeyBroker.Text.integer? (if negative then '-' :: digits else digits)

/-- Characters of a group of digits. -/
def isGroupChar (c : Char) : Bool := isDigit c || c == '_'

/-- The exponent of a float, after the letter. -/
def exponent? (text : List Char) : Option Int :=
  let (negative, rest) := sign text
  ((ungroup isDigit rest).bind (natural? 10)).map (signed negative)

/-- The float with the given digits before the point and the given rest: a point
with a fraction, an exponent, or both. -/
def floatFrom? (negative : Bool) (whole : List Char) (rest : List Char) : Option Binary64 :=
  let number (fraction : List Char) (exponent : Int) : Option Binary64 :=
    (natural? 10 (whole ++ fraction)).map fun digits =>
      .ofDecimal negative digits (exponent - fraction.length)
  match rest with
  | '.' :: rest =>
    (ungroup isDigit (rest.takeWhile isGroupChar)).bind fun fraction =>
      match rest.dropWhile isGroupChar with
      | [] => number fraction 0
      | c :: rest =>
        if c = 'e' ∨ c = 'E' then (exponent? rest).bind (number fraction) else none
  | c :: rest => if c = 'e' ∨ c = 'E' then (exponent? rest).bind (number []) else none
  | [] => none

/-- A float. Digits too large for the format are no float, unless they are
negative. -/
def float? (text : List Char) : Option Binary64 :=
  let (negative, rest) := sign text
  if rest = "inf".toList then some (.infinite negative)
  else if rest = "nan".toList then some .nan
  else
    ((wholeDigits (rest.takeWhile isGroupChar)).bind fun whole =>
      floatFrom? negative whole (rest.dropWhile isGroupChar)).filter (· ≠ .infinite false)

end KeyBroker.Settings.Toml
