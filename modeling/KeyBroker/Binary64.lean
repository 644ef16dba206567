import KeyBroker.Text.Letters
import KeyBroker.Text.Numeral

/-!
# Binary floating-point numbers of 64 bits

Every finite number of the format is a whole multiple of `2 ^ -1074`, so it is
kept as that multiple and all rounding is done on natural numbers. A decimal
becomes the nearest number of the format, the even one of two that are equally
near. The text of a number is its shortest decimal that becomes the same number
again.
-/

namespace KeyBroker

/-- A binary floating-point number. -/
inductive Binary64 where
  /-- The number `units / 2 ^ 1074` with a sign. -/
  | finite (negative : Bool) (units : Nat)
  | infinite (negative : Bool)
  | nan
  deriving DecidableEq, Repr

namespace Binary64

/-- The exponent of the smallest unit, negated. -/
def scale : Nat := 1074

/-- How many units make one. -/
def unitsPerOne : Nat := Nat.pow 2 scale

/-- Bits of a significand. -/
def precision : Nat := 53

/-- The first multiple of the unit that is out of range. -/
def overflow : Nat := Nat.pow 2 (1024 + scale)

/-- `num / den` rounded to the nearest whole number, to the even one of two. -/
def roundEven (num den : Nat) : Nat :=
  let floor := num / den
  let rest := num % den
  if 2 * rest < den then floor
  else if den < 2 * rest then floor + 1
  else floor + floor % 2

/-- The number nearest to `num / den`. -/
def ofRatio (negative : Bool) (num den : Nat) : Binary64 :=
  let scaled := num * unitsPerOne
  let step := Nat.pow 2 ((scaled / den).log2 + 1 - precision)
  let units := roundEven scaled (den * step) * step
  if units < overflow then .finite negative units else .infinite negative

/-- Beyond this many digits before the point, or zeros after it, the nearest
number is infinite or zero. -/
def reach : Nat := 400

/-- The number nearest to `digits * 10 ^ exponent`. -/
def ofDecimal (negative : Bool) (digits : Nat) (exponent : Int) : Binary64 :=
  let size := (Nat.toDigits 10 digits).length + exponent
  if digits = 0 ∨ size < -reach then .finite negative 0
  else if reach < size then .infinite negative
  else ofRatio negative (digits * Nat.pow 10 exponent.toNat) (Nat.pow 10 (-exponent).toNat)

/-- The exponent after an `e`, or zero without one. -/
def exponent? : List Char → Option Int
  | [] => some 0
  | c :: rest =>
    if c = 'e' ∨ c = 'E' then
      let (negative, digits) := Text.sign rest
      (Text.natural? 10 digits).map (Text.signed negative)
    else none

/-- A number written with digits around a point and an exponent. -/
def unsigned? (negative : Bool) (text : List Char) : Option Binary64 :=
  let whole := text.takeWhile Text.isDigit
  let rest := text.dropWhile Text.isDigit
  let (fraction, rest) := match rest with
    | '.' :: rest => (rest.takeWhile Text.isDigit, rest.dropWhile Text.isDigit)
    | rest => ([], rest)
  match Text.natural? 10 (whole ++ fraction), exponent? rest with
  | some digits, some exponent => some (ofDecimal negative digits (exponent - fraction.length))
  | _, _ => none

/-- The number a text denotes. -/
def read? (text : List Char) : Option Binary64 :=
  let (negative, rest) := Text.sign text
  if Text.isWord "inf" rest ∨ Text.isWord "infinity" rest then some (.infinite negative)
  else if Text.isWord "nan" rest then some .nan
  else unsigned? negative rest

/-- The nearest number of 64 bits without sign, away from zero in the middle.
What is too small becomes zero and what is too large the largest. -/
def toWord : Binary64 → Nat
  | .finite true _ | .infinite true | .nan => 0
  | .finite false units => min ((2 * units + unitsPerOne) / (2 * unitsPerOne)) (wordLimit - 1)
  | .infinite false => wordLimit - 1

/-! ## Text -/

/-- The exponent `e` with `10 ^ (e - 1) ≤ units / 2 ^ 1074 < 10 ^ e`, for a number
that is not zero. -/
def decimalExponent (units : Nat) : Int :=
  let length (n : Nat) : Int := (Nat.toDigits 10 n).length
  if unitsPerOne ≤ units then length (units / unitsPerOne) else 1 - length (unitsPerOne / units)

/-- The decimals with `count` digits on both sides of a number, the nearer first,
each as its digits and the exponent of the last. -/
def neighbours (units count : Nat) : List (Nat × Int) :=
  let last := decimalExponent units - count
  let num := units * Nat.pow 10 (-last).toNat
  let den := unitsPerOne * Nat.pow 10 last.toNat
  let below := (num / den, last)
  let above := if num / den + 1 = Nat.pow 10 count then (1, last + count) else (num / den + 1, last)
  if 2 * (num % den) < den then [below, above] else [above, below]

/-- The shortest decimal that becomes the number again, in a search from `count`
digits on. -/
def shortestFrom (units : Nat) : Nat → Nat → Nat × Int
  | 0, _ => (0, 0)
  | fuel + 1, count =>
    match (neighbours units count).find? fun (digits, exponent) =>
        ofDecimal false digits exponent = .finite false units with
    | some found => found
    | none => shortestFrom units fuel (count + 1)

/-- The shortest decimal that becomes the number again. Seventeen digits are
always enough. -/
def shortest (units : Nat) : Nat × Int :=
  if units = 0 then (0, 0) else shortestFrom units 17 1

/-- `digits * 10 ^ exponent` written out, with at least one digit on both sides of
the point. -/
def positional (digits : Nat) (exponent : Int) : List Char :=
  let text := Nat.toDigits 10 digits
  let places := (-exponent).toNat
  if places = 0 then text ++ List.replicate exponent.toNat '0' ++ ['.', '0']
  else
    let padded := List.replicate (places + 1 - text.length) '0' ++ text
    padded.take (padded.length - places) ++ '.' :: padded.drop (padded.length - places)

/-- The text of a number, without an exponent. -/
def text : Binary64 → String
  | .finite negative units =>
    let (digits, exponent) := shortest units
    (if negative then "-" else "") ++ String.ofList (positional digits exponent)
  | .infinite negative => if negative then "-inf" else "inf"
  | .nan => "NaN"

end Binary64

end KeyBroker
