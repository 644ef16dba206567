import KeyBroker.Width

/-!
# Durations

A length of time counted in nanoseconds, and its text. The text uses the
largest of the units s, ms, µs and ns of which the duration holds at least one,
with the rest as a decimal fraction that has no trailing zeros.
-/

namespace KeyBroker

/-- A length of time. -/
structure Duration where
  /-- The whole length in nanoseconds. -/
  nanos : Nat
  deriving DecidableEq, Repr

namespace Duration

/-- A second in nanoseconds. -/
def second : Nat := 1000000000

/-- A millisecond in nanoseconds. -/
def millisecond : Nat := 1000000

/-- A microsecond in nanoseconds. -/
def microsecond : Nat := 1000

/-- `n` milliseconds. -/
def ofMillis (n : Nat) : Duration := ⟨n * millisecond⟩

/-- `n` seconds. -/
def ofSecs (n : Nat) : Duration := ⟨n * second⟩

/-- Whole seconds must fit in 64 bits; nanoseconds past a second are carried
into them. -/
def ofParts? (secs nanos : Nat) : Option Duration :=
  let total := secs * second + nanos
  if total < wordLimit * second then some ⟨total⟩ else none

/-- Whole seconds of the duration. -/
def secs (d : Duration) : Nat := d.nanos / second

/-- Nanoseconds past the whole seconds. -/
def subsecNanos (d : Duration) : Nat := d.nanos % second

/-- The digits of `part / unit` after the point, for `unit` a power of ten and
`part < unit`, without trailing zeros. -/
def fractionDigits (part unit : Nat) : List Char :=
  let digits := Nat.toDigits 10 (unit + part)
  ((digits.drop 1).reverse.dropWhile (· == '0')).reverse

/-- `part / unit` with the unit's name, for the whole length `whole`. -/
def textIn (whole unit : Nat) (name : String) : String :=
  let fraction := fractionDigits (whole % unit) unit
  let point := if fraction.isEmpty then "" else "." ++ String.ofList fraction
  toString (whole / unit) ++ point ++ name

/-- The duration in the largest unit of which it holds at least one. -/
def text (d : Duration) : String :=
  if second ≤ d.nanos then textIn d.nanos second "s"
  else if millisecond ≤ d.nanos then textIn d.nanos millisecond "ms"
  else if microsecond ≤ d.nanos then textIn d.nanos microsecond "µs"
  else textIn d.nanos 1 "ns"

end Duration

end KeyBroker
