import KeyBroker.Text.Numeral

/-!
# Dates and times in TOML

A date, a time of day, or both with or without an offset from universal time. For
the settings only the text matters; it is written in one uniform way. How far the
numbers may go depends on where the text stands: in a document they are those of a
clock, in a string that stands for a moment they may go somewhat further.
-/

namespace KeyBroker.Settings.Toml

open KeyBroker.Text

/-- Reads a number of exactly so many digits. -/
def fixed? (count : Nat) (text : List Char) : Option (Nat × List Char) :=
  let digits := text.take count
  if digits.length = count ∧ digits.all isDigit then
    (natural? 10 digits).map (·, text.drop count)
  else none

/-- Reads a number of two digits within bounds. -/
def pair? (least greatest : Nat) (text : List Char) : Option (Nat × List Char) :=
  (fixed? 2 text).filter fun (n, _) => least ≤ n ∧ n ≤ greatest

/-- The rest of a text after an expected character. -/
def after? (c : Char) : List Char → Option (List Char)
  | d :: rest => if d = c then some rest else none
  | [] => none

/-- The days of a month. -/
def monthLength (year month : Nat) : Nat :=
  if month = 2 then if year % 4 = 0 ∧ (year % 100 ≠ 0 ∨ year % 400 = 0) then 29 else 28
  else if month ∈ [4, 6, 9, 11] then 30
  else 31

/-- A number with at least so many digits. -/
def padded (width n : Nat) : List Char :=
  let digits := Nat.toDigits 10 n
  List.replicate (width - digits.length) '0' ++ digits

/-- Reads a date; answers its text. -/
def date? (text : List Char) : Option (List Char × List Char) := do
  let (year, rest) ← fixed? 4 text
  let (month, rest) ← pair? 1 12 (← after? '-' rest)
  let (day, rest) ← pair? 1 (monthLength year month) (← after? '-' rest)
  some (padded 4 year ++ '-' :: padded 2 month ++ '-' :: padded 2 day, rest)

/-- Reads the fraction of a second, if there is one. Digits after the ninth are cut
off, and so are zeros at the end. -/
def fraction? : List Char → Option (List Char × List Char)
  | '.' :: rest =>
    let digits := rest.takeWhile isDigit
    let shown := ((digits.take 9).reverse.dropWhile (· == '0')).reverse
    if digits.isEmpty then none
    else some (if shown.isEmpty then [] else '.' :: shown, rest.dropWhile isDigit)
  | rest => some ([], rest)

/-- How far the numbers of a moment may go. -/
structure Reach where
  /-- The greatest hour of a day. -/
  hour : Nat
  /-- The greatest hours and minutes of an offset. -/
  offsetHours : Nat
  offsetMinutes : Nat

/-- The numbers of a moment in a document. -/
def Reach.plain : Reach := { hour := 23, offsetHours := 23, offsetMinutes := 59 }

/-- The numbers of a moment in a string: the end of a day is one of its hours, and an
offset may have any minutes. -/
def Reach.inString : Reach := { hour := 24, offsetHours := 99, offsetMinutes := 99 }

/-- The greatest offset, in minutes. -/
def offsetLimit : Nat := 24 * 60

/-- Reads a time of day, with room for a leap second. -/
def clock? (reach : Reach) (text : List Char) : Option (List Char × List Char) := do
  let (hour, rest) ← pair? 0 reach.hour text
  let (minute, rest) ← pair? 0 59 (← after? ':' rest)
  let (second, rest) ← pair? 0 60 (← after? ':' rest)
  let (fraction, rest) ← fraction? rest
  some (padded 2 hour ++ ':' :: padded 2 minute ++ ':' :: padded 2 second ++ fraction, rest)

/-- The text of an offset that makes up a whole text; an offset of nothing has a plus
sign. -/
def offset? (reach : Reach) : List Char → Option (List Char)
  | [] => some []
  | c :: rest =>
    if c = 'Z' ∨ c = 'z' then if rest.isEmpty then some ['Z'] else none
    else if c = '+' ∨ c = '-' then do
      let (hours, rest) ← pair? 0 reach.offsetHours rest
      let (minutes, rest) ← pair? 0 reach.offsetMinutes (← after? ':' rest)
      let offset := hours * 60 + minutes
      let mark := if offset = 0 then '+' else c
      if rest.isEmpty ∧ offset ≤ offsetLimit then
        some (mark :: padded 2 (offset / 60) ++ ':' :: padded 2 (offset % 60))
      else none
    else none

/-- The uniform text of a date, a time of day, or both. -/
def moment? (reach : Reach) (text : List Char) : Option (List Char) :=
  match date? text with
  | some (date, []) => some date
  | some (date, mark :: rest) =>
    if mark = 'T' ∨ mark = 't' ∨ mark = ' ' then do
      let (clock, rest) ← clock? reach rest
      let offset ← offset? reach rest
      some (date ++ 'T' :: clock ++ offset)
    else none
  | none =>
    (clock? reach text).bind fun (clock, rest) => if rest.isEmpty then some clock else none

end KeyBroker.Settings.Toml
