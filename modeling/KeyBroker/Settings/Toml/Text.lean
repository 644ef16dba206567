import KeyBroker.Text.Numeral

/-!
# Text in TOML

What may stand in a comment and between quotes, and what it means. A function
that reads from the front of a text answers what it read and the rest of the
text.
-/

namespace KeyBroker.Settings.Toml

/-- A blank within a line. -/
def isBlank (c : Char) : Bool := c == ' ' || c == '\t'

/-- A character that may stand in a comment and, but for quotes and backslashes,
between quotes: no control but the tab. -/
def isPlain (c : Char) : Bool := c == '\t' || (32 ≤ c.toNat && c.toNat != 127)

/-- Drops the blanks at the front. -/
def skipBlanks (text : List Char) : List Char := text.dropWhile isBlank

/-- The rest of a text that begins with the end of a line. -/
def newline? : List Char → Option (List Char)
  | '\n' :: rest => some rest
  | '\r' :: '\n' :: rest => some rest
  | _ => none

/-- The rest of a text after the end of its first line, on which only blanks and a
comment may stand. -/
def lineEnd? (text : List Char) : Option (List Char) :=
  let rest := match skipBlanks text with
    | '#' :: comment => comment.dropWhile isPlain
    | rest => rest
  if rest.isEmpty then some [] else newline? rest

/-- The rest of a text after blanks, ends of lines and comments, each of which ends
with its line. `comment` tells whether the text begins inside one. -/
def skipGaps? (comment : Bool) : List Char → Option (List Char)
  | [] => if comment then none else some []
  | c :: rest =>
    if c = '\n' then skipGaps? false rest
    else if c = '\r' ∧ rest.head? = some '\n' then skipGaps? comment rest
    else if comment then if isPlain c then skipGaps? true rest else none
    else if isBlank c then skipGaps? false rest
    else if c = '#' then skipGaps? true rest
    else some (c :: rest)

/-! ## Quoted text -/

/-- Puts a character before a text. -/
def before (c : Char) (text : Option (List Char)) : Option (List Char) := text.map (c :: ·)

/-- Puts characters before the text that was read. -/
def ahead (front : List Char) (read : Option (List Char × List Char)) :
    Option (List Char × List Char) :=
  read.map fun (body, rest) => (front ++ body, rest)

/-- Reads up to a closing quote. Where a backslash escapes, the character after it
does not close. -/
def shortBody (quote : Char) (escapes : Bool) : List Char → Option (List Char × List Char)
  | [] => none
  | c :: rest =>
    if c = quote then some ([], rest)
    else if escapes ∧ c = '\\' then
      match rest with
      | d :: rest => ahead [c, d] (shortBody quote escapes rest)
      | [] => none
    else if isPlain c then ahead [c] (shortBody quote escapes rest)
    else none

/-- Reads up to three closing quotes. One or two more before them belong to the
text. -/
def longBody (quote : Char) (escapes : Bool) : List Char → Option (List Char × List Char)
  | [] => none
  | c :: rest =>
    if c = quote then
      match (c :: rest).takeWhile (· == quote) |>.length with
      | 0 | 1 | 2 => ahead [c] (longBody quote escapes rest)
      | 3 => some ([], rest.drop 2)
      | 4 => some ([quote], rest.drop 3)
      | _ => some ([quote, quote], rest.drop 4)
    else if escapes ∧ c = '\\' then
      match rest with
      | d :: rest => ahead [c, d] (longBody quote escapes rest)
      | [] => none
    else ahead [c] (longBody quote escapes rest)

/-- Checks the lines of a text and ends each with a line feed alone. -/
def evenLines : List Char → Option (List Char)
  | [] => some []
  | c :: rest =>
    if c = '\r' ∧ rest.head? = some '\n' then evenLines rest
    else if c = '\n' ∨ isPlain c then before c (evenLines rest)
    else none

/-- Takes out each backslash at the end of a line, with all blanks and ends of
lines up to the next character; `trimming` tells whether the text begins after
such a backslash. -/
def joinLines (trimming : Bool) : List Char → Option (List Char)
  | [] => some []
  | c :: rest =>
    if trimming ∧ (isBlank c ∨ c = '\n') then joinLines true rest
    else if c = '\\' then
      if (newline? (skipBlanks rest)).isSome then joinLines true rest
      else
        match rest with
        | d :: rest => before c (before d (joinLines false rest))
        | [] => none
    else before c (joinLines false rest)

/-- What a backslash and one character stand for. -/
def shortEscape? : Char → Option Char
  | 'b' => some (Char.ofNat 8)
  | 't' => some '\t'
  | 'n' => some '\n'
  | 'f' => some (Char.ofNat 12)
  | 'r' => some '\r'
  | '\\' => some '\\'
  | c => if c.toNat = 34 then some c else none

/-- The character with a code point in hexadecimal. -/
def codePoint? (digits : List Char) : Option Char :=
  (KeyBroker.Text.natural? 16 digits).bind fun n =>
    if n.isValidChar then some (Char.ofNat n) else none

/-- Replaces escapes by what they stand for. -/
def unescape : List Char → Option (List Char)
  | [] => some []
  | '\\' :: 'u' :: a :: b :: c :: d :: rest =>
    (codePoint? [a, b, c, d]).bind fun x => before x (unescape rest)
  | '\\' :: 'U' :: a :: b :: c :: d :: e :: f :: g :: h :: rest =>
    (codePoint? [a, b, c, d, e, f, g, h]).bind fun x => before x (unescape rest)
  | '\\' :: c :: rest => (shortEscape? c).bind fun x => before x (unescape rest)
  | ['\\'] => none
  | c :: rest => before c (unescape rest)

/-- Reads what stands between quotes on one line. -/
def shortText? (quote : Char) (escapes : Bool) (text : List Char) :
    Option (List Char × List Char) :=
  match shortBody quote escapes text with
  | some (body, rest) => (if escapes then unescape body else some body).map (·, rest)
  | none => none

/-- Reads what stands between triple quotes, over any number of lines. An end of
line right after the opening quotes does not count. -/
def longText? (quote : Char) (escapes : Bool) (text : List Char) :
    Option (List Char × List Char) :=
  match longBody quote escapes ((newline? text).getD text) with
  | some (body, rest) =>
    ((evenLines body).bind fun lines =>
      if escapes then (joinLines false lines).bind unescape else some lines).map (·, rest)
  | none => none

/-- The quote with escapes; the other is the apostrophe. -/
def doubleQuote : Char := Char.ofNat 34

/-- Reads a quoted name: one line, with either quote. -/
def quotedName? : List Char → Option (List Char × List Char)
  | '\'' :: rest => shortText? '\'' false rest
  | c :: rest => if c = doubleQuote then shortText? doubleQuote true rest else none
  | [] => none

/-- Reads a quoted value. -/
def quotedText? (text : List Char) : Option (List Char × List Char) :=
  match text with
  | a :: b :: c :: rest =>
    if a = b ∧ b = c then
      if a = '\'' then longText? '\'' false rest
      else if a = doubleQuote then longText? doubleQuote true rest
      else none
    else quotedName? text
  | _ => quotedName? text

end KeyBroker.Settings.Toml
