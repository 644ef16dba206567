import KeyBroker.Text.Unseen

/-!
# Quoted text

Keys and prefixes appear in messages between double quotes. A quote and a
backslash get a backslash before them, the four common controls have short
escapes, and every other character without a shape of its own is written by its
code point.
-/

namespace KeyBroker.Text

/-- A code point between the braces of an escape, in lower-case hexadecimal. -/
def codePoint (c : Char) : String :=
  "\\u\x7b" ++ String.ofList (Nat.toDigits 16 c.toNat) ++ "\x7d"

/-- One character as it stands between the quotes. -/
def quotedChar (c : Char) : String :=
  if c = '\n' then "\\n"
  else if c = '\r' then "\\r"
  else if c = '\t' then "\\t"
  else if c.toNat = 0 then "\\0"
  else if c = '\\' then "\\\\"
  else if c.toNat = 34 then "\\\""
  else if isUnseen c then codePoint c
  else String.singleton c

/-- The text between double quotes. -/
def quoted (text : List Char) : String :=
  "\"" ++ String.join (text.map quotedChar) ++ "\""

end KeyBroker.Text
