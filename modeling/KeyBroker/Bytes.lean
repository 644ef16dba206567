/-!
# Values

A stored value is a string of bytes that the broker never looks into. The one
text made of it is its literal, which shows printable ASCII as itself and all
other bytes by an escape.
-/

namespace KeyBroker

/-- A stored value. -/
abbrev Bytes := List UInt8

namespace Bytes

/-- One byte as it stands inside a byte-string literal. -/
def literalByte (b : UInt8) : String :=
  if b = 10 then "\\n"
  else if b = 13 then "\\r"
  else if b = 9 then "\\t"
  else if b = 0 then "\\0"
  else if b = 92 then "\\\\"
  else if b = 34 then "\\\""
  else if 32 ≤ b ∧ b < 127 then String.singleton (Char.ofNat b.toNat)
  else "\\x" ++ String.ofList [Nat.digitChar (b.toNat / 16), Nat.digitChar (b.toNat % 16)]

/-- The byte-string literal of a value. -/
def literal (bytes : Bytes) : String :=
  "b\"" ++ String.join (bytes.map literalByte) ++ "\""

end Bytes

end KeyBroker
