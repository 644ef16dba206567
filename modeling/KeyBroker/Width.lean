/-!
# Widths

The ranges of numbers of 64 bits. They bound what a duration, a channel, a page
buffer and a setting can be.
-/

namespace KeyBroker

/-- The first number that needs more than 64 bits. -/
def wordLimit : Nat := 18446744073709551616

/-- The first number that needs more than 64 bits with a sign. -/
def signedLimit : Nat := 9223372036854775808

end KeyBroker
