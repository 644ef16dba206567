import KeyBroker.Bytes

/-!
# Keys and scopes

A key is a string of code points, compared code point by code point; that is
also the order of the UTF-8 bytes. A scope is a key that a view puts in front of
every key it is given and takes off every key it hands back. Putting on and
taking off are inverse to each other, `Key.relative?_eq_some_iff`.
-/

namespace KeyBroker

/-- A key, or the beginning of one. -/
abbrev Key := List Char

namespace Key

/-- The full key of a key local to `scope`. -/
def qualify (scope key : Key) : Key := scope ++ key

/-- The local key of a full key, or `none` if the full key lies outside `scope`. -/
def relative? : (scope key : Key) → Option Key
  | [], key => some key
  | _ :: _, [] => none
  | c :: scope, d :: key => if c = d then relative? scope key else none

/-- Whether `key` begins with `stem`. -/
def beginsWith (stem key : Key) : Bool := stem.isPrefixOf key

/-- A key has a local key in a scope exactly if it is that local key with the scope in front. -/
theorem relative?_eq_some_iff {scope key rest : Key} :
    relative? scope key = some rest ↔ key = qualify scope rest := by
  induction scope generalizing key with
  | nil => simp [relative?, qualify]
  | cons c scope ih =>
    cases key with
    | nil => simp [relative?, qualify]
    | cons d key =>
      by_cases h : c = d
      · subst h
        simpa [relative?, qualify] using ih
      · simp [relative?, qualify, h, Ne.symm h]

/-- Taking the scope off gives back the key that it was put in front of. -/
@[simp] theorem relative?_qualify (scope key : Key) :
    relative? scope (qualify scope key) = some key :=
  relative?_eq_some_iff.2 rfl

/-- A key begins with a stem in the sense of list prefixes. -/
theorem beginsWith_iff {stem key : Key} : beginsWith stem key = true ↔ stem <+: key :=
  List.isPrefixOf_iff_prefix

end Key

/-- A live key with its value and the revision of its last change. -/
structure KeyValue where
  key : Key
  value : Bytes
  /-- Revision of the commit that last changed the key. -/
  revision : Nat
  deriving DecidableEq, Repr

end KeyBroker
