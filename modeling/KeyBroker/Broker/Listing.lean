import KeyBroker.Store.Request

/-!
# Listings

A listing yields the pairs under a stem page by page, all read at the revision of
its first page. It remembers the last key it was given, so that a page that
could not be read is simply asked for again. Keys are handed out without the
scope of the view that listed them.
-/

namespace KeyBroker

/-- The key that a view shows for a full key. A key outside the scope is an error. -/
def Key.reveal (scope key : Key) : Except Error Key :=
  if scope.isEmpty then .ok key
  else
    match relative? scope key with
    | some rest => .ok rest
    | none => .error (.scopeViolation key scope)

/-- The pair that a view shows for a pair of the store. -/
def KeyValue.reveal (scope : Key) (pair : KeyValue) : Except Error KeyValue :=
  (Key.reveal scope pair.key).map fun key => { pair with key }

/-- A listing between two of its steps. -/
structure Listing where
  /-- Scope taken off the keys handed out. -/
  scope : Key
  /-- Listed stem as a full key. -/
  stem : Key
  pageSize : Nat
  keysOnly : Bool
  /-- Revision that every page is read at. -/
  revision : Nat := 0
  /-- Pairs read and not yet handed out. -/
  buffer : List KeyValue := []
  /-- Last key read. -/
  lastKey : Option Key := none
  /-- Whether the store has pairs past the last key read. -/
  more : Bool := true
  deriving DecidableEq, Repr

namespace Listing

/-- A listing of `stem` through a view of scope `scope`, before its first page. -/
def opening (scope stem : Key) (pageSize : Nat) (keysOnly : Bool) : Listing where
  scope
  stem := scope.qualify stem
  pageSize
  keysOnly

/-- The request for the page after the last key read, at `revision`. -/
def query (l : Listing) (revision : Option Nat) : RangeQuery where
  stem := l.stem
  startAfter := l.lastKey
  limit := l.pageSize
  revision
  keysOnly := l.keysOnly

/-- The listing with one more page. -/
def absorb (l : Listing) (page : Page) : Listing :=
  { l with
    buffer := l.buffer ++ page.pairs
    lastKey := (page.pairs.getLast?.map (·.key)).or l.lastKey
    more := page.more }

/-- The listing with its first page, whose revision it keeps. -/
def openedBy (l : Listing) (page : Page) : Listing :=
  { l.absorb page with revision := page.revision }

/-- Whether the next pair can only come from a further page. -/
def needsPage (l : Listing) : Bool := l.buffer.isEmpty && l.more

/-- Hands out the first pair of the buffer, or `none` if it is empty. -/
def take (l : Listing) : Listing × Except Error (Option KeyValue) :=
  match l.buffer with
  | [] => (l, .ok none)
  | pair :: rest => ({ l with buffer := rest }, (pair.reveal l.scope).map some)

/-- Hands out pairs up to the first that cannot be shown. -/
def revealAll (scope : Key) : List KeyValue → List KeyValue × Option Error
  | [] => ([], none)
  | pair :: rest =>
    match pair.reveal scope with
    | .error e => ([], some e)
    | .ok shown =>
      let (others, failure) := revealAll scope rest
      (shown :: others, failure)

end Listing

/-- A list of pairs read page by page needs its page buffer in memory: an entry
takes 64 bytes, and the buffer must stay below half the address space. -/
def pageBufferFits (pageSize : Nat) : Bool := pageSize * 64 < signedLimit

end KeyBroker
