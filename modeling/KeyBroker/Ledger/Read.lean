import KeyBroker.Ledger.Basic

/-!
# Reads and compaction

A read of one key answers its latest value. A range reads all keys under a stem
at one revision, which may lie in the past down to the compaction point.
Compaction moves that point forward and forgets the versions behind it.
-/

namespace KeyBroker

/-- A request for the pairs under a stem. -/
structure RangeQuery where
  stem : Key
  /-- Only keys after this one. -/
  startAfter : Option Key := none
  /-- At most this many pairs; 0 means all. -/
  limit : Nat := 0
  /-- The revision to read at; `none` means the latest. -/
  revision : Option Nat := none
  /-- Leave the values empty. -/
  keysOnly : Bool := false
  deriving DecidableEq, Repr

/-- The answer to a range. -/
structure Page where
  /-- Pairs in ascending order of their keys. -/
  pairs : List KeyValue
  /-- Whether pairs were left out for the limit. -/
  more : Bool
  /-- The revision read at. -/
  revision : Nat
  deriving DecidableEq, Repr

/-- The position from which the query reads: after `startAfter` if that does not
lie before the stem. -/
def RangeQuery.position (query : RangeQuery) : KeyMap.Position :=
  match query.startAfter with
  | some after => if after < query.stem then .at query.stem else .after after
  | none => .at query.stem

namespace Ledger

/-- The latest value of a key. -/
def get (l : Ledger) (now : Nat) (key : Key) : Change (Option KeyValue) :=
  let (swept, expiries) := l.expire now
  { ledger := swept, events := expiries,
    result := (swept.latest? key).map fun (revision, value) => { key, value, revision } }

/-- The pairs that a query asks for at `revision`, before its limit. -/
def pairsAt (l : Ledger) (revision : Nat) (query : RangeQuery) : List KeyValue :=
  (l.keys.scan query.position query.stem).filterMap fun (key, versions) =>
    (versions.live? revision).map fun (modified, value) =>
      { key, value := if query.keysOnly then [] else value, revision := modified }

/-- The answer to a range on a ledger without expired keys. -/
def page (l : Ledger) (query : RangeQuery) : Outcome Page :=
  let revision := query.revision.getD l.revision
  if revision < l.compacted then .failed (.compacted revision l.compacted)
  else if l.revision < revision then
    .failed (.invalidArgument
      s!"revision {revision} is newer than current revision {l.revision}")
  else
    let found := l.pairsAt revision query
    if query.limit = 0 then .ok { pairs := found, more := false, revision }
    else .ok { pairs := found.take query.limit, more := query.limit < found.length, revision }

/-- The pairs under a stem, at the latest revision or an older one. -/
def range (l : Ledger) (now : Nat) (query : RangeQuery) : Change (Outcome Page) :=
  let (swept, expiries) := l.expire now
  { ledger := swept, events := expiries, result := swept.page query }

/-- Forgets the versions that no read at or above `revision` can see. The
compaction point never moves back, nor past the latest revision. -/
def compact (l : Ledger) (revision : Nat) : Ledger :=
  let point := min revision l.revision
  { l with
    compacted := max l.compacted point
    keys := l.keys.filterMap fun versions =>
      match versions.compact point with
      | [] => none
      | kept => some kept }

end Ledger

end KeyBroker
