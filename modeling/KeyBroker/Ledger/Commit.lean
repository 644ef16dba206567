import KeyBroker.Ledger.Basic

/-!
# Commits

Puts, deletions and transactions. Each first lets expired keys go, then takes
one new revision for all it writes. A deletion of nothing and an empty
transaction take none.
-/

namespace KeyBroker

/-- Instants are counted in nanoseconds from the start, and the clock's range ends
here. -/
def instantLimit : Nat := (signedLimit - 1) * Duration.second

/-- The instant `ttl` after `now`, or `none` beyond the clock's range. -/
def deadlineAfter (now : Nat) (ttl : Duration) : Option Nat :=
  if now + ttl.nanos < instantLimit then some (now + ttl.nanos) else none

/-- A single write of a transaction. -/
inductive Write where
  | put (key : Key) (value : Bytes)
  | delete (key : Key)
  deriving DecidableEq, Repr

/-- The key that a write concerns. -/
def Write.key : Write → Key
  | .put key _ | .delete key => key

/-- What a deletion did. -/
structure Deletion where
  /-- Number of keys removed. -/
  deleted : Nat
  /-- Revision after the call. -/
  revision : Nat
  deriving DecidableEq, Repr

namespace Ledger

/-- Commits a value for `key` and answers the revision of the commit. The
revision is begun before the deadline is known, so a deadline beyond the clock's
range leaves a revision with no write. -/
def put (l : Ledger) (now : Nat) (key : Key) (value : Bytes) (ttl : Option Duration) :
    Change (Outcome Nat) :=
  let (swept, expiries) := l.expire now
  let next := swept.begin
  let commit := fun deadline =>
    let (written, event) := next.write key value deadline
    { ledger := written, events := expiries ++ [event], result := .ok written.revision }
  match ttl with
  | none => commit none
  | some ttl =>
    match deadlineAfter now ttl with
    | some deadline => commit (some deadline)
    | none => { ledger := next, events := expiries, result := .aborted .deadline }

/-- Deletes `targets` in one commit. -/
def deleteKeys (l : Ledger) (expiries : List Event) (targets : List Key) : Change Deletion :=
  match targets with
  | [] => { ledger := l, events := expiries, result := { deleted := 0, revision := l.revision } }
  | _ =>
    let (last, events) := l.begin.eraseAll targets
    { ledger := last, events := expiries ++ events,
      result := { deleted := targets.length, revision := last.revision } }

/-- Deletes one key. -/
def delete (l : Ledger) (now : Nat) (key : Key) : Change Deletion :=
  let (swept, expiries) := l.expire now
  swept.deleteKeys expiries (if (swept.latest? key).isSome then [key] else [])

/-- The live keys that begin with `stem`, in ascending order. -/
def liveUnder (l : Ledger) (stem : Key) : List Key :=
  ((l.keys.scan (.at stem) stem).filter fun e => (e.2.live? l.revision).isSome).map (·.1)

/-- Deletes every live key that begins with `stem`. -/
def deletePrefix (l : Ledger) (now : Nat) (stem : Key) : Change Deletion :=
  let (swept, expiries) := l.expire now
  swept.deleteKeys expiries (swept.liveUnder stem)

/-- Applies the writes of a transaction in order at the present revision. -/
def apply (l : Ledger) : List Write → Ledger × List Event
  | [] => (l, [])
  | .put key value :: rest =>
    let (first, event) := l.write key value none
    let (last, more) := first.apply rest
    (last, event :: more)
  | .delete key :: rest =>
    let (first, events) := l.erase key
    let (last, more) := first.apply rest
    (last, events ++ more)

/-- Commits the writes at one revision and answers it. No writes need no commit. -/
def txn (l : Ledger) (now : Nat) (writes : List Write) : Change Nat :=
  let (swept, expiries) := l.expire now
  match writes with
  | [] => { ledger := swept, events := expiries, result := swept.revision }
  | _ =>
    let (last, events) := swept.begin.apply writes
    { ledger := last, events := expiries ++ events, result := last.revision }

end Ledger

end KeyBroker
