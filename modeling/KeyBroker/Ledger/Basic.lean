import KeyBroker.Error
import KeyBroker.KeyMap
import KeyBroker.Ledger.Version

/-!
# The ledger

The ledger holds every key's versions under one revision counter. A commit takes
the next revision and writes all its versions there; the event of each write
says what the key held before it. This file has the writes at the present
revision, and expiry, which is itself a commit of deletions.
-/

namespace KeyBroker

/-- What happened to a key. -/
inductive EventKind where
  | put
  | delete
  deriving DecidableEq, Repr

/-- The word for a kind of event in measurements. -/
def EventKind.name : EventKind → String
  | .put => "put"
  | .delete => "delete"

/-- A committed change of one key. -/
structure Event where
  kind : EventKind
  key : Key
  /-- The new value, empty for a deletion. -/
  value : Bytes
  /-- The value before the change, if there was one. -/
  previous : Option Bytes
  /-- Revision of the commit. -/
  revision : Nat
  deriving DecidableEq, Repr

/-- All versions of all keys. -/
structure Ledger where
  /-- Revision of the latest commit. -/
  revision : Nat := 0
  /-- Revisions below this one can no longer be read. -/
  compacted : Nat := 0
  keys : KeyMap Versions := .empty

namespace Ledger

/-- A ledger after a call, with the events of its commits and its answer. -/
structure Change (α : Type) where
  ledger : Ledger
  events : List Event
  result : α

/-- The versions of a key. -/
def versions (l : Ledger) (key : Key) : Versions := (l.keys.get? key).getD []

/-- The latest value of a key with the revision that put it. -/
def latest? (l : Ledger) (key : Key) : Option (Nat × Bytes) :=
  (l.versions key).live? l.revision

/-- The ledger with the next revision begun. -/
def begin (l : Ledger) : Ledger := { l with revision := l.revision + 1 }

/-- The ledger with one more version of `key` at the present revision. -/
def record (l : Ledger) (key : Key) (value : Option Bytes) (deadline : Option Nat) : Ledger :=
  let version : Version := { revision := l.revision, value, deadline }
  { l with keys := l.keys.alter key fun present => (present.getD []).record version }

/-- Puts a value at the present revision. -/
def write (l : Ledger) (key : Key) (value : Bytes) (deadline : Option Nat) : Ledger × Event :=
  (l.record key (some value) deadline,
    { kind := .put, key, value, previous := (l.versions key).lastValue, revision := l.revision })

/-- Deletes a key at the present revision, if it is live. -/
def erase (l : Ledger) (key : Key) : Ledger × List Event :=
  match l.latest? key with
  | none => (l, [])
  | some _ =>
    (l.record key none none,
      [{ kind := .delete, key, value := [], previous := (l.versions key).lastValue,
         revision := l.revision }])

/-- Deletes keys one after the other at the present revision. -/
def eraseAll (l : Ledger) : List Key → Ledger × List Event
  | [] => (l, [])
  | key :: rest =>
    let (first, events) := l.erase key
    let (last, more) := first.eraseAll rest
    (last, events ++ more)

/-- The live keys whose deadline has come, in ascending order. -/
def expired (l : Ledger) (now : Nat) : List Key :=
  (l.keys.entries.filter fun e => e.2.isExpired now).map (·.1)

/-- Deletes every expired key, all at one new revision. Without expired keys
nothing changes. -/
def expire (l : Ledger) (now : Nat) : Ledger × List Event :=
  match l.expired now with
  | [] => (l, [])
  | keys => l.begin.eraseAll keys

end Ledger

end KeyBroker
