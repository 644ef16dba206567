import KeyBroker.Journal

/-!
# Transactions

A batch records writes and sends them in one request. It is committed at most
once: after the first commit, whatever came of it, further writes are ignored
and further commits refused. A write to an empty key spoils the whole batch.
-/

namespace KeyBroker

/-- A transaction that is being put together or was committed. -/
structure Batch where
  /-- Scope put in front of the keys. -/
  scope : Key
  /-- Writes recorded so far, with full keys. -/
  writes : List Write := []
  /-- Why the batch cannot be sent. -/
  spoiled : Option String := none
  committed : Bool := false
  deriving DecidableEq, Repr

namespace Batch

/-- Records the write `write` of the local key `key`. -/
def record (b : Batch) (key : Key) (write : Key → Write) : Batch :=
  if b.committed then b
  else if key.isEmpty then
    { b with spoiled := b.spoiled.or (some "transaction key must not be empty") }
  else { b with writes := b.writes ++ [write (b.scope.qualify key)] }

/-- What the log says about recording one more write. -/
def recordNotices (b : Batch) : List Notice := if b.committed then [.writeIgnored] else []

/-- Number of recorded writes. -/
def size (b : Batch) : Nat := b.writes.length

/-- What a commit comes to before the store is asked. -/
inductive Decision where
  /-- The commit is over. -/
  | settled (result : Except Error Unit)
  /-- These writes are to be sent. -/
  | send (writes : List Write)
  deriving Repr

/-- Commits the batch on a broker that is `stopped` or not. -/
def commit (b : Batch) (stopped : Bool) : Batch × Decision :=
  if b.committed then (b, .settled (.error .alreadyCommitted))
  else
    let b := { b with committed := true }
    if stopped then (b, .settled (.error .closed))
    else
      match b.spoiled with
      | some reason =>
        ({ b with writes := [], spoiled := none }, .settled (.error (.invalidKey reason)))
      | none =>
        match b.writes with
        | [] => (b, .settled (.ok ()))
        | writes => ({ b with writes := [] }, .send writes)

end Batch

end KeyBroker
