import KeyBroker.Store.Feed
import KeyBroker.Store.Request

/-!
# The in-memory store

A ledger that can be cut off and closed, with the native watches opened on it.
Every event goes to the feeds whose stem it matches, in the order of the
commits. A feed whose reader left is struck off when an event would have gone to
it. Losing the connection and closing both send every feed one last error.
-/

namespace KeyBroker

/-- A native watch: the feed it sends to and the keys it is about. -/
structure Watcher where
  feed : Nat
  stem : Key
  deriving DecidableEq, Repr

/-- The in-memory store. -/
structure Store where
  ledger : Ledger := {}
  /-- Whether the connection stands. -/
  available : Bool := true
  closed : Bool := false
  /-- The open native watches, oldest first. -/
  watchers : List Watcher := []
  /-- All feeds ever opened; a feed is known by its place here. -/
  feeds : List Feed := []

namespace Store

/-- The feed of a number. -/
def feed (s : Store) (n : Nat) : Feed := s.feeds.getD n { fed := false }

/-- The store with feed `n` changed by `f`. -/
def onFeed (s : Store) (n : Nat) (f : Feed → Feed) : Store :=
  { s with feeds := s.feeds.modify n f }

/-- Opens a feed that nothing in the store sends to yet. -/
def openFeed (s : Store) : Store × Nat :=
  ({ s with feeds := s.feeds ++ [{}] }, s.feeds.length)

/-- Opens a native watch on the keys that begin with `stem`. -/
def openWatch (s : Store) (stem : Key) : Store × Nat :=
  let (opened, feed) := s.openFeed
  ({ opened with watchers := opened.watchers ++ [{ feed, stem }] }, feed)

/-- The watchers that an event is about. -/
def concerned (s : Store) (event : Event) : List Watcher :=
  s.watchers.filter fun w => w.stem.beginsWith event.key

/-- Sends an event to every watcher it is about, and strikes off those of them
that nobody reads any more. -/
def emit (s : Store) (event : Event) : Store :=
  let receivers := (s.concerned event).map (·.feed)
  { s with
    feeds := s.feeds.mapIdx fun n feed => if n ∈ receivers then feed.push (.ok event) else feed
    watchers := s.watchers.filter fun w =>
      !w.stem.beginsWith event.key || (s.feed w.feed).attended }

/-- Sends events in order. -/
def emitAll (s : Store) : List Event → Store
  | [] => s
  | event :: rest => (s.emit event).emitAll rest

/-- Ends every native watch with an error. -/
def breakWatches (s : Store) (error : StorageError) : Store :=
  let receivers := s.watchers.map (·.feed)
  { s with
    feeds := s.feeds.mapIdx fun n feed =>
      if n ∈ receivers then (feed.push (.error error)).finish else feed
    watchers := [] }

/-- Why the store answers no request at all, if it does not. -/
def refusal (s : Store) : Option StorageError :=
  if s.closed then some .closed
  else if s.available then none
  else some (.unavailable "backend unreachable")

/-- Cuts or restores the connection. Cutting it breaks every native watch. -/
def setAvailable (s : Store) (available : Bool) : Store :=
  let s := { s with available }
  if available then s else s.breakWatches (.unavailable "connection lost")

/-- Forgets history, whatever the state of the connection. -/
def compact (s : Store) (revision : Nat) : Store :=
  { s with ledger := s.ledger.compact revision }

/-- Number of open native watches. -/
def watchCount (s : Store) : Nat := s.watchers.length

/-- A store after a request, with the feeds that were sent something, in the order
in which they were, and the outcome. -/
structure Served (service : Service) where
  store : Store
  reached : List Nat
  outcome : Outcome service.Reply

/-- The feeds that a list of events goes to. -/
def reach (s : Store) (events : List Event) : List Nat :=
  events.flatMap fun event => (s.concerned event).map (·.feed)

/-- Takes over a changed ledger and sends its events. -/
def adopt (s : Store) (service : Service) (change : Ledger.Change (Outcome service.Reply)) :
    Served service where
  store := { s with ledger := change.ledger }.emitAll change.events
  reached := s.reach change.events
  outcome := change.result

/-- Answers a request that is allowed on a store that can be reached. -/
def perform (s : Store) (now : Nat) : {service : Service} → Request service → Served service
  | _, .put key value ttl => s.adopt .put (s.ledger.put now key value ttl)
  | _, .get key =>
    let change := s.ledger.get now key
    s.adopt .get { change with result := .ok change.result }
  | _, .delete key under =>
    let change := if under then s.ledger.deletePrefix now key else s.ledger.delete now key
    s.adopt .delete { change with result := .ok change.result }
  | _, .range query => s.adopt .range (s.ledger.range now query)
  | _, .txn writes =>
    let change := s.ledger.txn now writes
    s.adopt .txn { change with result := .ok change.result }
  | _, .watch stem =>
    let (opened, feed) := s.openWatch stem
    { store := opened, reached := [], outcome := .ok feed }
  | _, .close =>
    { store := { s with closed := true }.breakWatches .closed
      reached := s.watchers.map (·.feed)
      outcome := .ok () }

/-- Answers a request. A write to an empty key is refused first of all, then a
closed or unreachable store refuses everything but closing, which can be asked
again and again. -/
def serve (s : Store) (now : Nat) {service : Service} (request : Request service) :
    Served service :=
  if request.namesEmptyKey then
    { store := s, reached := [], outcome := .failed (.invalidArgument "key must not be empty") }
  else
    match service, request with
    | .close, request =>
      if s.closed then { store := s, reached := [], outcome := .ok () } else s.perform now request
    | _, request =>
      match s.refusal with
      | some error => { store := s, reached := [], outcome := .failed error }
      | none => s.perform now request

end Store

end KeyBroker
