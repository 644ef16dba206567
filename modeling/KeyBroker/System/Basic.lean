import KeyBroker.Broker.Call
import KeyBroker.Names
import KeyBroker.Store.Basic
import KeyBroker.Watch.Dispatcher

/-!
# A broker at work

A system is a broker with the store behind it, the calls under way, and its
subscriptions. Calls and dispatchers are workers: each is polled by itself, and a
poll is one atomic step. The order in which workers became ready is kept, and
time only moves when nobody has anything to do. A dispatcher that has moved much in
one go rests until nobody else is ready. The store may be given a script of answers
that come late, never, or in place of its own.
-/

namespace KeyBroker

/-- What a script has in place of a reply: the reply itself, or for a watch the name of
a stub, whose feed is opened when the watch is. -/
@[reducible]
def Service.Planned : Service → Type
  | .put => Nat
  | .get => Option KeyValue
  | .delete => Deletion
  | .range => Page
  | .txn => Nat
  | .watch => String
  | .close => Unit

/-- How a scripted store treats one request. -/
inductive Scripted (service : Service) where
  /-- Pass the request on after so many milliseconds. -/
  | forward (delay : Nat)
  /-- Never answer. -/
  | hang
  /-- Answer with an error, without looking at the request. -/
  | fail (error : StorageError)
  /-- Answer with a reply, without looking at the request. -/
  | reply (planned : service.Planned)

/-- One line of a script. -/
structure ScriptLine where
  service : Service
  answer : Scripted service

/-- Lines to come; each service follows its own lines in their order. -/
abbrev Script := List ScriptLine

/-- Takes the next line for a service. Without one, requests are passed on at
once. -/
def Script.next (service : Service) : Script → Scripted service × Script
  | [] => (.forward 0, [])
  | line :: rest =>
    if h : line.service = service then (h ▸ line.answer, rest)
    else
      let (answer, others) := Script.next service rest
      (answer, line :: others)

/-- The wait for the store's answer. -/
structure Exchange where
  /-- When the request was made, in milliseconds. -/
  started : Nat
  /-- From when on the wait is too long. -/
  deadline : Nat
  /-- When the store acts on the request, or `none` if it never does. -/
  due : Option Nat
  deriving DecidableEq, Repr

/-- The moment at which a waiting call is looked at again. -/
def Exchange.wakeAt (e : Exchange) : Nat :=
  match e.due with
  | some due => min due e.deadline
  | none => e.deadline

/-- A call under way. -/
structure InFlight where
  id : Nat
  call : Call
  /-- The wait for an answer, if the request was made already. -/
  exchange : Option Exchange := none
  /-- Whether the broker cannot go away before the call has ended. -/
  holdsBroker : Bool := false
  deriving DecidableEq, Repr

/-- What can be polled. -/
inductive Worker where
  | call (id : Nat)
  | dispatcher (id : Nat)
  deriving DecidableEq, Repr

/-- A broker, its store, and the work under way. -/
structure System where
  settings : Settings
  /-- Milliseconds since the start. -/
  now : Nat := 0
  store : Store := {}
  script : Script := []
  /-- Feeds that are fed from outside, by the names of their stubs. -/
  stubs : Names Nat := []
  /-- Whether closing was asked for; only the first time reaches the store. -/
  closing : Bool := false
  /-- Whether the broker stopped serving. -/
  stopped : Bool := false
  /-- How many hold the broker: its user, and calls that were left on their own. -/
  holders : Nat := 1
  /-- The number of the next subscription. -/
  nextSubscription : Nat := 1
  /-- Numbers of the registered subscriptions. -/
  registered : List Nat := []
  /-- Dispatchers that have not ended. -/
  dispatchers : List Dispatcher := []
  /-- All channels ever made; a channel is known by its place here. -/
  channels : List Channel := []
  /-- Calls under way; of two waiting ones the earlier in line comes first. -/
  calls : List InFlight := []
  nextCall : Nat := 0
  /-- Answers of calls that have ended. -/
  finished : List (Nat × Answer) := []
  /-- Workers with something to do, in the order in which they will be polled. -/
  ready : List Worker := []
  /-- Dispatchers that let all others go first, the last of them at the front. -/
  resting : List Nat := []
  journal : Journal := {}

namespace System

/-- The system with a line added to its log. -/
def note (s : System) (notice : Notice) : System :=
  { s with journal := s.journal.note notice }

/-- The system with a fact observed. -/
def observe (s : System) (observation : Observation) : System :=
  { s with journal := s.journal.observe observation }

/-- Puts a worker at the end of the line, unless it stands there already. -/
def wake (s : System) (worker : Worker) : System :=
  if worker ∈ s.ready then s else { s with ready := s.ready ++ [worker] }

/-- Wakes workers one after the other. -/
def wakeAll (s : System) : List Worker → System
  | [] => s
  | worker :: rest => (s.wake worker).wakeAll rest

/-- The dispatcher of a subscription. -/
def dispatcher? (s : System) (id : Nat) : Option Dispatcher :=
  s.dispatchers.find? fun d => d.subscription.id = id

/-- Ends the rest of all that rest: they are next in line. -/
def endRest (s : System) : System :=
  { s with resting := [] }.wakeAll (s.resting.map .dispatcher)

/-- Whether a dispatcher waits for feed `n`. -/
def awaits (s : System) (n : Nat) (d : Dispatcher) : Bool :=
  d.subscription.feed = n && d.phase = .reading && d.subscription.id ∉ s.resting

/-- The dispatchers that wait for feed `n`. -/
def readersOf (s : System) (n : Nat) : List Worker :=
  (s.dispatchers.filter (s.awaits n)).map fun d => .dispatcher d.subscription.id

/-- Wakes the readers of feeds that were sent something. -/
def wakeReaders (s : System) (feeds : List Nat) : System :=
  s.wakeAll (feeds.flatMap s.readersOf)

/-- Ends the feed of a stub. -/
def endStub (s : System) (name : String) : System :=
  match s.stubs.find? name with
  | none => s
  | some n =>
    { s with store := s.store.onFeed n (·.finish), stubs := s.stubs.remove name }.wakeReaders [n]

/-- Opens a feed under the name of a stub. A feed that had the name ends. -/
def openStub (s : System) (name : String) : System × Nat :=
  let s := s.endStub name
  let (store, n) := s.store.openFeed
  ({ s with store := store, stubs := s.stubs.bind name n }, n)

/-- The channel of a number. -/
def channel (s : System) (n : Nat) : Channel :=
  s.channels.getD n { capacity := 0, received := false }

/-- The system with channel `n` changed by `f`. -/
def onChannel (s : System) (n : Nat) (f : Channel → Channel) : System :=
  { s with channels := s.channels.modify n f }

/-- Makes a channel, if its capacity allows it. -/
def openChannel (s : System) (capacity : Nat) (held : Bool) : Option (System × Nat) :=
  if Channel.capacityAllowed capacity then
    some ({ s with channels := s.channels ++ [{ capacity, held }] }, s.channels.length)
  else none

/-- Whether anybody can still send on a channel. -/
def isFed (s : System) (n : Nat) : Bool :=
  (s.channel n).held || s.dispatchers.any (·.subscription.channel = n) ||
    s.calls.any (·.call.channel? = some n)

/-- What a receiver finds on its channel. -/
inductive Receipt where
  | item (item : Item)
  | empty
  | closed

/-- Receives without waiting. -/
def receive (s : System) (n : Nat) : System × Receipt :=
  match (s.channel n).receive with
  | some (item, channel, promised) =>
    let s := s.onChannel n fun _ => channel
    (s.wakeAll (promised.toList.map .dispatcher), .item item)
  | none => (s, if s.isFed n then .empty else .closed)

/-- Drops the receiver of a channel. Senders in line learn it; others only when
they next send. -/
def dropReceiver (s : System) (n : Nat) : System :=
  let inLine := (s.channel n).pending
  (s.onChannel n (·.close)).wakeAll (inLine.map .dispatcher)

/-- Whether a subscription is registered. -/
def isActive (s : System) (id : Nat) : Bool := id ∈ s.registered

/-- Number of registered subscriptions. -/
def activeWatches (s : System) : Nat := s.registered.length

/-- Ends a subscription at its subscriber's wish. -/
def unsubscribe (s : System) (id : Nat) : System :=
  if s.isActive id then
    let s : System :=
      { s with
        registered := s.registered.erase id
        dispatchers := s.dispatchers.map fun d =>
          if d.subscription.id = id then { d with cancelled := true } else d }
    s.wake (.dispatcher id)
  else s

/-- Ends subscriptions one after the other. -/
def unsubscribeAll (s : System) : List Nat → System
  | [] => s
  | id :: rest => (s.unsubscribe id).unsubscribeAll rest

/-- Registers a subscription that reads `feed`, and starts its dispatcher. -/
def register (s : System) (scope localStem : Key) (channel feed : Nat) : System × Handle :=
  let id := s.nextSubscription
  let subscription : Subscription :=
    { id, localStem, stem := scope.qualify localStem, scope, channel, feed }
  let s : System :=
    { s with
      nextSubscription := id + 1
      registered := s.registered ++ [id]
      dispatchers := s.dispatchers ++ [{ subscription }] }
  (s.wake (.dispatcher id), { id, stem := localStem })

/-- Stops serving: every dispatcher and every call under way is to end. -/
def stop (s : System) : System :=
  if s.stopped then s
  else
    let stopped : System := { s with stopped := true }
    let dispatchers := s.dispatchers.reverse.map fun d => Worker.dispatcher d.subscription.id
    stopped.wakeAll (dispatchers ++ s.calls.map fun c => Worker.call c.id)

/-- One holder of the broker lets go. The last one stops a broker that was not
closed. -/
def release (s : System) : System :=
  let s := { s with holders := s.holders - 1 }
  if s.holders = 0 && !s.stopped then (s.note .brokerDropped).stop else s

end System

end KeyBroker
