import KeyBroker.System.Basic

/-!
# Polling

One poll of a dispatcher is one of its steps, or the beginning of a rest once it has
used up its credit. One poll of a call makes its
request, or looks whether the awaited answer is there. A call ends at the first
of these that holds when it is polled: the broker stopped, the store acted on the
request, the time allowed is over. Requests that wait for nothing are answered
in the poll that makes them.
-/

namespace KeyBroker

/-- What a caller is told when a request fails, and what the log says. -/
def Service.failure (service : Service) (error : StorageError) : Error × Notice :=
  match service with
  | .close => (.storeUnavailable service.name error, .closeFailed)
  | _ =>
    (.ofStorage service.name error,
      match error with
      | .invalidArgument _ | .compacted .. => .requestRejected
      | _ => .requestFailed)

/-- What a caller is told when a request takes longer than `allowed`, and what the
log says. -/
def Service.overdue (service : Service) (allowed : Duration) : Error × Notice :=
  (.storeUnavailable service.name (.timeout allowed),
    match service with
    | .close => .closeFailed
    | _ => .requestTimedOut)

/-- Whether stopping the broker ends a call; closing is what stops it. -/
def Call.endsWithBroker : Call → Bool
  | .close => false
  | _ => true

namespace System

/-- Adds lines to the log. -/
def noteAll (s : System) : List Notice → System
  | [] => s
  | notice :: rest => (s.note notice).noteAll rest

/-- Observes facts. -/
def observeAll (s : System) : List Observation → System
  | [] => s
  | observation :: rest => (s.observe observation).observeAll rest

/-- The dispatcher of subscription `id` has ended. -/
def endDispatcher (s : System) (id feed : Nat) : System :=
  { s with
    registered := s.registered.erase id
    dispatchers := s.dispatchers.filter fun d => d.subscription.id ≠ id
    store := s.store.onFeed feed (·.leave) }.observe .dispatchEnded

/-- The system with the dispatcher of a subscription replaced. -/
def withDispatcher (s : System) (d : Dispatcher) : System :=
  { s with
    dispatchers := s.dispatchers.map fun other =>
      if other.subscription.id = d.subscription.id then d else other }

/-- A dispatcher lets all others go first. -/
def rest (s : System) (d : Dispatcher) : System :=
  { s.withDispatcher d.refreshed with resting := d.subscription.id :: s.resting }

/-- Takes one step of a dispatcher. A dispatcher that has more to do stays first in
line while it has credit. -/
def pollDispatcher (s : System) (id : Nat) (reportFirst : Bool) : System :=
  match s.dispatcher? id with
  | none => s
  | some d =>
    if d.credit = 0 then s.rest d
    else
      let before : Dispatch :=
        { dispatcher := d, feed := s.store.feed d.subscription.feed
          channel := s.channel d.subscription.channel }
      let step := before.step s.settings.slowPolicy (s.stopped || d.cancelled) reportFirst
      let s : System :=
        { s with store := s.store.onFeed d.subscription.feed fun _ => step.after.feed }
      let s := (s.withDispatcher step.dispatcher).onChannel d.subscription.channel
        fun _ => step.after.channel
      let s := ((s.noteAll step.notices).observeAll step.observations).wakeAll
        (step.promised.toList.map .dispatcher)
      match step.pace with
      | .again => { s with ready := .dispatcher id :: s.ready }
      | .waiting => s
      | .over => s.endDispatcher id d.subscription.feed

/-- What a call does once its request was answered, or failed. -/
def answered (s : System) : (call : Call) → Except Error call.service.Reply → System × Turn
  | .put .., reply => (s, .done (.written (reply.map fun _ => ())))
  | .get scope _, reply =>
    (s, .done (.found (reply.bind fun
      | none => .ok none
      | some pair => (pair.reveal scope).map some)))
  | .delete .., reply => (s, .done (.deleted (reply.map fun d => decide (0 < d.deleted))))
  | .deletePrefix .., reply => (s, .done (.deletedPrefix (reply.map (·.deleted))))
  | .list listing, reply => (s, .done (.listing (reply.map listing.openedBy)))
  | .listAll listing, .ok page => (s, Call.continueDrain (listing.openedBy page) [])
  | .listAll _, .error e => (s, .done (.drained [] (some e)))
  | .next listing, .ok page =>
    let (listing, result) := (listing.absorb page).take
    (s, .done (.stepped listing result))
  | .next listing, .error e => (s, .done (.stepped listing (.error e)))
  | .drain listing taken, .ok page => (s, Call.drainPage listing taken page)
  | .drain _ taken, .error e => (s, .done (.drained taken (some e)))
  | .commit batch _, reply => (s, .done (.committed batch (reply.map fun _ => ())))
  | .watch scope stem channel, .ok feed =>
    let (s, handle) := s.register scope stem channel feed
    (s, .done (.watching (.ok handle)))
  | .watch .., .error e => (s, .done (.watching (.error e)))
  | .watchAll scope channel held stem rest, .ok feed =>
    let (s, handle) := s.register scope stem channel feed
    match rest with
    | [] => (s, .done (.watchingAll (.ok (held ++ [handle]))))
    | next :: rest => (s, .ask (.watchAll scope channel (held ++ [handle]) next rest))
  | .watchAll _ _ held _ _, .error e =>
    (s.unsubscribeAll (held.map (·.id)), .done (.watchingAll (.error e)))
  | .close, reply => (s, .done (.closed reply))

/-- Records the answer of a call that has ended. -/
def finish (s : System) (c : InFlight) (answer : Answer) : System :=
  let s := s.noteAll answer.notices
  let s : System :=
    { s with
      calls := s.calls.filter fun other => other.id ≠ c.id
      finished := s.finished ++ [(c.id, answer)] }
  if c.holdsBroker then s.release else s

/-- Lets a call go on with its next turn. A call with a further request stays first
in line. -/
def proceed (s : System) (c : InFlight) : Turn → System
  | .done answer => s.finish c answer
  | .ask call =>
    let next : InFlight := { c with call, exchange := none }
    { s with
      calls := s.calls.map fun other => if other.id = c.id then next else other
      ready := .call c.id :: s.ready }

/-- Ends the request of a call with a reply. -/
def conclude (s : System) (c : InFlight) (reply : Except Error c.call.service.Reply) : System :=
  let (s, turn) := s.answered c.call reply
  s.proceed c turn

/-- Ends the request of a call, begun at `started`, with the outcome that the store
gave it. -/
def settle (s : System) (c : InFlight) (started : Nat)
    (outcome : Outcome c.call.service.Reply) : System :=
  let service := c.call.service
  let lasted : Observation := .lasted service (s.now - started)
  match outcome with
  | .ok reply => ((s.observe (.served service true)).observe lasted).conclude c (.ok reply)
  | .failed error =>
    let (error, notice) := service.failure error
    (((s.observe (.served service false)).note notice).observe lasted).conclude c (.error error)
  | .aborted why => (s.observe lasted).finish c (.aborted why)

/-- The store acts on the request of a call. -/
def act (s : System) (c : InFlight) (started : Nat) : System :=
  let served := s.store.serve (s.now * Duration.millisecond) c.call.request
  let s := { s with store := served.store }.wakeReaders served.reached
  s.settle c started served.outcome

/-- The call waits for its answer, behind all others that wait. -/
def await (s : System) (c : InFlight) (due : Option Nat) : System :=
  let exchange : Exchange :=
    { started := s.now, deadline := s.now + s.settings.requestTimeout, due }
  let others := s.calls.filter fun other => other.id ≠ c.id
  { s with calls := others ++ [{ c with exchange := some exchange }] }

/-- Turns what a script has in place of a reply into that reply. -/
def fulfil (s : System) : (service : Service) → service.Planned → System × service.Reply
  | .put, revision => (s, revision)
  | .get, pair => (s, pair)
  | .delete, deletion => (s, deletion)
  | .range, page => (s, page)
  | .txn, revision => (s, revision)
  | .watch, stub => s.openStub stub
  | .close, () => (s, ())

/-- Makes the request of a call. On a stopped broker it is not made. -/
def makeRequest (s : System) (c : InFlight) : System :=
  if s.stopped && c.call.endsWithBroker then s.conclude c (.error .closed)
  else
    let (answer, script) := s.script.next c.call.service
    let s := { s with script }
    match answer with
    | .forward 0 => s.act c s.now
    | .forward delay => s.await c (some (s.now + delay))
    | .hang => s.await c none
    | .fail error => s.settle c s.now (.failed error)
    | .reply planned =>
      let (s, reply) := s.fulfil c.call.service planned
      s.settle c s.now (.ok reply)

/-- Looks whether the wait of a call is over. -/
def checkAnswer (s : System) (c : InFlight) (e : Exchange) : System :=
  let service := c.call.service
  let lasted : Observation := .lasted service (s.now - e.started)
  if s.stopped && c.call.endsWithBroker then (s.observe lasted).conclude c (.error .closed)
  else if e.due.any (· ≤ s.now) then s.act c e.started
  else if e.deadline ≤ s.now then
    let (error, notice) := service.overdue s.settings.timeout
    (((s.observe (.served service false)).note notice).observe lasted).conclude c (.error error)
  else s

/-- Polls a call. -/
def pollCall (s : System) (id : Nat) : System :=
  match s.calls.find? (·.id = id) with
  | none => s
  | some c =>
    match c.exchange with
    | none => s.makeRequest c
    | some e => s.checkAnswer c e

/-- Polls a worker. -/
def poll (s : System) : Worker → System
  | .call id => s.pollCall id
  | .dispatcher id => s.pollDispatcher id false

end System

end KeyBroker
