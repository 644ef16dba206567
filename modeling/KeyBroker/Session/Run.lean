import KeyBroker.Metrics
import KeyBroker.Session.Describe
import KeyBroker.Session.State

/-!
# Running a session

Each step does its work, and then all workers are run until none is ready. A step
that makes a call waits for its answer, which may move the clock.
-/

namespace KeyBroker.Session

/-- An answer without a value of its own. -/
def showUnit : Except Error Unit → Shown
  | .ok () => .ok
  | .error e => .error e

/-- Pairs as pairs, or as their keys. -/
def showPairs (pairs : List KeyValue) (keysOnly : Bool) : Shown :=
  if keysOnly then .keys (pairs.map (·.key)) else .pairs pairs

/-- A pair as a pair, or as its key. -/
def showPair (pair : KeyValue) (keysOnly : Bool) : Shown :=
  if keysOnly then .key pair.key else .pair pair

/-- The answer of a call that binds no name. -/
def showAnswer (keysOnly : Bool) : Answer → Shown
  | .written r | .committed _ r | .closed r => showUnit r
  | .found (.ok none) => .nothing
  | .found (.ok (some pair)) => .pair pair
  | .deleted (.ok b) => .flag b
  | .deletedPrefix (.ok n) => .number n
  | .drained taken none => showPairs taken keysOnly
  | .drained _ (some e) => .error e
  | .found (.error e) | .deleted (.error e) | .deletedPrefix (.error e) | .listing (.error e)
  | .stepped _ (.error e) | .watching (.error e) | .watchingAll (.error e) => .error e
  | .stepped _ (.ok none) => .nothing
  | .stepped _ (.ok (some pair)) => showPair pair keysOnly
  | .listing (.ok l) => .snapshot l.revision
  | .watching (.ok h) => .handle h true
  | .watchingAll (.ok hs) => .handles (hs.map (·, true))
  | .aborted _ => .aborted

/-- The outcome of a request made directly to the store. -/
def showOutcome {α : Type} (f : α → Shown) : Outcome α → Shown
  | .ok a => f a
  | .failed e => .storageError e
  | .aborted _ => .aborted

/-- A signal read from a feed. -/
def Received.ofSignal : Signal → Received
  | .ok change => .event change
  | .error e => .storageError e

/-- An item received from a channel. -/
def Received.ofItem : Item → Received
  | .ok change => .event change
  | .error e => .error e

namespace State

/-- Makes a call and waits for its answer. -/
def call (s : State) (turn : Turn) : State × Answer :=
  let (system, answer) := s.system.run turn
  (s.withSystem system, answer.getD (.closed (.error .closed)))

/-- A command made ready: the session without what the call takes along, the first
turn, whether the call works on the broker itself, and the name of its batch. -/
structure Prepared where
  state : State
  turn : Turn
  onBroker : Bool
  keysOnly : Bool := false
  batch : Option String := none

/-- Makes a command ready, if the objects it names are there. -/
def prepare (s : State) : Command → Option Prepared
  | .put on key value ttl => (s.scope? on).map fun scope =>
    { state := s, turn := Call.beginPut scope key value ttl, onBroker := on.isNone }
  | .get on key => (s.scope? on).map fun scope =>
    { state := s, turn := .ask (.get scope key), onBroker := on.isNone }
  | .delete on key => (s.scope? on).map fun scope =>
    { state := s, turn := Call.beginDelete scope key, onBroker := on.isNone }
  | .deletePrefix on stem => (s.scope? on).map fun scope =>
    { state := s, turn := .ask (.deletePrefix scope stem), onBroker := on.isNone }
  | .listAll on stem keysOnly => (s.scope? on).map fun scope =>
    { state := s, turn := Call.beginList s.system.settings scope stem keysOnly .listAll
      onBroker := on.isNone, keysOnly }
  | .commit name => (s.batches.find? name).map fun batch =>
    { state := { s with batches := s.batches.remove name }
      turn := Call.beginCommit batch s.system.stopped, onBroker := false, batch := some name }
  | .close =>
    if s.hasBroker then
      let (system, turn) := s.system.beginClose
      some { state := s.withSystem system, turn, onBroker := true }
    else none

/-- Gives a batch its name back after a commit. -/
def rebind (s : State) (name : Option String) (answer : Answer) : State :=
  match name, answer with
  | some name, .committed batch _ => { s with batches := s.batches.bind name batch }
  | _, _ => s

/-- Makes a command's call and waits for its answer. -/
def runCommand (s : State) (command : Command) : State × Shown :=
  match s.prepare command with
  | none => (s, .malformed)
  | some p =>
    let (s, answer) := p.state.call p.turn
    (s.rebind p.batch answer, showAnswer p.keysOnly answer)

/-- Leaves a command's call to run on its own. -/
def spawn (s : State) (name : String) (command : Command) : State × Shown :=
  match s.prepare command with
  | none => (s, .malformed)
  | some p =>
    let (system, id) := p.state.system.launch p.turn p.onBroker
    let task : Task := { call := id, keysOnly := p.keysOnly, batch := p.batch }
    ({ p.state with system, tasks := s.tasks.bind name task }, .ok)

/-- The answer of a call that ran on its own, if it has ended. -/
def join (s : State) (name : String) : State × Shown :=
  match s.tasks.find? name with
  | none => (s, .malformed)
  | some task =>
    match s.system.takeAnswer task.call with
    | none => (s, .pending)
    | some (answer, system) =>
      let s := { s with system, tasks := s.tasks.remove name }
      (s.rebind task.batch answer, showAnswer task.keysOnly answer)

/-- Opens a listing under a name. -/
def openList (s : State) (name : String) (on : Option String) (stem : Key) (keysOnly : Bool) :
    State × Shown :=
  match s.scope? on with
  | none => (s, .malformed)
  | some scope =>
    let (s, answer) := s.call (Call.beginList s.system.settings scope stem keysOnly .list)
    match answer with
    | .listing (.ok listing) =>
      let cursor : Cursor := { listing := some listing, keysOnly }
      ({ s with cursors := s.cursors.bind name cursor }, .snapshot listing.revision)
    | answer => (s, showAnswer keysOnly answer)

/-- Takes the next pair of a listing or a stream. -/
def next (s : State) (name : String) : State × Shown :=
  match s.cursors.find? name with
  | none => (s, .malformed)
  | some cursor =>
    match cursor.listing with
    | none => (s, .nothing)
    | some listing =>
      let (s, answer) := s.call (Call.beginNext listing)
      match answer with
      | .stepped listing result =>
        let listing :=
          match cursor.streaming, result with
          | true, .ok none | true, .error _ => none
          | _, _ => some listing
        ({ s with cursors := s.cursors.bind name { cursor with listing } },
          showAnswer cursor.keysOnly answer)
      | answer => (s, showAnswer cursor.keysOnly answer)

/-- Uses up a listing or a stream. -/
def collect (s : State) (name : String) : State × Shown :=
  match s.cursors.find? name with
  | none => (s, .malformed)
  | some cursor =>
    let s := { s with cursors := s.cursors.remove name }
    match cursor.listing with
    | none => (s, .rest [] cursor.keysOnly none)
    | some listing =>
      let (s, answer) := s.call (Call.continueDrain listing [])
      match cursor.streaming, answer with
      | true, .drained taken failure => (s, .rest taken cursor.keysOnly failure)
      | _, answer => (s, showAnswer cursor.keysOnly answer)

/-- Turns a listing into a stream. -/
def intoStream (s : State) (name : String) : State × Shown :=
  match s.cursors.find? name with
  | none => (s, .malformed)
  | some cursor =>
    ({ s with cursors := s.cursors.bind name { cursor with streaming := true } }, .ok)

/-- A batch as it is shown. -/
def showBatch (b : Batch) : Shown := .batch b.size b.committed

/-- Records a write in a batch. -/
def recordWrite (s : State) (name : String) (key : Key) (write : Key → Write) : State × Shown :=
  match s.batches.find? name with
  | none => (s, .malformed)
  | some before =>
    let batch := before.record key write
    ({ s with
       system := s.system.noteAll before.recordNotices
       batches := s.batches.bind name batch }, showBatch batch)

/-- Makes a channel with a sender that the session keeps. -/
def openChannel (s : State) (name : String) (capacity : Nat) : State × Shown :=
  match s.system.openChannel capacity true with
  | none => (s, .aborted)
  | some (system, n) =>
    let s := (s.withSystem system).dropSender name
    ({ s.bindInlet name (.channel n) with senders := s.senders.bind name n }, .ok)

/-- Subscribes a channel of the session to one stem. -/
def watch (s : State) (name channel : String) (on : Option String) (stem : Key) : State × Shown :=
  match s.scope? on, s.senders.find? channel with
  | some scope, some n =>
    let (s, answer) := s.call (.ask (.watch scope stem n))
    match answer with
    | .watching (.ok h) => ({ s with handles := s.handles.bind name h }, s.showHandle h)
    | answer => (s, showAnswer false answer)
  | _, _ => (s, .malformed)

/-- Names handles by a common name and their places. -/
def bindHandles (s : State) (name : String) (place : Nat) : List Handle → State
  | [] => s
  | h :: rest =>
    let bound := s.handles.bind (name ++ toString place) h
    { s with handles := bound }.bindHandles name (place + 1) rest

/-- Subscribes a channel of the session to several stems. -/
def watchAll (s : State) (name channel : String) (on : Option String) (stems : List Key) :
    State × Shown :=
  match s.scope? on, s.senders.find? channel with
  | some scope, some n =>
    let (s, answer) := s.call (Call.beginWatchAll scope n stems)
    match answer with
    | .watchingAll (.ok hs) =>
      (s.bindHandles name 0 hs, .handles (hs.map fun h => (h, s.system.isActive h.id)))
    | answer => (s, showAnswer false answer)
  | _, _ => (s, .malformed)

/-- Subscribes a channel that the broker makes. -/
def subscribe (s : State) (name : String) (on : Option String) (stem : Key) : State × Shown :=
  match s.scope? on with
  | none => (s, .malformed)
  | some scope =>
    match s.system.openChannel s.system.settings.bufferSize false with
    | none => (s, .aborted)
    | some (system, n) =>
      let (s, answer) := (s.withSystem system).call (.ask (.watch scope stem n))
      match answer with
      | .watching (.ok h) => (s.bindInlet name (.subscription n h), s.showHandle h)
      | answer => (s.withSystem (s.system.dropReceiver n), showAnswer false answer)

/-- Takes a subscription apart, or makes it a stream, which gives up the handle. -/
def splitSubscription (s : State) (name : String) (keepHandle : Bool) : State × Shown :=
  match s.inlets.find? name with
  | some (.subscription n h) =>
    let handles := if keepHandle then s.handles.bind name h else s.handles
    ({ s with inlets := s.inlets.bind name (.channel n), handles }, .ok)
  | _ => (s, .malformed)

/-- Receives from an inlet without waiting. -/
def receiveFrom (s : State) : Inlet → State × Received
  | .channel n | .subscription n _ =>
    let (system, receipt) := s.system.receive n
    (s.withSystem system,
      match receipt with
      | .item item => .ofItem item
      | .empty => .empty
      | .closed => .closed)
  | .feed n =>
    match (s.system.store.feed n).read with
    | .signal signal rest =>
      (s.withSystem { s.system with store := s.system.store.onFeed n fun _ => rest },
        .ofSignal signal)
    | .nothingYet => (s, .empty)
    | .ended => (s, .closed)

/-- Receives again and again, at most `fuel` times, until nothing more is to be
had. All workers are run after each item. -/
def drainFrom (s : State) (inlet : Inlet) : (fuel : Nat) → State × List Received
  | 0 => (s, [])
  | fuel + 1 =>
    let (s, received) := s.receiveFrom inlet
    let s := s.withSystem s.system.settled
    if received.isLast then (s, [received])
    else
      let (s, others) := s.drainFrom inlet fuel
      (s, received :: others)

/-- Drops the receiving end of a name. -/
def dropReceiver (s : State) (name : String) : State × Shown :=
  match s.inlets.find? name with
  | none => (s, .malformed)
  | some inlet => ({ s.dropInlet inlet with inlets := s.inlets.remove name }, .ok)

/-- Ends the subscription of a handle, or of a subscription together with its
receiver. -/
def unsubscribe (s : State) (name : String) : State × Shown :=
  match s.handles.find? name with
  | some h =>
    ({ s with system := s.system.unsubscribe h.id, handles := s.handles.remove name }, .ok)
  | none =>
    match s.inlets.find? name with
    | some (.subscription n h) =>
      ({ s with
         system := (s.system.unsubscribe h.id).dropReceiver n
         inlets := s.inlets.remove name }, .ok)
    | _ => (s, .malformed)

/-- Lets go of the broker; views stay. -/
def dropBroker (s : State) : State × Shown :=
  if s.hasBroker then ({ s with system := s.system.release, hasBroker := false }, .ok)
  else (s, .malformed)

/-- Asks the store directly. -/
def storeCall (s : State) {service : Service} (request : Request service)
    (f : service.Reply → Shown) : State × Shown :=
  let (system, outcome) := s.system.serveDirectly request
  (s.withSystem system, showOutcome f outcome)

/-- Opens a native watch of the session's own. -/
def storeWatch (s : State) (name : String) (stem : Key) : State × Shown :=
  match s.system.serveDirectly (.watch stem) with
  | (system, .ok n) => ((s.withSystem system).bindInlet name (.feed n), .ok)
  | (system, outcome) => (s.withSystem system, showOutcome (fun _ => .ok) outcome)

/-- Adds a line to the end of the store's script. -/
def inject (s : State) (line : ScriptLine) : State :=
  s.withSystem { s.system with script := s.system.script ++ [line] }

/-- Sends a signal into the feed of a stub. -/
def emit (s : State) (stub : String) (signal : Signal) : State × Shown :=
  match s.system.stubs.find? stub with
  | none => (s, .malformed)
  | some n =>
    let attended := (s.system.store.feed n).attended
    let system : System := { s.system with store := s.system.store.onFeed n (·.push signal) }
    (s.withSystem (if attended then system.wakeReaders [n] else system), .flag attended)

/-- Does the work of a step. -/
def perform (s : State) : Step → State × Shown
  | .call command => s.runCommand command
  | .spawn name command => s.spawn name command
  | .join name => s.join name
  | .view name on stem =>
    match s.scope? on with
    | none => (s, .malformed)
    | some scope =>
      let scope := scope.qualify stem
      ({ s with views := s.views.bind name scope }, .key scope)
  | .list name on stem keysOnly => s.openList name on stem keysOnly
  | .next name => s.next name
  | .snapshot name =>
    match (s.cursors.find? name).bind (·.listing) with
    | none => (s, .malformed)
    | some listing => (s, .number listing.revision)
  | .collect name => s.collect name
  | .intoStream name => s.intoStream name
  | .txn name on =>
    match s.scope? on with
    | none => (s, .malformed)
    | some scope =>
      let batch : Batch := { scope }
      ({ s with batches := s.batches.bind name batch }, showBatch batch)
  | .txnPut name key value => s.recordWrite name key (.put · value)
  | .txnDelete name key => s.recordWrite name key .delete
  | .txnInfo name => (s, (s.batches.find? name).elim .malformed showBatch)
  | .channel name capacity => s.openChannel name capacity
  | .dropSender name => (s.dropSender name, .ok)
  | .watch name channel on stem => s.watch name channel on stem
  | .watchAll name channel on stems => s.watchAll name channel on stems
  | .subscribe name on stem => s.subscribe name on stem
  | .intoParts name => s.splitSubscription name true
  | .subscriptionStream name => s.splitSubscription name false
  | .receive name =>
    match s.inlets.find? name with
    | none => (s, .malformed)
    | some inlet =>
      let (s, received) := s.receiveFrom inlet
      (s, .received received)
  | .drain name =>
    match s.inlets.find? name with
    | none => (s, .malformed)
    | some inlet =>
      let (s, all) := s.drainFrom inlet System.patience
      (s, .drained all)
  | .dropReceiver name => s.dropReceiver name
  | .handle name => (s, (s.handle? name).elim .malformed s.showHandle)
  | .unsubscribe name => s.unsubscribe name
  | .isClosed => (s, if s.hasBroker then .flag s.system.stopped else .malformed)
  | .settings => (s, if s.hasBroker then .settings s.system.settings else .malformed)
  | .dropBroker => s.dropBroker
  | .describeBroker => (s, if s.hasBroker then .text s.system.describe else .malformed)
  | .describeView name =>
    (s, (s.views.find? name).elim .malformed fun scope => .text (s.system.describeView scope))
  | .describeBatch name =>
    (s, (s.batches.find? name).elim .malformed fun batch => .text (batch.describe s.system))
  | .advance millis => (s.withSystem (s.system.advance millis), .ok)
  | .metrics => (s, .samples (Metrics.samples s.system.journal))
  | .storePut key value ttl => s.storeCall (.put key value ttl) .number
  | .storeGet key => s.storeCall (.get key) fun pair => pair.elim .nothing .pair
  | .storeDelete key under => s.storeCall (.delete key under) .deletion
  | .storeRange query => s.storeCall (.range query) .page
  | .storeTxn writes => s.storeCall (.txn writes) .number
  | .storeWatch name stem => s.storeWatch name stem
  | .storeClose => s.storeCall .close fun _ => .ok
  | .compact revision =>
    (s.withSystem { s.system with store := s.system.store.compact revision }, .ok)
  | .available value => (s.withSystem (s.system.setAvailable value), .ok)
  | .inject line => (s.inject line, .ok)
  | .emit stub signal => s.emit stub signal
  | .endStub stub => (s.withSystem (s.system.endStub stub), .ok)
  | .unknown => (s, .malformed)

/-- Performs a step and then runs all workers. -/
def step (s : State) (step : Step) : State × Record :=
  let before := s.system.journal.notices.length
  let (s, shown) := s.perform step
  let s := s.withSystem s.system.settled
  let active := if s.hasBroker then some s.system.activeWatches else none
  (s, { shown, active, revision := s.system.store.ledger.revision
        watches := s.system.store.watchCount, now := s.system.now
        notices := s.system.journal.noticesSince before })

/-- Performs steps in order. -/
def steps (s : State) : List Step → List Record
  | [] => []
  | first :: rest =>
    let (s, record) := s.step first
    record :: s.steps rest

end State

/-- Makes a broker with the given settings and runs a session on it. Settings that
are refused make no broker. -/
def run (settings : Settings) (steps : List Step) : Except Error Transcript :=
  settings.validate.map fun notices =>
    let system : System := { settings }
    { created := notices, records := State.steps { system := system.noteAll notices } steps }

end KeyBroker.Session
