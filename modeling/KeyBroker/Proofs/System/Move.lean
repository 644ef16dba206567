import KeyBroker.Proofs.Store.Act
import KeyBroker.System.Schedule

/-!
# What can happen to a system

A run of a system is any sequence of moves: polls of workers in any order, calls that
are launched, answered and taken, requests made to the store directly, time, and what
holders of channels, handles and the broker do. The line of ready workers is just
one way to choose who is polled, and a move may set it at will. The store behind the
system is its own: its script may delay or fail a request, but never make up a
reply.
-/

namespace KeyBroker

/-- Whether a script line makes up a reply. -/
def ScriptLine.invents (line : ScriptLine) : Bool :=
  match line.answer with
  | .reply _ => true
  | _ => false

/-- Something that happens to a system. -/
inductive Move where
  /-- Another order of the workers. -/
  | schedule (ready : List Worker) (resting : List Nat)
  /-- A poll, for a dispatcher with the choice it has between a report and stopping. -/
  | poll (worker : Worker) (reportFirst : Bool)
  | pass (moment : Nat)
  | launch (turn : Turn) (holdsBroker : Bool)
  /-- The answer of a call is taken away. -/
  | take (call : Nat)
  | close (holdsBroker : Bool)
  | release
  | note (notices : List Notice)
  /-- A request to the store past the broker. -/
  | ask {service : Service} (request : Request service)
  | compact (revision : Nat)
  | setAvailable (available : Bool)
  | inject (line : ScriptLine) (genuine : line.invents = false)
  | openChannel (capacity : Nat) (held : Bool)
  | dropSender (channel : Nat)
  | receive (channel : Nat)
  | dropReceiver (channel : Nat)
  | unsubscribe (id : Nat)
  /-- The reader of a feed that no dispatcher has takes the oldest signal. -/
  | readFeed (feed : Nat)
  /-- The reader of a feed that no dispatcher has goes away. -/
  | leaveFeed (feed : Nat)

/-- What a move does that concerns subscribers. -/
inductive Happening where
  /-- The store committed a change. -/
  | committed (event : Event)
  /-- A native watch was opened for a new subscription. -/
  | opened (subscription : Subscription)
  /-- An item was received from a channel. -/
  | received (channel sender : Nat) (item : Item)

namespace System

/-- Whether a dispatcher has feed `n`. -/
def dispatches (s : System) (n : Nat) : Bool :=
  s.dispatchers.any fun d => d.subscription.feed = n

/-- The system after a move. -/
def move (s : System) : Move → System
  | .schedule ready resting => { s with ready, resting }
  | .poll (.call id) _ => s.pollCall id
  | .poll (.dispatcher id) reportFirst => s.pollDispatcher id reportFirst
  | .pass moment => { s with now := max s.now moment }
  | .launch turn holdsBroker => (s.launch turn holdsBroker).1
  | .take call => ((s.takeAnswer call).map (·.2)).getD s
  | .close holdsBroker => (s.beginClose.1.launch s.beginClose.2 holdsBroker).1
  | .release => s.release
  | .note notices => s.noteAll notices
  | .ask request => (s.serveDirectly request).1
  | .compact revision => { s with store := s.store.compact revision }
  | .setAvailable available => s.setAvailable available
  | .inject line _ => { s with script := s.script ++ [line] }
  | .openChannel capacity held => ((s.openChannel capacity held).map (·.1)).getD s
  | .dropSender n => s.onChannel n fun c => { c with held := false }
  | .receive n => (s.receive n).1
  | .dropReceiver n => s.dropReceiver n
  | .unsubscribe id => s.unsubscribe id
  | .readFeed n =>
    if s.dispatches n then s
    else { s with store := s.store.onFeed n fun feed => { feed with queue := feed.queue.tail } }
  | .leaveFeed n => if s.dispatches n then s else { s with store := s.store.onFeed n (·.leave) }

/-- The system after moves in order. -/
def moves (s : System) (run : List Move) : System := run.foldl move s

/-- Moves in order come one after the other. -/
@[simp] theorem moves_cons (s : System) (m : Move) (run : List Move) :
    s.moves (m :: run) = (s.move m).moves run := rfl

/-- Moves in two parts come one part after the other. -/
theorem moves_append (s : System) (run more : List Move) :
    s.moves (run ++ more) = (s.moves run).moves more :=
  List.foldl_append

/-! ### What a move does -/

/-- Whether the store carries out the request of a call when the call is polled. The call
waits until its request is due, and a stopped broker makes no request but closing. -/
def actsOn (s : System) (c : InFlight) : Bool :=
  !(s.stopped && c.call.endsWithBroker) &&
    match c.exchange with
    | none =>
      match (s.script.next c.call.service).1 with
      | .forward 0 => true
      | _ => false
    | some exchange => exchange.due.any (· ≤ s.now)

/-- The instant at which the store carries out a request. -/
def instant (s : System) : Nat := s.now * Duration.millisecond

/-- The subscription for which a watch on `stem` would now be opened. -/
def opens (s : System) (scope stem : Key) (channel : Nat) : List Happening :=
  match (s.store.serve s.instant (.watch (scope.qualify stem))).outcome with
  | .ok feed =>
    [.opened { id := s.nextSubscription, localStem := stem, stem := scope.qualify stem, scope
               channel, feed }]
  | _ => []

/-- What comes of the store carrying out the request of a call. -/
def comesOf (s : System) (call : Call) : List Happening :=
  (s.store.events s.instant call.request).map .committed ++
    match call with
    | .watch scope stem channel | .watchAll scope channel _ stem _ => s.opens scope stem channel
    | _ => []

/-- The item that is received from a channel. -/
def receives (s : System) (n : Nat) : List Happening :=
  match (s.channel n).items with
  | [] => []
  | (sender, item) :: _ => [.received n sender item]

/-- What a move does that concerns subscribers. -/
def happens (s : System) : Move → List Happening
  | .poll (.call id) _ =>
    (s.calls.find? (·.id = id)).elim [] fun c => if s.actsOn c then s.comesOf c.call else []
  | .ask request => (s.store.events s.instant request).map .committed
  | .receive n => s.receives n
  | _ => []

/-- What moves in order do that concerns subscribers. -/
def happenings (s : System) : List Move → List Happening
  | [] => []
  | m :: run => s.happens m ++ (s.move m).happenings run

end System

end KeyBroker
