import KeyBroker.Proofs.Independence.Apart
import KeyBroker.Proofs.System.Calling

/-!
# A subscriber among others

A subscriber has one subscription, on a channel of its own. What is done to the keys, and what
the subscriber does with its subscription, are the actions of a run. Before each action
dispatchers are polled, and others open, use and end subscriptions of their own.
-/

namespace KeyBroker

/-- What is done to the keys, or by the subscriber. -/
inductive Action where
  /-- A call with one request, on the broker or a view of it. -/
  | call (turn : Turn) (brief : turn.Brief)
  /-- A request to the store past the broker. -/
  | ask {service : Service} (request : Request service)
    (plain : service ≠ .watch ∧ service ≠ .close)
  | pass (moment : Nat)
  | compact (revision : Nat)
  /-- The subscriber makes a channel, which it may keep open, and subscribes with it. -/
  | subscribe (scope stem : Key) (capacity : Nat) (held : Bool)
  | receive
  | dropSender
  | dropReceiver
  | unsubscribe

/-- What comes of an action at once. -/
inductive Response where
  | nothing
  | answered (answer : Option Answer)
  | served {service : Service} (outcome : Outcome service.Reply)
  /-- The stem of the handle that was handed out. -/
  | subscribed (stem : Option Key)
  /-- What was found on the channel, if there is a subscription. -/
  | received (receipt : Option System.Receipt)

/-- What can be seen of an action. -/
structure Observed where
  response : Response
  /-- The revision of the store after it. -/
  revision : Nat
  /-- Whether the subscription is registered after it. -/
  active : Bool

/-- The handle that comes with an answer. -/
def Answer.handle? : Answer → Option Handle
  | .watching (.ok handle) => some handle
  | _ => none

/-- A broker with a subscriber. -/
structure Subscriber where
  system : System
  /-- The number of its subscription and that of its channel. -/
  place? : Option (Nat × Nat) := none

/-- A part of a run: what happens besides, then an action. -/
structure Stage where
  aside : List Move
  action : Action

namespace Subscriber

/-- The subscriber on a new broker, who has no subscription yet. -/
def new (settings : Settings) : Subscriber := { system := { settings } }

/-- The subscriber after something happened besides. -/
def beside (a : Subscriber) (m : Move) : Subscriber := { a with system := a.system.move m }

/-- The subscriber after things happened besides, in order. -/
def besides (a : Subscriber) (run : List Move) : Subscriber := run.foldl beside a

/-- Does something to the subscription, if there is one. -/
def onPlace (a : Subscriber) (m : Nat → Nat → Move) : Subscriber :=
  match a.place? with
  | none => a
  | some (id, n) => a.beside (m id n)

/-- The handle that comes of making a channel and subscribing with it. -/
def handle? (a : Subscriber) (scope stem : Key) (capacity : Nat) (held : Bool) : Option Handle :=
  (a.system.openChannel capacity held).bind fun (s, n) =>
    (s.made? (.ask (.watch scope stem n))).bind (·.handle?)

/-- Makes a channel and subscribes with it. -/
def subscribe (a : Subscriber) (scope stem : Key) (capacity : Nat) (held : Bool) : Subscriber :=
  match a.system.openChannel capacity held with
  | none => a
  | some (s, n) =>
    { system := s.moves (s.making (.ask (.watch scope stem n)))
      place? := (a.handle? scope stem capacity held).map fun handle => (handle.id, n) }

/-- The subscriber after an action. -/
def after (a : Subscriber) : Action → Subscriber
  | .call turn _ => { a with system := a.system.moves (a.system.making turn) }
  | .ask request _ => a.beside (.ask request)
  | .pass moment => a.beside (.pass moment)
  | .compact revision => a.beside (.compact revision)
  | .subscribe scope stem capacity held => a.subscribe scope stem capacity held
  | .receive => a.onPlace fun _ n => .receive n
  | .dropSender => a.onPlace fun _ n => .dropSender n
  | .dropReceiver => a.onPlace fun _ n => .dropReceiver n
  | .unsubscribe => a.onPlace fun id _ => .unsubscribe id

/-- What comes of an action at once. -/
def response (a : Subscriber) : Action → Response
  | .call turn _ => .answered (a.system.made? turn)
  | .ask request _ => .served (a.system.serveDirectly request).2
  | .subscribe scope stem capacity held =>
    .subscribed ((a.handle? scope stem capacity held).map (·.stem))
  | .receive => .received (a.place?.map fun place => (a.system.receive place.2).2)
  | _ => .nothing

/-- Whether the subscription is registered. -/
def isActive (a : Subscriber) : Bool := a.place?.any fun place => a.system.isActive place.1

/-- What can be seen of an action. -/
def observed (a : Subscriber) (action : Action) : Observed where
  response := a.response action
  revision := (a.after action).system.store.ledger.revision
  active := (a.after action).isActive

/-- What can be seen of the actions of a run. -/
def observes (a : Subscriber) : List Stage → List Observed
  | [] => []
  | stage :: rest =>
    let now := a.besides stage.aside
    now.observed stage.action :: (now.after stage.action).observes rest

/-! ### What happens besides -/

/-- Whether a call is a watch of others, on a channel that was made and is not the
subscriber's. -/
def spares (a : Subscriber) (call : Call) : Bool :=
  call.channel?.any fun n =>
    decide (n < a.system.channels.length) && decide (a.place?.map (·.2) ≠ some n)

/-- Whether others may do something: they neither touch the keys, the store or the time nor
close the broker, and have nothing of the subscriber's. -/
def allows (a : Subscriber) : Move → Bool
  | .launch (.ask call) _ => a.spares call
  | @Move.ask service _ => service = .watch
  | .dropSender n | .receive n | .dropReceiver n => a.place?.map (·.2) ≠ some n
  | .unsubscribe id => a.place?.map (·.1) ≠ some id
  | .pass _ | .close _ | .compact _ | .setAvailable _ | .inject .. => false
  | _ => true

/-- Whether others may do all of this, in order. -/
def allowsAll (a : Subscriber) : List Move → Bool
  | [] => true
  | m :: rest => a.allows m && (a.beside m).allowsAll rest

/-- A run in which the others keep to their own, and every action finds the broker running and
everything still. -/
def Proper (a : Subscriber) : List Stage → Prop
  | [] => True
  | stage :: rest =>
    let now := a.besides stage.aside
    a.allowsAll stage.aside = true ∧ now.system.stopped = false ∧ now.system.Still ∧
      (now.after stage.action).Proper rest

instance decidableProper : (a : Subscriber) → (run : List Stage) → Decidable (a.Proper run)
  | _, [] => isTrue trivial
  | a, stage :: rest =>
    have := decidableProper ((a.besides stage.aside).after stage.action) rest
    inferInstanceAs (Decidable (_ ∧ _ ∧ _ ∧ _))

end Subscriber

end KeyBroker
