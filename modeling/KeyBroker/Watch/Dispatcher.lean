import KeyBroker.Broker.Listing
import KeyBroker.Channel
import KeyBroker.Settings.Basic
import KeyBroker.Store.Feed

/-!
# Dispatchers

Every subscription has a dispatcher that reads its feed and sends what concerns
it to the subscriber's channel. A step takes one signal or completes one send;
the dispatcher goes on until it has to wait or is over. Under the blocking policy
it holds back its own feed while the channel is full; under the other policy it
drops events and reports how many before the next one it delivers. The loss of
the feed is reported last of all. Signals read and items sent with leave to wait
use up the credit of a dispatcher; without credit it has to rest.
-/

namespace KeyBroker

/-- A subscription of one channel to the keys under one stem. -/
structure Subscription where
  /-- Its number; numbers are never used twice. -/
  id : Nat
  /-- The stem as the subscriber gave it, for reports. -/
  localStem : Key
  /-- The stem as a full key. -/
  stem : Key
  /-- Scope taken off the keys delivered. -/
  scope : Key
  channel : Nat
  feed : Nat
  deriving DecidableEq, Repr

/-- What a subscriber gets for an event. -/
def Subscription.itemOf (s : Subscription) (event : Event) : Item :=
  (Key.reveal s.scope event.key).map fun key => { event with key }

/-- What a dispatcher is doing. -/
inductive Phase where
  /-- It has not run yet. -/
  | starting
  | reading
  /-- It holds an event that is to be sent. -/
  | sending (event : Event)
  /-- Its feed is lost, and that is to be sent. -/
  | reporting (reason : String)
  deriving DecidableEq, Repr

/-- How many signals and items a dispatcher may move in one go. -/
def fullCredit : Nat := 128

/-- A running dispatcher. -/
structure Dispatcher where
  subscription : Subscription
  /-- Whether the subscriber asked it to stop. -/
  cancelled : Bool := false
  /-- Events dropped since the last report of dropped events. -/
  missed : Nat := 0
  phase : Phase := .starting
  /-- How many signals and items it may still move before it has to rest. -/
  credit : Nat := fullCredit
  deriving DecidableEq, Repr

/-- The dispatcher with full credit. -/
def Dispatcher.refreshed (d : Dispatcher) : Dispatcher := { d with credit := fullCredit }

/-- A dispatcher with the two ends between which it stands. -/
structure Dispatch where
  dispatcher : Dispatcher
  feed : Feed
  channel : Channel

namespace Dispatch

/-- How a dispatcher stands after a step. -/
inductive Pace where
  /-- There is more to do. -/
  | again
  /-- It waits for its feed or its channel. -/
  | waiting
  /-- It has ended. -/
  | over
  deriving DecidableEq, Repr

/-- The result of a step. -/
structure Step where
  after : Dispatch
  pace : Pace
  notices : List Notice := []
  observations : List Observation := []
  /-- A sender that was promised the room this dispatcher gave up. -/
  promised : Option Nat := none
  /-- Signals read and items sent with leave to wait. -/
  moved : Nat := 0

/-- The dispatcher after a step, with what is left of its credit if it goes on. -/
def Step.dispatcher (step : Step) : Dispatcher :=
  let d := step.after.dispatcher
  match step.pace with
  | .again => { d with credit := d.credit - step.moved }
  | .waiting | .over => d.refreshed

/-- The dispatcher in another phase. -/
def enter (d : Dispatch) (phase : Phase) : Dispatch :=
  { d with dispatcher := { d.dispatcher with phase } }

/-- What the log says about an item: a key outside the scope is an error. -/
def itemNotices : Item → List Notice
  | .error (.scopeViolation ..) => [.foreignKey]
  | _ => []

/-- The end of a dispatcher that may be standing in line. -/
def giveUp (d : Dispatch) : Step :=
  let (channel, promised) := d.channel.abandon d.dispatcher.subscription.id
  { after := { d with channel }, pace := .over, promised }

/-- Counts an event as dropped. -/
def drop (d : Dispatch) : Step where
  after := { d with dispatcher := { d.dispatcher with missed := d.dispatcher.missed + 1 } }
  pace := .again
  notices := [.eventDropped]
  observations := [.dropped d.dispatcher.subscription.stem]

/-- Sends an event if there is room, else drops it. -/
def offerEvent (d : Dispatch) (event : Event) : Step :=
  let item := d.dispatcher.subscription.itemOf event
  match d.channel.trySend d.dispatcher.subscription.id item with
  | .sent channel =>
    { after := { d with channel }, pace := .again, observations := [.delivered event.kind] }
  | .full _ => d.drop
  | .closed => { after := d, pace := .over }

/-- Sends an event without waiting. Dropped events are reported first, and while
their report does not fit, the event is dropped too. -/
def offer (d : Dispatch) (event : Event) : Step :=
  let item := d.dispatcher.subscription.itemOf event
  let step :=
    if d.dispatcher.missed = 0 then d.offerEvent event
    else
      let report := .error (.watchLagged d.dispatcher.missed)
      match d.channel.trySend d.dispatcher.subscription.id report with
      | .sent channel =>
        { d with channel, dispatcher := { d.dispatcher with missed := 0 } }.offerEvent event
      | .full _ => d.drop
      | .closed => { after := d, pace := .over }
  { step with notices := itemNotices item ++ step.notices }

/-- The feed is lost. -/
def lose (d : Dispatch) (reason : String) : Step where
  after := d.enter (.reporting reason)
  pace := .again
  notices := [.streamBroken]
  moved := 1

/-- Reads one signal. Events outside the stem are passed over. -/
def readOne (d : Dispatch) (policy : SlowPolicy) : Step :=
  match d.feed.read with
  | .nothingYet => { after := d, pace := .waiting }
  | .ended => d.lose "native watch stream ended"
  | .signal (.error e) feed => { d with feed }.lose e.message
  | .signal (.ok event) feed =>
    let d := { d with feed }
    if d.dispatcher.subscription.stem.beginsWith event.key then
      match policy with
      | .block =>
        { after := d.enter (.sending event), pace := .again
          notices := itemNotices (d.dispatcher.subscription.itemOf event), moved := 1 }
      | .dropAndSignal => { d.offer event with moved := 1 }
    else { after := d, pace := .again, moved := 1 }

/-- Sends the event in hand, waiting for room. -/
def sendEvent (d : Dispatch) (event : Event) : Step :=
  let item := d.dispatcher.subscription.itemOf event
  match d.channel.send d.dispatcher.subscription.id item with
  | .sent channel =>
    { after := { d with channel }.enter .reading, pace := .again
      observations := [.delivered event.kind], moved := 1 }
  | .full channel => { after := { d with channel }, pace := .waiting }
  | .closed => { after := d, pace := .over }

/-- Sends the report of the lost feed, waiting for room. -/
def sendReport (d : Dispatch) (reason : String) : Step :=
  let report := .error (.watchStreamBroken d.dispatcher.subscription.localStem reason)
  match d.channel.send d.dispatcher.subscription.id report with
  | .sent channel => { after := { d with channel }, pace := .over }
  | .full channel => { after := { d with channel }, pace := .waiting }
  | .closed => { after := d, pace := .over }

/-- One step under `policy`. `stop` says whether the dispatcher is to end: it then
ends before it reads or sends an event. A report of a lost feed and the wish to
stop have no order between them, so `reportFirst` chooses. -/
def step (d : Dispatch) (policy : SlowPolicy) (stop reportFirst : Bool) : Step :=
  match d.dispatcher.phase with
  | .starting => { after := d.enter .reading, pace := .again, observations := [.dispatchBegun] }
  | .reading => if stop then d.giveUp else d.readOne policy
  | .sending event => if stop then d.giveUp else d.sendEvent event
  | .reporting reason =>
    if stop && !reportFirst then d.giveUp
    else
      let attempt := d.sendReport reason
      if stop && attempt.pace == .waiting then d.giveUp else attempt

end Dispatch

end KeyBroker
