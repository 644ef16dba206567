import KeyBroker.Proofs.System.Move

/-!
# The wiring of a system

Events run from the store through feeds, dispatchers and channels to the receivers.
The wiring is that part of a system, without its calls, clock and journal. Few things
change it, and a move makes any number of these changes.
-/

namespace KeyBroker

/-- The part of a system that events pass through. -/
structure Wiring where
  policy : SlowPolicy
  store : Store
  script : Script
  stopped : Bool
  nextSubscription : Nat
  registered : List Nat
  dispatchers : List Dispatcher
  channels : List Channel

/-- The wiring of a system. -/
def System.wiring (s : System) : Wiring where
  policy := s.settings.slowPolicy
  store := s.store
  script := s.script
  stopped := s.stopped
  nextSubscription := s.nextSubscription
  registered := s.registered
  dispatchers := s.dispatchers
  channels := s.channels

namespace Wiring

/-- The channel of a number. -/
def channel (w : Wiring) (n : Nat) : Channel :=
  w.channels.getD n { capacity := 0, received := false }

/-- The wiring with channel `n` changed by `f`. -/
def onChannel (w : Wiring) (n : Nat) (f : Channel → Channel) : Wiring :=
  { w with channels := w.channels.modify n f }

/-- Takes a subscription off the register and tells its dispatcher to stop. -/
def unsubscribe (w : Wiring) (id : Nat) : Wiring :=
  if id ∈ w.registered then
    { w with
      registered := w.registered.erase id
      dispatchers := w.dispatchers.map fun d =>
        if d.subscription.id = id then { d with cancelled := true } else d }
  else w

/-- The next subscription, if it reads `feed`. -/
def subscription (w : Wiring) (scope localStem : Key) (channel feed : Nat) : Subscription where
  id := w.nextSubscription
  localStem
  stem := scope.qualify localStem
  scope
  channel
  feed

/-- Registers the next subscription with a new dispatcher. -/
def register (w : Wiring) (scope localStem : Key) (channel feed : Nat) : Wiring :=
  { w with
    nextSubscription := w.nextSubscription + 1
    registered := w.registered ++ [w.nextSubscription]
    dispatchers := w.dispatchers ++
      [{ subscription := w.subscription scope localStem channel feed }] }

/-- The wiring with the dispatcher of a subscription replaced. -/
def withDispatcher (w : Wiring) (d : Dispatcher) : Wiring :=
  { w with
    dispatchers := w.dispatchers.map fun other =>
      if other.subscription.id = d.subscription.id then d else other }

/-- The dispatcher of a subscription has ended. -/
def endDispatcher (w : Wiring) (id feed : Nat) : Wiring :=
  { w with
    registered := w.registered.erase id
    dispatchers := w.dispatchers.filter fun d => d.subscription.id ≠ id
    store := w.store.onFeed feed (·.leave) }

/-- The next step of a dispatcher. -/
def stepOf (w : Wiring) (d : Dispatcher) (reportFirst : Bool) : Dispatch.Step :=
  Dispatch.step
    { dispatcher := d, feed := w.store.feed d.subscription.feed
      channel := w.channel d.subscription.channel }
    w.policy (w.stopped || d.cancelled) reportFirst

/-- The wiring after a step of a dispatcher. -/
def dispatch (w : Wiring) (d : Dispatcher) (reportFirst : Bool) : Wiring :=
  let step := w.stepOf d reportFirst
  let read : Wiring :=
    { w with store := w.store.onFeed d.subscription.feed fun _ => step.after.feed }
  let sent := (read.withDispatcher step.dispatcher).onChannel d.subscription.channel
    fun _ => step.after.channel
  match step.pace with
  | .over => sent.endDispatcher d.subscription.id d.subscription.feed
  | _ => sent

/-- One change of the wiring, with what it does that concerns subscribers. -/
inductive Change : Wiring → List Happening → Wiring → Prop where
  | serve (w : Wiring) (now : Nat) {service : Service} (request : Request service) :
    Change w ((w.store.events now request).map .committed)
      { w with store := (w.store.serve now request).store }
  | subscribe (w : Wiring) (now : Nat) (scope localStem : Key) (channel feed : Nat)
    (opened : (w.store.serve now (.watch (scope.qualify localStem))).outcome = .ok feed) :
    Change w [.opened (w.subscription scope localStem channel feed)]
      (register { w with store := (w.store.serve now (.watch (scope.qualify localStem))).store }
        scope localStem channel feed)
  | compact (w : Wiring) (revision : Nat) :
    Change w [] { w with store := w.store.compact revision }
  | setAvailable (w : Wiring) (available : Bool) :
    Change w [] { w with store := w.store.setAvailable available }
  | onFeed (w : Wiring) (n : Nat) (f : Feed → Feed)
    (free : ∀ d ∈ w.dispatchers, d.subscription.feed ≠ n) :
    Change w [] { w with store := w.store.onFeed n f }
  /-- The store takes lines off its script. -/
  | follow (w : Wiring) (script : Script) (fewer : ∀ line ∈ script, line ∈ w.script) :
    Change w [] { w with script }
  | inject (w : Wiring) (line : ScriptLine) (genuine : line.invents = false) :
    Change w [] { w with script := w.script ++ [line] }
  | stop (w : Wiring) : Change w [] { w with stopped := true }
  | unsubscribe (w : Wiring) (id : Nat) : Change w [] (w.unsubscribe id)
  | dispatch (w : Wiring) (d : Dispatcher) (reportFirst : Bool) (works : d ∈ w.dispatchers) :
    Change w [] (w.dispatch d reportFirst)
  | rest (w : Wiring) (d : Dispatcher) (works : d ∈ w.dispatchers) :
    Change w [] (w.withDispatcher d.refreshed)
  | openChannel (w : Wiring) (capacity : Nat) (held : Bool) :
    Change w [] { w with channels := w.channels ++ [{ capacity, held }] }
  | dropSender (w : Wiring) (n : Nat) :
    Change w [] (w.onChannel n fun c => { c with held := false })
  | receive (w : Wiring) (n sender : Nat) (item : Item) (rest : List (Nat × Item))
    (oldest : (w.channel n).items = (sender, item) :: rest) :
    Change w [.received n sender item]
      (w.onChannel n fun _ => { w.channel n with items := rest }.promise.1)
  | dropReceiver (w : Wiring) (n : Nat) : Change w [] (w.onChannel n (·.close))

/-- Changes of the wiring in order, with all they do that concerns subscribers. -/
inductive Changes : Wiring → List Happening → Wiring → Prop where
  | nil (w : Wiring) : Changes w [] w
  | cons {w w' w'' : Wiring} {hs more : List Happening} (first : Change w hs w')
    (rest : Changes w' more w'') : Changes w (hs ++ more) w''

/-- No line of the script makes up a reply. -/
def Genuine (w : Wiring) : Prop := ∀ line ∈ w.script, line.invents = false

/-- One change of the wiring is changes in order. -/
theorem Change.changes {w w' : Wiring} {hs : List Happening} (h : Change w hs w') :
    Changes w hs w' := by
  rw [← List.append_nil hs]
  exact .cons h (.nil w')

/-- Changes in two parts are changes in order, with what both do. -/
theorem Changes.trans {w w' w'' : Wiring} {hs more : List Happening} (h : Changes w hs w')
    (h' : Changes w' more w'') : Changes w (hs ++ more) w'' := by
  induction h with
  | nil => exact h'
  | cons first _ ih =>
    rw [List.append_assoc]
    exact .cons first (ih h')

end Wiring

end KeyBroker
