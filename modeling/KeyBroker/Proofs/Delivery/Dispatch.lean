import KeyBroker.Watch.Dispatcher

/-!
# One step of a dispatcher

A step appends items to the channel, all under the number of the dispatcher, and
none once the receiver is gone. Under the blocking policy a dispatcher whose feed
carries events of its stem loses none of them: each goes from the feed into its hand
and from there into the channel.
-/

namespace KeyBroker

/-- The event in a dispatcher's hand. -/
def Phase.held : Phase → List Event
  | .sending event => [event]
  | _ => []

/-- Whether the dispatcher has found its feed lost. -/
def Phase.reports : Phase → Bool
  | .reporting _ => true
  | _ => false

namespace Channel

/-- The channel `c'` is `c` with more items of one sender. Without a receiver there are
no more items. -/
structure Gains (c c' : Channel) (sender : Nat) (items : List Item) : Prop where
  items_eq : c'.items = c.items ++ items.map (sender, ·)
  received_eq : c'.received = c.received
  live : items ≠ [] → c.received = true

/-- A channel with the same items gains none. -/
theorem Gains.of_same {c c' : Channel} (sender : Nat) (hitems : c'.items = c.items)
    (hreceived : c'.received = c.received) : Gains c c' sender [] where
  items_eq := by simpa using hitems
  received_eq := hreceived
  live h := absurd rfl h

/-- A channel left alone gains no items. -/
theorem Gains.refl (c : Channel) (sender : Nat) : Gains c c sender [] := .of_same sender rfl rfl

/-- Items gained one after the other are gained together. -/
theorem Gains.trans {c c' c'' : Channel} {sender : Nat} {items more : List Item}
    (h : Gains c c' sender items) (h' : Gains c' c'' sender more) :
    Gains c c'' sender (items ++ more) where
  items_eq := by rw [h'.items_eq, h.items_eq, List.map_append, List.append_assoc]
  received_eq := h'.received_eq.trans h.received_eq
  live hne := by
    cases items with
    | nil => exact h.received_eq ▸ h'.live (by simpa using hne)
    | cons item rest => exact h.live (by simp)

/-- Promising a place adds no item. -/
theorem gains_promise (c : Channel) (sender : Nat) : Gains c c.promise.1 sender [] := by
  unfold promise
  split <;> exact .of_same sender rfl rfl

/-- Giving up a place in line adds no item. -/
theorem gains_abandon (c : Channel) (sender : Nat) : Gains c (c.abandon sender).1 sender [] := by
  unfold abandon
  split
  · have hpromise := gains_promise { c with promised := c.promised.erase sender } sender
    exact .of_same sender (by simpa using hpromise.items_eq) hpromise.received_eq
  · exact .of_same sender rfl rfl

/-- What sending an item comes to. -/
inductive Sends (c : Channel) (sender : Nat) (item : Item) : Sending → Prop where
  | sent {c' : Channel} (gains : Gains c c' sender [item]) : Sends c sender item (.sent c')
  | full {c' : Channel} (gains : Gains c c' sender []) : Sends c sender item (.full c')
  | closed : Sends c sender item .closed

/-- Sending if there is room comes to one of the outcomes of sending. -/
theorem sends_trySend (c : Channel) (sender : Nat) (item : Item) :
    Sends c sender item (c.trySend sender item) := by
  unfold trySend
  split
  · exact .closed
  · next hreceived =>
    split
    · exact .sent ⟨rfl, rfl, fun _ => by simpa using hreceived⟩
    · exact .full (.refl c sender)

/-- Sending into promised or free room comes to one of the outcomes of sending. -/
theorem sends_send (c : Channel) (sender : Nat) (item : Item) :
    Sends c sender item (c.send sender item) := by
  unfold send
  split
  · exact .closed
  next hreceived =>
  split
  · exact .sent ⟨rfl, rfl, fun _ => by simpa using hreceived⟩
  split
  · exact .full (.refl c sender)
  · have htry := sends_trySend c sender item
    generalize c.trySend sender item = sending at htry
    cases htry with
    | sent gains => exact .sent gains
    | full gains =>
      exact .full (.of_same sender (by simpa using gains.items_eq) gains.received_eq)
    | closed => exact .closed

end Channel

namespace Dispatch

open Channel (Gains)

/-- What a step does besides moving events: the dispatcher stays with its subscription
and keeps its orders, and the channel gains items of the dispatcher. -/
structure Keeps (d : Dispatch) (step : Step) (items : List Item) : Prop where
  subscription : step.after.dispatcher.subscription = d.dispatcher.subscription
  cancelled : step.after.dispatcher.cancelled = d.dispatcher.cancelled
  channel : Gains d.channel step.after.channel d.dispatcher.subscription.id items

/-- A pause changes the credit of a dispatcher only. -/
theorem Step.dispatcher_eq (step : Step) :
    ∃ credit, step.dispatcher = { step.after.dispatcher with credit } := by
  unfold Step.dispatcher
  simp only
  split <;> exact ⟨_, rfl⟩

/-- A dispatcher that gives up keeps its subscription and its orders, and sends nothing. -/
theorem keeps_giveUp (d : Dispatch) : Keeps d d.giveUp [] where
  subscription := rfl
  cancelled := rfl
  channel := Channel.gains_abandon d.channel d.dispatcher.subscription.id

/-- A step of a dispatcher under the blocking policy, whose feed carries `events` of its
stem and has not ended. What was in its hand or its feed is now in the channel, in
its hand or in its feed, in the same order, unless the dispatcher is over. -/
structure Carries (d : Dispatch) (events : List Event) (step : Step) (items : List Item)
    (left : List Event) : Prop extends Keeps d step items where
  feed : step.after.feed = { d.feed with queue := left.map .ok }
  suffix : left <:+ events
  phase : step.after.dispatcher.phase.reports = false
  moved : step.pace ≠ .over →
    items ++ (step.after.dispatcher.phase.held ++ left).map d.dispatcher.subscription.itemOf =
      (d.dispatcher.phase.held ++ events).map d.dispatcher.subscription.itemOf
  stops : step.pace = .over → items = []

variable {d : Dispatch} {events : List Event}

/-- A step that leaves the feed as it was carries all its events. -/
theorem Carries.still {step : Step} {items : List Item} (hqueue : d.feed.queue = events.map .ok)
    (keeps : Keeps d step items) (hfeed : step.after.feed = d.feed)
    (hphase : step.after.dispatcher.phase.reports = false)
    (hmoved : step.pace ≠ .over →
      items ++ step.after.dispatcher.phase.held.map d.dispatcher.subscription.itemOf =
        d.dispatcher.phase.held.map d.dispatcher.subscription.itemOf)
    (hstops : step.pace = .over → items = []) : Carries d events step items events where
  toKeeps := keeps
  feed := by rw [hfeed, ← hqueue]
  suffix := List.suffix_refl events
  phase := hphase
  moved h := by rw [List.map_append, List.map_append, ← List.append_assoc, hmoved h]
  stops := hstops

/-- A dispatcher that gives up before it has found a loss sends nothing more and leaves its feed
as it was. -/
theorem carries_giveUp (hqueue : d.feed.queue = events.map .ok)
    (hphase : d.dispatcher.phase.reports = false) : Carries d events d.giveUp [] events :=
  .still hqueue (keeps_giveUp d) rfl hphase (fun h => absurd rfl h) fun _ => rfl

/-- A blocking dispatcher that reads moves at most the first event of its feed into its hand. -/
theorem carries_readOne (hqueue : d.feed.queue = events.map .ok) (hfed : d.feed.fed = true)
    (hstem : ∀ event ∈ events, d.dispatcher.subscription.stem.beginsWith event.key = true)
    (hphase : d.dispatcher.phase = .reading) :
    ∃ left, Carries d events (d.readOne .block) [] left := by
  cases events with
  | nil =>
    have hread : d.feed.read = .nothingYet := by simp [Feed.read, hqueue, hfed]
    refine ⟨[], ?_⟩
    simp only [readOne, hread]
    exact {
      subscription := rfl
      cancelled := rfl
      channel := .refl _ _
      feed := by rw [← hqueue]
      suffix := List.suffix_refl _
      phase := by rw [hphase]; rfl
      moved _ := rfl
      stops _ := rfl }
  | cons event rest =>
    have hread : d.feed.read = .signal (.ok event) { d.feed with queue := rest.map .ok } := by
      simp [Feed.read, hqueue]
    have hbegins := hstem event List.mem_cons_self
    refine ⟨rest, ?_⟩
    simp only [readOne, hread, hbegins, if_true]
    exact {
      subscription := rfl
      cancelled := rfl
      channel := .refl _ _
      feed := rfl
      suffix := List.suffix_cons event rest
      phase := rfl
      moved _ := by rw [hphase]; rfl
      stops h := by cases h }

/-- A dispatcher that sends moves the event from its hand into the channel, or keeps it in hand. -/
theorem carries_sendEvent (hqueue : d.feed.queue = events.map .ok) {event : Event}
    (hphase : d.dispatcher.phase = .sending event) :
    ∃ items, Carries d events (d.sendEvent event) items events := by
  have hsends := Channel.sends_send d.channel d.dispatcher.subscription.id
    (d.dispatcher.subscription.itemOf event)
  simp only [sendEvent]
  generalize d.channel.send d.dispatcher.subscription.id
    (d.dispatcher.subscription.itemOf event) = sending at hsends
  have hreports : d.dispatcher.phase.reports = false := hphase ▸ rfl
  cases hsends with
  | sent gains =>
    exact ⟨_, .still hqueue ⟨rfl, rfl, gains⟩ rfl rfl (fun _ => by rw [hphase]; rfl) nofun⟩
  | full gains =>
    exact ⟨_, .still hqueue ⟨rfl, rfl, gains⟩ rfl hreports (fun _ => rfl) fun _ => rfl⟩
  | closed =>
    exact ⟨_, .still hqueue ⟨rfl, rfl, .refl _ _⟩ rfl hreports (fun h => absurd rfl h)
      fun _ => rfl⟩

/-- Under the blocking policy a step loses no event, duplicates none and keeps their
order. -/
theorem carries_step (hqueue : d.feed.queue = events.map .ok) (hfed : d.feed.fed = true)
    (hstem : ∀ event ∈ events, d.dispatcher.subscription.stem.beginsWith event.key = true)
    (hphase : d.dispatcher.phase.reports = false) (stop reportFirst : Bool) :
    ∃ items left, Carries d events (d.step .block stop reportFirst) items left := by
  unfold step
  cases hcase : d.dispatcher.phase with
  | starting =>
    exact ⟨[], events, .still hqueue ⟨rfl, rfl, .refl _ _⟩ rfl rfl
      (fun _ => by rw [hcase]; rfl) nofun⟩
  | reading =>
    cases stop with
    | true => exact ⟨[], events, carries_giveUp hqueue hphase⟩
    | false => exact ⟨[], carries_readOne hqueue hfed hstem hcase⟩
  | sending event =>
    cases stop with
    | true => exact ⟨[], events, carries_giveUp hqueue hphase⟩
    | false =>
      obtain ⟨items, hcarries⟩ := carries_sendEvent hqueue hcase
      exact ⟨items, events, hcarries⟩
  | reporting reason =>
    rw [hcase] at hphase
    cases hphase

/-- A dispatcher that is to stop sends no more events. -/
theorem keeps_step_stop (d : Dispatch) (policy : SlowPolicy) (reportFirst : Bool)
    (hphase : d.dispatcher.phase.reports = false) :
    Keeps d (d.step policy true reportFirst) [] ∧
      (d.step policy true reportFirst).after.dispatcher.phase.reports = false := by
  unfold step
  cases hcase : d.dispatcher.phase with
  | starting => exact ⟨⟨rfl, rfl, .refl _ _⟩, rfl⟩
  | reading => exact ⟨keeps_giveUp d, hphase⟩
  | sending event => exact ⟨keeps_giveUp d, hphase⟩
  | reporting reason =>
    rw [hcase] at hphase
    cases hphase

/-- A dispatcher that offers an event keeps its subscription and its orders. -/
theorem keeps_offerEvent (d : Dispatch) (event : Event) :
    ∃ items, Keeps d (d.offerEvent event) items := by
  have hsends := Channel.sends_trySend d.channel d.dispatcher.subscription.id
    (d.dispatcher.subscription.itemOf event)
  simp only [offerEvent]
  generalize d.channel.trySend d.dispatcher.subscription.id
    (d.dispatcher.subscription.itemOf event) = sending at hsends
  cases hsends with
  | sent gains => exact ⟨_, rfl, rfl, gains⟩
  | full gains => exact ⟨_, rfl, rfl, .refl _ _⟩
  | closed => exact ⟨_, rfl, rfl, .refl _ _⟩

/-- A dispatcher that offers an event, after the report of a gap if one is due, keeps its
subscription and its orders. -/
theorem keeps_offer (d : Dispatch) (event : Event) : ∃ items, Keeps d (d.offer event) items := by
  simp only [offer]
  split
  · obtain ⟨items, hkeeps⟩ := keeps_offerEvent d event
    exact ⟨items, hkeeps.subscription, hkeeps.cancelled, hkeeps.channel⟩
  have hsends := Channel.sends_trySend d.channel d.dispatcher.subscription.id
    (.error (.watchLagged d.dispatcher.missed))
  generalize d.channel.trySend d.dispatcher.subscription.id
    (.error (.watchLagged d.dispatcher.missed)) = sending at hsends
  cases hsends with
  | @sent channel gains =>
    obtain ⟨items, hkeeps⟩ := keeps_offerEvent
      { d with channel, dispatcher := { d.dispatcher with missed := 0 } } event
    exact ⟨_, hkeeps.subscription, hkeeps.cancelled, gains.trans hkeeps.channel⟩
  | full gains => exact ⟨[], rfl, rfl, .refl _ _⟩
  | closed => exact ⟨[], rfl, rfl, .refl _ _⟩

/-- A dispatcher that reads keeps its subscription and its orders under either policy. -/
theorem keeps_readOne (d : Dispatch) (policy : SlowPolicy) :
    ∃ items, Keeps d (d.readOne policy) items := by
  unfold readOne
  split
  · exact ⟨[], rfl, rfl, .refl _ _⟩
  · exact ⟨[], rfl, rfl, .refl _ _⟩
  · exact ⟨[], rfl, rfl, .refl _ _⟩
  · next event feed _ =>
    simp only
    split
    · cases policy with
      | block => exact ⟨[], rfl, rfl, .refl _ _⟩
      | dropAndSignal =>
        obtain ⟨items, hkeeps⟩ := keeps_offer { d with feed } event
        exact ⟨items, hkeeps.subscription, hkeeps.cancelled, hkeeps.channel⟩
    · exact ⟨[], rfl, rfl, .refl _ _⟩

/-- A dispatcher that sends the event in its hand keeps its subscription and its orders. -/
theorem keeps_sendEvent (d : Dispatch) (event : Event) :
    ∃ items, Keeps d (d.sendEvent event) items := by
  have hsends := Channel.sends_send d.channel d.dispatcher.subscription.id
    (d.dispatcher.subscription.itemOf event)
  simp only [sendEvent]
  generalize d.channel.send d.dispatcher.subscription.id
    (d.dispatcher.subscription.itemOf event) = sending at hsends
  cases hsends with
  | sent gains => exact ⟨_, rfl, rfl, gains⟩
  | full gains => exact ⟨_, rfl, rfl, gains⟩
  | closed => exact ⟨_, rfl, rfl, .refl _ _⟩

/-- A dispatcher that reports a lost feed keeps its subscription and its orders. -/
theorem keeps_sendReport (d : Dispatch) (reason : String) :
    ∃ items, Keeps d (d.sendReport reason) items := by
  have hsends := Channel.sends_send d.channel d.dispatcher.subscription.id
    (.error (.watchStreamBroken d.dispatcher.subscription.localStem reason))
  simp only [sendReport]
  generalize d.channel.send d.dispatcher.subscription.id
    (.error (.watchStreamBroken d.dispatcher.subscription.localStem reason)) = sending at hsends
  cases hsends with
  | sent gains => exact ⟨_, rfl, rfl, gains⟩
  | full gains => exact ⟨_, rfl, rfl, gains⟩
  | closed => exact ⟨_, rfl, rfl, .refl _ _⟩

/-- Whatever a dispatcher does, the channel only gains items of its own. -/
theorem keeps_step (d : Dispatch) (policy : SlowPolicy) (stop reportFirst : Bool) :
    ∃ items, Keeps d (d.step policy stop reportFirst) items := by
  unfold step
  split
  · exact ⟨[], rfl, rfl, .refl _ _⟩
  · split
    · exact ⟨[], keeps_giveUp d⟩
    · exact keeps_readOne d policy
  · next event _ =>
    split
    · exact ⟨[], keeps_giveUp d⟩
    · exact keeps_sendEvent d event
  · next reason _ =>
    split
    · exact ⟨[], keeps_giveUp d⟩
    simp only
    split
    · exact ⟨[], keeps_giveUp d⟩
    · exact keeps_sendReport d reason

end Dispatch

end KeyBroker
