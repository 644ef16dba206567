import KeyBroker.Proofs.Delivery.Sound

/-!
# Following one subscription

The items of one subscription are found in four places: received, in its channel,
in the hand of its dispatcher and on its feed. Under the blocking policy they are
together what the subscription is owed, as long as its native watch stands and its
channel has a receiver. A dispatcher that stops leaves the items where they are.
-/

namespace KeyBroker

/-- The change that a happening commits. -/
def Happening.committed? : Happening → Option Event
  | .committed event => some event
  | _ => none

/-- The item of a subscription that is received in a happening. -/
def Happening.received? (sub : Subscription) : Happening → Option Item
  | .received n sender item => if n = sub.channel ∧ sender = sub.id then some item else none
  | _ => none

namespace Subscription

/-- The items for the events under the stem of a subscription. -/
def owed (sub : Subscription) (hs : List Happening) : List Item :=
  ((hs.filterMap (·.committed?)).filter fun e => sub.stem.beginsWith e.key).map sub.itemOf

/-- The items of a subscription that are received. -/
def got (sub : Subscription) (hs : List Happening) : List Item := hs.filterMap (·.received? sub)

variable (sub : Subscription)

/-- What is owed for happenings in two parts is owed for the one, then for the other. -/
theorem owed_append (hs more : List Happening) :
    sub.owed (hs ++ more) = sub.owed hs ++ sub.owed more := by
  simp [owed]

/-- What is received in happenings in two parts is received in the one, then in the other. -/
theorem got_append (hs more : List Happening) :
    sub.got (hs ++ more) = sub.got hs ++ sub.got more :=
  List.filterMap_append

/-- For committed events the ones under the stem are owed, as items of the subscription. -/
theorem owed_committed (events : List Event) :
    sub.owed (events.map .committed) =
      (events.filter fun e => sub.stem.beginsWith e.key).map sub.itemOf := by
  have hsame : (events.map Happening.committed).filterMap (·.committed?) = events := by
    rw [List.filterMap_map]
    exact List.filterMap_some
  rw [owed, hsame]

/-- Nothing is received in a commit. -/
theorem got_committed (events : List Event) : sub.got (events.map .committed) = [] := by
  rw [got, List.filterMap_map, List.filterMap_eq_nil_iff]
  exact fun _ _ => rfl

end Subscription

namespace Wiring

/-- The items of a subscription in its channel. -/
def queued (w : Wiring) (sub : Subscription) : List Item :=
  ((w.channel sub.channel).items.filter (·.1 = sub.id)).map (·.2)

/-- The channel of a subscription has lost its receiver. -/
def Lost (w : Wiring) (sub : Subscription) : Prop :=
  sub.channel < w.channels.length ∧ (w.channel sub.channel).received = false

/-- From one wiring to the next, items of a subscription leave the channel at its front
only, to be received, and are lost only with the receiver. -/
structure Passes (w w' : Wiring) (hs : List Happening) (sub : Subscription) : Prop where
  lost : w.Lost sub → w'.Lost sub
  all : ¬ w'.Lost sub → sub.got hs ++ w'.queued sub = w.queued sub
  front : sub.got hs ++ w'.queued sub <+: w.queued sub

variable {w w' : Wiring} {hs : List Happening} {sub : Subscription}

/-- What a subscription has in its channel depends on the channels only. -/
theorem queued_congr (hchannels : w'.channels = w.channels) (sub : Subscription) :
    w'.queued sub = w.queued sub := by
  rw [queued, queued, channel, channel, hchannels]

/-- Whether a subscription has lost its receiver depends on the channels alone. -/
theorem lost_congr (hchannels : w'.channels = w.channels) (sub : Subscription) :
    w'.Lost sub ↔ w.Lost sub := by
  rw [Lost, Lost, channel, channel, hchannels]

/-- After a change of a channel a receiver is lost if the channel as it is now has none. -/
theorem lost_onChannel (w : Wiring) (n : Nat) (f : Channel → Channel) :
    (w.onChannel n f).Lost sub ↔
      sub.channel < w.channels.length ∧
        ((w.onChannel n f).channel sub.channel).received = false := by
  unfold Lost
  rw [show (w.onChannel n f).channels.length = w.channels.length from List.length_modify ..]

/-- Nothing is lost when the items of the subscription are all accounted for. -/
theorem Passes.of_all (hlost : w.Lost sub → w'.Lost sub)
    (hall : sub.got hs ++ w'.queued sub = w.queued sub) : Passes w w' hs sub where
  lost := hlost
  all _ := hall
  front := hall ▸ List.prefix_refl _

/-- Nothing passes when the channels stay and no item is received. -/
theorem passes_of_channels (hchannels : w'.channels = w.channels) (hgot : sub.got hs = []) :
    Passes w w' hs sub := by
  refine .of_all (lost_congr hchannels sub).2 ?_
  rw [hgot, queued_congr hchannels, List.nil_append]

/-- A channel that gains items of other senders passes none of this subscription. -/
theorem passes_onChannel {n sender : Nat} {f : Channel → Channel} {items : List Item}
    (hgains : Channel.Gains (w.channel n) (f (w.channel n)) sender items)
    (hsender : sender ≠ sub.id ∨ items = []) : Passes w (w.onChannel n f) [] sub := by
  have hreceived : ((w.onChannel n f).channel sub.channel).received =
      (w.channel sub.channel).received := by
    rw [channel_onChannel]
    split
    · next h => rw [← h.1, hgains.received_eq]
    · rfl
  have hqueued : (w.onChannel n f).queued sub = w.queued sub := by
    rw [queued, queued, channel_onChannel]
    split
    · next h =>
      rw [← h.1, hgains.items_eq, List.filter_append]
      rcases hsender with hne | rfl
      · have hnone : (items.map (sender, ·)).filter (fun e => decide (e.1 = sub.id)) = [] := by
          simp [hne]
        rw [hnone, List.append_nil]
      · simp
    · rfl
  refine .of_all (fun hlost => ?_) hqueued
  rw [lost_onChannel, hreceived]
  exact hlost

/-- Dropping the sender that somebody held of a channel moves no items. -/
theorem passes_dropSender (w : Wiring) (n : Nat) (sub : Subscription) :
    Passes w (w.onChannel n fun c => { c with held := false }) [] sub :=
  have hgains : Channel.Gains (w.channel n) { w.channel n with held := false } sub.id [] :=
    .of_same sub.id rfl rfl
  passes_onChannel hgains (.inr rfl)

/-- Making a channel moves no items. -/
theorem passes_openChannel (w : Wiring) (sub : Subscription) (capacity : Nat) (held : Bool) :
    Passes w { w with channels := w.channels ++ [{ capacity, held }] } [] sub := by
  have hold (hlt : sub.channel < w.channels.length) :
      channel { w with channels := w.channels ++ [{ capacity, held }] } sub.channel =
        w.channel sub.channel := by
    simp only [channel, List.getD_eq_getElem?_getD, List.getElem?_append_left hlt]
  have hqueued : queued { w with channels := w.channels ++ [{ capacity, held }] } sub =
      w.queued sub := by
    by_cases hlt : sub.channel < w.channels.length
    · rw [queued, queued, hold hlt]
    · have hnone : w.channels[sub.channel]? = none := List.getElem?_eq_none (Nat.le_of_not_lt hlt)
      simp only [queued, channel, List.getD_eq_getElem?_getD, hnone,
        List.getElem?_append_right (Nat.le_of_not_lt hlt)]
      cases sub.channel - w.channels.length <;> rfl
  refine .of_all (fun hlost => ⟨?_, ?_⟩) hqueued
  · exact List.length_append ▸ Nat.lt_add_right _ hlost.1
  · rw [hold hlost.1]
    exact hlost.2

/-- An item that is received was the oldest of its channel. -/
theorem passes_receive {n sender : Nat} {item : Item} {rest : List (Nat × Item)}
    (holdest : (w.channel n).items = (sender, item) :: rest) :
    Passes w (w.onChannel n fun _ => { w.channel n with items := rest }.promise.1)
      [.received n sender item] sub := by
  have hgains := Channel.gains_promise { w.channel n with items := rest } sender
  have hlt : n < w.channels.length := by
    refine Nat.lt_of_not_le fun hle => ?_
    simp [channel, List.getD_eq_getElem?_getD, List.getElem?_eq_none hle] at holdest
  have hchannel := channel_onChannel w n sub.channel
    fun _ => { w.channel n with items := rest }.promise.1
  have hreceived : ((w.onChannel n fun _ => { w.channel n with items := rest }.promise.1).channel
      sub.channel).received = (w.channel sub.channel).received := by
    rw [hchannel]
    split
    · next h => rw [← h.1, hgains.received_eq]
    · rfl
  have hall : sub.got [.received n sender item] ++
      (w.onChannel n fun _ => { w.channel n with items := rest }.promise.1).queued sub =
        w.queued sub := by
    rw [queued, queued, hchannel]
    by_cases hn : n = sub.channel
    · rw [if_pos ⟨hn, hn ▸ hlt⟩, ← hn, hgains.items_eq, holdest]
      by_cases hsender : sender = sub.id <;>
        simp [Subscription.got, Happening.received?, hn, hsender]
    · rw [if_neg fun h => hn h.1]
      simp [Subscription.got, Happening.received?, hn]
  refine .of_all (fun hlost => ?_) hall
  rw [lost_onChannel, hreceived]
  exact hlost

/-- Dropping the receiver of a channel loses the items of that channel only. -/
theorem passes_dropReceiver (w : Wiring) (n : Nat) (sub : Subscription) :
    Passes w (w.onChannel n (·.close)) [] sub := by
  have hchannel := channel_onChannel w n sub.channel (·.close)
  by_cases hn : n = sub.channel ∧ sub.channel < w.channels.length
  · rw [if_pos hn] at hchannel
    have hlost : (w.onChannel n (·.close)).Lost sub := by
      rw [lost_onChannel, hchannel]
      exact ⟨hn.2, rfl⟩
    refine ⟨fun _ => hlost, fun h => absurd hlost h, ?_⟩
    rw [queued, hchannel]
    exact List.nil_prefix
  · rw [if_neg hn] at hchannel
    have hqueued : (w.onChannel n (·.close)).queued sub = w.queued sub := by
      rw [queued, queued, hchannel]
    refine .of_all (fun hlost => ?_) hqueued
    rw [lost_onChannel, hchannel]
    exact hlost

/-- The beginning of what is owed stays so when items only pass. -/
theorem Passes.front_trans (h : Passes w w' hs sub) {got owed : List Item}
    (hfront : got ++ w.queued sub <+: owed) :
    got ++ sub.got hs ++ w'.queued sub <+: owed ++ sub.owed hs := by
  have hpass : got ++ (sub.got hs ++ w'.queued sub) <+: got ++ w.queued sub :=
    (List.prefix_append_right_inj got).2 h.front
  rw [List.append_assoc]
  exact (hpass.trans hfront).trans (List.prefix_append _ _)

/-! ### A subscription that runs -/

/-- The dispatcher `d` of a subscription runs, and `events` are on its feed: what was
received, what is in the channel, in the hand of the dispatcher and on the feed is
together what the subscription is owed. -/
structure Runs (w : Wiring) (sub : Subscription) (got owed : List Item) (d : Dispatcher)
    (events : List Event) : Prop where
  works : d ∈ w.dispatchers
  subscription : d.subscription = sub
  phase : d.phase.reports = false
  watched : w.store.Watched sub.feed sub.stem
  queue : (w.store.feed sub.feed).queue = events.map .ok
  under : ∀ event ∈ events, sub.stem.beginsWith event.key = true
  all : ¬ w.Lost sub →
    got ++ w.queued sub ++ (d.phase.held ++ events).map sub.itemOf = owed
  front : got ++ w.queued sub <+: owed

variable {got owed : List Item} {d d' : Dispatcher} {events more : List Event}

/-- A subscription goes on running when its dispatcher stays in its phase and its feed only
gets more events. -/
theorem Runs.pass (h : w.Runs sub got owed d events) (hpass : Passes w w' hs sub)
    (hworks : d' ∈ w'.dispatchers) (hsub : d'.subscription = sub) (hphase : d'.phase = d.phase)
    (hwatched : w'.store.Watched sub.feed sub.stem)
    (hqueue : (w'.store.feed sub.feed).queue = (w.store.feed sub.feed).queue ++ more.map .ok)
    (hunder : ∀ event ∈ more, sub.stem.beginsWith event.key = true)
    (howed : sub.owed hs = more.map sub.itemOf) :
    w'.Runs sub (got ++ sub.got hs) (owed ++ sub.owed hs) d' (events ++ more) where
  works := hworks
  subscription := hsub
  phase := hphase ▸ h.phase
  watched := hwatched
  queue := by rw [hqueue, h.queue, List.map_append]
  under event hmem := by
    rcases List.mem_append.1 hmem with hmem | hmem
    · exact h.under event hmem
    · exact hunder event hmem
  all hlost := by
    have hall := h.all fun hbefore => hlost (hpass.lost hbefore)
    rw [howed, ← hall, ← hpass.all hlost, hphase]
    simp only [List.map_append, List.append_assoc]
  front := hpass.front_trans h.front

end Wiring

end KeyBroker
