import KeyBroker.Proofs.Following.Progress
import KeyBroker.Proofs.Following.Supplied

/-!
# Following one subscription

A subscription is followed through a run by what passes at its two ends: the signals that are
put on its feed and the items of its own that come onto its channel. As long as its dispatcher
is at work, what was put on the feed is what the dispatcher has taken and what it has not. What
holds of a dispatcher from step to step, whatever happens between them, then holds until its
last step, after which nothing of the subscription is left.
-/

namespace KeyBroker

namespace System

/-- The signals that an incident puts on a feed. -/
def pouredBy (s : System) (feed : Nat) (i : Incident) : List Signal :=
  ((s.incur i).store.feed feed).queue.drop (s.store.feed feed).queue.length

/-- The signals that incidents in order put on a feed. -/
def poured (s : System) (feed : Nat) : List Incident → List Signal
  | [] => []
  | i :: run => s.pouredBy feed i ++ (s.incur i).poured feed run

/-- The items of a subscription that an incident puts on its channel. -/
def sentBy (s : System) (sub : Subscription) (i : Incident) : List Item :=
  ((((s.incur i).channel sub.channel).items.drop (s.channel sub.channel).items.length).filter
    (·.1 = sub.id)).map (·.2)

/-- The items of a subscription that incidents in order put on its channel. -/
def sent (s : System) (sub : Subscription) : List Incident → List Item
  | [] => []
  | i :: run => s.sentBy sub i ++ (s.incur i).sent sub run

end System

namespace Dispatch

/-- A property of a dispatcher between its two ends, of the items it has sent and the signals
it has taken, that lasts while others are at work and with every step after which the
dispatcher goes on. `Whole` holds of the signals that are all of a feed that has ended. -/
structure Lasting (policy : SlowPolicy) (Whole : List Signal → Prop)
    (P : Dispatch → List Item → List Signal → Prop) : Prop where
  meanwhile : ∀ {d d' : Dispatch} {sent : List Item} {taken : List Signal}, P d sent taken →
    d'.dispatcher.Resembles d.dispatcher → d.feed.Fills d'.feed → d.channel.Tended d'.channel →
      P d' sent taken
  step : ∀ {d : Dispatch} {step : Step} {sent items : List Item} {taken more : List Signal},
    P d sent taken → (d.feed.queue = [] → d.feed.fed = false → Whole taken) →
      d.GoesOn policy step items more → P step.after (sent ++ items) (taken ++ more)

end Dispatch

namespace Wiring

variable {w w' : Wiring} {d e : Dispatcher} {sub : Subscription}

/-- Whatever happened, the dispatcher took no step. -/
structure Spares (w w' : Wiring) (d : Dispatcher) : Prop where
  works : ∃ d' ∈ w'.dispatchers, d'.Resembles d
  feed : (w.store.feed d.subscription.feed).Fills (w'.store.feed d.subscription.feed)
  channel : (w.channel d.subscription.channel).Tended (w'.channel d.subscription.channel)

/-- While no dispatcher takes a step, a dispatcher is spared with its feed and its channel. -/
theorem Meanwhile.spares (h : w.Meanwhile w') (hd : d ∈ w.dispatchers)
    (hopened : d.subscription.feed < w.store.feeds.length)
    (hmade : d.subscription.channel < w.channels.length) : w.Spares w' d where
  works := by
    obtain ⟨new, ⟨f, hdispatchers, hf⟩, _⟩ := h.dispatchers
    refine ⟨f d, ?_, (hf d hd).1⟩
    rw [hdispatchers]
    exact List.mem_append_left _ (List.mem_map_of_mem hd)
  feed := h.fills d hd hopened
  channel := h.tended _ hmade

/-- A step leaves all feeds but its own alone. -/
theorem feed_dispatch_of_ne (w : Wiring) (e : Dispatcher) (reportFirst : Bool) {n : Nat}
    (hn : e.subscription.feed ≠ n) :
    (w.dispatch e reportFirst).store.feed n = w.store.feed n := by
  simp only [dispatch]
  split
  · simp only [endDispatcher]
    rw [Store.feed_onFeed_of_ne hn]
    exact Store.feed_onFeed_of_ne hn _
  · exact Store.feed_onFeed_of_ne hn _

/-- A step takes signals off its own feed, or leaves it. -/
theorem feed_dispatch_self (hopened : d.subscription.feed < w.store.feeds.length)
    (reportFirst : Bool) :
    ((w.dispatch d reportFirst).store.feed d.subscription.feed).queue <:+
      (w.store.feed d.subscription.feed).queue ∧
    (w.dispatch d reportFirst).store.feed d.subscription.feed =
      if (w.stepOf d reportFirst).pace = .over then (w.stepOf d reportFirst).after.feed.leave
      else (w.stepOf d reportFirst).after.feed := by
  obtain ⟨queue, hsuffix, hfeed⟩ := Dispatch.feed_step (w.dispatchOf d) w.policy
    (w.stopped || d.cancelled) reportFirst
  have hqueue : (w.stepOf d reportFirst).after.feed.queue = queue := congrArg Feed.queue hfeed
  have hread : (w.store.onFeed d.subscription.feed fun _ =>
      (w.stepOf d reportFirst).after.feed).feed d.subscription.feed =
        (w.stepOf d reportFirst).after.feed := Store.feed_onFeed_self hopened _
  simp only [dispatch]
  split
  · next hover =>
    have hleft : (w.store.onFeed d.subscription.feed fun _ =>
        (w.stepOf d reportFirst).after.feed).feeds.length = w.store.feeds.length :=
      Store.length_onFeed ..
    simp only [endDispatcher, onChannel, withDispatcher]
    rw [Store.feed_onFeed_self (hleft ▸ hopened), hread, if_pos hover]
    exact ⟨List.nil_suffix, rfl⟩
  · next hgoes =>
    simp only [onChannel, withDispatcher]
    rw [hread, if_neg hgoes, hqueue]
    exact ⟨hsuffix, rfl⟩

/-- Nobody comes back to a feed in a step. -/
theorem sides_dispatch_self (hopened : d.subscription.feed < w.store.feeds.length)
    (reportFirst : Bool) :
    (((w.dispatch d reportFirst).store.feed d.subscription.feed).attended = true →
      (w.store.feed d.subscription.feed).attended = true) ∧
    (((w.dispatch d reportFirst).store.feed d.subscription.feed).fed = true →
      (w.store.feed d.subscription.feed).fed = true) := by
  obtain ⟨queue, _, hfeed⟩ := Dispatch.feed_step (w.dispatchOf d) w.policy
    (w.stopped || d.cancelled) reportFirst
  have hafter : (w.stepOf d reportFirst).after.feed =
      { w.store.feed d.subscription.feed with queue } := hfeed
  rw [(feed_dispatch_self hopened reportFirst).2, hafter]
  split
  · exact ⟨nofun, id⟩
  · exact ⟨id, id⟩

/-- A dispatcher takes no step when another does. -/
theorem Supplied.spares_dispatch (h : w.Supplied) (hd : d ∈ w.dispatchers)
    (he : e ∈ w.dispatchers) (hid : d.subscription.id ≠ e.subscription.id) (reportFirst : Bool) :
    w.Spares (w.dispatch e reportFirst) d where
  works := ⟨d, mem_dispatch_of_mem hd reportFirst hid, rfl, rfl, rfl⟩
  feed := by
    have hne : e.subscription.feed ≠ d.subscription.feed := by
      intro heq
      have hsame : d = e := eq_of_nodup (f := fun sub => sub.feed) h.feeds hd he heq.symm
      exact hid (congrArg (·.subscription.id) hsame)
    rw [feed_dispatch_of_ne w e reportFirst hne]
    exact .refl _
  channel := tended_dispatch w e reportFirst _

/-- What no incident undoes. -/
structure Onward (w w' : Wiring) : Prop where
  policy : w'.policy = w.policy
  next : w.nextSubscription ≤ w'.nextSubscription
  grows : w.store.feeds.length ≤ w'.store.feeds.length
  made : w.channels.length ≤ w'.channels.length
  released : ∀ n < w.store.feeds.length,
    (w'.store.feed n).attended = true → (w.store.feed n).attended = true
  ended : ∀ n < w.store.feeds.length, (w'.store.feed n).fed = true → (w.store.feed n).fed = true
  received : ∀ n < w.channels.length,
    (w'.channel n).received = true → (w.channel n).received = true
  dispatchers : ∀ d' ∈ w'.dispatchers, (∃ d ∈ w.dispatchers, d'.subscription = d.subscription) ∨
    d'.subscription.id = w.nextSubscription

/-- What may happen while no dispatcher takes a step undoes nothing. -/
theorem Meanwhile.onward (h : w.Meanwhile w') : w.Onward w' where
  policy := h.policy
  next := h.next
  grows := h.grows
  made := h.made
  released := h.released
  ended := h.ended
  received n hn := (h.tended n hn).received
  dispatchers d' hd' := by
    rcases h.mem_dispatchers hd' with ⟨d, hd, hlike⟩ | ⟨_, henters⟩
    · exact .inl ⟨d, hd, hlike.subscription⟩
    · exact .inr henters.number

/-- A step of a dispatcher undoes nothing. -/
theorem Supplied.onward_dispatch (h : w.Supplied) (hd : d ∈ w.dispatchers) (reportFirst : Bool) :
    w.Onward (w.dispatch d reportFirst) := by
  obtain ⟨hsub, _⟩ := stepOf_dispatcher w d reportFirst
  obtain ⟨hfeeds, hchannels⟩ := length_dispatch w d reportFirst
  have hsides (n : Nat) : (((w.dispatch d reportFirst).store.feed n).attended = true →
      (w.store.feed n).attended = true) ∧
      (((w.dispatch d reportFirst).store.feed n).fed = true → (w.store.feed n).fed = true) := by
    by_cases hn : d.subscription.feed = n
    · subst hn
      exact sides_dispatch_self (h.opened d hd) reportFirst
    · rw [feed_dispatch_of_ne w d reportFirst hn]
      exact ⟨id, id⟩
  exact {
    policy := Change.policy_eq (.dispatch w d reportFirst hd)
    next := Nat.le_of_eq (stopped_dispatch w d reportFirst).2.symm
    grows := Nat.le_of_eq hfeeds.symm
    made := Nat.le_of_eq hchannels.symm
    released := fun n _ => (hsides n).1
    ended := fun n _ => (hsides n).2
    received := fun n _ => (tended_dispatch w d reportFirst n).received
    dispatchers := fun d' hd' => by
      rcases mem_dispatch hd' hsub with ⟨rfl, _⟩ | ⟨hold, _⟩
      · exact .inl ⟨d, hd, hsub⟩
      · exact .inl ⟨d', hold, rfl⟩ }

end Wiring

/-! ### What passes in one incident -/

/-- Where others alone add to a channel, nothing of the subscription is added. -/
theorem Channel.Flows.others {c c' : Channel} {id : Nat} (h : Channel.Flows (·.1 ≠ id) c c') :
    (c'.items.drop c.items.length).filter (·.1 = id) = [] := by
  obtain ⟨kept, added, hkept, hitems, hadded⟩ := h
  rw [List.filter_eq_nil_iff]
  intro e he
  rw [hitems, List.drop_append, List.drop_eq_nil_of_le hkept.length_le, List.nil_append] at he
  simpa using hadded e (List.mem_of_mem_drop he)

namespace System

open Dispatch (Keeps Lasting)
open Episode (Left)
open Wiring (Spares)

variable {s : System} {es : List Episode} {i : Incident} {d e : Dispatcher} {reportFirst : Bool}
  {sub : Subscription}

/-- Whether a dispatcher of another number, if any, takes a step in an incident. -/
def Leaves (s : System) (id : Nat) (i : Incident) : Prop :=
  ∀ step, s.stepper? i = some step → step.1.subscription.id ≠ id

/-- Dispatchers with the same number are the same. -/
theorem Supplied.eq_of_id (h : s.Supplied es) (hd : d ∈ s.dispatchers) (he : e ∈ s.dispatchers)
    (hid : d.subscription.id = e.subscription.id) : d = e :=
  h.exact.eq_of_id hd he hid

/-- A dispatcher either takes the step in an incident, or is spared. -/
theorem Supplied.spares (h : s.Supplied es) (hd : d ∈ s.dispatchers)
    (hmade : d.subscription.channel < s.channels.length) (hleaves : s.Leaves d.subscription.id i) :
    Spares s.wiring (s.incur i).wiring d := by
  cases hstepper : s.stepper? i with
  | none =>
    exact (h.toKept.meanwhile hstepper).spares hd (h.supplied.opened d hd) hmade
  | some step =>
    obtain ⟨he, hwiring⟩ := wiring_of_stepper hstepper
    rw [hwiring]
    exact h.supplied.spares_dispatch hd he (hleaves step hstepper).symm step.2

/-- Only the steps of its dispatcher bring items of a subscription onto a channel. -/
theorem Supplied.sentBy_of_leaves (h : s.Supplied es) (hpositive : 0 < sub.id)
    (hleaves : s.Leaves sub.id i) : s.sentBy sub i = [] := by
  have hflows : Channel.Flows (·.1 ≠ sub.id) (s.wiring.channel sub.channel)
      ((s.incur i).wiring.channel sub.channel) := by
    cases hstepper : s.stepper? i with
    | none =>
      refine ((h.toKept.meanwhile hstepper).flows sub.channel).mono fun e hothers heq => ?_
      rw [← heq, hothers] at hpositive
      cases hpositive
    | some step =>
      obtain ⟨_, hwiring⟩ := wiring_of_stepper hstepper
      rw [hwiring]
      obtain ⟨items, hkeeps⟩ := Wiring.keeps_stepOf s.wiring step.1 step.2
      exact Wiring.flows_dispatch hkeeps.channel (fun _ _ => hleaves step hstepper) _
  exact congrArg (List.map (·.2)) hflows.others

/-- What the step of its dispatcher sends. -/
theorem sentBy_of_step (hstepper : s.stepper? i = some (d, reportFirst))
    (hmade : d.subscription.channel < s.channels.length) {items : List Item}
    (hkeeps : Keeps (s.wiring.dispatchOf d) (s.wiring.stepOf d reportFirst) items) :
    s.sentBy d.subscription i = items := by
  obtain ⟨_, hwiring⟩ := wiring_of_stepper hstepper
  have hchannel := Wiring.channel_dispatch_self (w := s.wiring) hmade reportFirst
  rw [← hwiring] at hchannel
  have hitems : ((s.incur i).channel d.subscription.channel).items =
      (s.channel d.subscription.channel).items ++ items.map (d.subscription.id, ·) :=
    (congrArg Channel.items hchannel).trans hkeeps.channel.items_eq
  rw [sentBy, hitems, List.drop_left, List.filter_eq_self.2 (by simp), List.map_map]
  exact List.map_id items

/-- What is put on the feed of a dispatcher that is spared comes behind what it has not
taken. -/
theorem pouredBy_of_spares (hspares : Spares s.wiring (s.incur i).wiring d) :
    ((s.incur i).store.feed d.subscription.feed).queue =
      (s.store.feed d.subscription.feed).queue ++ s.pouredBy d.subscription.feed i := by
  obtain ⟨more, hmore⟩ := hspares.feed.queue
  have hqueue : ((s.incur i).store.feed d.subscription.feed).queue =
      (s.store.feed d.subscription.feed).queue ++ more := hmore.symm
  rw [pouredBy, hqueue, List.drop_left]

/-- A step leaves nothing behind the signals that were on its feed. -/
theorem pouredBy_of_step (hstepper : s.stepper? i = some (d, reportFirst))
    (hopened : d.subscription.feed < s.store.feeds.length) :
    s.pouredBy d.subscription.feed i = [] := by
  obtain ⟨_, hwiring⟩ := wiring_of_stepper hstepper
  obtain ⟨hsuffix, _⟩ := Wiring.feed_dispatch_self (w := s.wiring) hopened reportFirst
  rw [← hwiring] at hsuffix
  exact List.drop_eq_nil_of_le hsuffix.length_le

/-! ### From step to step -/

/-- The dispatcher of a subscription is at work: it has taken what was put on its feed, up to
what is still there. -/
def AtWork (P : Dispatch → List Item → List Signal → Prop) (s : System) (sub : Subscription)
    (sent : List Item) (stream : List Signal) : Prop :=
  ∃ d ∈ s.dispatchers, d.subscription = sub ∧
    ∃ taken, stream = taken ++ (s.store.feed sub.feed).queue ∧ P (s.wiring.dispatchOf d) sent taken

/-- The last step of a dispatcher, and what it sends in it. -/
structure LastStep (policy : SlowPolicy) (P : Dispatch → List Item → List Signal → Prop)
    (d : Dispatch) (stop reportFirst : Bool) (sent items : List Item) (taken : List Signal) :
    Prop where
  before : P d sent taken
  ends : (d.step policy stop reportFirst).pace = .over
  keeps : Keeps d (d.step policy stop reportFirst) items

/-- The dispatcher of a subscription is gone after a last step, and nothing is left of the
subscription. -/
structure Departed (policy : SlowPolicy) (P : Dispatch → List Item → List Signal → Prop)
    (s : System) (es : List Episode) (sub : Subscription) (sent : List Item)
    (stream : List Signal) : Prop where
  gone : ∀ d ∈ s.dispatchers, d.subscription.id ≠ sub.id
  old : sub.id < s.nextSubscription
  released : (s.store.feed sub.feed).attended = false
  last : ∃ d stop reportFirst before items taken rest,
    LastStep policy P d stop reportFirst before items taken ∧ d.dispatcher.subscription = sub ∧
      sent = before ++ items ∧ stream = taken ++ rest ∧
      d.feed.queue <+: rest ∧ (stop = true → .shutDown ∈ es ∨ Left es sub.id) ∧
      ((s.store.feed sub.feed).fed = true → d.feed.fed = true) ∧
      ((s.channel sub.channel).received = true → d.channel.received = true)

/-- How a subscription stands whose dispatcher once was at work. -/
structure Followed (policy : SlowPolicy) (P : Dispatch → List Item → List Signal → Prop)
    (s : System) (es : List Episode) (sub : Subscription) (sent : List Item)
    (stream : List Signal) : Prop where
  under : s.wiring.policy = policy
  numbered : 0 < sub.id
  opened : sub.feed < s.store.feeds.length
  made : sub.channel < s.channels.length
  stands : AtWork P s sub sent stream ∨ Departed policy P s es sub sent stream

variable {policy : SlowPolicy} {Whole : List Signal → Prop}
  {P : Dispatch → List Item → List Signal → Prop} {sent : List Item} {stream : List Signal}

/-- No incident undoes what is not to be undone. -/
theorem Supplied.onward (h : s.Supplied es) (i : Incident) :
    s.wiring.Onward (s.incur i).wiring := by
  cases hstepper : s.stepper? i with
  | none => exact (h.toKept.meanwhile hstepper).onward
  | some step =>
    obtain ⟨he, hwiring⟩ := wiring_of_stepper hstepper
    rw [hwiring]
    exact h.supplied.onward_dispatch he step.2

/-- A subscription that nothing is left of does not come back. -/
theorem Departed.onward (h : Departed policy P s es sub sent stream) (hsupplied : s.Supplied es)
    (hopened : sub.feed < s.store.feeds.length) (hmade : sub.channel < s.channels.length)
    (hpositive : 0 < sub.id) (i : Incident) :
    Departed policy P (s.incur i) (es ++ s.befalls i) sub (sent ++ s.sentBy sub i)
      (stream ++ s.pouredBy sub.feed i) := by
  have honward := hsupplied.onward i
  have hleaves : s.Leaves sub.id i := fun step hstepper =>
    h.gone step.1 (wiring_of_stepper hstepper).1
  have hnothing := hsupplied.sentBy_of_leaves hpositive hleaves
  obtain ⟨d, stop, reportFirst, before, items, taken, rest, hlast, hsub, hsent, hstream,
    hunread, htold, hfed, hreceived⟩ := h.last
  exact {
    gone := fun d' hd' hid => by
      rcases honward.dispatchers d' hd' with ⟨old, hold, heq⟩ | hnew
      · exact h.gone old hold (heq ▸ hid)
      · exact absurd (hid.symm.trans hnew) (Nat.ne_of_lt h.old)
    old := Nat.lt_of_lt_of_le h.old honward.next
    released := Bool.eq_false_iff.2 fun hattended => by
      have hbefore := honward.released _ hopened hattended
      cases h.released.symm.trans hbefore
    last := ⟨d, stop, reportFirst, before, items, taken, rest ++ s.pouredBy sub.feed i, hlast, hsub,
      by rw [hnothing, List.append_nil, hsent], by rw [hstream, List.append_assoc],
      hunread.trans (List.prefix_append _ _),
      fun hstop => (htold hstop).imp (List.mem_append_left _) (·.append _),
      fun h => hfed (honward.ended _ hopened h), fun h => hreceived (honward.received _ hmade h)⟩ }

/-- A dispatcher that takes no step stays at work. -/
theorem AtWork.spare (h : AtWork P s sub sent stream) (hlasting : Lasting policy Whole P)
    (hsupplied : s.Supplied es) (hmade : sub.channel < s.channels.length)
    (hleaves : s.Leaves sub.id i) :
    AtWork P (s.incur i) sub (sent ++ s.sentBy sub i) (stream ++ s.pouredBy sub.feed i) := by
  obtain ⟨d, hd, rfl, taken, rfl, hP⟩ := h
  have hspares := hsupplied.spares hd hmade hleaves
  obtain ⟨d', hd', hlike⟩ := hspares.works
  have hnothing := hsupplied.sentBy_of_leaves (hsupplied.supplied.numbered d hd) hleaves
  refine ⟨d', hd', hlike.subscription, taken, ?_, ?_⟩
  · rw [List.append_assoc, pouredBy_of_spares hspares]
  · rw [hnothing, List.append_nil]
    refine hlasting.meanwhile hP hlike ?_ ?_
    · simp only [Wiring.dispatchOf, hlike.subscription]
      exact hspares.feed
    · simp only [Wiring.dispatchOf, hlike.subscription]
      exact hspares.channel

/-- After the last step of its dispatcher nothing of a subscription is left. -/
theorem Supplied.departed_of_step (h : s.Supplied es) (hpolicy : s.wiring.policy = policy)
    (hd : d ∈ s.dispatchers) (hmade : d.subscription.channel < s.channels.length)
    (hstepper : s.stepper? i = some (d, reportFirst))
    (hover : (s.wiring.stepOf d reportFirst).pace = .over) {taken : List Signal}
    (hP : P (s.wiring.dispatchOf d) sent taken) :
    Departed policy P (s.incur i) (es ++ s.befalls i) d.subscription
      (sent ++ s.sentBy d.subscription i) (taken ++ (s.store.feed d.subscription.feed).queue) := by
  obtain ⟨_, hwiring⟩ := wiring_of_stepper hstepper
  obtain ⟨hsub, _⟩ := Wiring.stepOf_dispatcher s.wiring d reportFirst
  have hopened := h.supplied.opened d hd
  obtain ⟨items, hkeeps⟩ := Wiring.keeps_stepOf s.wiring d reportFirst
  have hstep : s.wiring.stepOf d reportFirst =
    (s.wiring.dispatchOf d).step policy (s.stopped || d.cancelled) reportFirst := hpolicy ▸ rfl
  have hfeed := (Wiring.feed_dispatch_self (w := s.wiring) hopened reportFirst).2
  rw [← hwiring, if_pos hover] at hfeed
  have hleft : (s.incur i).store.feed d.subscription.feed =
    (s.wiring.stepOf d reportFirst).after.feed.leave := hfeed
  have htold (hstop : (s.stopped || d.cancelled) = true) :
      .shutDown ∈ es ++ s.befalls i ∨ Left (es ++ s.befalls i) d.subscription.id := by
    rcases Bool.or_eq_true_iff.1 hstop with hstopped | hcancelled
    · exact .inl (List.mem_append_left _ (h.exact.stopped.1 hstopped))
    · exact .inr ((h.bidden.left d hd hcancelled).append _)
  rw [sentBy_of_step hstepper hmade hkeeps]
  exact {
    gone := fun d' hd' heq => by
      have hmem : d' ∈ (s.wiring.dispatch d reportFirst).dispatchers := hwiring ▸ hd'
      rcases Wiring.mem_dispatch hmem hsub with ⟨_, hgoes⟩ | ⟨_, hne⟩
      · exact hgoes hover
      · exact hne heq
    old := Nat.lt_of_lt_of_le (h.exact.fresh d hd) (h.onward i).next
    released := by rw [hleft]; rfl
    last := ⟨s.wiring.dispatchOf d, s.stopped || d.cancelled, reportFirst, sent, items, taken, _,
      ⟨hP, hstep ▸ hover, hstep ▸ hkeeps⟩, rfl, rfl, rfl, List.prefix_refl _, htold,
      (h.onward i).ended _ hopened, (h.onward i).received _ hmade⟩ }

/-- A dispatcher that goes on after a step is still at work. -/
theorem Supplied.atWork_of_step (h : s.Supplied es) (hlasting : Lasting policy Whole P)
    (hpolicy : s.wiring.policy = policy) (hd : d ∈ s.dispatchers)
    (hmade : d.subscription.channel < s.channels.length)
    (hstepper : s.stepper? i = some (d, reportFirst))
    (hpace : (s.wiring.stepOf d reportFirst).pace ≠ .over) {taken : List Signal}
    (hP : P (s.wiring.dispatchOf d) sent taken)
    (hwhole : (s.store.feed d.subscription.feed).queue = [] →
      (s.store.feed d.subscription.feed).fed = false → Whole taken) :
    AtWork P (s.incur i) d.subscription (sent ++ s.sentBy d.subscription i)
      (taken ++ (s.store.feed d.subscription.feed).queue) := by
  obtain ⟨_, hwiring⟩ := wiring_of_stepper hstepper
  obtain ⟨hsub, _⟩ := Wiring.stepOf_dispatcher s.wiring d reportFirst
  have hfeed := (Wiring.feed_dispatch_self (w := s.wiring) (h.supplied.opened d hd) reportFirst).2
  have hchannel := Wiring.channel_dispatch_self (w := s.wiring) hmade reportFirst
  have hmem := Wiring.mem_dispatch_self hd hpace
  rw [← hwiring] at hfeed hchannel hmem
  rw [if_neg hpace] at hfeed
  have hread : (s.incur i).store.feed d.subscription.feed =
    (s.wiring.stepOf d reportFirst).after.feed := hfeed
  obtain ⟨items, more, hgoes⟩ : ∃ items more, (s.wiring.dispatchOf d).GoesOn policy
      (s.wiring.stepOf d reportFirst) items more := by
    subst hpolicy
    exact Dispatch.goesOn_step hpace
  have hqueue : (s.store.feed d.subscription.feed).queue =
    more ++ (s.wiring.stepOf d reportFirst).after.feed.queue := hgoes.queue
  obtain ⟨credit, hcredit⟩ := (s.wiring.stepOf d reportFirst).dispatcher_eq
  rw [sentBy_of_step hstepper hmade hgoes.keeps]
  refine ⟨(s.wiring.stepOf d reportFirst).dispatcher, hmem, hsub, taken ++ more, ?_, ?_⟩
  · rw [hqueue, hread, List.append_assoc]
  · -- the dispatcher only has less credit than the step left it
    refine hlasting.meanwhile (hlasting.step hP hwhole hgoes)
      (by rw [Wiring.dispatchOf, hcredit]; exact ⟨rfl, rfl, rfl⟩) ?_ ?_
    · simp only [Wiring.dispatchOf, hsub, hfeed]
      exact .refl _
    · simp only [Wiring.dispatchOf, hsub, hchannel]
      exact .refl _

/-- A dispatcher that takes a step goes on, or has taken its last. -/
theorem AtWork.step (h : AtWork P s sub sent stream) (hlasting : Lasting policy Whole P)
    (hsupplied : s.Supplied es) (hpolicy : s.wiring.policy = policy)
    (hmade : sub.channel < s.channels.length) (hstepper : s.stepper? i = some (e, reportFirst))
    (hid : e.subscription.id = sub.id)
    (hwhole : (s.store.feed sub.feed).fed = false → Whole stream) :
    AtWork P (s.incur i) sub (sent ++ s.sentBy sub i) (stream ++ s.pouredBy sub.feed i) ∨
      Departed policy P (s.incur i) (es ++ s.befalls i) sub (sent ++ s.sentBy sub i)
        (stream ++ s.pouredBy sub.feed i) := by
  obtain ⟨d, hd, rfl, taken, rfl, hP⟩ := h
  obtain ⟨he, _⟩ := wiring_of_stepper hstepper
  obtain rfl := hsupplied.eq_of_id he hd hid
  rw [pouredBy_of_step hstepper (hsupplied.supplied.opened e hd), List.append_nil]
  by_cases hover : (s.wiring.stepOf e reportFirst).pace = .over
  · exact .inr (hsupplied.departed_of_step hpolicy hd hmade hstepper hover hP)
  · refine .inl (hsupplied.atWork_of_step hlasting hpolicy hd hmade hstepper hover hP
      fun hempty hended => ?_)
    have hall := hwhole hended
    rwa [hempty, List.append_nil] at hall

/-- A subscription is followed through every incident. -/
theorem Followed.incur (h : Followed policy P s es sub sent stream)
    (hlasting : Lasting policy Whole P) (hsupplied : s.Supplied es)
    (hwhole : (s.store.feed sub.feed).fed = false → Whole stream) (i : Incident) :
    Followed policy P (s.incur i) (es ++ s.befalls i) sub (sent ++ s.sentBy sub i)
      (stream ++ s.pouredBy sub.feed i) := by
  have honward := hsupplied.onward i
  refine ⟨honward.policy.trans h.under, h.numbered, Nat.lt_of_lt_of_le h.opened honward.grows,
    Nat.lt_of_lt_of_le h.made honward.made, ?_⟩
  rcases h.stands with hworks | hdeparted
  · by_cases hstep : ∃ step, s.stepper? i = some step ∧ step.1.subscription.id = sub.id
    · obtain ⟨step, hstepper, hid⟩ := hstep
      exact hworks.step hlasting hsupplied h.under h.made hstepper hid hwhole
    · exact .inl (hworks.spare hlasting hsupplied h.made fun step hstepper hid =>
        hstep ⟨step, hstepper, hid⟩)
  · exact .inr (hdeparted.onward hsupplied h.opened h.made h.numbered i)

/-- So it is through every run. -/
theorem Followed.incurs (h : Followed policy P s es sub sent stream)
    (hlasting : Lasting policy Whole P) (hsupplied : s.Supplied es) (run : List Incident)
    (hwhole : ∀ now soon, run = now ++ soon →
      ((s.incurs now).store.feed sub.feed).fed = false → Whole (stream ++ s.poured sub.feed now)) :
    Followed policy P (s.incurs run) (es ++ s.episodes run) sub (sent ++ s.sent sub run)
      (stream ++ s.poured sub.feed run) := by
  induction run generalizing s es sent stream with
  | nil =>
    simp only [System.sent, poured, episodes, List.append_nil]
    exact h
  | cons i run ih =>
    have hnow : (s.store.feed sub.feed).fed = false → Whole stream := fun hended => by
      have hall := hwhole [] (i :: run) rfl hended
      rwa [poured, List.append_nil] at hall
    have hrest := ih (h.incur hlasting hsupplied hnow i) (hsupplied.incur i)
      fun now soon hrun hended => by
        rw [List.append_assoc]
        exact hwhole (i :: now) soon (congrArg (i :: ·) hrun) hended
    simp only [List.append_assoc] at hrest
    exact hrest

/-- The policy is the same after any incidents. -/
theorem Supplied.policy_incurs (h : s.Supplied es) (run : List Incident) :
    (s.incurs run).wiring.policy = s.wiring.policy := by
  induction run generalizing s es with
  | nil => rfl
  | cons i run ih => exact (ih (h.incur i)).trans (h.onward i).policy

/-- The run starts with a dispatcher that is there. -/
theorem Supplied.followed (h : s.Supplied es) (hd : d ∈ s.dispatchers)
    (hmade : d.subscription.channel < s.channels.length)
    (hP : P (s.wiring.dispatchOf d) [] []) :
    Followed s.wiring.policy P s es d.subscription []
      (s.store.feed d.subscription.feed).queue where
  under := rfl
  numbered := h.supplied.numbered d hd
  opened := h.supplied.opened d hd
  made := hmade
  stands := .inl ⟨d, hd, rfl, [], rfl, hP⟩

end System

end KeyBroker
