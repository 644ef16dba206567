import KeyBroker.Proofs.Following.Line
import KeyBroker.Proofs.Register.Exact
import KeyBroker.Proofs.Store.Filling

/-!
# While a dispatcher does nothing

Between two steps of dispatchers the world goes on: feeds are filled, channels are sent on and
emptied, and calls enter subscriptions. A new subscription reads a feed that was opened for it,
whatever the script makes up. Nobody but its dispatcher takes anything off a feed.
-/

namespace KeyBroker

/-- What one sender adds to a channel. -/
theorem Channel.Flows.of_gains {c c' : Channel} {sender : Nat} {items : List Item}
    (h : Channel.Gains c c' sender items) : Channel.Flows (·.1 = sender) c c' := by
  refine ⟨c.items, items.map (sender, ·), List.suffix_refl _, h.items_eq, fun e he => ?_⟩
  obtain ⟨item, _, rfl⟩ := List.mem_map.1 he
  rfl

/-- Dispatchers stay where they were, in their order, and `new` ones come behind them. At most
they are told to stop. -/
def Dispatcher.Carried (before after new : List Dispatcher) : Prop :=
  ∃ f : Dispatcher → Dispatcher, after = before.map f ++ new ∧
    ∀ d ∈ before, (f d).Resembles d ∧ (d.cancelled = true → (f d).cancelled = true)

namespace Dispatcher.Carried

variable {before after later new : List Dispatcher}

/-- Dispatchers put behind others leave those where they were. -/
theorem concat (before new : List Dispatcher) : Carried before (before ++ new) new :=
  ⟨id, by rw [List.map_id], fun _ _ => ⟨⟨rfl, rfl, rfl⟩, id⟩⟩

/-- Dispatchers left alone are where they were, with no new ones. -/
theorem of_eq (h : after = before) : Carried before after [] := by
  subst h
  simpa using concat after []

/-- Dispatchers that stayed where they were twice are where they were. -/
theorem trans (h : Carried before after []) (h' : Carried after later []) :
    Carried before later [] := by
  obtain ⟨f, rfl, hf⟩ := h
  obtain ⟨g, rfl, hg⟩ := h'
  rw [List.append_nil] at hg
  refine ⟨g ∘ f, by simp, fun d hd => ?_⟩
  obtain ⟨hlike, hcancelled⟩ := hf d hd
  obtain ⟨hlike', hcancelled'⟩ := hg (f d) (List.mem_map_of_mem hd)
  exact ⟨⟨hlike'.subscription.trans hlike.subscription, hlike'.phase.trans hlike.phase,
    hlike'.missed.trans hlike.missed⟩, fun h => hcancelled' (hcancelled h)⟩

end Dispatcher.Carried

namespace Wiring

/-- A new subscription reads a feed that was opened for it and that nothing was sent on. -/
structure Opens (w w' : Wiring) (feed : Nat) : Prop where
  later : w.store.feeds.length ≤ feed
  opened : feed < w'.store.feeds.length
  clean : w'.store.feed feed = {}

/-- A subscription is entered under the next number. -/
structure Enters (w w' : Wiring) (sub : Subscription) : Prop where
  number : sub.id = w.nextSubscription
  /-- Its stem is the one that the subscriber gave, in its scope. -/
  stem : sub.stem = sub.scope.qualify sub.localStem
  opens : w.Opens w' sub.feed

/-- What may happen to a wiring while no dispatcher takes a step. -/
structure Meanwhile (w w' : Wiring) : Prop where
  policy : w'.policy = w.policy
  next : w.nextSubscription ≤ w'.nextSubscription
  grows : w.store.feeds.length ≤ w'.store.feeds.length
  fills : ∀ d ∈ w.dispatchers, d.subscription.feed < w.store.feeds.length →
    (w.store.feed d.subscription.feed).Fills (w'.store.feed d.subscription.feed)
  /-- A reader that has gone away does not come back. -/
  released : ∀ n < w.store.feeds.length,
    (w'.store.feed n).attended = true → (w.store.feed n).attended = true
  /-- Nor does a sender. -/
  ended : ∀ n < w.store.feeds.length, (w'.store.feed n).fed = true → (w.store.feed n).fed = true
  made : w.channels.length ≤ w'.channels.length
  tended : ∀ n < w.channels.length, (w.channel n).Tended (w'.channel n)
  tight : ∀ n, w.channels.length ≤ n → (w'.channel n).Tight
  flows : ∀ n, Channel.Flows (·.1 = outsider) (w.channel n) (w'.channel n)
  dispatchers : ∃ new, Dispatcher.Carried w.dispatchers w'.dispatchers new ∧
    (new = [] ∨ ∃ sub, new = [{ subscription := sub }] ∧ w.Enters w' sub)

variable {w w' w'' : Wiring}

/-- A channel that was not made yet has nobody in line. -/
theorem tight_of_unmade {n : Nat} (h : w.channels.length ≤ n) : (w.channel n).Tight := by
  have hdefault : w.channel n = { capacity := 0, received := false } := by
    simp [channel, List.getD_eq_getElem?_getD, List.getElem?_eq_none h]
  rw [hdefault]
  exact fun hline => absurd rfl hline

/-- A wiring with the same channels has the same channel of each number. -/
theorem channel_congr (h : w'.channels = w.channels) (n : Nat) : w'.channel n = w.channel n := by
  rw [channel, channel, h]

namespace Meanwhile

/-- The store fills its feeds, and a subscription may be entered on a new one. -/
theorem of_fills (hpolicy : w'.policy = w.policy) (hnext : w.nextSubscription ≤ w'.nextSubscription)
    (hfills : w.store.Fills w'.store) (hchannels : w'.channels = w.channels)
    (hdispatchers : ∃ new, Dispatcher.Carried w.dispatchers w'.dispatchers new ∧
      (new = [] ∨ ∃ sub, new = [{ subscription := sub }] ∧ w.Enters w' sub)) : w.Meanwhile w' where
  policy := hpolicy
  next := hnext
  grows := hfills.grows
  fills d _ hopened := hfills.feeds _ hopened
  released n hn h := by
    rw [← (hfills.feeds n hn).attended]
    exact h
  ended n hn := (hfills.feeds n hn).fed
  made := Nat.le_of_eq (by rw [hchannels])
  tended n _ := by
    rw [channel_congr hchannels]
    exact .refl _
  tight n hn := by
    rw [channel_congr hchannels]
    exact tight_of_unmade hn
  flows n := .of_same (by rw [channel_congr hchannels])
  dispatchers := hdispatchers

/-- No dispatcher is brought on. -/
theorem of_carried (hpolicy : w'.policy = w.policy)
    (hnext : w'.nextSubscription = w.nextSubscription) (hfills : w.store.Fills w'.store)
    (hchannels : w'.channels = w.channels)
    (hcarried : Dispatcher.Carried w.dispatchers w'.dispatchers []) : w.Meanwhile w' :=
  of_fills hpolicy (Nat.le_of_eq hnext.symm) hfills hchannels ⟨[], hcarried, .inl rfl⟩

/-- Nothing may happen. -/
theorem refl (w : Wiring) : w.Meanwhile w := of_carried rfl rfl (.refl _) rfl (.of_eq rfl)

/-- What leaves the wiring the same may happen while no dispatcher takes a step. -/
theorem of_eq (h : w' = w) : w.Meanwhile w' := h ▸ refl w

/-- Feeds may be filled and opened while no dispatcher takes a step. -/
theorem withStore (w : Wiring) {store : Store} (hfills : w.store.Fills store) :
    w.Meanwhile { w with store } :=
  of_carried rfl rfl hfills rfl (.of_eq rfl)

/-- A feed that no dispatcher reads is read or left by somebody else. -/
theorem onFeed (w : Wiring) (n : Nat) {f : Feed → Feed}
    (hfree : ∀ d ∈ w.dispatchers, d.subscription.feed ≠ n)
    (hleft : ∀ feed : Feed, (f feed).attended = true → feed.attended = true)
    (hended : ∀ feed : Feed, (f feed).fed = feed.fed) :
    w.Meanwhile { w with store := w.store.onFeed n f } where
  policy := rfl
  next := Nat.le_refl _
  grows := Nat.le_of_eq (Store.length_onFeed w.store n f).symm
  fills d hd _ := by
    rw [Store.feed_onFeed_of_ne (hfree d hd).symm]
    exact .refl _
  released m hm h := by
    by_cases hnm : n = m
    · subst hnm
      rw [Store.feed_onFeed_self hm] at h
      exact hleft _ h
    · rwa [Store.feed_onFeed_of_ne hnm] at h
  ended m hm h := by
    by_cases hnm : n = m
    · subst hnm
      rwa [Store.feed_onFeed_self hm, hended] at h
    · rwa [Store.feed_onFeed_of_ne hnm] at h
  made := Nat.le_refl _
  tended _ _ := .refl _
  tight _ hn := tight_of_unmade hn
  flows _ := .of_same rfl
  dispatchers := ⟨[], .of_eq rfl, .inl rfl⟩

/-- A channel may be tended while no dispatcher takes a step, as long as only outsiders send on
it. -/
theorem onChannel (w : Wiring) (n : Nat) {f : Channel → Channel}
    (hf : (w.channel n).Tended (f (w.channel n)))
    (hflows : Channel.Flows (·.1 = outsider) (w.channel n) (f (w.channel n))) :
    w.Meanwhile (w.onChannel n f) where
  policy := rfl
  next := Nat.le_refl _
  grows := Nat.le_refl _
  fills _ _ _ := .refl _
  released _ _ h := h
  ended _ _ h := h
  made := Nat.le_of_eq (List.length_modify ..).symm
  tended m hm := by
    rw [channel_onChannel]
    split
    · next heq => exact heq.1 ▸ hf
    · exact .refl _
  tight m hm := by
    rw [channel_onChannel, if_neg fun h => Nat.not_lt.2 hm h.2]
    exact tight_of_unmade hm
  flows m := by
    rw [channel_onChannel]
    split
    · next heq => exact heq.1 ▸ hflows
    · exact .of_same rfl
  dispatchers := ⟨[], .of_eq rfl, .inl rfl⟩

/-- A channel may be made while no dispatcher takes a step. -/
theorem openChannel (w : Wiring) (capacity : Nat) (held : Bool) :
    w.Meanwhile { w with channels := w.channels ++ [{ capacity, held }] } where
  policy := rfl
  next := Nat.le_refl _
  grows := Nat.le_refl _
  fills _ _ _ := .refl _
  released _ _ h := h
  ended _ _ h := h
  made := by simp
  tended n hn := by
    simp only [channel, List.getD_eq_getElem?_getD, List.getElem?_append_left hn]
    exact .refl _
  tight n hn := by
    simp only [channel, List.getD_eq_getElem?_getD, List.getElem?_append_right hn]
    cases n - w.channels.length with
    | zero => exact Channel.tight_new capacity held
    | succ k => exact fun hline => absurd rfl hline
  flows n := by
    refine .of_same ?_
    simp only [channel, List.getD_eq_getElem?_getD]
    by_cases hn : n < w.channels.length
    · rw [List.getElem?_append_left hn]
    · rw [List.getElem?_append_right (Nat.le_of_not_lt hn),
        List.getElem?_eq_none (Nat.le_of_not_lt hn)]
      cases n - w.channels.length <;> rfl
  dispatchers := ⟨[], .of_eq rfl, .inl rfl⟩

/-- A dispatcher that rests gets its credit back. -/
theorem rest (w : Wiring) {d : Dispatcher}
    (hids : ∀ other ∈ w.dispatchers, other.subscription.id = d.subscription.id → other = d) :
    w.Meanwhile (w.withDispatcher d.refreshed) := by
  refine of_carried rfl rfl (.refl _) rfl ⟨_, (List.append_nil _).symm, fun other hother => ?_⟩
  split
  · next hid =>
    obtain rfl := hids other hother hid
    exact ⟨⟨rfl, rfl, rfl⟩, fun h => h⟩
  · exact ⟨⟨rfl, rfl, rfl⟩, fun h => h⟩

end Meanwhile

/-! ### What a call enters -/

/-- At most subscriptions are taken off the register. -/
structure Stays (w w' : Wiring) : Prop where
  policy : w'.policy = w.policy
  next : w'.nextSubscription = w.nextSubscription
  store : w'.store = w.store
  channels : w'.channels = w.channels
  dispatchers : Dispatcher.Carried w.dispatchers w'.dispatchers []

namespace Stays

/-- In the same wiring everything stays. -/
theorem of_eq (h : w' = w) : w.Stays w' := h ▸ ⟨rfl, rfl, rfl, rfl, .of_eq rfl⟩

/-- If at most subscriptions are taken off the register twice, that is all that happens. -/
theorem trans (h : w.Stays w') (h' : w'.Stays w'') : w.Stays w'' :=
  ⟨h'.policy.trans h.policy, h'.next.trans h.next, h'.store.trans h.store,
    h'.channels.trans h.channels, h.dispatchers.trans h'.dispatchers⟩

/-- Whether the broker is marked as stopped touches no subscription. -/
theorem stop (w : Wiring) (stopped : Bool) : w.Stays { w with stopped } :=
  ⟨rfl, rfl, rfl, rfl, .of_eq rfl⟩

/-- Unsubscribing takes a subscription off the register, and does nothing else. -/
theorem unsubscribe (w : Wiring) (id : Nat) : w.Stays (w.unsubscribe id) := by
  unfold Wiring.unsubscribe
  split
  · refine ⟨rfl, rfl, rfl, rfl, _, (List.append_nil _).symm, fun d _ => ?_⟩
    split
    · exact ⟨⟨rfl, rfl, rfl⟩, fun _ => rfl⟩
    · exact ⟨⟨rfl, rfl, rfl⟩, fun h => h⟩
  · exact .of_eq rfl

/-- Taking subscriptions off the register may happen while no dispatcher takes a step. -/
theorem meanwhile (h : w.Stays w') : w.Meanwhile w' :=
  .of_carried h.policy h.next (h.store ▸ .refl _) h.channels h.dispatchers

end Stays

end Wiring

/-- The number of the feed in the reply to a watch. -/
def Call.feed? : (call : Call) → Except Error call.service.Reply → Option Nat
  | .watch .., .ok feed => some feed
  | .watchAll .., .ok feed => some feed
  | _, _ => none

namespace System

open Wiring (Meanwhile Opens Stays)

variable {s t : System} {c : InFlight}

/-- A call that ends stops the broker at most. -/
theorem wiring_finish (s : System) (c : InFlight) (answer : Answer) :
    ∃ stopped, (s.finish c answer).wiring = { s.wiring with stopped } := by
  have hnotes := wiring_noteAll s answer.notices
  let u : System := { s.noteAll answer.notices with
    calls := (s.noteAll answer.notices).calls.filter fun other => other.id ≠ c.id
    finished := (s.noteAll answer.notices).finished ++ [(c.id, answer)] }
  have hu : u.wiring = s.wiring := hnotes
  have hsame : ∃ stopped, u.wiring = { s.wiring with stopped } := ⟨s.stopped, hu⟩
  have hrelease : ∃ stopped, u.release.wiring = { s.wiring with stopped } := by
    simp only [release]
    split
    · refine ⟨true, ?_⟩
      rw [wiring_stop, ← hu]
      rfl
    · exact hsame
  simp only [finish]
  split
  · exact hrelease
  · exact hsame

/-- Unsubscribing several subscriptions takes them off the register, and does nothing else. -/
theorem stays_unsubscribeAll (s : System) (ids : List Nat) :
    Stays s.wiring (s.unsubscribeAll ids).wiring := by
  induction ids generalizing s with
  | nil => exact .of_eq rfl
  | cons id rest ih =>
    have hfirst := Stays.unsubscribe s.wiring id
    rw [← wiring_unsubscribe] at hfirst
    exact hfirst.trans (ih (s.unsubscribe id))

/-- An answer enters a subscription if it is the reply to a watch, and none otherwise. -/
theorem answered_cases (s : System) (call : Call) (reply : Except Error call.service.Reply) :
    Stays s.wiring (s.answered call reply).1.wiring ∨
      ∃ scope stem channel feed, call.feed? reply = some feed ∧
        (s.answered call reply).1.wiring = s.wiring.register scope stem channel feed := by
  cases call with
  | watch scope stem channel =>
    cases reply with
    | ok feed => exact .inr ⟨scope, stem, channel, feed, rfl, wiring_register s _ _ _ _⟩
    | error e => exact .inl (.of_eq rfl)
  | watchAll scope channel held stem rest =>
    cases reply with
    | ok feed =>
      have hregister := wiring_register s scope stem channel feed
      cases rest <;> exact .inr ⟨scope, stem, channel, feed, rfl, hregister⟩
    | error e => exact .inl (stays_unsubscribeAll s _)
  | listAll | next | drain => cases reply <;> exact .inl (.of_eq rfl)
  | _ => exact .inl (.of_eq rfl)

/-- Going on, a call stops the broker at most. -/
theorem wiring_conclude (s : System) (c : InFlight) (reply : Except Error c.call.service.Reply) :
    ∃ stopped, (s.conclude c reply).wiring =
      { (s.answered c.call reply).1.wiring with stopped } := by
  simp only [conclude]
  cases (s.answered c.call reply).2 with
  | ask call => exact ⟨_, rfl⟩
  | done answer => exact wiring_finish _ c answer

/-! ### Polls of calls -/

/-- The store was asked something, and nothing else has changed yet. -/
structure Asked (s t : System) : Prop where
  wiring : ∃ script, t.wiring = { s.wiring with store := t.store, script }
  fills : s.store.Fills t.store

namespace Asked

/-- A system that has asked for nothing is as it was. -/
theorem refl (s : System) : s.Asked s := ⟨⟨s.script, rfl⟩, .refl _⟩

/-- Whether the store was only asked something shows in the wiring. -/
theorem of_wiring {u : System} (h : s.Asked t) (hwiring : u.wiring = t.wiring) : s.Asked u := by
  have hstore : u.store = t.store := congrArg Wiring.store hwiring
  exact ⟨hwiring ▸ hstore ▸ h.wiring, hstore ▸ h.fills⟩

/-- The store may be asked once more. -/
theorem withStore (h : s.Asked t) {store : Store} (hfills : t.store.Fills store) :
    s.Asked { t with store } where
  wiring := by
    obtain ⟨script, hwiring⟩ := h.wiring
    have hstored : ({ t with store } : System).wiring = { t.wiring with store } := rfl
    exact ⟨script, by rw [hstored, hwiring]⟩
  fills := h.fills.trans hfills

/-- After a request subscriptions may be taken off the register. -/
theorem stays (h : s.Asked t) {w : Wiring} (hstays : Stays t.wiring w) : Meanwhile s.wiring w := by
  obtain ⟨script, hwiring⟩ := h.wiring
  rw [hwiring] at hstays
  exact .of_carried hstays.policy hstays.next (hstays.store ▸ h.fills) hstays.channels
    hstays.dispatchers

/-- After a request the call may end, which may give subscriptions back. -/
theorem finish (h : s.Asked t) (answer : Answer) :
    Meanwhile s.wiring (t.finish c answer).wiring := by
  obtain ⟨stopped, hfinish⟩ := wiring_finish t c answer
  rw [hfinish]
  exact h.stays (.stop _ stopped)

/-- A call goes on, and a watch that has come up reads a feed that was opened for it. -/
theorem conclude (h : s.Asked t) (reply : Except Error c.call.service.Reply)
    (hopens : ∀ feed, c.call.feed? reply = some feed → Opens s.wiring t.wiring feed) :
    Meanwhile s.wiring (t.conclude c reply).wiring := by
  obtain ⟨stopped, hconclude⟩ := wiring_conclude t c reply
  rw [hconclude]
  rcases answered_cases t c.call reply with hstays | ⟨scope, stem, channel, feed, hfeed, hregister⟩
  · exact h.stays (hstays.trans (.stop _ stopped))
  · obtain ⟨script, hwiring⟩ := h.wiring
    have hopened := hopens feed hfeed
    rw [hregister]
    rw [hwiring] at hopened ⊢
    exact .of_fills rfl (Nat.le_succ _) h.fills rfl
      ⟨_, .concat _ _, .inr ⟨_, rfl, rfl, rfl, hopened.later, hopened.opened, hopened.clean⟩⟩

/-- A call that fails enters nothing. -/
theorem conclude_error (h : s.Asked t) (e : Error) :
    Meanwhile s.wiring (t.conclude c (.error e)).wiring := by
  refine h.conclude (.error e) fun feed hfeed => ?_
  have hnone : c.call.feed? (.error e) = none := by
    cases c.call <;> rfl
  rw [hnone] at hfeed
  cases hfeed

/-- A call goes on with an outcome; a watch that has come up reads a new feed. -/
theorem settle (h : s.Asked t) (started : Nat) (outcome : Outcome c.call.service.Reply)
    (hopens : ∀ reply, outcome = .ok reply → ∀ feed, c.call.feed? (.ok reply) = some feed →
      Opens s.wiring t.wiring feed) :
    Meanwhile s.wiring (t.settle c started outcome).wiring := by
  cases outcome with
  | ok reply =>
    have hobserved : s.Asked (t.answeredWell c.call.service started) := h.of_wiring rfl
    exact hobserved.conclude (.ok reply) (hopens reply rfl)
  | failed error =>
    have hobserved : s.Asked (((t.observe (.served c.call.service false)).note
      (c.call.service.failure error).2).observe (.lasted c.call.service (t.now - started))) :=
      h.of_wiring rfl
    exact hobserved.conclude_error _
  | aborted why =>
    have hobserved : s.Asked (t.observe (.lasted c.call.service (t.now - started))) :=
      h.of_wiring rfl
    exact hobserved.finish (.aborted why)

/-- After a request the call may wait for its reply. -/
theorem await (h : s.Asked t) (due : Option Nat) : Meanwhile s.wiring (t.await c due).wiring :=
  h.stays (.of_eq rfl)

end Asked

/-- The store opens a new feed for a watch. -/
theorem opens_serve (store : Store) (now : Nat) (call : Call) {reply : call.service.Reply}
    (hok : (store.serve now call.request).outcome = .ok reply) {feed : Nat}
    (hfeed : call.feed? (.ok reply) = some feed) :
    store.feeds.length ≤ feed ∧ feed < (store.serve now call.request).store.feeds.length ∧
      (store.serve now call.request).store.feed feed = {} := by
  have hwatch {stem : Key} {n : Nat} (hok : (store.serve now (.watch stem)).outcome = .ok n) :
      store.feeds.length ≤ n ∧ n < (store.serve now (.watch stem)).store.feeds.length ∧
        (store.serve now (.watch stem)).store.feed n = {} := by
    obtain ⟨rfl, hserve⟩ := Store.serve_watch_of_ok hok
    rw [hserve]
    refine ⟨Nat.le_refl _, ?_, Store.feed_openFeed store⟩
    simp [Store.openWatch, Store.openFeed]
  cases call with
  | watch | watchAll =>
    obtain rfl := Option.some.inj hfeed
    exact hwatch hok
  | _ => cases hfeed

/-- After a request the store may carry out one more, with all that comes of it. -/
theorem Asked.act (h : s.Asked t) (started : Nat) :
    Meanwhile s.wiring (t.act c started).wiring := by
  let served := t.store.serve (t.now * Duration.millisecond) c.call.request
  let next : System := { t with store := served.store }.wakeReaders served.reached
  have hwiring : next.wiring = { t with store := served.store }.wiring := wiring_wakeReaders _ _
  have hnext : s.Asked next := (h.withStore (.serve t.store _ _)).of_wiring hwiring
  have hstore : next.store = served.store := congrArg Wiring.store hwiring
  refine hnext.settle started served.outcome fun reply hok feed hfeed => ?_
  obtain ⟨hlater, hopened, hclean⟩ := opens_serve t.store _ c.call hok hfeed
  rw [← hstore] at hopened hclean
  exact ⟨Nat.le_trans h.fills.grows hlater, hopened, hclean⟩

/-- A stub that is given the name of another ends its feed. -/
theorem Asked.endStub (h : s.Asked t) (name : String) : s.Asked (t.endStub name) := by
  unfold System.endStub
  split
  · exact h
  · next n _ =>
    have hended := h.withStore (.onFeed t.store n (.finish _))
    refine Asked.of_wiring (t := { t with store := t.store.onFeed n (·.finish) }) hended ?_
    exact wiring_wakeReaders _ _

/-- So does a script for a watch whose reply it makes up. -/
theorem Asked.fulfil (h : s.Asked t) (call : Call) (planned : call.service.Planned) :
    s.Asked (t.fulfil call.service planned).1 ∧
      ∀ feed, call.feed? (.ok (t.fulfil call.service planned).2) = some feed →
        Opens s.wiring (t.fulfil call.service planned).1.wiring feed := by
  have hstub (name : String) : s.Asked (t.openStub name).1 ∧
      Opens s.wiring (t.openStub name).1.wiring (t.openStub name).2 := by
    have hended := h.endStub name
    have hopened := hended.withStore (.openFeed (t.endStub name).store)
    refine ⟨hopened.of_wiring rfl, hended.fills.grows, ?_, Store.feed_openFeed _⟩
    show (t.endStub name).store.feeds.length < (t.endStub name).store.openFeed.1.feeds.length
    simp [Store.openFeed]
  cases call with
  | watch | watchAll =>
    obtain ⟨hasked, hopens⟩ := hstub planned
    exact ⟨hasked, fun feed hfeed => Option.some.inj hfeed ▸ hopens⟩
  | _ => exact ⟨h, fun _ hfeed => by cases hfeed⟩

/-- A call may make its request while no dispatcher takes a step. -/
theorem meanwhile_makeRequest (s : System) (c : InFlight) :
    Meanwhile s.wiring (s.makeRequest c).wiring := by
  simp only [makeRequest]
  cases s.stopped && c.call.endsWithBroker with
  | true => exact (Asked.refl s).conclude_error .closed
  | false =>
    generalize s.script.next c.call.service = taken
    obtain ⟨answer, script⟩ := taken
    have hscript : s.Asked { s with script } := ⟨⟨script, rfl⟩, .refl _⟩
    cases answer with
    | forward delay =>
      cases delay with
      | zero => exact hscript.act s.now
      | succ delay => exact hscript.await _
    | hang => exact hscript.await none
    | fail error => exact hscript.settle s.now (.failed error) fun _ hok => by cases hok
    | reply planned =>
      obtain ⟨hasked, hopens⟩ := hscript.fulfil c.call planned
      exact hasked.settle _ (.ok (fulfil { s with script } c.call.service planned).2)
        fun reply hok feed hfeed => hopens feed (Outcome.ok.inj hok ▸ hfeed)

/-- A call may look for its reply while no dispatcher takes a step. -/
theorem meanwhile_checkAnswer (s : System) (c : InFlight) (e : Exchange) :
    Meanwhile s.wiring (s.checkAnswer c e).wiring := by
  simp only [checkAnswer]
  split
  · have hobserved : s.Asked (s.observe (.lasted c.call.service (s.now - e.started))) :=
      (Asked.refl s).of_wiring rfl
    exact hobserved.conclude_error .closed
  · split
    · exact (Asked.refl s).act e.started
    · split
      · have hobserved : s.Asked (((s.observe (.served c.call.service false)).note
            (c.call.service.overdue s.settings.timeout).2).observe
              (.lasted c.call.service (s.now - e.started))) := (Asked.refl s).of_wiring rfl
        exact hobserved.conclude_error _
      · exact .refl _

/-- A call may be polled while no dispatcher takes a step. -/
theorem meanwhile_pollCall (s : System) (id : Nat) :
    Meanwhile s.wiring (s.pollCall id).wiring := by
  unfold pollCall
  split
  · exact .refl _
  · split
    · exact meanwhile_makeRequest s _
    · exact meanwhile_checkAnswer s _ _

/-! ### Incidents -/

/-- The dispatcher that takes a step in an incident, with the choice it has between a report
and stopping. One that is polled without credit begins to rest instead. -/
def stepper? (s : System) : Incident → Option (Dispatcher × Bool)
  | .occur (.move (.poll (.dispatcher id) reportFirst)) =>
    ((s.dispatcher? id).filter (·.credit ≠ 0)).map (·, reportFirst)
  | _ => none

/-- An incident in which a dispatcher takes a step is that step. -/
theorem wiring_of_stepper {i : Incident} {d : Dispatcher} {reportFirst : Bool}
    (h : s.stepper? i = some (d, reportFirst)) :
    d ∈ s.wiring.dispatchers ∧ (s.incur i).wiring = s.wiring.dispatch d reportFirst := by
  unfold stepper? at h
  split at h
  · next id choice =>
    obtain ⟨found, hfound, heq⟩ := Option.map_eq_some_iff.1 h
    obtain ⟨rfl, rfl⟩ := Prod.mk.inj heq
    obtain ⟨hfind, hcredit⟩ := Option.filter_eq_some_iff.1 hfound
    have hwiring := wiring_pollDispatcher hfind choice
    rw [if_neg (by simpa using hcredit)] at hwiring
    exact ⟨List.mem_of_find?_eq_some hfind, hwiring⟩
  · cases h

variable {es : List Episode}

/-- The broker may stop while no dispatcher takes a step. -/
theorem meanwhile_stop (s : System) : Meanwhile s.wiring s.stop.wiring := by
  rw [wiring_stop]
  exact (Stays.stop _ true).meanwhile

/-- Every move in which no dispatcher takes a step leaves the dispatchers where they are. -/
theorem Kept.meanwhile_move (h : s.Kept es) {m : Move}
    (hnone : s.stepper? (.occur (.move m)) = none) :
    Meanwhile s.wiring (s.move m).wiring := by
  have hfree {n : Nat} (hfree : s.dispatches n = false) :
      ∀ d ∈ s.wiring.dispatchers, d.subscription.feed ≠ n := fun d hd heq => by
    have hreads : s.dispatches n = true := List.any_eq_true.2 ⟨d, hd, decide_eq_true heq⟩
    rw [hfree] at hreads
    cases hreads
  cases m with
  | poll worker reportFirst =>
    cases worker with
    | call id => exact meanwhile_pollCall s id
    | dispatcher id =>
      cases hfind : s.dispatcher? id with
      | none =>
        simp only [move, pollDispatcher, hfind]
        exact .refl _
      | some d =>
        -- a dispatcher that is polled and takes no step has no credit left: it is only refreshed
        have hcredit : d.credit = 0 := by simpa [stepper?, hfind, Option.filter] using hnone
        have hwiring := wiring_pollDispatcher hfind reportFirst
        rw [if_pos hcredit] at hwiring
        simp only [move, hwiring]
        have hd : d ∈ s.books.wiring.dispatchers := List.mem_of_find?_eq_some hfind
        exact .rest _ fun other hother hid => h.exact.eq_of_id hother hd hid
  | launch turn holdsBroker => exact .of_eq (wiring_launch s turn holdsBroker)
  | take call =>
    simp only [move, takeAnswer]
    cases s.finished.find? _ <;> exact .refl _
  | close holdsBroker =>
    simp only [move, wiring_launch, beginClose]
    split
    · exact .refl _
    · exact meanwhile_stop { s with closing := true }
  | release =>
    simp only [move, release]
    split
    · exact meanwhile_stop ({ s with holders := s.holders - 1 }.note .brokerDropped)
    · exact .refl _
  | note notices => exact .of_eq (wiring_noteAll s notices)
  | ask request =>
    simp only [move, wiring_serveDirectly]
    exact .withStore _ (.serve _ _ _)
  | compact revision => exact .withStore _ (.of_feeds rfl)
  | setAvailable available =>
    simp only [move, wiring_setAvailable]
    exact .withStore _ (.setAvailable _ _)
  | openChannel capacity held =>
    simp only [move, openChannel]
    split
    · exact .openChannel s.wiring capacity held
    · exact .refl _
  | dropSender n => exact .onChannel s.wiring n ⟨id, id⟩ (.of_same rfl)
  | receive n =>
    simp only [move, receive, Channel.receive]
    cases hitems : (s.channel n).items with
    | nil => exact .refl _
    | cons first rest =>
      simp only [wiring_wakeAll]
      have hpromise := Channel.gains_promise { s.channel n with items := rest } outsider
      refine .onChannel s.wiring n (Channel.tended_receive hitems) ⟨rest, [], ?_, ?_, by simp⟩
      · exact ⟨[first], hitems.symm⟩
      · simpa using hpromise.items_eq
  | dropReceiver n =>
    simp only [move, dropReceiver, wiring_wakeAll]
    exact .onChannel s.wiring n (Channel.tended_close _) ⟨[], [], List.nil_suffix, rfl, by simp⟩
  | unsubscribe id =>
    simp only [move, wiring_unsubscribe]
    exact (Stays.unsubscribe _ _).meanwhile
  | readFeed n =>
    simp only [move]
    split
    · exact .refl _
    · next hnot =>
      -- the move does nothing to a feed that a dispatcher reads
      exact .onFeed s.wiring n (hfree (by simpa using hnot)) (fun _ h => h) fun _ => rfl
  | leaveFeed n =>
    simp only [move]
    split
    · exact .refl _
    · next hnot =>
      exact .onFeed s.wiring n (hfree (by simpa using hnot))
        (fun _ h => absurd h Bool.false_ne_true) fun _ => rfl
  | schedule | pass | inject => exact .of_carried rfl rfl (.refl _) rfl (.of_eq rfl)

/-- So does every incident. -/
theorem Kept.meanwhile (h : s.Kept es) {i : Incident} (hnone : s.stepper? i = none) :
    Meanwhile s.wiring (s.incur i).wiring := by
  cases i with
  | occur o =>
    cases o with
    | move m => exact h.meanwhile_move hnone
    | offer n item =>
      obtain ⟨items, hgains⟩ := (Channel.sends_trySend (s.channel n) outsider item).gains_left
      exact .onChannel s.wiring n (Channel.tended_left_trySend _ _ _) (.of_gains hgains)
    | send n item =>
      obtain ⟨items, hgains⟩ := (Channel.sends_send (s.channel n) outsider item).gains_left
      exact .onChannel s.wiring n (Channel.tended_left_send _ _ _) (.of_gains hgains)
    | giveUp n =>
      exact .onChannel s.wiring n (Channel.tended_abandon _ _)
        (.of_gains (Channel.gains_abandon _ outsider))
    | signal n signal => exact .withStore _ (.onFeed _ n (.push _ _))
  | plan line => exact .of_carried rfl rfl (.refl _) rfl (.of_eq rfl)
  | finish n => exact .withStore _ (.onFeed _ n (.finish _))

end System

end KeyBroker
