import KeyBroker.Proofs.Delivery.Ending

/-!
# Subscriptions that run

Until its native watch is broken or its dispatcher ends, a subscription runs, and the
items in its four places are all that it is owed, in order. When the dispatcher ends
while the watch stands, what was sent is the beginning of what is owed.
-/

namespace KeyBroker.Wiring

variable {w w' : Wiring} {hs : List Happening} {sub : Subscription} {got owed : List Item}
  {d : Dispatcher} {events : List Event}

/-- How a subscription stands: it runs, its dispatcher has ended, or its native watch is
no more. -/
inductive Follows (w : Wiring) (sub : Subscription) (got owed : List Item) : Prop where
  | runs (d : Dispatcher) (events : List Event) (runs : w.Runs sub got owed d events) :
    Follows w sub got owed
  | ended (none : ∀ d ∈ w.dispatchers, d.subscription.id ≠ sub.id)
    (ends : w.Ends sub got owed) : Follows w sub got owed
  | broken (none : { feed := sub.feed, stem := sub.stem } ∉ w.store.watchers)
    (old : sub.feed < w.store.feeds.length) : Follows w sub got owed

/-- A request that does not close the store sends a running subscription its events. -/
theorem Runs.serve (h : w.Runs sub got owed d events) (now : Nat) {service : Service}
    (request : Request service) (hclose : service ≠ .close) :
    let hs := (w.store.events now request).map Happening.committed
    ∃ more, Runs { w with store := (w.store.serve now request).store } sub (got ++ sub.got hs)
      (owed ++ sub.owed hs) d more := by
  intro hs
  obtain ⟨hwatched, hqueue⟩ := h.watched.serve now request hclose
  exact ⟨_, h.pass (passes_of_channels rfl (sub.got_committed _)) h.works h.subscription rfl
    hwatched hqueue (fun event hmem => (List.mem_filter.1 hmem).2) (sub.owed_committed _)⟩

/-- A change that touches neither the store nor the items of the subscription. -/
theorem Runs.idle (h : w.Runs sub got owed d events) {d' : Dispatcher}
    (hpass : Passes w w' hs sub) (hworks : d' ∈ w'.dispatchers) (hsub : d'.subscription = sub)
    (hphase : d'.phase = d.phase) (hwatched : w'.store.Watched sub.feed sub.stem)
    (hfeed : w'.store.feed sub.feed = w.store.feed sub.feed) (howed : sub.owed hs = []) :
    w'.Runs sub (got ++ sub.got hs) (owed ++ sub.owed hs) d' events := by
  have hqueue : (w'.store.feed sub.feed).queue =
      (w.store.feed sub.feed).queue ++ ([] : List Event).map .ok := by simp [hfeed]
  have hruns := h.pass hpass hworks hsub hphase hwatched hqueue (by simp) (by simpa using howed)
  simpa using hruns

/-- Unsubscribing leaves every dispatcher in place, with its subscription and its phase. -/
theorem mem_unsubscribe (hd : d ∈ w.dispatchers) (id : Nat) :
    ∃ d' ∈ (w.unsubscribe id).dispatchers, d'.subscription = d.subscription ∧
      d'.phase = d.phase := by
  unfold unsubscribe
  split
  · refine ⟨_, List.mem_map_of_mem hd, ?_⟩
    split <;> exact ⟨rfl, rfl⟩
  · exact ⟨d, hd, rfl, rfl⟩

/-- A step after which the dispatcher goes on changes nothing of the store but its own feed. -/
theorem store_dispatch (w : Wiring) (d : Dispatcher) (reportFirst : Bool)
    (hpace : (w.stepOf d reportFirst).pace ≠ .over) :
    (w.dispatch d reportFirst).store =
      w.store.onFeed d.subscription.feed fun _ => (w.stepOf d reportFirst).after.feed := by
  simp only [dispatch]
  rfl

/-- A step of one dispatcher leaves the dispatchers of other subscriptions as they are. -/
theorem mem_dispatch_of_mem {d' : Dispatcher} (hd' : d' ∈ w.dispatchers) (reportFirst : Bool)
    (hne : d'.subscription.id ≠ d.subscription.id) :
    d' ∈ (w.dispatch d reportFirst).dispatchers := by
  obtain ⟨hsub, _⟩ := stepOf_dispatcher w d reportFirst
  have hsent : d' ∈ (w.withDispatcher (w.stepOf d reportFirst).dispatcher).dispatchers := by
    refine List.mem_map.2 ⟨d', hd', ?_⟩
    rw [hsub, if_neg hne]
  simp only [dispatch]
  split
  · exact List.mem_filter.2 ⟨hsent, by simpa using hne⟩
  · exact hsent

/-- A step of a dispatcher leaves the watches and feeds of others alone. -/
theorem watched_dispatch_of_ne {n : Nat} {stem : Key} (h : w.store.Watched n stem)
    (hne : d.subscription.feed ≠ n) (reportFirst : Bool) :
    (w.dispatch d reportFirst).store.Watched n stem ∧
      (w.dispatch d reportFirst).store.feed n = w.store.feed n := by
  have hread := h.onFeed d.subscription.feed
    (f := fun _ => (w.stepOf d reportFirst).after.feed) fun heq => absurd heq hne
  have hsame := Store.feed_onFeed_of_ne (s := w.store) hne
    fun _ => (w.stepOf d reportFirst).after.feed
  simp only [dispatch]
  split
  · exact ⟨hread.onFeed _ fun heq => absurd heq hne, (Store.feed_onFeed_of_ne hne _).trans hsame⟩
  · exact ⟨hread, hsame⟩

/-- A step of another dispatcher leaves a running subscription alone. -/
theorem Runs.dispatch_other (h : w.Runs sub got owed d events) (hsound : w.Sound)
    {other : Dispatcher} (hother : other ∈ w.dispatchers)
    (hne : other.subscription.id ≠ sub.id) (reportFirst : Bool) :
    (w.dispatch other reportFirst).Runs sub got owed d events := by
  have hfeed : other.subscription.feed ≠ sub.feed := by
    intro heq
    rw [← h.subscription] at heq hne
    exact hne (congrArg (·.subscription.id) (hsound.eq_of_feed hother h.works heq))
  have hstore := watched_dispatch_of_ne h.watched hfeed reportFirst
  have hworks := mem_dispatch_of_mem h.works reportFirst (h.subscription ▸ hne.symm)
  have hruns := h.idle (passes_dispatch w other reportFirst (.inl hne)) hworks
    h.subscription rfl hstore.1 hstore.2 rfl
  simpa [Subscription.got, Subscription.owed] using hruns

/-- The items that a subscription gains go to the end of those in its channel. -/
theorem queued_gains {c : Channel} {items : List Item}
    (hgains : Channel.Gains (w.channel sub.channel) c sub.id items) :
    (w.onChannel sub.channel fun _ => c).queued sub = w.queued sub ++ items ∧
      ((w.onChannel sub.channel fun _ => c).Lost sub ↔ w.Lost sub) ∧
      (w.Lost sub → items = []) := by
  have hnone (hreceived : (w.channel sub.channel).received = false) : items = [] := by
    cases items with
    | nil => rfl
    | cons item rest =>
      rw [hgains.live (by simp)] at hreceived
      cases hreceived
  have hown : ((items.map (sub.id, ·)).filter (·.1 = sub.id)).map (·.2) = items := by
    rw [List.filter_eq_self.2 (by simp), List.map_map]
    exact List.map_id items
  rw [lost_onChannel, queued, queued, channel_onChannel]
  by_cases hlt : sub.channel < w.channels.length
  · rw [if_pos ⟨rfl, hlt⟩, hgains.items_eq, hgains.received_eq]
    exact ⟨by rw [List.filter_append, List.map_append, hown], Iff.rfl, fun hlost => hnone hlost.2⟩
  · rw [if_neg fun h => hlt h.2]
    have hdefault : (w.channel sub.channel).received = false := by
      simp [channel, List.getD_eq_getElem?_getD, List.getElem?_eq_none (Nat.le_of_not_lt hlt)]
    exact ⟨by simp [hnone hdefault], Iff.rfl, fun _ => hnone hdefault⟩

/-- The items that a step of its dispatcher sends go to the end of those in the channel. -/
theorem queued_dispatch {reportFirst : Bool} {items : List Item}
    (hgains : Channel.Gains (w.channel d.subscription.channel)
      (w.stepOf d reportFirst).after.channel d.subscription.id items) :
    (w.dispatch d reportFirst).queued d.subscription = w.queued d.subscription ++ items ∧
      ((w.dispatch d reportFirst).Lost d.subscription ↔ w.Lost d.subscription) ∧
      (w.Lost d.subscription → items = []) := by
  obtain ⟨hqueued, hlost, hnone⟩ := queued_gains hgains
  have hchannels := channels_dispatch w d reportFirst
  exact ⟨(queued_congr hchannels _).trans hqueued, (lost_congr hchannels _).trans hlost, hnone⟩

/-- A dispatcher that is over sends nothing more. -/
theorem Runs.dispatch_over (h : w.Runs sub got owed d events) (hsound : w.Sound)
    {reportFirst : Bool} (hpace : (w.stepOf d reportFirst).pace = .over)
    (hqueued : (w.dispatch d reportFirst).queued sub = w.queued sub) :
    (w.dispatch d reportFirst).Follows sub got owed := by
  obtain ⟨hsub, _⟩ := stepOf_dispatcher w d reportFirst
  have hnone : ∀ d' ∈ (w.dispatch d reportFirst).dispatchers, d'.subscription.id ≠ sub.id := by
    intro d' hd'
    rcases mem_dispatch hd' hsub with ⟨_, hgoes⟩ | ⟨_, hne⟩
    · exact absurd hpace hgoes
    · rwa [h.subscription] at hne
  refine .ended hnone ⟨fun d' hd' hid => absurd hid (hnone d' hd'), ?_, ?_⟩
  · rw [(stopped_dispatch w d reportFirst).2, ← h.subscription]
    exact hsound.fresh _ (mem_subscriptions h.works)
  · rw [hqueued]
    exact h.front

/-- A step of its own dispatcher moves the items of a running subscription on, or ends
it. -/
theorem Runs.dispatch_self (h : w.Runs sub got owed d events) (hsound : w.Sound)
    (hpolicy : w.policy = .block) (reportFirst : Bool) :
    (w.dispatch d reportFirst).Follows sub got owed := by
  have hsub := h.subscription
  subst hsub
  obtain ⟨items, left, hcarries⟩ := Dispatch.carries_step (d := w.dispatchOf d) h.queue
    h.watched.fed h.under h.phase (w.stopped || d.cancelled) reportFirst
  rw [← hpolicy] at hcarries
  obtain ⟨hqueued, hlost, hnone⟩ := queued_dispatch hcarries.channel
  by_cases hpace : (w.stepOf d reportFirst).pace = .over
  · exact h.dispatch_over hsound hpace
      (by rw [hqueued, hcarries.stops hpace, List.append_nil])
  obtain ⟨hsub, _⟩ := stepOf_dispatcher w d reportFirst
  have hphase := phase_stepOf w d reportFirst
  have hfeed : (w.stepOf d reportFirst).after.feed =
      { w.store.feed d.subscription.feed with queue := left.map .ok } := hcarries.feed
  have hreplaced : (w.stepOf d reportFirst).dispatcher ∈
      (w.withDispatcher (w.stepOf d reportFirst).dispatcher).dispatchers :=
    List.mem_map.2 ⟨d, h.works, if_pos (by rw [hsub])⟩
  -- what the step took out of the hand and off the feed is in the channel now
  have hall (hkept : ¬ w.Lost d.subscription) :
      got ++ (w.queued d.subscription ++ items) ++
        ((w.stepOf d reportFirst).dispatcher.phase.held ++ left).map d.subscription.itemOf =
          owed := by
    have hmoved : items ++ ((w.stepOf d reportFirst).after.dispatcher.phase.held ++ left).map
        d.subscription.itemOf = (d.phase.held ++ events).map d.subscription.itemOf :=
      hcarries.moved hpace
    rw [← h.all hkept, ← hmoved, hphase]
    simp only [List.append_assoc]
  refine .runs (w.stepOf d reportFirst).dispatcher left ?_
  exact {
    works := by
      simp only [dispatch]
      exact hreplaced
    subscription := hsub
    phase := hphase ▸ hcarries.phase
    watched := by
      rw [store_dispatch w d reportFirst hpace]
      refine h.watched.onFeed _ fun _ => ?_
      rw [hfeed]
      exact ⟨h.watched.fed, h.watched.attended⟩
    queue := by
      rw [store_dispatch w d reportFirst hpace, Store.feed_onFeed_self h.watched.opened, hfeed]
    under := fun event hmem => h.under event (hcarries.suffix.subset hmem)
    all := fun hkept => by
      rw [hqueued]
      exact hall fun h => hkept (hlost.2 h)
    front := by
      rw [hqueued]
      by_cases hl : w.Lost d.subscription
      · rw [hnone hl, List.append_nil]
        exact h.front
      · rw [← hall hl]
        exact List.prefix_append _ _ }

/-! ### Every change -/

/-- No change brings back a native watch. -/
theorem Change.onlyNew (h : Change w hs w') : Store.OnlyNew w.store w'.store := by
  cases h with
  | serve now request => exact Store.onlyNew_serve w.store now request
  | subscribe now scope localStem channel feed opened => exact Store.onlyNew_serve w.store now _
  | compact revision => exact ⟨Nat.le_refl _, fun _ hw => .inl hw⟩
  | setAvailable available => exact Store.onlyNew_setAvailable w.store available
  | onFeed n f free => exact Store.onlyNew_onFeed w.store n f
  | unsubscribe id =>
    unfold Wiring.unsubscribe
    split <;> exact .refl _
  | dispatch d reportFirst works =>
    have hread := Store.onlyNew_onFeed w.store d.subscription.feed
      fun _ => (w.stepOf d reportFirst).after.feed
    simp only [Wiring.dispatch]
    split
    · exact hread.trans (Store.onlyNew_onFeed _ _ _)
    · exact hread
  | _ => exact .refl _

/-- A subscription has a dispatcher because it had one or because it is new. -/
theorem Change.old_or_opened (h : Change w hs w') (hd : d ∈ w'.dispatchers) :
    d.subscription ∈ w.subscriptions ∨
      .opened d.subscription ∈ hs ∧ d.subscription.id = w.nextSubscription := by
  cases h with
  | subscribe now scope localStem channel feed opened =>
    rcases List.mem_append.1 hd with hd | hd
    · exact .inl (mem_subscriptions hd)
    · rw [List.mem_singleton.1 hd]
      exact .inr ⟨List.mem_singleton.2 rfl, rfl⟩
  | unsubscribe id =>
    unfold Wiring.unsubscribe at hd
    split at hd
    · obtain ⟨before, hbefore, rfl⟩ := List.mem_map.1 hd
      have hold := mem_subscriptions hbefore
      split <;> exact .inl hold
    · exact .inl (mem_subscriptions hd)
  | dispatch worker reportFirst works =>
    obtain ⟨hsub, _⟩ := stepOf_dispatcher w worker reportFirst
    rcases mem_dispatch hd hsub with ⟨rfl, _⟩ | ⟨hother, _⟩
    · rw [hsub]
      exact .inl (mem_subscriptions works)
    · exact .inl (mem_subscriptions hother)
  | rest worker works =>
    obtain ⟨before, hbefore, rfl⟩ := List.mem_map.1 hd
    split
    · have hold := mem_subscriptions works
      exact .inl hold
    · exact .inl (mem_subscriptions hbefore)
  | _ => exact .inl (mem_subscriptions hd)

/-- A subscription without a dispatcher does not get one again. -/
theorem Change.not_mem (h : Change w hs w')
    (hold : sub.id < w.nextSubscription) (hnone : ∀ d ∈ w.dispatchers, d.subscription.id ≠ sub.id) :
    ∀ d ∈ w'.dispatchers, d.subscription.id ≠ sub.id := by
  intro d hd
  rcases h.old_or_opened hd with hmem | ⟨_, hid⟩
  · obtain ⟨before, hbefore, heq⟩ := List.mem_map.1 hmem
    rw [← heq]
    exact hnone before hbefore
  · omega

/-- Closing the store breaks a native watch, unless the store was closed before. -/
theorem Runs.close (h : w.Runs sub got owed d events) (now : Nat) :
    Follows { w with store := (w.store.serve now .close).store } sub got owed := by
  cases hclosed : w.store.closed with
  | true =>
    rw [Store.serve_close_of_closed now hclosed]
    exact .runs d events h
  | false =>
    have hserve : w.store.serve now .close = w.store.perform now .close :=
      Store.serve_of_answers now rfl fun _ => hclosed
    have hopened := h.watched.opened
    have hgrows := (Store.onlyNew_serve w.store now .close).grows
    refine .broken ?_ (by simp only; omega)
    rw [hserve]
    exact List.not_mem_nil

/-- A running subscription follows through any change, whether it goes on to run, ends or loses
its watch. -/
theorem Runs.change (h : w.Runs sub got owed d events) (hsound : w.Sound)
    (hpolicy : w.policy = .block) (hchange : Change w hs w') :
    w'.Follows sub (got ++ sub.got hs) (owed ++ sub.owed hs) := by
  cases hchange with
  | serve now request =>
    rename_i service
    -- closing the store breaks the watch; any other request feeds it
    by_cases hclose : service = .close
    · subst hclose
      let .close := request
      have hnone : w.store.events now .close = [] := by
        rw [Store.events]
        split <;> rfl
      rw [hnone]
      simpa [Subscription.got, Subscription.owed] using h.close now
    · obtain ⟨more, hruns⟩ := h.serve now request hclose
      exact .runs d more hruns
  | subscribe now scope localStem channel feed opened =>
    obtain ⟨_, hserve⟩ := Store.serve_watch_of_ok opened
    obtain ⟨hwatched, hfeed⟩ := h.watched.openWatch (scope.qualify localStem)
    refine .runs d events (h.idle (passes_of_channels rfl rfl) (List.mem_append_left _ h.works)
      h.subscription rfl ?_ ?_ rfl)
    · rw [hserve]
      exact hwatched
    · rw [hserve]
      exact hfeed
  | compact revision =>
    exact .runs d events (h.idle (passes_of_channels rfl rfl) h.works h.subscription rfl
      { h.watched with } rfl rfl)
  -- only cutting the connection breaks the watch
  | setAvailable available =>
    cases available with
    | true =>
      exact .runs d events (h.idle (passes_of_channels rfl rfl) h.works h.subscription rfl
        { h.watched with } rfl rfl)
    | false =>
      have hopened := h.watched.opened
      have hgrows := (Store.onlyNew_setAvailable w.store false).grows
      exact .broken List.not_mem_nil (by simp only; omega)
  | onFeed n f free =>
    -- feeds that anybody else may change have no dispatcher
    have hne : n ≠ sub.feed := fun heq => free d h.works (by rw [h.subscription, heq])
    exact .runs d events (h.idle (passes_of_channels rfl rfl) h.works h.subscription rfl
      (h.watched.onFeed n fun heq => absurd heq hne) (Store.feed_onFeed_of_ne hne f) rfl)
  | unsubscribe id =>
    obtain ⟨d', hworks, hsub, hphase⟩ := mem_unsubscribe h.works id
    have hsame : (w.unsubscribe id).channels = w.channels ∧
        (w.unsubscribe id).store = w.store := by
      unfold Wiring.unsubscribe
      split <;> exact ⟨rfl, rfl⟩
    exact .runs d' events (h.idle (passes_of_channels hsame.1 rfl) hworks
      (hsub.trans h.subscription) hphase (hsame.2 ▸ h.watched) (hsame.2 ▸ rfl) rfl)
  | dispatch other reportFirst works =>
    have hfollows : (w.dispatch other reportFirst).Follows sub got owed := by
      -- in a sound wiring dispatchers with one number are the same
      by_cases hid : other.subscription.id = sub.id
      · rw [hsound.eq_of_id works h.works (hid.trans (h.subscription ▸ rfl))]
        exact h.dispatch_self hsound hpolicy reportFirst
      · exact .runs d events (h.dispatch_other hsound works hid reportFirst)
    simpa [Subscription.got, Subscription.owed] using hfollows
  | rest other works =>
    have hpass : Passes w (w.withDispatcher other.refreshed) [] sub := passes_of_channels rfl rfl
    by_cases hid : d.subscription.id = other.subscription.id
    · have heq := hsound.eq_of_id h.works works hid
      subst heq
      exact .runs d.refreshed events (h.idle hpass (List.mem_map.2 ⟨d, h.works, if_pos rfl⟩)
        h.subscription rfl h.watched rfl rfl)
    · exact .runs d events (h.idle hpass (List.mem_map.2 ⟨d, h.works, if_neg hid⟩)
        h.subscription rfl h.watched rfl rfl)
  | openChannel capacity held =>
    exact .runs d events (h.idle (passes_openChannel w sub capacity held) h.works h.subscription
      rfl h.watched rfl rfl)
  | dropSender n =>
    exact .runs d events (h.idle (passes_dropSender w n sub) h.works h.subscription rfl h.watched
      rfl rfl)
  | receive n sender item rest oldest =>
    exact .runs d events (h.idle (passes_receive oldest) h.works h.subscription rfl h.watched
      rfl rfl)
  | dropReceiver n =>
    exact .runs d events (h.idle (passes_dropReceiver w n sub) h.works h.subscription rfl
      h.watched rfl rfl)
  | _ =>
    exact .runs d events (h.idle (passes_of_channels rfl rfl) h.works h.subscription rfl
      h.watched rfl rfl)

/-- A subscription is followed through every change. -/
theorem Follows.change (h : w.Follows sub got owed) (hsound : w.Sound)
    (hpolicy : w.policy = .block) (hchange : Change w hs w') :
    w'.Follows sub (got ++ sub.got hs) (owed ++ sub.owed hs) := by
  cases h with
  | runs d events runs => exact runs.change hsound hpolicy hchange
  | ended none ends =>
    exact .ended (hchange.not_mem ends.old none) (ends.change hchange)
  | broken none old =>
    exact .broken (hchange.onlyNew.not_mem none old) (Nat.lt_of_lt_of_le old hchange.onlyNew.grows)

end KeyBroker.Wiring
