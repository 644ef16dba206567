import KeyBroker.Proofs.Independence.Outlet

/-!
# What leaves a subscription alone

What others do to watches, feeds, channels and dispatchers of their own leaves the outlet of a
subscription as it is. What is done to the subscription itself is done to its outlet.
-/

namespace KeyBroker.Wiring

variable {w : Wiring} {id n : Nat} {o : Outlet} {d : Dispatcher}

/-! ### What others do -/

/-- Changes of the store that leave its watch and its feed alone leave a subscription alone. -/
theorem Holds.withStore (h : w.Holds id n o) {store : Store}
    (hstore : ∀ d ∈ w.dispatchers, d.subscription.id = id →
      w.store.Watched d.subscription.feed d.subscription.stem →
        store.Watched d.subscription.feed d.subscription.stem ∧
          store.feed d.subscription.feed = w.store.feed d.subscription.feed) :
    Holds { w with store } id n o :=
  { h with
    working := fun d hd hid => by
      obtain ⟨hworking, hruns⟩ := h.working d hd hid
      obtain ⟨hwatched, hfeed⟩ := hstore d hd hid hworking.watched
      have hintact : ¬(store.feed d.subscription.feed).Lost := hfeed ▸ hworking.intact
      refine ⟨⟨hwatched, hintact, hworking.phase⟩, ?_⟩
      rw [hruns, hfeed] }

/-- A change of the feed of another subscription leaves the outlet alone. -/
theorem Holds.onFeed (h : w.Holds id n o) {m : Nat}
    (hne : ∀ d ∈ w.dispatchers, d.subscription.id = id → m ≠ d.subscription.feed)
    (f : Feed → Feed) : Holds { w with store := w.store.onFeed m f } id n o :=
  h.withStore fun d hd hid hwatched =>
    ⟨hwatched.onFeed m fun heq => absurd heq (hne d hd hid),
      Store.feed_onFeed_of_ne (hne d hd hid) f⟩

/-- A native watch opened for somebody else leaves the outlet alone. -/
theorem Holds.openWatch (h : w.Holds id n o) (stem : Key) :
    Holds { w with store := (w.store.openWatch stem).1 } id n o :=
  h.withStore fun _ _ _ hwatched => hwatched.openWatch stem

/-- A compaction leaves the outlet alone. -/
theorem Holds.compact (h : w.Holds id n o) (revision : Nat) :
    Holds { w with store := w.store.compact revision } id n o :=
  h.withStore fun _ _ _ hwatched => ⟨{ hwatched with }, rfl⟩

/-- Dispatchers may change, but for that of the subscription. -/
theorem Holds.mapDispatchers (h : w.Holds id n o) {f : Dispatcher → Dispatcher}
    (hf : ∀ d ∈ w.dispatchers, (f d).subscription = d.subscription ∧
      (d.subscription.id = id → (f d).anonymous = d.anonymous)) :
    Holds { w with dispatchers := w.dispatchers.map f } id n o :=
  { h with
    own := fun d' hd' => by
      obtain ⟨d, hd, rfl⟩ := List.mem_map.1 hd'
      rw [(hf d hd).1]
      exact h.own d hd
    working := fun d' hd' hid => by
      obtain ⟨d, hd, rfl⟩ := List.mem_map.1 hd'
      obtain ⟨hsub, hsame⟩ := hf d hd
      rw [hsub] at hid ⊢
      obtain ⟨hworking, hruns⟩ := h.working d hd hid
      have hphase := congrArg Dispatcher.phase (hsame hid)
      refine ⟨⟨?_, ?_, ?_⟩, ?_⟩
      · rw [hsub]
        exact hworking.watched
      · rw [hsub]
        exact hworking.intact
      · exact (congrArg Phase.reports hphase).trans hworking.phase
      · rw [hsame hid]
        exact hruns
    ended := fun hnone => h.ended fun d hd => by
      have hmapped := hnone (f d) (List.mem_map_of_mem hd)
      rwa [(hf d hd).1] at hmapped }

/-- Replacing a dispatcher leaves the outlet alone, if the own dispatcher stays the same but for
its numbers. -/
theorem Holds.withDispatcher (h : w.Holds id n o) (hsound : w.Sound) {d' : Dispatcher}
    (hd : d ∈ w.dispatchers) (hsub : d'.subscription = d.subscription)
    (hsame : d.subscription.id = id → d'.anonymous = d.anonymous) :
    (w.withDispatcher d').Holds id n o := by
  refine h.mapDispatchers fun other hother => ?_
  split
  · next hid =>
    rw [hsub] at hid
    rw [hsound.eq_of_id hother hd hid]
    exact ⟨hsub, hsame⟩
  · exact ⟨rfl, fun _ => rfl⟩

/-- A change of another channel leaves a channel alone. -/
theorem channel_onChannel_of_ne {m : Nat} (hne : m ≠ n) (f : Channel → Channel) :
    (w.onChannel m f).channel n = w.channel n := by
  rw [channel_onChannel, if_neg fun h => hne h.1]

/-- A change of another channel leaves the outlet alone. -/
theorem Holds.onChannel_of_ne (h : w.Holds id n o) {m : Nat} (hne : m ≠ n)
    (f : Channel → Channel) : (w.onChannel m f).Holds id n o :=
  { h with
    opened := (List.length_modify ..).symm ▸ h.opened
    line := by
      rw [channel_onChannel_of_ne hne]
      exact h.line
    channel := by
      rw [channel_onChannel_of_ne hne]
      exact h.channel }

/-- A channel made for somebody else leaves the outlet alone. -/
theorem Holds.openChannel (h : w.Holds id n o) (capacity : Nat) (held : Bool) :
    Holds { w with channels := w.channels ++ [{ capacity, held }] } id n o := by
  have hchannel : Wiring.channel { w with channels := w.channels ++ [{ capacity, held }] } n =
      w.channel n := by
    simp only [Wiring.channel, List.getD_eq_getElem?_getD, List.getElem?_append_left h.opened]
  exact
    { h with
      opened := List.length_append ▸ Nat.lt_add_right _ h.opened
      line := by
        rw [hchannel]
        exact h.line
      channel := by
        rw [hchannel]
        exact h.channel }

/-- The end of another dispatcher leaves the outlet alone. -/
theorem Holds.endDispatcher_of_ne (h : w.Holds id n o) {other feed : Nat} (hne : other ≠ id)
    (hfeed : ∀ d ∈ w.dispatchers, d.subscription.id = id → feed ≠ d.subscription.feed) :
    (w.endDispatcher other feed).Holds id n o := by
  have hleft := h.onFeed hfeed (·.leave)
  exact
    { hleft with
      own := fun d hd => h.own d (List.mem_filter.1 hd).1
      active := by
        rw [h.active, decide_eq_decide]
        exact (List.mem_erase_of_ne hne.symm).symm
      working := fun d hd hid => hleft.working d (List.mem_filter.1 hd).1 hid
      ended := fun hnone => h.ended fun d hd hid =>
        hnone d (List.mem_filter.2 ⟨hd, decide_eq_true fun heq => hne (heq.symm.trans hid)⟩) hid }

/-- Unsubscribing somebody else leaves the outlet alone. -/
theorem Holds.unsubscribe_of_ne (h : w.Holds id n o) {other : Nat} (hne : other ≠ id) :
    (w.unsubscribe other).Holds id n o := by
  unfold Wiring.unsubscribe
  split
  · have hcancel := h.mapDispatchers (f := fun d =>
      if d.subscription.id = other then { d with cancelled := true } else d) fun d _ => by
        split
        · next hother => exact ⟨rfl, fun hid => absurd (hother.symm.trans hid) hne⟩
        · exact ⟨rfl, fun _ => rfl⟩
    exact
      { hcancel with
        active := by
          rw [h.active, decide_eq_decide]
          exact (List.mem_erase_of_ne hne.symm).symm }
  · exact h

/-- A new subscription on another channel leaves a subscription alone. -/
theorem Holds.register_of_ne (h : w.Holds id n o) (scope localStem : Key) {channel : Nat}
    (feed : Nat) (hne : channel ≠ n) : (w.register scope localStem channel feed).Holds id n o := by
  have hknown := h.known
  have hnew : (w.subscription scope localStem channel feed).id ≠ id := Nat.ne_of_gt hknown
  exact
    { h with
      known := Nat.lt_succ_of_lt hknown
      own := fun d hd => by
        rcases List.mem_append.1 hd with hd | hd
        · exact h.own d hd
        · rw [List.mem_singleton.1 hd]
          exact ⟨fun heq => absurd heq hne, fun heq => absurd heq hnew⟩
      active := by
        rw [h.active, decide_eq_decide]
        refine ⟨List.mem_append_left _, fun hmem => (List.mem_append.1 hmem).resolve_right ?_⟩
        exact fun hmem => hnew (List.mem_singleton.1 hmem).symm
      working := fun d hd hid => by
        rcases List.mem_append.1 hd with hd | hd
        · exact h.working d hd hid
        · rw [List.mem_singleton.1 hd] at hid
          exact absurd hid hnew
      ended := fun hnone => h.ended fun d hd => hnone d (List.mem_append_left _ hd) }

/-- So does a step of another dispatcher. -/
theorem Holds.dispatch_of_ne (h : w.Holds id n o) (hsound : w.Sound) (hd : d ∈ w.dispatchers)
    (hne : d.subscription.id ≠ id) (reportFirst : Bool) :
    (w.dispatch d reportFirst).Holds id n o := by
  obtain ⟨hsub, _⟩ := stepOf_dispatcher w d reportFirst
  have hfeed : ∀ d' ∈ w.dispatchers, d'.subscription.id = id →
      d.subscription.feed ≠ d'.subscription.feed := by
    intro d' hd' hid heq
    exact hne ((congrArg (·.subscription.id) (hsound.eq_of_feed hd hd' heq)).trans hid)
  have hchannel : d.subscription.channel ≠ n := fun heq => hne ((h.own d hd).1 heq)
  have hread := h.onFeed hfeed fun _ => (w.stepOf d reportFirst).after.feed
  have hread' : Sound { w with
      store := w.store.onFeed d.subscription.feed fun _ => (w.stepOf d reportFirst).after.feed } :=
    hsound.withStore (Store.onlyNew_onFeed _ _ _)
  have hsent := (hread.withDispatcher hread' hd hsub fun hid => absurd hid hne).onChannel_of_ne
    hchannel fun _ => (w.stepOf d reportFirst).after.channel
  simp only [Wiring.dispatch]
  split
  · refine hsent.endDispatcher_of_ne hne fun d' hd' hid => ?_
    obtain ⟨old, hold, rfl⟩ := List.mem_map.1 hd'
    split at hid
    · rw [hsub] at hid
      exact absurd hid hne
    · next hother =>
      rw [if_neg hother]
      exact hfeed old hold hid
  · exact hsent

/-! ### What is done to a subscription -/

/-- What is done to the channel as `f` is done to that of the outlet as `g`. -/
theorem Holds.onChannel (h : w.Holds id n o) {f g : Channel → Channel}
    (hline : (f (w.channel n)).LinedBy id)
    (hf : (f (w.channel n)).anonymous = g (w.channel n).anonymous) :
    (w.onChannel n f).Holds id n (o.onChannel g) := by
  have hchannel : (w.onChannel n f).channel n = f (w.channel n) := by
    rw [channel_onChannel, if_pos ⟨rfl, h.opened⟩]
  exact
    { h with
      opened := (List.length_modify ..).symm ▸ h.opened
      line := by
        rw [hchannel]
        exact hline
      channel := by
        rw [hchannel, hf, ← h.channel]
        rfl }

/-- Unsubscribing asks the dispatcher of the outlet to stop. -/
theorem Holds.unsubscribe (h : w.Holds id n o) (hsound : w.Sound) :
    (w.unsubscribe id).Holds id n o.unsubscribed := by
  unfold Wiring.unsubscribe Outlet.unsubscribed
  by_cases hid : id ∈ w.registered
  · have hactive : o.active = true := h.active.trans (decide_eq_true hid)
    rw [if_pos hid, if_pos hactive]
    have hsub (d : Dispatcher) :
        (if d.subscription.id = id then { d with cancelled := true } else d).subscription =
          d.subscription := by
      split <;> rfl
    exact
      { h with
        own := fun d' hd' => by
          obtain ⟨d, hd, rfl⟩ := List.mem_map.1 hd'
          rw [hsub]
          exact h.own d hd
        active := (decide_eq_false fun hmem => (hsound.distinct.mem_erase_iff.1 hmem).1 rfl).symm
        working := fun d' hd' hself => by
          obtain ⟨d, hd, rfl⟩ := List.mem_map.1 hd'
          rw [hsub] at hself
          obtain ⟨hworking, hruns⟩ := h.working d hd hself
          rw [if_pos hself, hruns]
          exact ⟨⟨hworking.watched, hworking.intact, hworking.phase⟩, rfl⟩
        ended := fun hnone => by
          have hnone' : ∀ d ∈ w.dispatchers, d.subscription.id ≠ id := by
            intro d hd
            have hmapped := hnone _ (List.mem_map_of_mem hd)
            rwa [hsub] at hmapped
          rw [h.ended hnone']
          rfl }
  · have hactive : ¬o.active = true := by simpa [h.active] using hid
    rw [if_neg hid, if_neg hactive]
    exact h

/-- What is committed under its stem goes to the feed of a subscription. -/
theorem Holds.serve (h : w.Holds id n o) (now : Nat) {service : Service}
    (request : Request service) (hclose : service ≠ .close) :
    Holds { w with store := (w.store.serve now request).store } id n
      (o.fed (w.store.events now request)) :=
  { h with
    working := fun d hd hid => by
      obtain ⟨hworking, hruns⟩ := h.working d hd hid
      obtain ⟨hwatched, hqueue⟩ := hworking.watched.serve now request hclose
      refine ⟨⟨hwatched, ?_, hworking.phase⟩, ?_⟩
      · rintro (hfed | ⟨e, he⟩)
        · rw [hwatched.fed] at hfed
          cases hfed
        · rw [hqueue, List.mem_append] at he
          rcases he with he | he
          · exact hworking.intact (.inr ⟨e, he⟩)
          · obtain ⟨_, _, heq⟩ := List.mem_map.1 he
            cases heq
      · rw [Outlet.fed, hruns, hwatched.feed_eq, hqueue, hworking.watched.feed_eq]
        rfl
    ended := fun hnone => by
      rw [Outlet.fed, h.ended hnone]
      rfl }

/-- A new subscription on a channel that nobody has. -/
theorem Sound.holds_register (hsound : w.Sound) {now : Nat} {scope localStem : Key}
    {channel feed capacity : Nat} {held : Bool}
    (hserve : (w.store.serve now (.watch (scope.qualify localStem))).outcome = .ok feed)
    (hopened : channel < w.channels.length)
    (hchannel : w.channel channel = { capacity, held })
    (hfree : ∀ d ∈ w.dispatchers, d.subscription.channel ≠ channel) :
    (register { w with store := (w.store.serve now (.watch (scope.qualify localStem))).store }
      scope localStem channel feed).Holds w.nextSubscription channel
        (.new scope localStem capacity held) := by
  obtain ⟨rfl, hopens⟩ := Store.serve_watch_of_ok hserve
  obtain ⟨hwatched, hqueue⟩ := hsound.numbered.watched_openWatch (scope.qualify localStem)
  rw [hopens]
  have hold : ∀ d ∈ w.dispatchers, d.subscription.id ≠ w.nextSubscription :=
    fun d hd => Nat.ne_of_lt (hsound.fresh _ (mem_subscriptions hd))
  exact
    { opened := hopened
      known := Nat.lt_succ_self _
      own := fun d hd => by
        rcases List.mem_append.1 hd with hd | hd
        · exact ⟨fun heq => absurd heq (hfree d hd), fun heq => absurd heq (hold d hd)⟩
        · rw [List.mem_singleton.1 hd]
          exact ⟨fun _ => rfl, fun _ => rfl⟩
      line := by
        have hnobody : Channel.LinedBy { capacity, held } w.nextSubscription := nofun
        exact hchannel ▸ hnobody
      active := (decide_eq_true (List.mem_append_right _ List.mem_cons_self)).symm
      channel := (congrArg Channel.anonymous hchannel).symm
      working := fun d hd hid => by
        rcases List.mem_append.1 hd with hd | hd
        · exact absurd hid (hold d hd)
        · rw [List.mem_singleton.1 hd]
          refine ⟨⟨hwatched, ?_, rfl⟩, ?_⟩
          · rintro (hfed | ⟨e, he⟩)
            · exact absurd (hfed.symm.trans hwatched.fed) Bool.false_ne_true
            · have hnone : .error e ∈ ([] : List Signal) := hqueue ▸ he
              cases hnone
          · have hfeed := hwatched.feed_eq
            rw [hqueue] at hfeed
            exact congrArg (fun feed => some (_, feed)) hfeed.symm
      ended := fun hnone =>
        absurd rfl (hnone _ (List.mem_append_right _ List.mem_cons_self)) }

end KeyBroker.Wiring
