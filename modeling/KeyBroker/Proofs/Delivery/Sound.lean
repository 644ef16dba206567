import KeyBroker.Proofs.Delivery.Dispatch
import KeyBroker.Proofs.Store.Feed
import KeyBroker.Proofs.System.Moves

/-!
# Sound wirings

In the wiring of every reachable system, subscriptions are told apart by their
numbers and by their feeds, and the register holds those of them that run and were
not told to stop.
-/

namespace KeyBroker.Wiring

/-- The subscriptions that have a dispatcher. -/
def subscriptions (w : Wiring) : List Subscription := w.dispatchers.map (·.subscription)

/-- What holds of the wiring of every reachable system. -/
structure Sound (w : Wiring) : Prop where
  numbered : w.store.Numbered
  ids : (w.subscriptions.map (·.id)).Nodup
  feeds : (w.subscriptions.map (·.feed)).Nodup
  fresh : ∀ sub ∈ w.subscriptions, sub.id < w.nextSubscription
  opened : ∀ sub ∈ w.subscriptions, sub.feed < w.store.feeds.length
  distinct : w.registered.Nodup
  /-- Every registered subscription has a dispatcher. -/
  served : ∀ id ∈ w.registered, id ∈ w.subscriptions.map (·.id)
  /-- A dispatcher that was not told to stop is registered. -/
  listed : ∀ d ∈ w.dispatchers, d.cancelled = false → d.subscription.id ∈ w.registered
  /-- Items in channels are of subscriptions that were registered once. -/
  senders : ∀ n, ∀ e ∈ (w.channel n).items, e.1 < w.nextSubscription

variable {w w' : Wiring} {hs : List Happening}

/-- Changing one channel changes that channel and no other, if there is such a channel. -/
theorem channel_onChannel (w : Wiring) (n m : Nat) (f : Channel → Channel) :
    (w.onChannel n f).channel m =
      if n = m ∧ m < w.channels.length then f (w.channel m) else w.channel m := by
  unfold onChannel channel
  simp only [List.getD_eq_getElem?_getD, List.getElem?_modify]
  by_cases hnm : n = m
  · subst hnm
    by_cases hlt : n < w.channels.length
    · simp [hlt]
    · simp [hlt]
  · simp [hnm]

/-- The subscription of a dispatcher is among the subscriptions of the wiring. -/
theorem mem_subscriptions {d : Dispatcher} (hd : d ∈ w.dispatchers) :
    d.subscription ∈ w.subscriptions :=
  List.mem_map_of_mem hd

/-- Dispatchers are the same if their subscriptions agree in something that tells subscriptions
apart. -/
theorem eq_of_nodup {β : Type} {f : Subscription → β} (h : (w.subscriptions.map f).Nodup)
    {a b : Dispatcher} (ha : a ∈ w.dispatchers) (hb : b ∈ w.dispatchers)
    (hab : f a.subscription = f b.subscription) : a = b := by
  have hne : w.dispatchers.Pairwise fun a b => f a.subscription ≠ f b.subscription := by
    rw [subscriptions, List.map_map] at h
    exact List.pairwise_map.1 h
  refine List.Pairwise.forall_of_forall_of_flip
    (R := fun a b => f a.subscription = f b.subscription → a = b)
    (fun _ _ _ => rfl) ?_ ?_ ha hb hab
  · exact hne.imp fun hne heq => absurd heq hne
  · exact hne.imp fun hne heq => absurd heq.symm hne

/-- A dispatcher is known by the number of its subscription. -/
theorem Sound.eq_of_id (h : w.Sound) {a b : Dispatcher} (ha : a ∈ w.dispatchers)
    (hb : b ∈ w.dispatchers) (hid : a.subscription.id = b.subscription.id) : a = b :=
  eq_of_nodup h.ids ha hb hid

/-- A dispatcher is known by its feed. -/
theorem Sound.eq_of_feed (h : w.Sound) {a b : Dispatcher} (ha : a ∈ w.dispatchers)
    (hb : b ∈ w.dispatchers) (hfeed : a.subscription.feed = b.subscription.feed) : a = b :=
  eq_of_nodup h.feeds ha hb hfeed

/-- A new wiring is sound. -/
theorem sound_new (settings : Settings) : (System.wiring { settings }).Sound where
  numbered _ hw := by cases hw
  ids := .nil
  feeds := .nil
  fresh _ hsub := by cases hsub
  opened _ hsub := by cases hsub
  distinct := .nil
  served _ hid := by cases hid
  listed _ hd := by cases hd
  senders _ _ he := by cases he

/-- A sound wiring stays sound when only its store changes. -/
theorem Sound.withStore (h : w.Sound) {store : Store} (hnew : Store.OnlyNew w.store store) :
    Sound { w with store } where
  numbered := hnew.numbered h.numbered
  ids := h.ids
  feeds := h.feeds
  fresh := h.fresh
  opened sub hsub := by
    have hopened := h.opened sub hsub
    have hgrows := hnew.grows
    simp only
    omega
  distinct := h.distinct
  served := h.served
  listed := h.listed
  senders := h.senders

/-- A sound wiring stays sound when dispatchers change but keep their subscriptions and
their orders. -/
theorem Sound.mapDispatchers (h : w.Sound) {f : Dispatcher → Dispatcher}
    (hf : ∀ d ∈ w.dispatchers, (f d).subscription = d.subscription ∧
      (d.cancelled = true → (f d).cancelled = true)) :
    Sound { w with dispatchers := w.dispatchers.map f } := by
  have hsame : (w.dispatchers.map f).map (·.subscription) = w.subscriptions := by
    rw [List.map_map, subscriptions]
    exact List.map_congr_left fun d hd => (hf d hd).1
  exact {
    numbered := h.numbered
    ids := by simpa only [subscriptions, hsame] using h.ids
    feeds := by simpa only [subscriptions, hsame] using h.feeds
    fresh := by simpa only [subscriptions, hsame] using h.fresh
    opened := by simpa only [subscriptions, hsame] using h.opened
    distinct := h.distinct
    served := by simpa only [subscriptions, hsame] using h.served
    listed := by
      intro changed hchanged hcancelled
      obtain ⟨d, hd, rfl⟩ := List.mem_map.1 hchanged
      obtain ⟨hsub, hkept⟩ := hf d hd
      rw [hsub]
      refine h.listed d hd (eq_false_of_ne_true fun hc => ?_)
      rw [hkept hc] at hcancelled
      cases hcancelled
    senders := h.senders }

/-- A sound wiring stays sound when a channel keeps to items of known senders. -/
theorem Sound.onChannel (h : w.Sound) (n : Nat) {f : Channel → Channel}
    (hf : ∀ e ∈ (f (w.channel n)).items, e.1 < w.nextSubscription) :
    (w.onChannel n f).Sound :=
  { h with
    senders := by
      intro m e he
      rw [channel_onChannel] at he
      split at he
      · next hm => exact hf e (hm.1 ▸ he)
      · exact h.senders m e he }

/-- The wiring stays sound when a dispatcher moves on with its subscription and its orders. -/
theorem Sound.withDispatcher (h : w.Sound) {d d' : Dispatcher} (hd : d ∈ w.dispatchers)
    (hsub : d'.subscription = d.subscription) (hcancelled : d'.cancelled = d.cancelled) :
    (w.withDispatcher d').Sound := by
  refine h.mapDispatchers fun other hother => ?_
  split
  · next hid =>
    rw [hsub] at hid
    have heq := h.eq_of_id hother hd hid
    rw [heq]
    exact ⟨hsub, fun hc => hcancelled.trans hc⟩
  · exact ⟨rfl, id⟩

/-- Unsubscribing keeps the wiring sound. -/
theorem Sound.unsubscribe (h : w.Sound) (id : Nat) : (w.unsubscribe id).Sound := by
  unfold Wiring.unsubscribe
  split
  · have hcancel := h.mapDispatchers (f := fun d =>
      if d.subscription.id = id then { d with cancelled := true } else d) fun d _ => by
        split
        · exact ⟨rfl, fun _ => rfl⟩
        · exact ⟨rfl, fun hc => hc⟩
    exact { hcancel with
      distinct := hcancel.distinct.erase id
      served := fun other hother => hcancel.served other (List.mem_of_mem_erase hother)
      listed := by
        intro d hd hcancelled
        have hne : d.subscription.id ≠ id := by
          obtain ⟨before, _, rfl⟩ := List.mem_map.1 hd
          intro hid
          by_cases hbefore : before.subscription.id = id
          · simp [hbefore] at hcancelled
          · simp [hbefore] at hid
        exact (List.mem_erase_of_ne hne).2 (hcancel.listed d hd hcancelled) }
  · exact h

/-- The end of a dispatcher keeps the wiring sound. -/
theorem Sound.endDispatcher (h : w.Sound) (id feed : Nat) : (w.endDispatcher id feed).Sound := by
  have hstore := h.withStore (Store.onlyNew_onFeed w.store feed (·.leave))
  have hsublist : (w.endDispatcher id feed).subscriptions.Sublist w.subscriptions :=
    List.filter_sublist.map _
  exact {
    numbered := hstore.numbered
    ids := (hsublist.map _).nodup h.ids
    feeds := (hsublist.map _).nodup h.feeds
    fresh := fun sub hsub => h.fresh sub (hsublist.subset hsub)
    opened := fun sub hsub => hstore.opened sub (hsublist.subset hsub)
    distinct := h.distinct.erase id
    served := by
      intro other hother
      obtain ⟨hne, hmem⟩ := h.distinct.mem_erase_iff.1 hother
      obtain ⟨sub, hsub, rfl⟩ := List.mem_map.1 (h.served other hmem)
      obtain ⟨d, hd, rfl⟩ := List.mem_map.1 hsub
      exact List.mem_map_of_mem (List.mem_map_of_mem (List.mem_filter.2 ⟨hd, by simpa using hne⟩))
    listed := by
      intro d hd hcancelled
      obtain ⟨hd, hne⟩ := List.mem_filter.1 hd
      exact (List.mem_erase_of_ne (by simpa using hne)).2 (h.listed d hd hcancelled)
    senders := h.senders }

/-- A number above all others is a new one. -/
theorem nodup_concat {numbers : List Nat} {new : Nat} (h : numbers.Nodup)
    (hnew : ∀ n ∈ numbers, n < new) : (numbers ++ [new]).Nodup := by
  refine List.nodup_append.2 ⟨h, by simp, ?_⟩
  intro n hn other hother heq
  have hlt := hnew n hn
  rw [List.mem_singleton.1 hother] at heq
  omega

/-- A new subscription has a number and a feed of its own. -/
theorem Sound.subscribe (h : w.Sound) {now : Nat} {scope localStem : Key} {channel feed : Nat}
    (hopened : (w.store.serve now (.watch (scope.qualify localStem))).outcome = .ok feed) :
    (register { w with store := (w.store.serve now (.watch (scope.qualify localStem))).store }
      scope localStem channel feed).Sound := by
  obtain ⟨rfl, hserve⟩ := Store.serve_watch_of_ok hopened
  have hstore := h.withStore (Store.onlyNew_serve w.store now (.watch (scope.qualify localStem)))
  rw [hserve] at hstore ⊢
  simp only at hstore ⊢
  -- the new subscription has the next number and the feed that was just opened, neither of which
  -- any other has
  let sub := w.subscription scope localStem channel w.store.feeds.length
  have hsubscriptions :
      (register { w with store := (w.store.openWatch (scope.qualify localStem)).1 }
        scope localStem channel w.store.feeds.length).subscriptions = w.subscriptions ++ [sub] :=
    List.map_append
  have hlength : (w.store.openWatch (scope.qualify localStem)).1.feeds.length =
      w.store.feeds.length + 1 := List.length_append
  exact {
    numbered := hstore.numbered
    ids := by
      rw [hsubscriptions, List.map_append]
      refine nodup_concat h.ids fun id hid => ?_
      obtain ⟨other, hother, rfl⟩ := List.mem_map.1 hid
      exact h.fresh other hother
    feeds := by
      rw [hsubscriptions, List.map_append]
      refine nodup_concat h.feeds fun n hn => ?_
      obtain ⟨other, hother, rfl⟩ := List.mem_map.1 hn
      exact h.opened other hother
    fresh := by
      rw [hsubscriptions, List.forall_mem_append, List.forall_mem_singleton]
      exact ⟨fun other hother => Nat.lt_succ_of_lt (h.fresh other hother), Nat.lt_succ_self _⟩
    opened := by
      rw [hsubscriptions, List.forall_mem_append, List.forall_mem_singleton]
      exact ⟨hstore.opened, hlength ▸ Nat.lt_succ_self _⟩
    distinct := by
      refine nodup_concat h.distinct fun id hid => ?_
      obtain ⟨other, hother, hid⟩ := List.mem_map.1 (h.served id hid)
      exact hid ▸ h.fresh other hother
    served := by
      intro id hid
      rw [hsubscriptions, List.map_append]
      rcases List.mem_append.1 hid with hid | hid
      · exact List.mem_append_left _ (h.served id hid)
      · exact List.mem_append_right _ hid
    listed := by
      intro d hd hcancelled
      rcases List.mem_append.1 hd with hd | hd
      · exact List.mem_append_left _ (h.listed d hd hcancelled)
      · rw [List.mem_singleton.1 hd]
        exact List.mem_append_right _ (List.mem_singleton.2 rfl)
    senders := fun n e he => Nat.lt_succ_of_lt (h.senders n e he) }

/-- The dispatch that a step of a dispatcher begins with. -/
def dispatchOf (w : Wiring) (d : Dispatcher) : Dispatch where
  dispatcher := d
  feed := w.store.feed d.subscription.feed
  channel := w.channel d.subscription.channel

/-- Whatever its phase, a step keeps the dispatcher's subscription and its orders. -/
theorem keeps_stepOf (w : Wiring) (d : Dispatcher) (reportFirst : Bool) :
    ∃ items, Dispatch.Keeps (w.dispatchOf d) (w.stepOf d reportFirst) items :=
  Dispatch.keeps_step (w.dispatchOf d) w.policy (w.stopped || d.cancelled) reportFirst

/-- What a step of a dispatcher leaves of it. -/
theorem stepOf_dispatcher (w : Wiring) (d : Dispatcher) (reportFirst : Bool) :
    (w.stepOf d reportFirst).dispatcher.subscription = d.subscription ∧
      (w.stepOf d reportFirst).dispatcher.cancelled = d.cancelled := by
  obtain ⟨items, hkeeps⟩ := keeps_stepOf w d reportFirst
  obtain ⟨credit, heq⟩ := (w.stepOf d reportFirst).dispatcher_eq
  rw [heq]
  exact ⟨hkeeps.subscription, hkeeps.cancelled⟩

/-- The dispatcher of a step is in the phase in which the step leaves it. -/
theorem phase_stepOf (w : Wiring) (d : Dispatcher) (reportFirst : Bool) :
    (w.stepOf d reportFirst).dispatcher.phase =
      (w.stepOf d reportFirst).after.dispatcher.phase := by
  obtain ⟨credit, heq⟩ := (w.stepOf d reportFirst).dispatcher_eq
  rw [heq]

/-- A step of a dispatcher keeps the wiring sound. -/
theorem Sound.dispatch (h : w.Sound) {d : Dispatcher}
    (hd : d ∈ w.dispatchers) (reportFirst : Bool) : (w.dispatch d reportFirst).Sound := by
  obtain ⟨hsub, hcancelled⟩ := stepOf_dispatcher w d reportFirst
  have hread := h.withStore (Store.onlyNew_onFeed w.store d.subscription.feed
    fun _ => (w.stepOf d reportFirst).after.feed)
  have hsent := (hread.withDispatcher hd hsub hcancelled).onChannel d.subscription.channel
    (f := fun _ => (w.stepOf d reportFirst).after.channel) <| by
      obtain ⟨items, hkeeps⟩ := keeps_stepOf w d reportFirst
      intro e he
      rw [hkeeps.channel.items_eq] at he
      rcases List.mem_append.1 he with he | he
      · exact h.senders _ e he
      · obtain ⟨item, _, rfl⟩ := List.mem_map.1 he
        exact h.fresh _ (mem_subscriptions hd)
  simp only [Wiring.dispatch]
  split
  · exact hsent.endDispatcher _ _
  · exact hsent

/-- Every change keeps a wiring sound. -/
theorem Sound.change (h : w.Sound) (hchange : Change w hs w') : w'.Sound := by
  cases hchange with
  | serve now request => exact h.withStore (Store.onlyNew_serve w.store now request)
  | subscribe now scope localStem channel feed opened => exact h.subscribe opened
  | compact revision => exact h.withStore ⟨Nat.le_refl _, fun _ hw => .inl hw⟩
  | setAvailable available => exact h.withStore (Store.onlyNew_setAvailable w.store available)
  | onFeed n f free => exact h.withStore (Store.onlyNew_onFeed w.store n f)
  | unsubscribe id => exact h.unsubscribe id
  | dispatch d reportFirst works => exact h.dispatch works reportFirst
  | rest d works => exact h.withDispatcher works rfl rfl
  | openChannel capacity held =>
    refine { h with senders := fun n e he => ?_ }
    by_cases hlt : n < w.channels.length
    · refine h.senders n e ?_
      simp only [channel, List.getD_eq_getElem?_getD] at he ⊢
      rwa [List.getElem?_append_left hlt] at he
    · simp only [channel, List.getD_eq_getElem?_getD,
        List.getElem?_append_right (Nat.le_of_not_lt hlt)] at he
      cases hn : n - w.channels.length <;> rw [hn] at he <;> cases he
  | dropSender n => exact h.onChannel n (h.senders n)
  | receive n sender item rest oldest =>
    refine h.onChannel n fun e he => h.senders n e ?_
    rw [(Channel.gains_promise _ sender).items_eq] at he
    rw [oldest]
    exact List.mem_cons_of_mem _ (by simpa using he)
  | dropReceiver n => exact h.onChannel n fun e he => by cases he
  | _ => exact { h with }

end KeyBroker.Wiring
