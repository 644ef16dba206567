import KeyBroker.Proofs.Delivery.Running
import KeyBroker.Proofs.Listing.Pages

/-!
# Delivery under the blocking policy

Under the blocking policy nothing is lost, duplicated or put out of order. While a
subscription is registered, its channel has a receiver and its native watch
stands, its items received, in the channel, in the hand of its dispatcher and on its
feed are those of the events committed under its stem since the watch was opened.
After it has ended, the items sent stay the beginning of that list.
-/

namespace KeyBroker

/-- The items that a subscription is to get for events: each event under its stem, with
its scope taken off the key. -/
def Subscription.owes (sub : Subscription) (events : List Event) : List Item :=
  (events.filter fun e => (sub.scope ++ sub.localStem).isPrefixOf e.key).map fun e =>
    .ok { e with key := e.key.drop sub.scope.length }

/-- The changes that are committed. -/
def committed (hs : List Happening) : List Event := hs.filterMap (·.committed?)

namespace Subscription

/-- A key under the stem is shown without the scope. -/
theorem itemOf_eq {sub : Subscription} {event : Event}
    (h : sub.scope ++ sub.localStem <+: event.key) :
    sub.itemOf event = .ok { event with key := event.key.drop sub.scope.length } := by
  have hscope : sub.scope <+: event.key := (List.prefix_append _ _).trans h
  rw [itemOf, Key.reveal_of_prefix hscope]
  rfl

/-- What a subscription is owed for happenings is what it is owed for the events committed in
them. -/
theorem owed_eq {sub : Subscription} (hstem : sub.stem = sub.scope ++ sub.localStem)
    (hs : List Happening) : sub.owed hs = sub.owes (committed hs) := by
  unfold owed owes committed
  rw [hstem]
  refine List.map_congr_left fun event hmem => itemOf_eq ?_
  exact Key.beginsWith_iff.1 (List.mem_filter.1 hmem).2

end Subscription

namespace Wiring

variable {w w' : Wiring} {hs : List Happening} {sub : Subscription} {got owed : List Item}

/-- A wiring that is followed is sound and blocks. -/
theorem Sound.changes (h : w.Sound) (hpolicy : w.policy = .block) (hchanges : Changes w hs w') :
    w'.Sound ∧ w'.policy = .block := by
  obtain ⟨hsound, hsame⟩ := hchanges.sound h
  exact ⟨hsound, hsame.trans hpolicy⟩

/-- A subscription goes on to follow through changes in order, with all they deliver and owe. -/
theorem Follows.changes (h : w.Follows sub got owed) (hsound : w.Sound)
    (hpolicy : w.policy = .block) (hchanges : Changes w hs w') :
    w'.Follows sub (got ++ sub.got hs) (owed ++ sub.owed hs) := by
  induction hchanges generalizing got owed with
  | nil => simpa [Subscription.got, Subscription.owed] using h
  | cons first _ ih =>
    rw [sub.got_append, sub.owed_append, ← List.append_assoc, ← List.append_assoc]
    exact ih (h.change hsound hpolicy first) (hsound.change first)
      (first.policy_eq.trans hpolicy)

/-- A subscription that is sent nothing more stays so through changes in order. -/
theorem Ends.changes (h : w.Ends sub got owed) (hchanges : Changes w hs w') :
    w'.Ends sub (got ++ sub.got hs) (owed ++ sub.owed hs) := by
  induction hchanges generalizing got owed with
  | nil => simpa [Subscription.got, Subscription.owed] using h
  | cons first _ ih =>
    rw [sub.got_append, sub.owed_append, ← List.append_assoc, ← List.append_assoc]
    exact ih (h.change first)

/-- A subscription runs from its opening, with nothing in any of its places. -/
theorem Sound.runs_of_subscribe (h : w.Sound) {now : Nat} {scope localStem : Key}
    {channel feed : Nat}
    (hopened : (w.store.serve now (.watch (scope.qualify localStem))).outcome = .ok feed) :
    (register { w with store := (w.store.serve now (.watch (scope.qualify localStem))).store }
      scope localStem channel feed).Runs (w.subscription scope localStem channel feed) [] []
      { subscription := w.subscription scope localStem channel feed } [] := by
  obtain ⟨rfl, hserve⟩ := Store.serve_watch_of_ok hopened
  obtain ⟨hwatched, hqueue⟩ := h.numbered.watched_openWatch (scope.qualify localStem)
  rw [hserve]
  have hnone : w.queued (w.subscription scope localStem channel w.store.feeds.length) = [] := by
    rw [queued, List.map_eq_nil_iff, List.filter_eq_nil_iff]
    intro e he hid
    have hlt := h.senders _ e he
    have heq : e.1 = w.nextSubscription := of_decide_eq_true hid
    omega
  exact {
    works := List.mem_append_right _ List.mem_cons_self
    subscription := rfl
    phase := rfl
    watched := hwatched
    queue := hqueue
    under := fun _ hmem => by cases hmem
    all := fun _ => by
      rw [List.nil_append]
      exact (List.append_nil _).trans hnone
    front := by
      rw [List.nil_append]
      exact hnone ▸ List.prefix_refl _ }

/-- A change that opens a subscription does nothing else, and the new subscription follows with
nothing received and nothing owed. -/
theorem Change.follows_of_opened (h : Change w hs w') (hsound : w.Sound)
    (hmem : .opened sub ∈ hs) :
    hs = [.opened sub] ∧ sub.stem = sub.scope ++ sub.localStem ∧ w'.Follows sub [] [] := by
  cases h with
  | serve now request =>
    obtain ⟨event, _, heq⟩ := List.mem_map.1 hmem
    cases heq
  | subscribe now scope localStem channel feed opened =>
    have hsub := Happening.opened.inj (List.mem_singleton.1 hmem)
    subst hsub
    exact ⟨rfl, rfl, .runs _ _ (hsound.runs_of_subscribe opened)⟩
  | receive n sender item rest oldest => cases List.mem_singleton.1 hmem
  | _ => cases hmem

/-- A subscription is followed from its opening on. -/
theorem Changes.follows_of_opened (h : Changes w hs w') (hsound : w.Sound)
    (hpolicy : w.policy = .block) {before after : List Happening}
    (hsplit : hs = before ++ .opened sub :: after) :
    sub.stem = sub.scope ++ sub.localStem ∧ w'.Follows sub (sub.got after) (sub.owed after) := by
  induction h generalizing before with
  | nil => simp at hsplit
  | @cons w₀ w₁ w₂ first more hfirst hrest ih =>
    have hsound₁ := hsound.change hfirst
    have hpolicy₁ := hfirst.policy_eq.trans hpolicy
    -- the opening is in a later change, or in this one, which then does nothing else
    rcases List.append_eq_append_iff.1 hsplit with ⟨later, _, hmore⟩ | ⟨opening, hopening, hlater⟩
    · exact ih hsound₁ hpolicy₁ hmore
    · cases opening with
      | nil =>
        have hmore : more = [] ++ .opened sub :: after := hlater.symm
        exact ih hsound₁ hpolicy₁ hmore
      | cons head tail =>
        obtain ⟨rfl, hafter⟩ := List.cons.inj hlater
        have hmem : .opened sub ∈ first := by simp [hopening]
        obtain ⟨hone, hstem, hfollows⟩ := hfirst.follows_of_opened hsound hmem
        have htail : tail = [] := by
          rw [hone] at hopening
          cases before with
          | nil => exact (List.cons.inj hopening).2.symm
          | cons => simp at hopening
        subst htail
        have hmore : after = _ := hafter
        rw [hmore]
        exact ⟨hstem, hfollows.changes hsound₁ hpolicy₁ hrest⟩

/-- A subscription that has a dispatcher had one before or was opened meanwhile. -/
theorem Changes.old_or_opened (h : Changes w hs w') {sub : Subscription}
    (hsub : sub ∈ w'.subscriptions) :
    sub ∈ w.subscriptions ∨ .opened sub ∈ hs := by
  induction h with
  | nil => exact .inl hsub
  | cons first _ ih =>
    rcases ih hsub with hmem | hmem
    · obtain ⟨d, hd, rfl⟩ := List.mem_map.1 hmem
      rcases first.old_or_opened hd with hold | ⟨hopened, _⟩
      · exact .inl hold
      · exact .inr (List.mem_append_left _ hopened)
    · exact .inr (List.mem_append_right _ hmem)

/-- When a subscription has ended before its watch was broken, it has ended for good. -/
theorem Follows.ends (h : w.Follows sub got owed) (hsound : w.Sound)
    (hstands : { feed := sub.feed, stem := sub.stem } ∈ w.store.watchers)
    (hover : w.stopped = true ∨ sub.id ∉ w.registered) : w.Ends sub got owed := by
  cases h with
  | ended none ends => exact ends
  | broken none old => exact absurd hstands none
  | runs d events runs =>
    refine ⟨fun d' hd' hid => ?_, ?_, runs.front⟩
    · have heq := hsound.eq_of_id hd' runs.works (hid.trans (runs.subscription ▸ rfl))
      subst heq
      refine ⟨?_, runs.phase⟩
      rcases hover with hstopped | hunregistered
      · rw [hstopped]
        rfl
      · cases hcancelled : d'.cancelled with
        | true => exact Bool.or_true _
        | false => exact absurd (hid ▸ hsound.listed d' hd' hcancelled) hunregistered
    · rw [← runs.subscription]
      exact hsound.fresh _ (mem_subscriptions runs.works)

end Wiring

namespace System

/-- The items of a subscription in its channel. -/
def queued (s : System) (sub : Subscription) : List Item :=
  ((s.channel sub.channel).items.filter (·.1 = sub.id)).map (·.2)

/-- The native watch of a subscription stands. -/
def Stands (s : System) (sub : Subscription) : Prop :=
  { feed := sub.feed, stem := sub.stem } ∈ s.store.watchers

/-- While a subscription that is followed has not ended, nothing of what it is owed is lost. -/
theorem whole_of_follows {s : System} {sub : Subscription} {got owed : List Item}
    (hsound : s.wiring.Sound) (h : s.wiring.Follows sub got owed)
    (hregistered : sub.id ∈ s.registered)
    (hreceived : (s.channel sub.channel).received = true) (hstands : s.Stands sub) :
    ∃ d ∈ s.dispatchers, d.subscription = sub ∧
      ∃ unread : List Event, (s.store.feed sub.feed).queue = unread.map .ok ∧
        got ++ s.queued sub ++ (d.phase.held ++ unread).map sub.itemOf = owed := by
  cases h with
  | ended none ends =>
    obtain ⟨other, hother, hid⟩ := List.mem_map.1 (hsound.served _ hregistered)
    obtain ⟨d, hd, rfl⟩ := List.mem_map.1 hother
    exact absurd hid (none d hd)
  | broken none old => exact absurd hstands none
  | runs d unread runs =>
    refine ⟨d, runs.works, runs.subscription, unread, runs.queue, runs.all fun hlost => ?_⟩
    have hgone : (s.channel sub.channel).received = false := hlost.2
    exact Bool.noConfusion (hgone.symm.trans hreceived)

/-- Blocking delivery is exact. Let a run open the subscription `sub` and then do `after`.
While the subscription is registered, its channel has a receiver and its native watch
stands, the items received, those in the channel, the one in the hand of its dispatcher
and those on its feed are what it is owed for the events since its opening. Once it was
unsubscribed or the broker stopped while the watch stood, the items received and those
in the channel are for ever the beginning of what it is owed. -/
theorem delivers_all_in_order (settings : Settings) (hblock : settings.slowPolicy = .block)
    (run : List Move) (sub : Subscription) (before after : List Happening)
    (hrun : happenings { settings } run = before ++ .opened sub :: after) :
    let s := moves { settings } run
    (sub.id ∈ s.registered → (s.channel sub.channel).received = true → s.Stands sub →
      ∃ d ∈ s.dispatchers, d.subscription = sub ∧
        ∃ unread : List Event, (s.store.feed sub.feed).queue = unread.map .ok ∧
          sub.got after ++ s.queued sub ++ (d.phase.held ++ unread).map sub.itemOf =
            sub.owes (committed after)) ∧
    (s.Stands sub → s.stopped = true ∨ sub.id ∉ s.registered →
      ∀ more, sub.got (after ++ s.happenings more) ++ (s.moves more).queued sub <+:
        sub.owes (committed (after ++ s.happenings more))) := by
  have hchanges := changes_moves (genuine_new settings) run
  obtain ⟨hsound, hpolicy⟩ := (Wiring.sound_new settings).changes hblock hchanges
  obtain ⟨hstem, hfollows⟩ :=
    hchanges.follows_of_opened (Wiring.sound_new settings) hblock hrun
  refine ⟨fun hregistered hreceived hstands => ?_, fun hstands hover more => ?_⟩
  · rw [← Subscription.owed_eq hstem]
    exact whole_of_follows hsound hfollows hregistered hreceived hstands
  · have hends := hfollows.ends hsound hstands hover
    have hlater := changes_moves (genuine_moves (genuine_new settings) run) more
    rw [← Subscription.owed_eq hstem, sub.got_append, sub.owed_append]
    exact (hends.changes hlater).front

/-- A view of scope `p` watches `q` on a channel with room for one item: the first of three
changes was sent, the second is in the hand of the dispatcher, the others are on the feed. -/
theorem delivers_all_in_order_full :
    let run : List Move := [.openChannel 1 false, .launch (.ask (.watch ['p'] ['q'] 0)) false,
      .poll (.call 0) false, .ask (.put ['p', 'q', 'x'] [1] none),
      .ask (.put ['p', 'q', 'y'] [2] none), .ask (.delete ['p', 'q'] true),
      .poll (.dispatcher 1) false, .poll (.dispatcher 1) false, .poll (.dispatcher 1) false,
      .poll (.dispatcher 1) false, .poll (.dispatcher 1) false]
    let sub : Subscription :=
      { id := 1, localStem := ['q'], stem := ['p', 'q'], scope := ['p'], channel := 0, feed := 0 }
    let s := moves { settings := {} } run
    ∃ after, happenings { settings := {} } run = [] ++ .opened sub :: after ∧
      sub.id ∈ s.registered ∧ (s.channel 0).received = true ∧ s.Stands sub ∧
      ∃ d ∈ s.dispatchers, d.subscription = sub ∧
        ∃ unread : List Event, (s.store.feed 0).queue = unread.map .ok ∧
          sub.got after ++ s.queued sub ++ (d.phase.held ++ unread).map sub.itemOf =
            sub.owes (committed after) := by
  intro run sub s
  have hregistered : sub.id ∈ s.registered := by decide +kernel
  have hreceived : (s.channel 0).received = true := by decide +kernel
  have hstands : { feed := 0, stem := ['p', 'q'] } ∈ s.store.watchers := by decide +kernel
  refine ⟨_, rfl, hregistered, hreceived, hstands, ?_⟩
  exact (delivers_all_in_order {} rfl run sub [] _ rfl).1 hregistered hreceived hstands

end System

end KeyBroker
