import KeyBroker.Proofs.Following.Copies
import KeyBroker.Proofs.Independence.Others
import KeyBroker.Proofs.Together.Undone

/-!
# A call for several watches that is granted

A call for several watches that is granted has a handle for every stem, in their order. Behind
each handle there is a subscription with a feed of its own, also where stems are the same or one
begins with another. So an event is put on as many feeds, and delivered as often, as there are
stems that its key begins with.
-/

namespace KeyBroker.System

variable {s t : System} {c : InFlight} {id : Nat} {scope stem : Key} {channel : Nat}
  {held : List Handle} {rest stems : List Key} {sub : Subscription} {es : List Episode}

/-! ### Opening -/

/-- An error that a call is told gives no number to a subscription. -/
theorem nextSubscription_conclude_error (s : System) (c : InFlight) (e : Error) :
    (s.conclude c (.error e)).nextSubscription = s.nextSubscription := by
  obtain ⟨stopped, hwiring⟩ := wiring_conclude s c (.error e)
  rw [answered_error_fst] at hwiring
  exact (congrArg Wiring.nextSubscription hwiring).trans
    (stays_unsubscribeAll s c.call.heldIds).next

/-- A request that fails gives no number to a subscription. -/
theorem nextSubscription_act_of_failed (c : InFlight) {store : Store} {error : StorageError}
    (h : s.store.serve s.instant c.call.request =
      { store, reached := [], outcome := .failed error }) (started : Nat) :
    (s.act c started).nextSubscription = s.nextSubscription := by
  have hact : s.act c started =
      ({ s with store := (s.store.serve s.instant c.call.request).store }.wakeReaders
        (s.store.serve s.instant c.call.request).reached).settle c started
          (s.store.serve s.instant c.call.request).outcome := rfl
  rw [hact, h]
  exact nextSubscription_conclude_error _ c _

/-- A call for several watches that is answered with a feed registers a subscription. -/
theorem wiring_conclude_feed (hcall : c.call = .watchAll scope channel held stem rest)
    {reply : c.call.service.Reply} {feed : Nat} (hreply : c.call.feed? (.ok reply) = some feed) :
    ∃ stopped, (s.conclude c (.ok reply)).wiring =
      { s.wiring.register scope stem channel feed with stopped } := by
  obtain ⟨stopped, hwiring⟩ := wiring_conclude s c (.ok reply)
  refine ⟨stopped, ?_⟩
  obtain ⟨id, call, exchange, holdsBroker⟩ := c
  subst hcall
  obtain rfl := Option.some.inj hreply
  obtain ⟨turn, hanswered⟩ := answered_watchAll s scope stem channel reply held rest
  rw [hwiring]
  simp only [hanswered, wiring_register]

/-- The subscription that a call for several watches opens next. -/
def nextOpened (s : System) (scope stem : Key) (channel : Nat) : Subscription where
  id := s.nextSubscription
  localStem := stem
  stem := scope.qualify stem
  scope
  channel
  feed := s.store.feeds.length

/-- A subscription was opened a moment ago: it is registered, its native watch stands, and its
dispatcher has found nothing wrong. -/
structure Opened (s : System) (sub : Subscription) : Prop where
  listed : sub.id ∈ s.registered
  stands : s.Stands sub
  works : ∃ d ∈ s.dispatchers, d.subscription = sub ∧ d.Working s.store

/-- When the store serves a call for several watches, a subscription is opened. -/
theorem opened_of_served (hnumbered : s.store.Numbered) (id : Nat) (exchange : Option Exchange)
    (holdsBroker : Bool)
    (hserve : s.store.serve s.instant (.watch (scope.qualify stem)) =
      { store := (s.store.openWatch (scope.qualify stem)).1, reached := []
        outcome := .ok s.store.feeds.length }) (started : Nat) :
    (s.act ⟨id, .watchAll scope channel held stem rest, exchange, holdsBroker⟩ started).Opened
      (s.nextOpened scope stem channel) := by
  let call : InFlight := ⟨id, .watchAll scope channel held stem rest, exchange, holdsBroker⟩
  have hact := act_of_served call hserve started
  have hfeed : call.call.feed? (.ok s.store.feeds.length) = some s.store.feeds.length := rfl
  obtain ⟨stopped, hwiring⟩ := wiring_conclude_feed (c := call)
    (s := answeredWell { s with store := (s.store.openWatch (scope.qualify stem)).1 }
      .watch started) rfl hfeed
  rw [← hact] at hwiring
  have hregistered : (act s call started).registered = s.registered ++ [s.nextSubscription] :=
    congrArg Wiring.registered hwiring
  have hdispatchers : (act s call started).dispatchers =
      s.dispatchers ++ [{ subscription := s.nextOpened scope stem channel }] :=
    congrArg Wiring.dispatchers hwiring
  have hstore : (act s call started).store = (s.store.openWatch (scope.qualify stem)).1 :=
    congrArg Wiring.store hwiring
  obtain ⟨hwatched, hqueue⟩ := hnumbered.watched_openWatch (scope.qualify stem)
  refine ⟨?_, ?_, { subscription := s.nextOpened scope stem channel }, ?_, rfl, ?_⟩
  · exact hregistered ▸ List.mem_append_right _ (List.mem_singleton_self _)
  · rw [Stands, hstore]
    exact hwatched.stands
  · exact hdispatchers ▸ List.mem_append_right _ (List.mem_singleton_self _)
  · rw [hstore]
    refine ⟨hwatched, ?_, rfl⟩
    rintro (hfed | ⟨e, he⟩)
    · exact Bool.noConfusion (hfed.symm.trans hwatched.fed)
    · exact List.not_mem_nil (hqueue ▸ he)

/-- A call for several watches that gets one of them has opened a subscription. -/
theorem opens_of_new (hgenuine : s.wiring.Genuine) (hsound : s.wiring.Sound)
    (hfound : s.desk.call? c.id = some c)
    (hcall : c.call = .watchAll scope channel held stem rest)
    (hnew : (s.pollCall c.id).nextSubscription = s.nextSubscription + 1) (reportFirst : Bool) :
    s.happens (.poll (.call c.id) reportFirst) = [.opened (s.nextOpened scope stem channel)] ∧
      (s.pollCall c.id).Opened (s.nextOpened scope stem channel) := by
  obtain ⟨id, call, exchange, holdsBroker⟩ := c
  subst hcall
  have hfind : s.calls.find? (fun other => decide (other.id = id)) = some _ := hfound
  have hpolled := polled_pollCall hgenuine hfind
  have hkept {n : Nat} (h : n = s.nextSubscription) (h' : n = s.nextSubscription + 1) : False := by
    omega
  simp only [happens, hfind, Option.elim_some]
  generalize s.pollCall id = after at hpolled hnew ⊢
  cases hpolled with
  | idle quiet => exact (hkept rfl hnew).elim
  | waits script fewer due quiet => exact (hkept rfl hnew).elim
  | fails script fewer journal error quiet =>
    exact (hkept (nextSubscription_conclude_error { s with script, journal } _ error) hnew).elim
  | acts script fewer started acts =>
    let call : InFlight := ⟨id, .watchAll scope channel held stem rest, exchange, holdsBroker⟩
    rcases Store.serve_watch s.store s.instant (scope.qualify stem) with ⟨error, hserve⟩ | hserve
    · have hsame := nextSubscription_act_of_failed (s := { s with script }) call hserve started
      exact (hkept hsame hnew).elim
    · have hopens : s.opens scope stem channel = [.opened (s.nextOpened scope stem channel)] := by
        simp only [opens, hserve]
        rfl
      have hnumbered : s.store.Numbered := hsound.numbered
      refine ⟨?_, opened_of_served (s := { s with script }) hnumbered id exchange holdsBroker
        hserve started⟩
      rw [if_pos acts, comesOf, hopens]
      simp [Call.request]

/-! ### The subscriptions behind the handles -/

/-- A subscription was opened in a run, when a call for several watches was polled. -/
structure OpenedIn (s : System) (scope : Key) (channel : Nat) (run : List Move)
    (sub : Subscription) : Prop where
  inScope : sub.scope = scope
  stem : sub.stem = scope ++ sub.localStem
  onChannel : sub.channel = channel
  opening : ∃ before poll after, run = before ++ poll :: after ∧
    (s.moves before).happens poll = [.opened sub] ∧ (s.moves (before ++ [poll])).Opened sub

/-- There is a subscription behind every handle, each with a feed of its own. -/
structure Backed (s : System) (scope : Key) (channel : Nat) (run : List Move)
    (handles : List Handle) (subs : List Subscription) : Prop where
  handles : subs.map (fun sub => { id := sub.id, stem := sub.localStem }) = handles
  feeds : (subs.map (·.feed)).Pairwise (· < ·)
  below : ∀ sub ∈ subs, sub.feed < (s.moves run).store.feeds.length
  opened : ∀ sub ∈ subs, s.OpenedIn scope channel run sub

variable {handles : List Handle} {subs : List Subscription} {run : List Move} {m : Move}

/-- A call without handles is backed. -/
theorem backed_none (s : System) (scope : Key) (channel : Nat) (run : List Move) :
    s.Backed scope channel run [] [] :=
  ⟨rfl, .nil, nofun, nofun⟩

/-- A subscription opened in a run was opened in any longer one. -/
theorem OpenedIn.concat (h : s.OpenedIn scope channel run sub) (m : Move) :
    s.OpenedIn scope channel (run ++ [m]) sub := by
  obtain ⟨before, poll, after, rfl, hopening⟩ := h.opening
  exact { h with opening := ⟨before, poll, after ++ [m], by simp, hopening⟩ }

/-- Nobody takes back what a call has got. -/
theorem Backed.concat (h : s.Backed scope channel run handles subs)
    (hgenuine : (s.moves run).wiring.Genuine) (m : Move) :
    s.Backed scope channel (run ++ [m]) handles subs where
  handles := h.handles
  feeds := h.feeds
  below sub hsub := by
    rw [moves_append]
    exact Nat.lt_of_lt_of_le (h.below sub hsub) (onlyNew_moves hgenuine [m]).grows
  opened sub hsub := (h.opened sub hsub).concat m

/-- A poll in which a call gets a watch puts a new subscription behind the new handle. -/
theorem Backed.grow (h : s.Backed scope channel run handles subs)
    (hgenuine : (s.moves run).wiring.Genuine) (hsound : (s.moves run).wiring.Sound)
    (hfound : (s.moves run).desk.call? c.id = some c)
    (hcall : c.call = .watchAll scope channel held stem rest)
    (hnew : ((s.moves run).pollCall c.id).nextSubscription = (s.moves run).nextSubscription + 1)
    (reportFirst : Bool) :
    s.Backed scope channel (run ++ [.poll (.call c.id) reportFirst])
      (handles ++ [{ id := (s.moves run).nextSubscription, stem }])
      (subs ++ [(s.moves run).nextOpened scope stem channel]) := by
  have hafter : s.moves (run ++ [.poll (.call c.id) reportFirst]) = (s.moves run).pollCall c.id :=
    moves_append s run _
  obtain ⟨hhappens, hopened⟩ := opens_of_new hgenuine hsound hfound hcall hnew reportFirst
  have hkept := h.concat hgenuine (.poll (.call c.id) reportFirst)
  refine ⟨?_, ?_, List.forall_mem_append.2 ⟨hkept.below, List.forall_mem_singleton.2 ?_⟩,
    List.forall_mem_append.2 ⟨hkept.opened, List.forall_mem_singleton.2 ⟨rfl, rfl, rfl, ?_⟩⟩⟩
  · rw [List.map_append, h.handles]
    rfl
  · rw [List.map_append, List.pairwise_append]
    refine ⟨h.feeds, List.pairwise_singleton _ _, fun n hn other hother => ?_⟩
    obtain ⟨sub, hsub, rfl⟩ := List.mem_map.1 hn
    rw [List.mem_singleton.1 hother]
    exact h.below sub hsub
  · obtain ⟨d, -, hsub, hworking⟩ := hopened.works
    rw [hafter, ← hsub]
    exact hworking.watched.opened
  · exact ⟨run, _, [], rfl, hhappens, hafter ▸ hopened⟩

/-- A poll of a call for several watches leaves subscriptions behind the handles that it then
has. -/
theorem Backed.poll {turn : Turn} (h : s.Backed scope channel run held subs)
    (hnow : (s.moves run).Kept es) (hgenuine : (s.moves run).wiring.Genuine)
    (hsound : (s.moves run).wiring.Sound) (hfound : (s.moves run).desk.call? c.id = some c)
    (hcall : c.call = .watchAll scope channel held stem rest)
    (hpolled : ((s.moves run).pollCall c.id).desk.standing c.id = some turn)
    (reportFirst : Bool) :
    ∃ subs, s.Backed scope channel (run ++ [.poll (.call c.id) reportFirst]) turn.handles
      subs := by
  have hwatches := watchesOn_pollCall hnow.booked hnow.exact.distinct hfound hcall
  cases hwatches with
  | waits e found same serves =>
    rw [Desk.standing, found] at hpolled
    obtain rfl := Option.some.inj hpolled
    rw [hcall]
    exact ⟨subs, h.concat hgenuine _⟩
  | goesOn next others more found new serves =>
    rw [Desk.standing, found] at hpolled
    obtain rfl := Option.some.inj hpolled
    exact ⟨_, h.grow hgenuine hsound hfound hcall new reportFirst⟩
  | grants last answer new serves =>
    obtain rfl := Option.some.inj (answer.symm.trans hpolled)
    exact ⟨_, h.grow hgenuine hsound hfound hcall new reportFirst⟩
  | refuses e answer same closed alone =>
    obtain rfl := Option.some.inj (answer.symm.trans hpolled)
    exact ⟨[], backed_none s scope channel _⟩

/-- Behind the handles that a call for several watches has got there are subscriptions,
wherever it stands. -/
theorem backed_of_standing (hkept : t.Kept es) (hgenuine : t.wiring.Genuine)
    (hsound : t.wiring.Sound) (holdsBroker : Bool)
    (hstart : s = t.beginWatchAll scope channel stems holdsBroker) {turn : Turn}
    (hturn : (s.moves run).desk.standing t.nextCall = some turn) :
    ∃ subs, s.Backed scope channel run turn.handles subs := by
  have hwiring : s.wiring = t.wiring := hstart ▸ wiring_launch t _ holdsBroker
  have hstill : s.wiring.Genuine := hwiring ▸ hgenuine
  -- from the last move: a subscription opened in a run was opened in any longer one, and a poll of
  -- the call opens at most one more
  induction run using List.reverseRecOn generalizing turn with
  | nil =>
    have hbegun := standing_launch hkept.booked (Call.beginWatchAll scope channel stems) holdsBroker
    have hturn' : (t.beginWatchAll scope channel stems holdsBroker).desk.standing t.nextCall =
      some turn := hstart ▸ hturn
    obtain rfl := Option.some.inj (hbegun.symm.trans hturn')
    refine ⟨[], ?_⟩
    cases stems <;> exact backed_none s scope channel []
  | append_singleton run m ih =>
    have hgenuine' := genuine_moves hstill run
    have hsound' := ((changes_moves hstill run).sound (hwiring ▸ hsound)).1
    have hgathers := gathers_incurs hkept scope channel stems holdsBroker (asIncidents run)
    have hnow := (hkept.beginWatchAll scope channel stems holdsBroker).incurs (asIncidents run)
    have hid := nextCall_beginWatchAll t scope channel stems holdsBroker (asIncidents run)
    rw [← hstart, incurs_asIncidents] at hnow hid
    rw [← hstart] at hgathers
    rw [moves_append] at hturn
    cases hpolls : Incident.polls t.nextCall (.occur (.move m)) with
    | false =>
      rcases standing_incur_of_not_polls hnow.booked hid hpolls with hsame | hnone
      · obtain ⟨subs, hbacked⟩ := ih (hsame ▸ hturn)
        exact ⟨subs, hbacked.concat hgenuine' m⟩
      · cases hnone.symm.trans hturn
    | true =>
      obtain ⟨reportFirst, hpoll⟩ := Incident.eq_poll hpolls
      obtain rfl : m = .poll (.call t.nextCall) reportFirst := by
        cases hpoll
        rfl
      have hpolled : ((s.moves run).pollCall t.nextCall).desk.standing t.nextCall = some turn :=
        hturn
      -- a call that has ended stays as it is when it is polled again
      cases hgathers with
      | granted _ ended | refused _ ended =>
        have hgone := ended.gone
        rw [incurs_asIncidents] at hgone
        rw [pollCall_of_gone hgone] at hpolled
        obtain ⟨subs, hbacked⟩ := ih hpolled
        exact ⟨subs, hbacked.concat hgenuine' _⟩
      | asks c held stem rest found call =>
        rw [incurs_asIncidents] at found
        have hc := Desk.id_of_call? found
        rw [← hc] at found hpolled ⊢
        obtain ⟨subs, hbacked⟩ := ih (hc ▸ standing_ask found)
        rw [call] at hbacked
        exact hbacked.poll hnow hgenuine' hsound' found call hpolled reportFirst

/-! ### What the subscriptions get -/

/-- What a subscription gets from some moment on, if it was opened before and `since` has
happened between. -/
structure Supplies (s : System) (sub : Subscription) (since : List Happening)
    (after : List Move) : Prop where
  /-- Under either policy its feed gets what is committed, while it has not ended. -/
  copies : sub.id ∈ (s.moves after).registered → (s.moves after).Stands sub →
    s.poured sub.feed (asIncidents after) = sub.streams (committed (s.happenings after))
  /-- What it has on its feed is delivered, each event once, under the blocking policy. -/
  delivers : s.settings.slowPolicy = .block → sub.id ∈ (s.moves after).registered →
    ((s.moves after).channel sub.channel).received = true → (s.moves after).Stands sub →
    ∃ d ∈ (s.moves after).dispatchers, d.subscription = sub ∧
      ∃ unread : List Event, ((s.moves after).store.feed sub.feed).queue = unread.map .ok ∧
        sub.got (since ++ s.happenings after) ++ (s.moves after).queued sub ++
            (d.phase.held ++ unread).map sub.itemOf =
          sub.owes (committed (since ++ s.happenings after))

/-- What happens in moves in two parts is what happens in the one, then what happens in the other
after it. -/
theorem happenings_append (s : System) (run more : List Move) :
    s.happenings (run ++ more) = s.happenings run ++ (s.moves run).happenings more := by
  induction run generalizing s with
  | nil => rfl
  | cons m run ih =>
    rw [List.cons_append, happenings, happenings, ih, List.append_assoc]
    rfl

/-- The opening of a subscription divides what happens in a run. -/
theorem happenings_of_opening {before : List Move} {poll : Move}
    (hopens : (s.moves before).happens poll = [.opened sub]) (later : List Move) :
    s.happenings (before ++ poll :: later) =
      s.happenings before ++ .opened sub :: (s.moves (before ++ [poll])).happenings later := by
  rw [happenings_append, happenings, hopens, moves_append]
  rfl

/-- Whatever has happened since, the feed of a subscription that was opened by some dispatcher
gets what is committed while the subscription has not ended. -/
theorem copies_of_working {d : Dispatcher} (hsupplied : s.Supplied es)
    (hgenuine : s.wiring.Genuine) (hd : d ∈ s.dispatchers) (hworking : d.Working s.store)
    (since after : List Move)
    (hregistered : d.subscription.id ∈ (s.moves (since ++ after)).registered)
    (hstands : (s.moves (since ++ after)).Stands d.subscription) :
    (s.moves since).poured d.subscription.feed (asIncidents after) =
      d.subscription.streams (committed ((s.moves since).happenings after)) := by
  have hnow := hsupplied.incurs (asIncidents since)
  rw [incurs_asIncidents] at hnow
  rw [moves_append] at hregistered hstands
  have hgenuine' := genuine_moves hgenuine since
  have hnumber : d.subscription.id < (s.moves since).nextSubscription := by
    rw [← incurs_asIncidents]
    exact Nat.lt_of_lt_of_le (hsupplied.exact.fresh d hd)
      (nextSubscription_incurs hsupplied.toKept (asIncidents since))
  have hbelow : d.subscription.feed < (s.moves since).store.feeds.length :=
    Nat.lt_of_lt_of_le hworking.watched.opened (onlyNew_moves hgenuine since).grows
  have hregistered' := registered_of_later (asIncidents after) hnow.toKept hnumber
    (by rw [incurs_asIncidents]; exact hregistered)
  have hstands' := stands_of_later hgenuine' hbelow hstands
  obtain ⟨⟨d', hd', hsub, hworking'⟩, -⟩ :=
    working_moves hgenuine hsupplied hd hworking since hregistered' hstands'
  rw [← hsub] at hregistered hstands ⊢
  exact (working_moves hgenuine' hnow hd' hworking' after hregistered hstands).2

/-- A subscription that a call for several watches has opened is supplied from then on. -/
theorem supplies_of_openedIn (hsupplied : s.Supplied es) (hgenuine : s.wiring.Genuine)
    (hsound : s.wiring.Sound) (hopened : s.OpenedIn scope channel run sub) :
    ∃ first later, run = first ++ later ∧ (s.moves first).Opened sub ∧
      (∃ before, s.happenings first = before ++ [.opened sub]) ∧
      ∀ after, (s.moves run).Supplies sub ((s.moves first).happenings later) after := by
  obtain ⟨before, poll, later, rfl, hopens, hfresh⟩ := hopened.opening
  have hfirst := happenings_of_opening hopens []
  refine ⟨before ++ [poll], later, by simp, hfresh, ⟨_, hfirst⟩, ?_⟩
  obtain ⟨d, hd, rfl, hworking⟩ := hfresh.works
  have hsplit := happenings_of_opening hopens later
  have hafter : s.moves (before ++ poll :: later) = (s.moves (before ++ [poll])).moves later := by
    rw [← moves_append, List.append_assoc]
    rfl
  refine fun after => ⟨fun hregistered hstands => ?_,
    fun hblock hregistered hreceived hstands => ?_⟩
  · have hthere := hsupplied.incurs (asIncidents (before ++ [poll]))
    rw [incurs_asIncidents] at hthere
    have hgenuine' := genuine_moves hgenuine (before ++ [poll])
    rw [hafter, ← moves_append] at hregistered hstands
    rw [hafter]
    exact copies_of_working hthere hgenuine' hd hworking later after hregistered hstands
  · have hchanges := changes_moves hgenuine (before ++ poll :: later ++ after)
    have hsame : (s.moves (before ++ poll :: later)).wiring.policy = s.wiring.policy :=
      ((changes_moves hgenuine _).sound hsound).2
    have hall : s.happenings (before ++ poll :: later ++ after) =
        s.happenings before ++ .opened d.subscription ::
          ((s.moves (before ++ [poll])).happenings later ++
            (s.moves (before ++ poll :: later)).happenings after) := by
      rw [happenings_append, hsplit, List.append_assoc, List.cons_append]
    obtain ⟨hstem, hfollows⟩ :=
      hchanges.follows_of_opened hsound (hsame.symm.trans hblock) hall
    have hsound' := (hchanges.sound hsound).1
    rw [moves_append] at hsound' hfollows
    rw [← Subscription.owed_eq hstem]
    exact whole_of_follows hsound' hfollows hregistered hreceived hstands

end KeyBroker.System
