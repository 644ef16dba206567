import KeyBroker.Proofs.Independence.Shows

/-!
# What actions make of the core

An action is answered as the core says, and leaves a subscriber who shows the core after the
action.
-/

namespace KeyBroker

namespace System

variable {s : System}

/-- The end of a call that has no hold on the broker leaves the wiring alone. -/
theorem wiring_finish_of_not_holds {c : InFlight} (h : c.holdsBroker = false) (answer : Answer) :
    (s.finish c answer).wiring = s.wiring := by
  have hnotes := wiring_noteAll s answer.notices
  simp only [finish, h, Bool.false_eq_true, if_false]
  exact hnotes

/-- Receiving takes an item off the channel, if there is one. -/
theorem wiring_receive (s : System) (n : Nat) :
    (s.channel n).receive = none ∧ (s.receive n).1.wiring = s.wiring ∨
      ∃ item rest next, (s.channel n).receive = some (item, rest, next) ∧
        (s.receive n).1.wiring = s.wiring.onChannel n fun _ => rest := by
  unfold receive
  cases (s.channel n).receive with
  | none => exact .inl ⟨rfl, rfl⟩
  | some received =>
    obtain ⟨item, rest, next⟩ := received
    exact .inr ⟨item, rest, next, rfl, wiring_wakeAll _ _⟩

/-- A watch that is made at once is registered, and the caller has its handle. -/
theorem Prompt.carried_watch (h : s.Prompt) (hreachable : s.store.refusal = none)
    (scope stem : Key) (channel : Nat) :
    s.Carried (.watch scope stem channel) (.watching (.ok { id := s.nextSubscription, stem })) ∧
      (s.acting (.watch scope stem channel)).wiring =
        Wiring.register { s.wiring with store := (s.store.openWatch (scope.qualify stem)).1 }
          scope stem channel s.store.feeds.length := by
  let c : InFlight := { id := s.nextCall, call := .watch scope stem channel }
  let begun : System := (s.launch (.ask c.call) false).1
  have hbegun : Launched s begun c := h.launched c.call
  have hstore : begun.store = s.store := congrArg Wiring.store hbegun.wiring
  have hnumber : begun.nextSubscription = s.nextSubscription :=
    congrArg Wiring.nextSubscription hbegun.wiring
  obtain ⟨t, hwiring, hdesk, turn, hact, hturn⟩ :=
    act_watch (s := begun) (c := c) rfl (hstore ▸ hreachable) begun.now
  obtain rfl := hturn rfl
  replace hact : s.acting c.call =
      (t.register scope stem channel begun.store.feeds.length).1.finish c
        (.watching (.ok { id := begun.nextSubscription, stem })) := hact
  rw [hstore, hnumber] at hact
  rw [hstore] at hwiring hdesk
  constructor
  · have hleft : (s.acting c.call).desk =
        (begun.desk.beside (s.store.openWatch (scope.qualify stem)).1).proceed c
          (.done (.watching (.ok { id := s.nextSubscription, stem }))) := by
      rw [hact]
      refine (desk_proceed _ c (.done _)).trans ?_
      rw [desk_register, hdesk]
    exact h.carried hleft
  · rw [hact, wiring_finish_of_not_holds rfl, wiring_register, hwiring, hbegun.wiring]

end System

namespace Subscriber

variable {a : Subscriber} {c : Core}

/-- The core tells the frame that the system goes by. -/
theorem Shows.frame_eq (h : a.Shows c) :
    a.system.frame = { settings := c.settings, now := c.now, script := [] } := by
  rw [System.frame, h.settings, h.now, h.tidy.prompt.script]

/-! ### Requests -/

/-- The core tells the instant at which the store acts. -/
theorem Shows.instant_eq (h : a.Shows c) : a.system.instant = c.alone.instant :=
  congrArg (· * Duration.millisecond) h.now

/-- A request is answered as by a broker that has the same keys. -/
theorem Shows.serve_alone (h : a.Shows c) {service : Service} (request : Request service)
    (hplain : service ≠ .watch ∧ service ≠ .close) :
    let served := c.alone.store.serve c.alone.instant request
    (a.system.store.serve a.system.instant request).outcome = served.outcome ∧
      (a.system.store.serve a.system.instant request).store.ledger = served.store.ledger ∧
      a.system.store.events a.system.instant request =
        c.alone.store.events c.alone.instant request := by
  have halone := Store.serve_alone h.tidy.reachable a.system.instant request hplain
  rw [h.ledger, h.instant_eq] at halone
  rw [h.instant_eq]
  exact halone

/-- Moves that make the store carry out a request, and nothing else. -/
theorem Shows.serve (h : a.Shows c) {service : Service} {request : Request service}
    (hplain : service ≠ .watch ∧ service ≠ .close) {run : List Move}
    (hframe : (a.system.moves run).frame = a.system.frame)
    (hwiring : (a.system.moves run).wiring =
      { a.system.wiring with store := (a.system.store.serve a.system.instant request).store })
    (hcalls : (a.system.moves run).calls = a.system.calls)
    (hhappenings : a.system.happenings run =
      (a.system.store.events a.system.instant request).map .committed) :
    Shows { a with system := a.system.moves run } (c.served request) := by
  obtain ⟨_, hledger, hevents⟩ := h.serve_alone request hplain
  have hstore := congrArg Wiring.store hwiring
  have hreachable := Store.refusal_serve a.system.store a.system.instant request hplain.2
  have hleads : Leads a run { a with system := a.system.moves run } (c.served request) :=
    { system := rfl
      frame := hframe.trans h.frame_eq
      running := (congrArg Wiring.stopped hwiring).trans h.tidy.prompt.running
      reachable := (congrArg Store.refusal hstore).trans (hreachable.trans h.tidy.reachable)
      ledger := (congrArg Store.ledger hstore).trans hledger
      calls := hcalls
      opened := fun sub hsub => by
        rw [hhappenings] at hsub
        obtain ⟨_, _, heq⟩ := List.mem_map.1 hsub
        cases heq
      place := fun _ _ hplace => hplace
      has := h.has.map rfl fun _ holds => by
        have hfed := holds.serve a.system.instant request hplain.2
        rw [← hevents]
        exact hwiring ▸ hfed }
  exact h.tidy.leads hleads

/-- A call with one request. -/
theorem Shows.call (h : a.Shows c) {turn : Turn} (hbrief : turn.Brief) :
    (a.after (.call turn hbrief)).Shows (c.after (.call turn hbrief)) ∧
      ∃ answer, a.system.made? turn = some answer ∧ c.alone.made? turn = some answer := by
  cases turn with
  | done answer =>
    have hmakes := h.tidy.prompt.makes_done answer
    refine ⟨?_, answer, hmakes.answer, (c.prompt_alone.makes_done answer).answer⟩
    exact h.tidy.leads
      { system := rfl
        frame := hmakes.frame.trans h.frame_eq
        running := (congrArg Wiring.stopped hmakes.wiring).trans h.tidy.prompt.running
        reachable := (congrArg Store.refusal hmakes.store).trans h.tidy.reachable
        ledger := (congrArg Store.ledger hmakes.store).trans h.ledger
        calls := hmakes.calls
        opened := fun sub hsub => nomatch hmakes.happenings ▸ hsub
        place := fun _ _ hplace => hplace
        has := h.has.of_wiring rfl hmakes.wiring }
  | ask call =>
    have hplain := Call.service_of_brief hbrief
    obtain ⟨answer, hresumes, hmakes⟩ := h.tidy.prompt.makes_ask hbrief
    obtain ⟨answer', hresumes', hmakes'⟩ := c.prompt_alone.makes_ask hbrief
    rw [(h.serve_alone call.request hplain).1] at hresumes
    obtain rfl : answer = answer' := Turn.done.inj (hresumes.unique hbrief hresumes')
    exact ⟨h.serve hplain hmakes.frame hmakes.wiring hmakes.calls hmakes.happenings,
      answer, hmakes.answer, hmakes'.answer⟩

/-- A request past the broker. -/
theorem Shows.ask (h : a.Shows c) {service : Service} (request : Request service)
    (hplain : service ≠ .watch ∧ service ≠ .close) :
    (a.after (.ask request hplain)).Shows (c.after (.ask request hplain)) := by
  let served := a.system.store.serve a.system.instant request
  have hafter : a.system.moves [.ask request] =
      { a.system with store := served.store }.wakeReaders served.reached := rfl
  have hhappenings : a.system.happenings [.ask request] =
      (a.system.store.events a.system.instant request).map .committed := List.append_nil _
  refine h.serve hplain ?_ ?_ ?_ hhappenings
  · rw [hafter]
    exact System.frame_wakeAll _ _
  · rw [hafter]
    exact System.wiring_wakeReaders _ _
  · rw [hafter]
    exact congrArg Desk.calls (System.desk_wakeReaders _ _)

/-! ### What is done with the subscription -/

/-- A move that does to the subscription what `f` does to its outlet, and nothing else. -/
structure Handles (s : System) (id n : Nat) (m : Move) (f : Outlet → Outlet) : Prop where
  frame : (s.move m).frame = s.frame
  desk : (s.move m).desk = s.desk
  stopped : (s.move m).stopped = s.stopped
  opened : ∀ sub, .opened sub ∉ s.happens m
  holds : ∀ {o}, s.wiring.Holds id n o → (s.move m).wiring.Holds id n (f o)

/-- A move that does something to the subscription alone does the same to the core. -/
theorem Shows.onPlace (h : a.Shows c) {m : Nat → Nat → Move} {f : Outlet → Outlet}
    (hm : ∀ id n, Handles a.system id n (m id n) f) :
    (a.onPlace m).Shows (c.onOutlet f) := by
  unfold Subscriber.onPlace
  have hhas := h.has
  cases hplace : a.place? with
  | none =>
    obtain ⟨settings, now, ledger, outlet?⟩ := c
    cases hhas with
    | nothing => exact h
    | outlet place => exact absurd (hplace.symm.trans place) nofun
  | some place =>
    obtain ⟨id, n⟩ := place
    have hhandles := hm id n
    have hstore : (a.system.move (m id n)).store = a.system.store :=
      congrArg Desk.store hhandles.desk
    have hleads : Leads a [m id n] (a.beside (m id n)) (c.onOutlet f) :=
      { system := rfl
        frame := hhandles.frame.trans h.frame_eq
        running := hhandles.stopped.trans h.tidy.prompt.running
        reachable := (congrArg Store.refusal hstore).trans h.tidy.reachable
        ledger := (congrArg Store.ledger hstore).trans h.ledger
        calls := congrArg Desk.calls hhandles.desk
        opened := fun sub hsub => absurd ((List.append_nil _).subst hsub) (hhandles.opened sub)
        place := fun _ _ hold => hold
        has := hhas.map rfl fun place' holds => by
          obtain ⟨rfl, rfl⟩ := Prod.mk.inj (Option.some.inj (hplace.symm.trans place'))
          exact hhandles.holds holds }
    exact h.tidy.leads hleads

/-- Receiving takes the oldest item off the channel of the outlet, and does nothing else. -/
theorem handles_receive (s : System) (id n : Nat) :
    Handles s id n (.receive n) (·.onChannel (·.taken)) where
  frame := System.frame_receive s n
  desk := System.desk_receive s n
  stopped := by
    rcases s.wiring_receive n with ⟨_, hsame⟩ | ⟨_, _, _, _, hwiring⟩
    · exact congrArg Wiring.stopped hsame
    · exact congrArg Wiring.stopped hwiring
  opened := s.not_opened_receives n
  holds := fun {o} holds => by
    have hchannel : o.channel = (s.channel n).anonymous := holds.channel
    rcases s.wiring_receive n with ⟨hnone, hsame⟩ | ⟨item, rest, next, hsome, hwiring⟩
    · have htaken : o.onChannel (·.taken) = o := by
        simp only [Outlet.onChannel, Channel.taken, hchannel, Channel.receive_anonymous, hnone,
          Option.map_none]
        rw [← hchannel]
      rw [System.move, hsame, htaken]
      exact holds
    · have htaken : (s.wiring.channel n).taken = rest := by
        have hsame : s.wiring.channel n = s.channel n := rfl
        rw [hsame, Channel.taken, hsome]
      rw [System.move, hwiring]
      refine holds.onChannel ?_ ?_
      · exact htaken ▸ Channel.linedBy_taken holds.line
      · rw [← Channel.anonymous_taken, htaken]

/-- Letting go of the sender concerns the channel of the outlet alone. -/
theorem handles_dropSender (s : System) (id n : Nat) :
    Handles s id n (.dropSender n) (·.onChannel fun channel => { channel with held := false }) :=
  ⟨rfl, rfl, rfl, nofun, fun holds => holds.onChannel holds.line rfl⟩

/-- Dropping the receiver closes the channel of the outlet, and does nothing else. -/
theorem handles_dropReceiver (s : System) (id n : Nat) :
    Handles s id n (.dropReceiver n) (·.onChannel (·.close)) where
  frame := System.frame_wakeAll _ _
  desk := System.desk_wakeAll _ _
  stopped := congrArg Wiring.stopped (System.wiring_wakeAll (s.onChannel n (·.close)) _)
  opened := nofun
  holds holds := by
    have hwiring : (s.move (.dropReceiver n)).wiring = s.wiring.onChannel n (·.close) :=
      System.wiring_wakeAll _ _
    rw [hwiring]
    exact holds.onChannel nofun rfl

/-- Unsubscribing asks the dispatcher of the outlet to stop, and does nothing else. -/
theorem handles_unsubscribe (s : System) (hsound : s.wiring.Sound) (id n : Nat) :
    Handles s id n (.unsubscribe id) (·.unsubscribed) where
  frame := System.frame_unsubscribe s id
  desk := System.desk_unsubscribe s id
  stopped := by
    have hwiring := congrArg Wiring.stopped (System.wiring_unsubscribe s id)
    refine hwiring.trans ?_
    unfold Wiring.unsubscribe
    split <;> rfl
  opened := nofun
  holds holds := by
    have hwiring : (s.move (.unsubscribe id)).wiring = s.wiring.unsubscribe id :=
      System.wiring_unsubscribe s id
    rw [hwiring]
    exact holds.unsubscribe hsound

/-! ### Subscribing -/

/-- Subscribing gives the subscriber what it gives the core, and the same response. -/
theorem Shows.subscribe (h : a.Shows c) (scope stem : Key) (capacity : Nat) (held : Bool) :
    (a.after (.subscribe scope stem capacity held)).Shows
        (c.after (.subscribe scope stem capacity held)) ∧
      a.response (.subscribe scope stem capacity held) =
        c.response (.subscribe scope stem capacity held) := by
  simp only [Subscriber.after, Core.after, Subscriber.response, Core.response]
  -- a channel too large to be counted is refused alike, and nothing happens
  cases hallowed : Channel.capacityAllowed capacity with
  | false =>
    have hnone : a.system.openChannel capacity held = none := by
      rw [System.openChannel, hallowed]
      rfl
    simp only [Subscriber.subscribe, handle?, hnone]
    exact ⟨h, rfl⟩
  | true =>
    let n := a.system.channels.length
    let opened : System :=
      { a.system with channels := a.system.channels ++ [{ capacity, held }] }
    let turn : Turn := .ask (.watch scope stem n)
    have hopen : a.system.openChannel capacity held = some (opened, n) := by
      rw [System.openChannel, hallowed]
      rfl
    have hmove : a.system.move (.openChannel capacity held) = opened := by
      rw [System.move, hopen]
      rfl
    -- on the broker with the new channel the watch is made at once
    have hprompt : opened.Prompt := { h.tidy.prompt with }
    obtain ⟨hcarried, hwiring⟩ :=
      hprompt.carried_watch h.tidy.reachable scope stem n
    replace hwiring := hcarried.wiring.trans hwiring
    have hhandle : a.handle? scope stem capacity held =
        some { id := a.system.nextSubscription, stem } := by
      simp only [handle?, hopen, Option.bind_some]
      rw [hcarried.answer]
      rfl
    simp only [Subscriber.subscribe, hopen, hhandle, Option.map_some, if_true, and_true]
    have hrun : a.system.moves (.openChannel capacity held :: opened.making turn) =
        opened.moves (opened.making turn) := congrArg (System.moves · (opened.making turn)) hmove
    have hhappenings : a.system.happenings (.openChannel capacity held :: opened.making turn) =
        opened.happenings (opened.making turn) :=
      congrArg (System.happenings · (opened.making turn)) hmove
    -- the new subscription has the new channel to itself, as all others have older ones
    have hholds : (opened.moves (opened.making turn)).wiring.Holds a.system.nextSubscription n
        (.new scope stem capacity held) := by
      have hsound : opened.wiring.Sound :=
        hmove ▸ ((System.changes_move h.tidy.genuine (.openChannel capacity held)).sound
          h.tidy.sound).1
      have hserve : opened.wiring.store.serve opened.instant (.watch (scope.qualify stem)) = _ :=
        Store.serve_watch_of_reachable h.tidy.reachable opened.instant (scope.qualify stem)
      have hopened : n < opened.wiring.channels.length :=
        List.length_append ▸ Nat.lt_succ_self n
      have hchannel : opened.wiring.channel n = { capacity, held } := by
        simp only [Wiring.channel, List.getD_eq_getElem?_getD]
        exact congrArg (Option.getD · _) List.getElem?_concat_length
      have hregistered := hsound.holds_register (congrArg Store.Served.outcome hserve) hopened
        hchannel fun d hd => Nat.ne_of_lt (h.tidy.channels d hd)
      rw [hserve] at hregistered
      exact hwiring ▸ hregistered
    have hleads : Leads a (.openChannel capacity held :: opened.making turn)
        { system := opened.moves (opened.making turn)
          place? := some (a.system.nextSubscription, n) }
        { c with outlet? := some (.new scope stem capacity held) } :=
      { system := hrun.symm
        frame := hcarried.frame.trans h.frame_eq
        running := (congrArg Wiring.stopped hwiring).trans h.tidy.prompt.running
        reachable := (congrArg (Store.refusal ·.store) hwiring).trans h.tidy.reachable
        ledger := (congrArg (Store.ledger ·.store) hwiring).trans h.ledger
        calls := hcarried.calls
        opened := fun sub hsub => by
          rw [hhappenings, hcarried.happenings] at hsub
          rw [System.channel_of_opened rfl hsub]
          exact hholds.opened
        place := fun m hm hplace => by
          obtain rfl : n = m := Option.some.inj hplace
          exact absurd hm (Nat.lt_irrefl _)
        has := .outlet rfl hholds }
    exact h.tidy.leads hleads

/-! ### All actions -/

/-- What the subscriber finds on its channel is what the outlet says. -/
theorem Tidy.receipt_eq (h : a.Tidy) {id n : Nat} {o : Outlet} (hplace : a.place? = some (id, n))
    (holds : a.system.wiring.Holds id n o) : (a.system.receive n).2 = o.receipt := by
  have hchannel : o.channel = (a.system.channel n).anonymous := holds.channel
  have hreceive := Channel.receive_anonymous (a.system.channel n)
  rw [← hchannel] at hreceive
  simp only [System.receive, Outlet.receipt, hreceive]
  cases (a.system.channel n).receive with
  | some received => rfl
  | none =>
    have hheld : o.channel.held = (a.system.channel n).held := hchannel ▸ rfl
    have hworks : a.system.dispatchers.any (fun d => decide (d.subscription.channel = n)) =
        o.running?.isSome := by
      by_cases hworks : ∃ d ∈ a.system.dispatchers, d.subscription.id = id
      · obtain ⟨d, hd, hid⟩ := hworks
        rw [(holds.working d hd hid).2]
        exact List.any_eq_true.2 ⟨d, hd, decide_eq_true ((holds.own d hd).2 hid)⟩
      · rw [holds.ended fun d hd hid => hworks ⟨d, hd, hid⟩]
        refine List.any_eq_false.2 fun d hd hsame => hworks ⟨d, hd, ?_⟩
        exact (holds.own d hd).1 (of_decide_eq_true hsame)
    have hcalls : a.system.calls.any (fun c => decide (c.call.channel? = some n)) = false := by
      refine List.any_eq_false.2 fun c hc hsame => ?_
      obtain ⟨m, hm, _, hfree⟩ := spares_iff.1 (h.calls c hc).2
      rw [← hm, of_decide_eq_true hsame, hplace] at hfree
      exact hfree rfl
    simp only [Option.map_none, System.isFed, hheld, hworks, hcalls, Bool.or_false]

/-- After an action the subscriber shows what the core has become. -/
theorem Shows.after (h : a.Shows c) (action : Action) :
    (a.after action).Shows (c.after action) := by
  cases action with
  | call turn brief => exact (h.call brief).1
  | ask request plain => exact h.ask request plain
  | pass moment =>
    have hleads : Leads a [.pass moment] (a.beside (.pass moment)) (c.after (.pass moment)) :=
      { system := rfl
        frame := by rw [Core.after, ← h.now, ← h.settings, ← h.tidy.prompt.script]; rfl
        running := h.tidy.prompt.running
        reachable := h.tidy.reachable
        ledger := h.ledger
        calls := rfl
        opened := nofun
        place := fun _ _ hplace => hplace
        has := h.has.of_wiring rfl rfl }
    exact h.tidy.leads hleads
  | compact revision =>
    have hleads : Leads a [.compact revision] (a.beside (.compact revision))
        (c.after (.compact revision)) :=
      { system := rfl
        frame := h.frame_eq
        running := h.tidy.prompt.running
        reachable := h.tidy.reachable
        ledger := congrArg (Ledger.compact · revision) h.ledger
        calls := rfl
        opened := nofun
        place := fun _ _ hplace => hplace
        has := by
          have hcompact := h.has.map (b := a.beside (.compact revision)) (f := id) rfl
            fun _ holds => holds.compact revision
          rwa [Option.map_id] at hcompact }
    exact h.tidy.leads hleads
  | subscribe scope stem capacity held => exact (h.subscribe scope stem capacity held).1
  | receive => exact h.onPlace (handles_receive a.system)
  | dropSender => exact h.onPlace (handles_dropSender a.system)
  | dropReceiver => exact h.onPlace (handles_dropReceiver a.system)
  | unsubscribe => exact h.onPlace (handles_unsubscribe a.system h.tidy.sound)

/-- The subscriber is answered as the core says. -/
theorem Shows.response_eq (h : a.Shows c) (action : Action) :
    a.response action = c.response action := by
  cases action with
  | call turn brief =>
    obtain ⟨_, answer, hmade, hmade'⟩ := h.call brief
    simp only [Subscriber.response, Core.response, hmade, hmade']
  | ask request plain =>
    have hsame := (h.serve_alone request plain).1
    exact congrArg Response.served hsame
  | subscribe scope stem capacity held => exact (h.subscribe scope stem capacity held).2
  | receive =>
    obtain ⟨settings, now, ledger, outlet?⟩ := c
    have hhas := h.has
    simp only [Subscriber.response, Core.response]
    cases hhas with
    | nothing unplaced => rw [unplaced]; rfl
    | outlet place holds =>
      rw [place]
      exact congrArg (fun receipt => Response.received (some receipt))
        (h.tidy.receipt_eq place holds)
  | _ => rfl

/-- Whether the subscription is registered can be seen from its outlet. -/
theorem Shows.isActive_eq (h : a.Shows c) : a.isActive = c.outlet?.any (·.active) := by
  obtain ⟨settings, now, ledger, outlet?⟩ := c
  unfold Subscriber.isActive
  cases h.has with
  | nothing unplaced => rw [unplaced]; rfl
  | outlet place holds =>
    rw [place]
    exact holds.active.symm

/-- All that can be seen of an action is what the core says. -/
theorem Shows.observed_eq (h : a.Shows c) (action : Action) :
    a.observed action = c.observed action := by
  have hafter := h.after action
  rw [Subscriber.observed, Core.observed, h.response_eq action, hafter.ledger, hafter.isActive_eq]

/-- Every call of the subscriber is answered. -/
theorem Shows.answers (h : a.Shows c) (action : Action) : a.response action ≠ .answered none := by
  cases action with
  | call turn brief =>
    obtain ⟨_, answer, hmade, _⟩ := h.call brief
    simp [Subscriber.response, hmade]
  | _ => exact nofun

end Subscriber

end KeyBroker
