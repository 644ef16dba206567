import KeyBroker.Proofs.Independence.Subscriber

/-!
# What others do

Moves of others leave the settings, the time, the keys and the calls of the subscriber as they
are. Whatever they do to watches, feeds and channels of their own, the outlet of the
subscriber stays as it is, but for steps of its dispatcher.
-/

namespace KeyBroker

/-- A store that can be reached opens every watch. -/
theorem Store.serve_watch_of_reachable {s : Store} (h : s.refusal = none) (now : Nat) (stem : Key) :
    s.serve now (.watch stem) =
      { store := (s.openWatch stem).1, reached := [], outcome := .ok s.feeds.length } :=
  serve_of_answers now (answers_of_refusal_none h (.watch stem) rfl) fun h => by cases h

/-- What a call registers when it is answered with the feed of a watch: a subscription to a
stem under a scope on a channel. -/
def Call.registers? : Call → Option (Key × Key × Nat)
  | .watch scope stem channel | .watchAll scope channel _ stem _ => some (scope, stem, channel)
  | _ => none

/-- A call that keeps a channel open registers a subscription on it when it is answered. -/
theorem Call.registers?_of_channel? {call : Call} {n : Nat} (h : call.channel? = some n) :
    ∃ scope stem, call.registers? = some (scope, stem, n) := by
  cases call with
  | watch | watchAll =>
    obtain rfl := Option.some.inj h
    exact ⟨_, _, rfl⟩
  | _ => cases h

/-- Channels that were made stay. -/
theorem Wiring.Change.channels_le {w w' : Wiring} {hs : List Happening}
    (h : Wiring.Change w hs w') : w.channels.length ≤ w'.channels.length := by
  cases h with
  | openChannel capacity held => exact List.length_append ▸ Nat.le_add_right _ _
  | dropSender n | dropReceiver n | receive n => exact Nat.le_of_eq (List.length_modify ..).symm
  | unsubscribe id =>
    unfold Wiring.unsubscribe
    split <;> exact Nat.le_refl _
  | dispatch d reportFirst works =>
    rw [channels_dispatch]
    exact Nat.le_of_eq (List.length_modify ..).symm
  | _ => exact Nat.le_refl _

/-- Changes of the wiring take no channel away. -/
theorem Wiring.Changes.channels_le {w w' : Wiring} {hs : List Happening}
    (h : Wiring.Changes w hs w') : w.channels.length ≤ w'.channels.length := by
  induction h with
  | nil => exact Nat.le_refl _
  | cons first _ ih => exact Nat.le_trans first.channels_le ih

namespace System

variable {s : System} {c : InFlight}

/-! ### A broker that goes on running -/

/-- Letting go of a broker that runs on leaves the wiring alone. -/
theorem wiring_release_of_running (h : s.release.stopped = false) :
    s.release.wiring = s.wiring := by
  simp only [release] at h ⊢
  split at h
  · have hstopped := congrArg Wiring.stopped
      (wiring_stop ({ s with holders := s.holders - 1 }.note .brokerDropped))
    exact absurd (h.symm.trans hstopped) Bool.false_ne_true
  · next hgoes =>
    rw [if_neg hgoes]
    rfl

/-- The end of a call leaves the wiring alone if the broker runs on. -/
theorem wiring_finish_of_running {answer : Answer} (h : (s.finish c answer).stopped = false) :
    (s.finish c answer).wiring = s.wiring := by
  have hnotes := wiring_noteAll s answer.notices
  simp only [finish] at h ⊢
  split
  · next hholds =>
    rw [if_pos hholds] at h
    exact (wiring_release_of_running h).trans hnotes
  · exact hnotes

/-- A further turn of a call leaves the wiring alone if the broker runs on. -/
theorem wiring_proceed_of_running {turn : Turn} (h : (s.proceed c turn).stopped = false) :
    (s.proceed c turn).wiring = s.wiring := by
  cases turn with
  | ask call => rfl
  | done answer => exact wiring_finish_of_running h

/-- A call goes on with a reply that the store gives without sending anything. -/
theorem act_of_served (c : InFlight) {store : Store} {reply : c.call.service.Reply}
    (h : s.store.serve s.instant c.call.request = { store, reached := [], outcome := .ok reply })
    (started : Nat) :
    s.act c started =
      (answeredWell { s with store } c.call.service started).conclude c (.ok reply) := by
  have hact : s.act c started =
      ({ s with store := (s.store.serve s.instant c.call.request).store }.wakeReaders
        (s.store.serve s.instant c.call.request).reached).settle c started
          (s.store.serve s.instant c.call.request).outcome := rfl
  rw [hact, h]
  rfl

/-- A call whose watch was carried out registers a subscription and goes on. -/
theorem act_watch {scope stem : Key} {channel : Nat}
    (hcall : c.call.registers? = some (scope, stem, channel)) (hreachable : s.store.refusal = none)
    (started : Nat) :
    ∃ t : System,
      t.wiring = { s.wiring with store := (s.store.openWatch (scope.qualify stem)).1 } ∧
      t.desk = s.desk.beside (s.store.openWatch (scope.qualify stem)).1 ∧
      ∃ turn, s.act c started =
          (t.register scope stem channel s.store.feeds.length).1.proceed c turn ∧
        (c.call = .watch scope stem channel →
          turn = .done (.watching (.ok { id := s.nextSubscription, stem }))) := by
  let opened : System := { s with store := (s.store.openWatch (scope.qualify stem)).1 }
  have hserve := Store.serve_watch_of_reachable hreachable s.instant (scope.qualify stem)
  refine ⟨opened.answeredWell .watch started, rfl, rfl, ?_⟩
  obtain ⟨id, call, exchange, holdsBroker⟩ := c
  cases call with
  | watch scope' stem' channel' =>
    obtain ⟨rfl, rfl, rfl⟩ : scope' = scope ∧ stem' = stem ∧ channel' = channel := by
      simpa [Call.registers?] using hcall
    refine ⟨.done (.watching (.ok { id := s.nextSubscription, stem := stem' })), ?_, fun _ => rfl⟩
    rw [act_of_served ⟨id, .watch scope' stem' channel', exchange, holdsBroker⟩ hserve started]
    rfl
  | watchAll scope' channel' held stem' rest =>
    obtain ⟨rfl, rfl, rfl⟩ : scope' = scope ∧ stem' = stem ∧ channel' = channel := by
      simpa [Call.registers?] using hcall
    obtain ⟨turn, hanswered⟩ := answered_watchAll (opened.answeredWell .watch started) scope' stem'
      channel' s.store.feeds.length held rest
    refine ⟨turn, ?_, nofun⟩
    rw [act_of_served ⟨id, .watchAll scope' channel' held stem' rest, exchange, holdsBroker⟩ hserve
      started]
    exact congrArg (fun (answered : System × Turn) => answered.1.proceed
      ⟨id, .watchAll scope' channel' held stem' rest, exchange, holdsBroker⟩ answered.2) hanswered
  | _ => cases hcall

/-- A watch that is carried out registers a subscription. -/
theorem wiring_act_watch {scope stem : Key} {channel : Nat}
    (hcall : c.call.registers? = some (scope, stem, channel)) (hreachable : s.store.refusal = none)
    {started : Nat} (hrunning : (s.act c started).stopped = false) :
    (s.act c started).wiring =
      Wiring.register { s.wiring with store := (s.store.openWatch (scope.qualify stem)).1 }
        scope stem channel s.store.feeds.length := by
  obtain ⟨t, hwiring, _, turn, hact, _⟩ := act_watch hcall hreachable started
  rw [hact] at hrunning ⊢
  rw [wiring_proceed_of_running hrunning, wiring_register, hwiring]

/-- Receiving opens no subscription. -/
theorem not_opened_receives (s : System) (n : Nat) (sub : Subscription) :
    .opened sub ∉ s.receives n := by
  unfold receives
  split
  · exact List.not_mem_nil
  · intro hmem
    cases List.mem_singleton.1 hmem

/-- A subscription is opened on the channel of the call. -/
theorem channel_of_opened {call : Call} {scope stem : Key} {channel : Nat} {sub : Subscription}
    (hregisters : call.registers? = some (scope, stem, channel))
    (hopened : .opened sub ∈ s.comesOf call) : sub.channel = channel := by
  have hopens : .opened sub ∈ s.opens scope stem channel := by
    cases call with
    | watch scope' stem' channel' =>
      obtain ⟨rfl, rfl, rfl⟩ := by simpa [Call.registers?] using hregisters
      rwa [(comesOf_watch s scope' stem' channel' [] []).1] at hopened
    | watchAll scope' channel' held stem' rest =>
      obtain ⟨rfl, rfl, rfl⟩ := by simpa [Call.registers?] using hregisters
      rwa [(comesOf_watch s scope' stem' channel' held rest).2] at hopened
    | _ => cases hregisters
  unfold opens at hopens
  split at hopens
  · obtain rfl := Happening.opened.inj (List.mem_singleton.1 hopens)
    rfl
  · cases hopens

end System

namespace Subscriber

/-! ### Brokers in good order -/

/-- The broker answers at once, and others have their calls and subscriptions on channels of
their own. -/
structure Tidy (a : Subscriber) : Prop where
  prompt : a.system.Prompt
  reachable : a.system.store.refusal = none
  sound : a.system.wiring.Sound
  calls : ∀ c ∈ a.system.calls, c.exchange = none ∧ a.spares c.call = true
  channels : ∀ d ∈ a.system.dispatchers, d.subscription.channel < a.system.channels.length

/-- What nobody but the store, the subscriber and the clock changes. -/
structure Leaves (a : Subscriber) (m : Move) : Prop where
  frame : (a.system.move m).frame = a.system.frame
  store : ∃ feeds watchers, (a.system.move m).store = { a.system.store with feeds, watchers }
  calls : ∀ c ∈ (a.system.move m).calls,
    c ∈ a.system.calls ∨ c.exchange = none ∧ a.spares c.call = true
  opened : ∀ sub, .opened sub ∈ a.system.happens m → sub.channel < a.system.channels.length

variable {a : Subscriber} {m : Move}

/-- A call spares the subscriber if it is a watch on a channel that was made and is not the
subscriber's. -/
theorem spares_iff {call : Call} : a.spares call = true ↔
    ∃ n, call.channel? = some n ∧ n < a.system.channels.length ∧ a.place?.map (·.2) ≠ some n := by
  simp only [spares, Option.any_eq_true, Bool.and_eq_true, decide_eq_true_eq]

/-- The next turn of a watch is a watch on the same channel. -/
theorem channel?_of_answered (u : System) {call next : Call} {n : Nat}
    (reply : Except Error call.service.Reply) (hchannel : call.channel? = some n)
    (hnext : (System.answered u call reply).2 = .ask next) : next.channel? = some n := by
  cases call with
  | watch => cases reply <;> cases hnext
  | watchAll scope channel held stem rest =>
    cases reply with
    | error e => cases hnext
    | ok feed =>
      cases rest with
      | nil => cases hnext
      | cons stem rest =>
        obtain rfl := Turn.ask.inj hnext
        exact hchannel
  | _ => cases hchannel

/-- A call that spares the subscriber still does so in its next request. -/
theorem spares_of_resumes {call next : Call} {outcome : Outcome call.service.Reply}
    (hspares : a.spares call = true) (h : call.Resumes outcome (.ask next)) :
    a.spares next = true := by
  obtain ⟨n, hchannel, hlt, hfree⟩ := spares_iff.1 hspares
  refine spares_iff.2 ⟨n, ?_, hlt, hfree⟩
  generalize hturn : Turn.ask next = turn at h
  cases h with
  | ok u reply => exact channel?_of_answered u (.ok reply) hchannel hturn.symm
  | failed u error => exact channel?_of_answered u (.error _) hchannel hturn.symm
  | aborted why => cases hturn

/-- A request for a watch is all that a call of others makes. -/
theorem serve_of_spares {call : Call} (hspares : a.spares call = true)
    (hreachable : a.system.store.refusal = none) :
    ∃ scope stem channel, call.registers? = some (scope, stem, channel) ∧
      channel < a.system.channels.length ∧ a.place?.map (·.2) ≠ some channel ∧
      (a.system.store.serve a.system.instant call.request).store =
        (a.system.store.openWatch (scope.qualify stem)).1 := by
  obtain ⟨n, hchannel, hlt, hfree⟩ := spares_iff.1 hspares
  obtain ⟨scope, stem, hregisters⟩ := Call.registers?_of_channel? hchannel
  refine ⟨scope, stem, n, hregisters, hlt, hfree, ?_⟩
  have hserve := Store.serve_watch_of_reachable hreachable a.system.instant (scope.qualify stem)
  cases call with
  | watch | watchAll =>
    obtain ⟨rfl, rfl, rfl⟩ := by simpa [Call.registers?] using hregisters
    exact congrArg Store.Served.store hserve
  | _ => cases hregisters

/-- A poll of a call of others leaves what only the subscriber, the store and the clock change. -/
theorem Tidy.leaves_pollCall (h : a.Tidy) (id : Nat) (reportFirst : Bool) :
    a.Leaves (.poll (.call id) reportFirst) := by
  cases hfound : a.system.desk.call? id with
  | none =>
    have hmove : a.system.move (.poll (.call id) reportFirst) = a.system :=
      System.pollCall_of_gone hfound
    exact
      { frame := by rw [hmove]
        store := ⟨_, _, by rw [hmove]⟩
        calls := fun c hc => .inl (hmove ▸ hc)
        opened := fun sub hsub => by
          rw [System.happens_of_gone hfound] at hsub
          cases hsub }
  | some c =>
    obtain ⟨hnew, hspares⟩ := h.calls c (Desk.mem_of_call? hfound)
    obtain ⟨hact, hacts⟩ := System.pollCall_eq_act h.prompt.script h.prompt.running hfound hnew
    have hmove : a.system.move (.poll (.call id) reportFirst) = a.system.act c a.system.now := hact
    obtain ⟨scope, stem, channel, hregisters, hlt, _, hserve⟩ :=
      serve_of_spares hspares h.reachable
    exact
      { frame := by rw [hmove, System.frame_act]
        store := ⟨_, _, by rw [hmove, System.store_act, hserve]; rfl⟩
        calls := fun other hother => by
          rw [hmove] at hother
          rcases System.mem_calls_act a.system c a.system.now hother with hold | ⟨hnext, hresumes⟩
          · exact .inl hold
          · exact .inr ⟨hnext, spares_of_resumes hspares hresumes⟩
        opened := fun sub hsub => by
          rw [System.happens_of_actsOn hfound hacts] at hsub
          rw [System.channel_of_opened hregisters hsub]
          exact hlt }

/-- What changes only the feeds and the native watches of the store leaves what others do not
change. -/
theorem leaves_of_desk {feeds : List Feed} {watchers : List Watcher}
    (hframe : (a.system.move m).frame = a.system.frame)
    (hdesk : (a.system.move m).desk = a.system.desk.beside { a.system.store with feeds, watchers })
    (hquiet : ∀ sub, .opened sub ∉ a.system.happens m) : a.Leaves m where
  frame := hframe
  store := ⟨feeds, watchers, congrArg Desk.store hdesk⟩
  calls c hc := by
    have hcalls : (a.system.move m).calls = a.system.calls := congrArg Desk.calls hdesk
    exact .inl (hcalls ▸ hc)
  opened sub hsub := absurd hsub (hquiet sub)

/-- What changes at most one feed leaves what others do not change. -/
theorem leaves_of_feed (n : Nat) (f : Feed → Feed)
    (hmove : a.system.move m = a.system ∨
      a.system.move m = { a.system with store := a.system.store.onFeed n f })
    (hquiet : ∀ sub, .opened sub ∉ a.system.happens m) : a.Leaves m := by
  rcases hmove with hmove | hmove
  · exact leaves_of_desk (congrArg System.frame hmove) (congrArg System.desk hmove) hquiet
  · have hdesk : (a.system.move m).desk = a.system.desk.beside
        { a.system.store with feeds := (a.system.store.onFeed n f).feeds } :=
      congrArg System.desk hmove
    have hframe : (a.system.move m).frame = a.system.frame := by
      rw [hmove]
      rfl
    exact leaves_of_desk hframe hdesk hquiet

/-- Whatever others may do leaves what only the subscriber, the store and the clock change. -/
theorem Tidy.leaves (h : a.Tidy) (hm : a.allows m = true) : a.Leaves m := by
  have hnone (sub : Subscription) : .opened sub ∉ ([] : List Happening) := List.not_mem_nil
  cases m with
  | poll worker reportFirst =>
    cases worker with
    | call id => exact h.leaves_pollCall id reportFirst
    | dispatcher id =>
      obtain ⟨feeds, hdesk⟩ := System.desk_pollDispatcher a.system id reportFirst
      exact leaves_of_desk (System.frame_pollDispatcher a.system id reportFirst) hdesk hnone
  | launch turn holdsBroker =>
    refine ⟨System.frame_launch a.system turn holdsBroker, ?_, fun c hc => ?_,
      fun sub hsub => absurd hsub (hnone sub)⟩
    · have hstore := congrArg Desk.store (System.desk_launch a.system turn holdsBroker)
      cases turn <;> exact ⟨_, _, hstore⟩
    · rcases System.mem_calls_launch a.system turn holdsBroker hc with hold | ⟨hnew, rfl⟩
      · exact .inl hold
      · exact .inr ⟨hnew, hm⟩
  | take n =>
    obtain ⟨hframe, hwiring, hcalls⟩ := System.move_take a.system n
    exact ⟨hframe, ⟨_, _, congrArg Wiring.store hwiring⟩, fun c hc => .inl (hcalls ▸ hc),
      fun sub hsub => absurd hsub (hnone sub)⟩
  | release => exact leaves_of_desk (System.frame_release _) (System.desk_release _) hnone
  | note notices =>
    exact leaves_of_desk (System.frame_noteAll _ notices) (System.desk_noteAll _ notices) hnone
  | @ask service request =>
    -- the only request that others may make directly is a watch
    obtain rfl : service = .watch := of_decide_eq_true hm
    let .watch stem := request
    have hserve := Store.serve_watch_of_reachable h.reachable a.system.instant stem
    have hdesk : (a.system.move (.ask (.watch stem))).desk =
        a.system.desk.beside (a.system.store.serve a.system.instant (.watch stem)).store :=
      System.desk_wakeReaders _ _
    rw [hserve] at hdesk
    refine leaves_of_desk (System.frame_wakeAll _ _) hdesk fun sub hsub => ?_
    obtain ⟨_, _, heq⟩ := List.mem_map.1 hsub
    cases heq
  | openChannel capacity held =>
    exact leaves_of_desk (System.frame_openChannel a.system capacity held)
      (System.desk_openChannel a.system capacity held) hnone
  | receive n =>
    exact leaves_of_desk (System.frame_receive a.system n) (System.desk_receive a.system n)
      (a.system.not_opened_receives n)
  | dropReceiver n =>
    exact leaves_of_desk (System.frame_wakeAll _ _) (System.desk_wakeAll _ _) hnone
  | unsubscribe id =>
    exact leaves_of_desk (System.frame_unsubscribe _ id) (System.desk_unsubscribe _ id) hnone
  | readFeed n =>
    refine leaves_of_feed n (fun feed => { feed with queue := feed.queue.tail }) ?_ hnone
    simp only [System.move]
    split
    · exact .inl rfl
    · exact .inr rfl
  | leaveFeed n =>
    refine leaves_of_feed n (·.leave) ?_ hnone
    simp only [System.move]
    split
    · exact .inl rfl
    · exact .inr rfl
  | schedule | dropSender => exact leaves_of_desk rfl rfl hnone
  | _ => cases hm

/-- On a tidy broker no reply is made up. -/
theorem Tidy.genuine (h : a.Tidy) : a.system.wiring.Genuine := h.prompt.genuine

/-- Moves of others leave the broker in good order, as long as it runs. -/
theorem Tidy.beside (h : a.Tidy) (hm : a.allows m = true)
    (hrunning : (a.system.move m).stopped = false) : (a.beside m).Tidy := by
  have hleaves := h.leaves hm
  have hchanges := System.changes_move h.genuine m
  have hgrows : a.system.channels.length ≤ (a.system.move m).channels.length :=
    hchanges.channels_le
  have hspares {call : Call} (hspares : a.spares call = true) :
      (a.beside m).spares call = true := by
    obtain ⟨n, hchannel, hlt, hfree⟩ := spares_iff.1 hspares
    exact spares_iff.2 ⟨n, hchannel, Nat.lt_of_lt_of_le hlt hgrows, hfree⟩
  refine
    { prompt :=
        { script := (congrArg Frame.script hleaves.frame).trans h.prompt.script
          booked := (System.deals_move h.genuine m).booked h.prompt.booked
          running := hrunning }
      reachable := ?_
      sound := (hchanges.sound h.sound).1
      calls := fun c hc => ?_
      channels := fun d hd => ?_ }
  · obtain ⟨feeds, watchers, hstore⟩ := hleaves.store
    exact (congrArg Store.refusal hstore).trans h.reachable
  · rcases hleaves.calls c hc with hold | ⟨hnew, hcall⟩
    · obtain ⟨hnew, hcall⟩ := h.calls c hold
      exact ⟨hnew, hspares hcall⟩
    · exact ⟨hnew, hspares hcall⟩
  · rcases hchanges.old_or_opened (Wiring.mem_subscriptions hd) with hold | hopened
    · obtain ⟨old, hold, heq⟩ := List.mem_map.1 hold
      exact heq ▸ Nat.lt_of_lt_of_le (h.channels old hold) hgrows
    · exact Nat.lt_of_lt_of_le (hleaves.opened _ hopened) hgrows

/-! ### The outlet -/

variable {id n : Nat} {o : Outlet}

/-- A poll of a call of others leaves the outlet alone if the broker runs on. -/
theorem Tidy.holds_pollCall (h : a.Tidy) (hplace : a.place? = some (id, n))
    (hholds : a.system.wiring.Holds id n o) (call : Nat)
    (hrunning : (a.system.pollCall call).stopped = false) :
    (a.system.pollCall call).wiring.Holds id n o := by
  cases hfound : a.system.desk.call? call with
  | none =>
    rw [System.pollCall_of_gone hfound]
    exact hholds
  | some c =>
    obtain ⟨hnew, hspares⟩ := h.calls c (Desk.mem_of_call? hfound)
    obtain ⟨scope, stem, channel, hregisters, _, hfree, _⟩ := serve_of_spares hspares h.reachable
    have hact := (System.pollCall_eq_act h.prompt.script h.prompt.running hfound hnew).1
    have hne : channel ≠ n := by
      rintro rfl
      exact hfree (by rw [hplace]; rfl)
    rw [hact] at hrunning ⊢
    rw [System.wiring_act_watch hregisters h.reachable hrunning]
    exact (hholds.openWatch _).register_of_ne _ _ _ hne

/-- A poll of the dispatcher of the subscription is a step of the outlet, or begins a rest; any
other poll of a dispatcher leaves the outlet alone. -/
theorem Tidy.holds_pollDispatcher (h : a.Tidy) (hholds : a.system.wiring.Holds id n o)
    (polled : Nat) (reportFirst : Bool) :
    (a.system.pollDispatcher polled reportFirst).wiring.Holds id n o ∨
      (a.system.pollDispatcher polled reportFirst).wiring.Holds id n
        (o.step a.system.settings.slowPolicy) := by
  cases hfind : a.system.dispatcher? polled with
  | none =>
    simp only [System.pollDispatcher, hfind]
    exact .inl hholds
  | some d =>
    have hd : d ∈ a.system.wiring.dispatchers := List.mem_of_find?_eq_some hfind
    rw [System.wiring_pollDispatcher hfind]
    split
    · exact .inl (hholds.withDispatcher h.sound hd rfl fun _ => rfl)
    · by_cases hid : d.subscription.id = id
      · exact .inr (hholds.dispatch_self h.sound h.prompt.running hd hid reportFirst)
      · exact .inl (hholds.dispatch_of_ne h.sound hd hid reportFirst)

/-- What others do leaves the outlet alone, but for a step of its dispatcher. -/
theorem Tidy.holds_beside (h : a.Tidy) (hm : a.allows m = true)
    (hrunning : (a.system.move m).stopped = false) (hplace : a.place? = some (id, n))
    (hholds : a.system.wiring.Holds id n o) :
    (a.system.move m).wiring.Holds id n o ∨
      (a.system.move m).wiring.Holds id n (o.step a.system.settings.slowPolicy) := by
  have hchannel : a.place?.map (·.2) = some n := by rw [hplace]; rfl
  have hnumber : a.place?.map (·.1) = some id := by rw [hplace]; rfl
  have hsame (hwiring : (a.system.move m).wiring = a.system.wiring) :
      (a.system.move m).wiring.Holds id n o := hwiring ▸ hholds
  cases m with
  | poll worker reportFirst =>
    cases worker with
    | call call => exact .inl (h.holds_pollCall hplace hholds call hrunning)
    | dispatcher polled => exact h.holds_pollDispatcher hholds polled reportFirst
  | launch turn holdsBroker => exact .inl (hsame (System.wiring_launch _ turn holdsBroker))
  | take call => exact .inl (hsame (System.move_take _ call).2.1)
  | release => exact .inl (hsame (System.wiring_release_of_running hrunning))
  | note notices => exact .inl (hsame (System.wiring_noteAll _ notices))
  | @ask service request =>
    obtain rfl : service = .watch := of_decide_eq_true hm
    let .watch stem := request
    have hwiring : (a.system.move (.ask (.watch stem))).wiring =
        { a.system.wiring with
          store := (a.system.store.serve a.system.instant (.watch stem)).store } :=
      System.wiring_wakeReaders _ _
    rw [hwiring, Store.serve_watch_of_reachable h.reachable]
    exact .inl (hholds.openWatch stem)
  | openChannel capacity held =>
    simp only [System.move, System.openChannel]
    split
    · exact .inl (hholds.openChannel capacity held)
    · exact .inl hholds
  -- channels and subscriptions of the subscriber are not for others
  | dropSender m =>
    have hne : m ≠ n := fun heq => of_decide_eq_true hm (heq ▸ hchannel)
    exact .inl (hholds.onChannel_of_ne hne _)
  | receive m =>
    have hne : m ≠ n := fun heq => of_decide_eq_true hm (heq ▸ hchannel)
    simp only [System.move, System.receive]
    split
    · rw [System.wiring_wakeAll]
      exact .inl (hholds.onChannel_of_ne hne _)
    · exact .inl hholds
  | dropReceiver m =>
    have hne : m ≠ n := fun heq => of_decide_eq_true hm (heq ▸ hchannel)
    simp only [System.move, System.dropReceiver, System.wiring_wakeAll]
    exact .inl (hholds.onChannel_of_ne hne _)
  | unsubscribe other =>
    have hne : other ≠ id := fun heq => of_decide_eq_true hm (heq ▸ hnumber)
    simp only [System.move, System.wiring_unsubscribe]
    exact .inl (hholds.unsubscribe_of_ne hne)
  | readFeed m | leaveFeed m =>
    simp only [System.move]
    split
    · exact .inl hholds
    · next hfree =>
      have hne : ∀ d ∈ a.system.wiring.dispatchers, d.subscription.id = id →
          m ≠ d.subscription.feed := fun d hd _ heq =>
        hfree (List.any_eq_true.2 ⟨d, hd, decide_eq_true heq.symm⟩)
      exact .inl (hholds.onFeed hne _)
  | schedule => exact .inl hholds
  | _ => cases hm

end Subscriber

end KeyBroker
