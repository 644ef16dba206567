import KeyBroker.Proofs.System.Wiring

/-!
# Moves change the wiring

Every move of a system is a sequence of changes of its wiring. Most of what a call
does leaves the wiring alone: what counts is the request that the store carries
out, and then whether a subscription is registered, given up or the broker stopped.
-/

namespace KeyBroker.System

open Wiring (Change Changes)

variable {s : System}

/-! ### What leaves the wiring alone -/

/-- Waking a worker leaves the wiring alone. -/
@[simp] theorem wiring_wake (s : System) (worker : Worker) : (s.wake worker).wiring = s.wiring := by
  unfold wake
  split <;> rfl

/-- Waking workers leaves the wiring alone. -/
@[simp] theorem wiring_wakeAll (s : System) (workers : List Worker) :
    (s.wakeAll workers).wiring = s.wiring := by
  induction workers generalizing s with
  | nil => rfl
  | cons worker rest ih => rw [wakeAll, ih, wiring_wake]

/-- Waking the readers of feeds leaves the wiring alone. -/
@[simp] theorem wiring_wakeReaders (s : System) (feeds : List Nat) :
    (s.wakeReaders feeds).wiring = s.wiring :=
  wiring_wakeAll s _

/-- Lines of the log leave the wiring alone. -/
@[simp] theorem wiring_noteAll (s : System) (notices : List Notice) :
    (s.noteAll notices).wiring = s.wiring := by
  induction notices generalizing s with
  | nil => rfl
  | cons notice rest ih => exact ih (s.note notice)

/-- Observed facts leave the wiring alone. -/
@[simp] theorem wiring_observeAll (s : System) (observations : List Observation) :
    (s.observeAll observations).wiring = s.wiring := by
  induction observations generalizing s with
  | nil => rfl
  | cons observation rest ih => exact ih (s.observe observation)

/-- Launching a call leaves the wiring alone. -/
@[simp] theorem wiring_launch (s : System) (turn : Turn) (holdsBroker : Bool) :
    (s.launch turn holdsBroker).1.wiring = s.wiring := by
  cases turn with
  | ask call => exact wiring_wake _ _
  | done answer => exact wiring_noteAll { s with nextCall := s.nextCall + 1 } answer.notices

/-! ### Stopping and unsubscribing -/

/-- Stopping the broker marks the wiring as stopped, and does nothing else to it. -/
theorem wiring_stop (s : System) : s.stop.wiring = { s.wiring with stopped := true } := by
  unfold stop
  split
  · next h =>
    have hstopped : s.wiring.stopped = true := h
    rw [← hstopped]
  · exact wiring_wakeAll _ _

/-- Stopping the broker is a change of the wiring. -/
theorem changes_stop (s : System) : Changes s.wiring [] s.stop.wiring := by
  rw [wiring_stop]
  exact (Change.stop s.wiring).changes

/-- Letting go of the broker is a change of the wiring, or none. -/
theorem changes_release (s : System) : Changes s.wiring [] s.release.wiring := by
  simp only [release]
  split
  · exact changes_stop ({ s with holders := s.holders - 1 }.note .brokerDropped)
  · exact .nil _

/-- Unsubscribing does to the wiring what it does to a wiring by itself. -/
theorem wiring_unsubscribe (s : System) (id : Nat) :
    (s.unsubscribe id).wiring = s.wiring.unsubscribe id := by
  unfold unsubscribe Wiring.unsubscribe
  split
  · next hactive =>
    have hid : id ∈ s.wiring.registered := of_decide_eq_true hactive
    rw [if_pos hid]
    exact wiring_wake _ _
  · next hactive =>
    have hid : id ∉ s.wiring.registered := fun h => hactive (decide_eq_true h)
    rw [if_neg hid]

/-- Unsubscribing several subscriptions is changes of the wiring in order. -/
theorem changes_unsubscribeAll (s : System) (ids : List Nat) :
    Changes s.wiring [] (s.unsubscribeAll ids).wiring := by
  induction ids generalizing s with
  | nil => exact .nil _
  | cons id rest ih =>
    have hrest := ih (s.unsubscribe id)
    rw [wiring_unsubscribe] at hrest
    exact .cons (.unsubscribe s.wiring id) hrest

/-- A registration does to the wiring what it does to a wiring by itself. -/
theorem wiring_register (s : System) (scope localStem : Key) (channel feed : Nat) :
    (s.register scope localStem channel feed).1.wiring =
      s.wiring.register scope localStem channel feed := by
  rw [register, wiring_wake]
  rfl

/-! ### Calls -/

/-- The end of a call is changes of the wiring in order. -/
theorem changes_finish (s : System) (c : InFlight) (answer : Answer) :
    Changes s.wiring [] (s.finish c answer).wiring := by
  have hnotes := wiring_noteAll s answer.notices
  simp only [finish]
  split
  · rw [← hnotes]
    exact changes_release { s.noteAll answer.notices with
      calls := (s.noteAll answer.notices).calls.filter fun other => other.id ≠ c.id
      finished := (s.noteAll answer.notices).finished ++ [(c.id, answer)] }
  · rw [← hnotes]
    exact .nil _

/-- A further turn of a call is changes of the wiring in order. -/
theorem changes_proceed (s : System) (c : InFlight) (turn : Turn) :
    Changes s.wiring [] (s.proceed c turn).wiring := by
  cases turn with
  | ask call => exact .nil _
  | done answer => exact changes_finish s c answer

/-- An error that a call is told is changes of the wiring in order. -/
theorem changes_conclude_error (s : System) (c : InFlight) (e : Error) :
    Changes s.wiring [] (s.conclude c (.error e)).wiring := by
  have hanswered : Changes s.wiring [] (s.answered c.call (.error e)).1.wiring := by
    cases c.call with
    | watchAll scope channel held stem rest => exact changes_unsubscribeAll s _
    | _ => exact .nil _
  exact hanswered.trans (changes_proceed _ c _)

/-- Nothing but a watch changes the wiring when its request is answered. -/
theorem changes_conclude_ok (s : System) (c : InFlight) (reply : c.call.service.Reply)
    (hwatch : c.call.service ≠ .watch) :
    Changes s.wiring [] (s.conclude c (.ok reply)).wiring := by
  have hanswered : (s.answered c.call (.ok reply)).1.wiring = s.wiring := by
    obtain ⟨id, call, exchange, holds⟩ := c
    cases call with
    | watch | watchAll => exact absurd rfl hwatch
    | _ => rfl
  rw [← hanswered]
  exact changes_proceed _ c _

/-- The system once a request has been answered well, before its call goes on. -/
def answeredWell (s : System) (service : Service) (started : Nat) : System :=
  (s.observe (.served service true)).observe (.lasted service (s.now - started))

/-- An outcome changes the wiring only if it is the feed of a watch. -/
theorem changes_settle (s : System) (c : InFlight) (started : Nat)
    (outcome : Outcome c.call.service.Reply)
    (hwatch : c.call.service = .watch → ∀ reply, outcome ≠ .ok reply) :
    Changes s.wiring [] (s.settle c started outcome).wiring := by
  cases outcome with
  | ok reply =>
    exact changes_conclude_ok (s.answeredWell c.call.service started) c reply
      fun h => hwatch h reply rfl
  | failed error =>
    exact changes_conclude_error
      (((s.observe (.served c.call.service false)).note (c.call.service.failure error).2).observe
        (.lasted c.call.service (s.now - started))) c (c.call.service.failure error).1
  | aborted why =>
    exact changes_finish (s.observe (.lasted c.call.service (s.now - started))) c (.aborted why)

/-- The feed of a watch is registered, and then the call goes on. -/
theorem changes_settle_register (s : System) (c : InFlight) (started : Nat)
    (reply : c.call.service.Reply) (scope stem : Key) (channel feed : Nat) {turn : Turn}
    (hanswered : (s.answeredWell c.call.service started).answered c.call (.ok reply) =
      (((s.answeredWell c.call.service started).register scope stem channel feed).1, turn)) :
    Changes (s.wiring.register scope stem channel feed) []
      (s.settle c started (.ok reply)).wiring := by
  have hwiring := wiring_register (s.answeredWell c.call.service started) scope stem channel feed
  have hproceed := changes_proceed
    ((s.answeredWell c.call.service started).register scope stem channel feed).1 c turn
  have hconclude : (s.answeredWell c.call.service started).conclude c (.ok reply) =
      System.proceed ((s.answeredWell c.call.service started).register scope stem channel feed).1
        c turn := by
    simp only [conclude, hanswered]
  rw [hwiring, ← hconclude] at hproceed
  exact hproceed

/-- A call for several watches registers each that it gets, and goes on from there. -/
theorem answered_watchAll (s : System) (scope stem : Key) (channel feed : Nat)
    (held : List Handle) (rest : List Key) :
    ∃ turn, s.answered (.watchAll scope channel held stem rest) (.ok feed) =
      ((s.register scope stem channel feed).1, turn) := by
  cases rest <;> exact ⟨_, rfl⟩

/-- A watch that the store would open is the subscription that would be opened. -/
theorem opens_of_ok {scope stem : Key} {feed : Nat} (channel : Nat)
    (h : (s.store.serve s.instant (.watch (scope.qualify stem))).outcome = .ok feed) :
    s.opens scope stem channel = [.opened (s.wiring.subscription scope stem channel feed)] := by
  rw [opens, h]
  rfl

/-- A watch that the store would not open opens no subscription. -/
theorem opens_of_not_ok {scope stem : Key} (channel : Nat)
    (h : ∀ feed, (s.store.serve s.instant (.watch (scope.qualify stem))).outcome ≠ .ok feed) :
    s.opens scope stem channel = [] := by
  unfold opens
  split
  · next feed hfeed => exact absurd hfeed (h feed)
  · rfl

/-- A watch commits nothing and opens a subscription. -/
theorem comesOf_watch (s : System) (scope stem : Key) (channel : Nat) (held : List Handle)
    (rest : List Key) :
    s.comesOf (.watch scope stem channel) = s.opens scope stem channel ∧
      s.comesOf (.watchAll scope channel held stem rest) = s.opens scope stem channel := by
  simp [comesOf, Call.request]

/-- The store carries out the request of a call. -/
theorem changes_act (s : System) (c : InFlight) (started : Nat) :
    Changes s.wiring (s.comesOf c.call) (s.act c started).wiring := by
  let served := s.store.serve s.instant c.call.request
  let next : System := { s with store := served.store }.wakeReaders served.reached
  have hnext : next.wiring = { s.wiring with store := served.store } := wiring_wakeReaders _ _
  by_cases hopened : c.call.service = .watch → ∀ reply, served.outcome ≠ .ok reply
  · have hsettle := changes_settle next c started served.outcome hopened
    rw [hnext] at hsettle
    have hcomes : s.comesOf c.call = (s.store.events s.instant c.call.request).map .committed := by
      obtain ⟨id, call, exchange, holds⟩ := c
      cases call with
      | watch scope stem channel =>
        simp only [comesOf, opens_of_not_ok channel (hopened rfl), List.append_nil]
      | watchAll scope channel held stem rest =>
        simp only [comesOf, opens_of_not_ok channel (hopened rfl), List.append_nil]
      | _ => exact List.append_nil _
    rw [hcomes, ← List.append_nil ((s.store.events s.instant c.call.request).map _)]
    exact .cons (.serve s.wiring s.instant c.call.request) hsettle
  -- the outcome is the feed of a watch
  obtain ⟨id, call, exchange, holds⟩ := c
  cases call with
  | watch scope stem channel =>
    cases houtcome : served.outcome with
    | ok feed =>
      have hact : s.act ⟨id, .watch scope stem channel, exchange, holds⟩ started =
          next.settle ⟨id, .watch scope stem channel, exchange, holds⟩ started (.ok feed) := by
        rw [← houtcome]
        rfl
      have hregister := changes_settle_register next
        ⟨id, .watch scope stem channel, exchange, holds⟩ started feed scope stem channel feed rfl
      rw [hnext] at hregister
      rw [hact, (comesOf_watch s scope stem channel [] []).1, opens_of_ok channel houtcome]
      exact .cons (.subscribe s.wiring s.instant scope stem channel feed houtcome) hregister
    | _ => exact absurd (fun _ reply h => by rw [houtcome] at h; cases h) hopened
  | watchAll scope channel held stem rest =>
    cases houtcome : served.outcome with
    | ok feed =>
      have hact : s.act ⟨id, .watchAll scope channel held stem rest, exchange, holds⟩ started =
          next.settle ⟨id, .watchAll scope channel held stem rest, exchange, holds⟩ started
            (.ok feed) := by
        rw [← houtcome]
        rfl
      obtain ⟨turn, hanswered⟩ :=
        answered_watchAll (next.answeredWell .watch started) scope stem channel feed held rest
      have hregister := changes_settle_register next
        ⟨id, .watchAll scope channel held stem rest, exchange, holds⟩ started feed scope stem
        channel feed hanswered
      rw [hnext] at hregister
      rw [hact, (comesOf_watch s scope stem channel held rest).2, opens_of_ok channel houtcome]
      exact .cons (.subscribe s.wiring s.instant scope stem channel feed houtcome) hregister
    | _ => exact absurd (fun _ reply h => by rw [houtcome] at h; cases h) hopened
  | _ => exact absurd (fun h => by cases h) hopened

/-! ### Scripts -/

/-- The lines left after one has been taken are lines of the script. -/
theorem mem_of_mem_next {service : Service} {script : Script} {line : ScriptLine}
    (h : line ∈ (script.next service).2) : line ∈ script := by
  induction script with
  | nil => exact h
  | cons first rest ih =>
    simp only [Script.next] at h
    split at h
    · exact List.mem_cons_of_mem _ h
    · rcases List.mem_cons.1 h with rfl | h
      · exact List.mem_cons_self
      · exact List.mem_cons_of_mem _ (ih h)

/-- A line taken from a script that makes up no reply makes up none. -/
theorem next_ne_reply {service : Service} {script : Script}
    (h : ∀ line ∈ script, line.invents = false) (planned : service.Planned) :
    (script.next service).1 ≠ .reply planned := by
  induction script with
  | nil => exact fun heq => by cases heq
  | cons first rest ih =>
    simp only [Script.next]
    split
    · next hservice =>
      subst hservice
      intro heq
      have hfirst := h first List.mem_cons_self
      simp only at heq
      simp [ScriptLine.invents, heq] at hfirst
    · exact ih fun line hmem => h line (List.mem_cons_of_mem _ hmem)

/-! ### Polls -/

/-- Making a request is changes of the wiring, in which there happens what comes of the request if
the store carries it out. -/
theorem changes_makeRequest (hgenuine : s.wiring.Genuine) {c : InFlight}
    (hexchange : c.exchange = none) :
    Changes s.wiring (if s.actsOn c then s.comesOf c.call else []) (s.makeRequest c).wiring := by
  simp only [makeRequest, actsOn, hexchange]
  cases s.stopped && c.call.endsWithBroker with
  | true => exact changes_conclude_error s c .closed
  | false =>
    have hfewer : ∀ line ∈ (s.script.next c.call.service).2, line ∈ s.script :=
      fun line => mem_of_mem_next
    have hreply : ∀ planned, (s.script.next c.call.service).1 ≠ .reply planned :=
      next_ne_reply hgenuine
    generalize s.script.next c.call.service = taken at hfewer hreply
    obtain ⟨answer, script⟩ := taken
    -- the script loses its line before the store looks at the request
    let next : System := { s with script }
    have hnext : Changes s.wiring [] next.wiring := (Change.follow s.wiring script hfewer).changes
    cases answer with
    | forward delay =>
      cases delay with
      | zero => exact hnext.trans (changes_act next c next.now)
      | succ delay => exact hnext
    | hang => exact hnext
    | fail error =>
      exact hnext.trans (changes_settle next c next.now (.failed error) fun _ _ h => by cases h)
    | reply planned => exact absurd rfl (hreply planned)

/-- Looking for a reply is changes of the wiring, in which there happens what comes of the request
if the store carries it out. -/
theorem changes_checkAnswer (s : System) {c : InFlight} {e : Exchange}
    (hexchange : c.exchange = some e) :
    Changes s.wiring (if s.actsOn c then s.comesOf c.call else []) (s.checkAnswer c e).wiring := by
  simp only [checkAnswer, actsOn, hexchange]
  cases s.stopped && c.call.endsWithBroker with
  | true =>
    exact changes_conclude_error (s.observe (.lasted c.call.service (s.now - e.started))) c .closed
  | false =>
    cases e.due.any fun due => decide (due ≤ s.now) with
    | true => exact changes_act s c e.started
    | false =>
      simp only [Bool.and_false, Bool.false_eq_true, if_false]
      split
      · exact changes_conclude_error
          (((s.observe (.served c.call.service false)).note
            (c.call.service.overdue s.settings.timeout).2).observe
              (.lasted c.call.service (s.now - e.started))) c
          (c.call.service.overdue s.settings.timeout).1
      · exact .nil _

/-- A poll of a call does what comes of its request, if the store carries it out. -/
theorem changes_pollCall (hgenuine : s.wiring.Genuine) (id : Nat) (reportFirst : Bool) :
    Changes s.wiring (s.happens (.poll (.call id) reportFirst)) (s.pollCall id).wiring := by
  simp only [pollCall, happens]
  cases s.calls.find? fun c => decide (c.id = id) with
  | none => exact .nil _
  | some c =>
    simp only [Option.elim_some]
    cases hexchange : c.exchange with
    | none => exact changes_makeRequest hgenuine hexchange
    | some e => exact changes_checkAnswer s hexchange

/-- The system with a dispatcher, its feed and its channel as a step leaves them. -/
def afterStep (s : System) (d : Dispatcher) (step : Dispatch.Step) : System :=
  let read : System :=
    { s with store := s.store.onFeed d.subscription.feed fun _ => step.after.feed }
  let sent := (read.withDispatcher step.dispatcher).onChannel d.subscription.channel
    fun _ => step.after.channel
  ((sent.noteAll step.notices).observeAll step.observations).wakeAll
    (step.promised.toList.map .dispatcher)

/-- A dispatcher that is polled with credit left takes its next step, with all that the step has
woken, observed and noted. -/
theorem pollDispatcher_of_credit {id : Nat} {d : Dispatcher} (hfind : s.dispatcher? id = some d)
    (hcredit : d.credit ≠ 0) (reportFirst : Bool) :
    s.pollDispatcher id reportFirst =
      let step := s.wiring.stepOf d reportFirst
      let after := s.afterStep d step
      match step.pace with
      | .again => { after with ready := .dispatcher id :: after.ready }
      | .waiting => after
      | .over => after.endDispatcher id d.subscription.feed := by
  simp only [pollDispatcher, hfind, if_neg hcredit]
  rfl

/-- A step of a dispatcher leaves the wiring with its dispatcher, its feed and its channel
replaced. -/
theorem wiring_afterStep (s : System) (d : Dispatcher) (step : Dispatch.Step) :
    (s.afterStep d step).wiring =
      (({ s.wiring with
          store := s.store.onFeed d.subscription.feed fun _ => step.after.feed }).withDispatcher
        step.dispatcher).onChannel d.subscription.channel fun _ => step.after.channel := by
  simp only [afterStep, wiring_wakeAll, wiring_observeAll, wiring_noteAll]
  rfl

/-- A poll of a dispatcher lets it rest if it has no credit left, and take its next step
otherwise. -/
theorem wiring_pollDispatcher {id : Nat} {d : Dispatcher} (hfind : s.dispatcher? id = some d)
    (reportFirst : Bool) :
    (s.pollDispatcher id reportFirst).wiring =
      if d.credit = 0 then s.wiring.withDispatcher d.refreshed
      else s.wiring.dispatch d reportFirst := by
  have hid : d.subscription.id = id := by
    have hsome := List.find?_some hfind
    simpa using hsome
  by_cases hcredit : d.credit = 0
  · simp only [pollDispatcher, hfind, if_pos hcredit]
    rfl
  have hafter := s.wiring_afterStep d (s.wiring.stepOf d reportFirst)
  rw [if_neg hcredit, pollDispatcher_of_credit hfind hcredit]
  simp only [Wiring.dispatch]
  rw [hid]
  cases (s.wiring.stepOf d reportFirst).pace with
  | again => exact hafter
  | waiting => exact hafter
  | «over» => exact congrArg (Wiring.endDispatcher · id d.subscription.feed) hafter

/-- A poll of a dispatcher is a step of it or the beginning of its rest. -/
theorem changes_pollDispatcher (s : System) (id : Nat) (reportFirst : Bool) :
    Changes s.wiring [] (s.pollDispatcher id reportFirst).wiring := by
  cases hfind : s.dispatcher? id with
  | none =>
    simp only [pollDispatcher, hfind]
    exact .nil _
  | some d =>
    have hmem : d ∈ s.wiring.dispatchers := List.mem_of_find?_eq_some hfind
    rw [wiring_pollDispatcher hfind]
    split
    · exact (Change.rest s.wiring d hmem).changes
    · exact (Change.dispatch s.wiring d reportFirst hmem).changes

/-! ### Moves -/

/-- Receiving an item is a change of the wiring, in which it happens. -/
theorem changes_receive (s : System) (n : Nat) :
    Changes s.wiring (s.happens (.receive n)) (s.receive n).1.wiring := by
  simp only [receive, happens, receives, Channel.receive]
  cases hitems : (s.channel n).items with
  | nil => exact .nil _
  | cons oldest rest =>
    obtain ⟨sender, item⟩ := oldest
    simp only [wiring_wakeAll]
    exact (Change.receive s.wiring n sender item rest hitems).changes

/-- A feed that no dispatcher reads may change. -/
theorem changes_onFeed {n : Nat}
    (hfree : ¬ s.dispatches n = true) (f : Feed → Feed) :
    Changes s.wiring [] { s.wiring with store := s.store.onFeed n f } := by
  refine (Change.onFeed s.wiring n f fun d hd hfeed => hfree ?_).changes
  exact List.any_eq_true.2 ⟨d, hd, by simpa using hfeed⟩

/-- A request made directly to the store does nothing to the wiring but what the store does. -/
theorem wiring_serveDirectly (s : System) {service : Service} (request : Request service) :
    (s.serveDirectly request).1.wiring =
      { s.wiring with store := (s.store.serve s.instant request).store } :=
  wiring_wakeReaders _ _

/-- Cutting or restoring the connection does nothing to the wiring but what the store does. -/
theorem wiring_setAvailable (s : System) (available : Bool) :
    (s.setAvailable available).wiring =
      { s.wiring with store := s.store.setAvailable available } := by
  simp only [setAvailable]
  split
  · rfl
  · exact wiring_wakeReaders _ _

/-- A move of a system is a sequence of changes of its wiring. -/
theorem changes_move (hgenuine : s.wiring.Genuine) (m : Move) :
    Changes s.wiring (s.happens m) (s.move m).wiring := by
  cases m with
  | poll worker reportFirst =>
    cases worker with
    | call id => exact changes_pollCall hgenuine id reportFirst
    | dispatcher id => exact changes_pollDispatcher s id reportFirst
  | launch turn holdsBroker =>
    simp only [move, wiring_launch]
    exact .nil _
  | take call =>
    simp only [move, takeAnswer]
    -- whether there was an answer to take or not, the wiring is the same
    cases s.finished.find? _ <;> exact .nil _
  | close holdsBroker =>
    simp only [move, wiring_launch, beginClose]
    split
    · exact .nil _
    · exact changes_stop { s with closing := true }
  | release => exact changes_release s
  | note notices =>
    simp only [move, wiring_noteAll]
    exact .nil _
  | ask request =>
    simp only [move, wiring_serveDirectly]
    exact (Change.serve s.wiring s.instant request).changes
  | compact revision => exact (Change.compact s.wiring revision).changes
  | setAvailable available =>
    simp only [move, wiring_setAvailable]
    exact (Change.setAvailable s.wiring available).changes
  | inject line genuine => exact (Change.inject s.wiring line genuine).changes
  | openChannel capacity held =>
    simp only [move, openChannel]
    split
    · exact (Change.openChannel s.wiring capacity held).changes
    · exact .nil _
  | dropSender n => exact (Change.dropSender s.wiring n).changes
  | receive n => exact changes_receive s n
  | dropReceiver n =>
    simp only [move, dropReceiver, wiring_wakeAll]
    exact (Change.dropReceiver s.wiring n).changes
  | unsubscribe id =>
    simp only [move, wiring_unsubscribe]
    exact (Change.unsubscribe s.wiring id).changes
  | readFeed n =>
    simp only [move]
    split
    · exact .nil _
    · next hfree => exact changes_onFeed hfree _
  | leaveFeed n =>
    simp only [move]
    split
    · exact .nil _
    · next hfree => exact changes_onFeed hfree _
  | _ => exact .nil _

end KeyBroker.System

namespace KeyBroker

/-- A script without made-up replies stays so. -/
theorem Wiring.Genuine.change {w w' : Wiring} {hs : List Happening} (h : w.Genuine)
    (hchange : Wiring.Change w hs w') : w'.Genuine := by
  cases hchange with
  | follow script fewer => exact fun line hmem => h line (fewer line hmem)
  | inject line genuine =>
    intro other hmem
    rcases List.mem_append.1 hmem with hmem | hmem
    · exact h other hmem
    · rwa [List.mem_singleton.1 hmem]
  | unsubscribe id =>
    unfold Wiring.unsubscribe
    split <;> exact h
  | dispatch d reportFirst works =>
    simp only [Wiring.dispatch]
    split <;> exact h
  | _ => exact h

/-- No change of the wiring brings lines that make up replies. -/
theorem Wiring.Genuine.changes {w w' : Wiring} {hs : List Happening} (h : w.Genuine)
    (hchanges : Wiring.Changes w hs w') : w'.Genuine := by
  induction hchanges with
  | nil => exact h
  | cons first _ ih => exact ih (h.change first)

/-- A run of a system is a sequence of changes of its wiring. -/
theorem System.changes_moves {s : System} (hgenuine : s.wiring.Genuine) (run : List Move) :
    Wiring.Changes s.wiring (s.happenings run) (s.moves run).wiring := by
  induction run generalizing s with
  | nil => exact .nil _
  | cons m run ih =>
    have hmove := changes_move hgenuine m
    exact hmove.trans (ih (hgenuine.changes hmove))

/-- A new system has an empty script. -/
theorem System.genuine_new (settings : Settings) :
    (System.wiring { settings }).Genuine := fun _ hmem => by cases hmem

/-- No moves bring lines that make up replies. -/
theorem System.genuine_moves {s : System} (hgenuine : s.wiring.Genuine) (run : List Move) :
    (s.moves run).wiring.Genuine :=
  hgenuine.changes (changes_moves hgenuine run)

end KeyBroker
