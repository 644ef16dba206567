import KeyBroker.Proofs.System.Desk

/-!
# How calls come to their answers

Every move leaves the desk as it is, puts a new call on it, takes an answer away, or
brings one call further with what the store answered to its request. A property of
turns that survives each such answer therefore holds of the answer that a caller
takes away in the end.
-/

namespace KeyBroker

/-- Whether a move neither polls, begins nor ends a call. -/
def Move.sparesCalls : Move → Bool
  | .poll (.call _) _ | .launch .. | .take _ | .close _ => false
  | _ => true

/-- The turn that a call takes once the store has given an outcome. -/
inductive Call.Resumes (call : Call) : Outcome call.service.Reply → Turn → Prop where
  | ok (t : System) (reply : call.service.Reply) :
    Resumes call (.ok reply) (t.answered call (.ok reply)).2
  | failed (t : System) (error : StorageError) :
    Resumes call (.failed error) (t.answered call (.error (call.service.failure error).1)).2
  | aborted (why : Abort) : Resumes call (.aborted why) (.done (.aborted why))

/-- After a reply of the store a call goes on as it does with that reply. -/
theorem Call.Resumes.of_ok (call : Call) {reply : call.service.Reply} {turn : Turn}
    (h : call.Resumes (.ok reply) turn) :
    ∃ t, turn = (System.answered t call (.ok reply)).2 := by
  cases h
  exact ⟨_, rfl⟩

/-- After a failure of the store a call goes on as it does with the error that it is told. -/
theorem Call.Resumes.of_failed (call : Call) {error : StorageError} {turn : Turn}
    (h : call.Resumes (.failed error) turn) :
    ∃ t, turn = (System.answered t call (.error (call.service.failure error).1)).2 := by
  cases h
  exact ⟨_, rfl⟩

namespace System

variable {s : System} {c : InFlight}

/-- A call takes a further turn: its request failed on the way, or the store carried it out
now and became `store`. -/
inductive Resumes (s : System) (call : Call) (store : Store) : Turn → Prop where
  | refused (t : System) (e : Error) : Resumes s call store (t.answered call (.error e)).2
  | served {turn : Turn}
    (outcome : call.Resumes (s.store.serve s.instant call.request).outcome turn)
    (after : store = (s.store.serve s.instant call.request).store) : Resumes s call store turn

/-- A call goes on with an error, with the reply of the store, or not at all. -/
theorem Resumes.cases {call : Call} {store : Store} {turn : Turn} (h : s.Resumes call store turn) :
    (∃ t e, turn = (System.answered t call (.error e)).2) ∨
      (∃ t reply, (s.store.serve s.instant call.request).outcome = .ok reply ∧
        store = (s.store.serve s.instant call.request).store ∧
        turn = (System.answered t call (.ok reply)).2) ∨
      ∃ why, (s.store.serve s.instant call.request).outcome = .aborted why ∧
        turn = .done (.aborted why) := by
  cases h with
  | refused t e => exact .inl ⟨t, e, rfl⟩
  | served outcome after =>
    generalize (s.store.serve s.instant call.request).outcome = given at outcome
    cases outcome with
    | ok t reply => exact .inr (.inl ⟨t, reply, rfl, after, rfl⟩)
    | failed t error => exact .inl ⟨t, _, rfl⟩
    | aborted why => exact .inr (.inr ⟨why, rfl, rfl⟩)

/-- What a move of a system can make of its desk. -/
inductive Deals (s : System) : Desk → Prop where
  | idle (store : Store) : Deals s (s.desk.beside store)
  | begun (turn : Turn) (holdsBroker : Bool) : Deals s (s.desk.begin turn holdsBroker)
  | taken (id : Nat) : Deals s (s.desk.take id)
  | waits (c : InFlight) (found : s.desk.call? c.id = some c) (exchange : Option Exchange) :
    Deals s (s.desk.wait { c with exchange })
  | resumed (c : InFlight) (found : s.desk.call? c.id = some c) (turn : Turn) (store : Store)
    (resumes : s.Resumes c.call store turn) : Deals s ((s.desk.beside store).proceed c turn)

/-! ### What leaves the desk alone -/

/-- Waking a worker leaves the desk alone. -/
@[simp] theorem desk_wake (s : System) (worker : Worker) : (s.wake worker).desk = s.desk := by
  unfold wake
  split <;> rfl

/-- Waking workers leaves the desk alone. -/
@[simp] theorem desk_wakeAll (s : System) (workers : List Worker) :
    (s.wakeAll workers).desk = s.desk := by
  induction workers generalizing s with
  | nil => rfl
  | cons worker rest ih => rw [wakeAll, ih, desk_wake]

/-- Waking the readers of feeds leaves the desk alone. -/
@[simp] theorem desk_wakeReaders (s : System) (feeds : List Nat) :
    (s.wakeReaders feeds).desk = s.desk :=
  desk_wakeAll s _

/-- Lines of the log leave the desk alone. -/
@[simp] theorem desk_noteAll (s : System) (notices : List Notice) :
    (s.noteAll notices).desk = s.desk := by
  induction notices generalizing s with
  | nil => rfl
  | cons notice rest ih => exact ih (s.note notice)

/-- Observed facts leave the desk alone. -/
@[simp] theorem desk_observeAll (s : System) (observations : List Observation) :
    (s.observeAll observations).desk = s.desk := by
  induction observations generalizing s with
  | nil => rfl
  | cons observation rest ih => exact ih (s.observe observation)

/-- Stopping the broker leaves the desk alone. -/
@[simp] theorem desk_stop (s : System) : s.stop.desk = s.desk := by
  unfold stop
  split
  · rfl
  · exact desk_wakeAll _ _

/-- Letting go of the broker leaves the desk alone. -/
@[simp] theorem desk_release (s : System) : s.release.desk = s.desk := by
  simp only [release]
  split
  · exact desk_stop _
  · rfl

/-- Unsubscribing leaves the desk alone. -/
@[simp] theorem desk_unsubscribe (s : System) (id : Nat) : (s.unsubscribe id).desk = s.desk := by
  unfold unsubscribe
  split
  · exact desk_wake _ _
  · rfl

/-- Unsubscribing several subscriptions leaves the desk alone. -/
@[simp] theorem desk_unsubscribeAll (s : System) (ids : List Nat) :
    (s.unsubscribeAll ids).desk = s.desk := by
  induction ids generalizing s with
  | nil => rfl
  | cons id rest ih => rw [unsubscribeAll, ih, desk_unsubscribe]

/-- A registration leaves the desk alone. -/
@[simp] theorem desk_register (s : System) (scope localStem : Key) (channel feed : Nat) :
    (s.register scope localStem channel feed).1.desk = s.desk :=
  desk_wake _ _

/-- Receiving an item leaves the desk alone. -/
theorem desk_receive (s : System) (n : Nat) : (s.receive n).1.desk = s.desk := by
  simp only [receive]
  split
  · exact desk_wakeAll _ _
  · rfl

/-- Making a channel leaves the desk alone. -/
theorem desk_openChannel (s : System) (capacity : Nat) (held : Bool) :
    (s.move (.openChannel capacity held)).desk = s.desk := by
  simp only [move, openChannel]
  split <;> rfl

/-- Beginning to close leaves the desk alone. -/
theorem desk_beginClose (s : System) : s.beginClose.1.desk = s.desk := by
  unfold beginClose
  split
  · rfl
  · exact desk_stop _

/-- Cutting or restoring the connection changes nothing of the desk but the store. -/
theorem desk_setAvailable (s : System) (available : Bool) :
    (s.setAvailable available).desk = s.desk.beside (s.store.setAvailable available) := by
  simp only [setAvailable]
  split
  · rfl
  · exact desk_wakeReaders _ _

/-- A step of a dispatcher changes nothing of the desk but the feed that it reads. -/
theorem desk_afterStep (s : System) (d : Dispatcher) (step : Dispatch.Step) :
    (s.afterStep d step).desk =
      s.desk.beside (s.store.onFeed d.subscription.feed fun _ => step.after.feed) := by
  simp only [afterStep, desk_wakeAll, desk_observeAll, desk_noteAll]
  rfl

/-- A poll of a dispatcher only changes feeds. -/
theorem desk_pollDispatcher (s : System) (id : Nat) (reportFirst : Bool) :
    ∃ feeds, (s.pollDispatcher id reportFirst).desk = s.desk.beside { s.store with feeds } := by
  cases hfind : s.dispatcher? id with
  | none =>
    simp only [pollDispatcher, hfind]
    exact ⟨s.store.feeds, rfl⟩
  | some d =>
    by_cases hcredit : d.credit = 0
    · simp only [pollDispatcher, hfind, if_pos hcredit]
      exact ⟨s.store.feeds, rfl⟩
    have hafter := s.desk_afterStep d (s.wiring.stepOf d reportFirst)
    have hstore := congrArg Desk.store hafter
    rw [pollDispatcher_of_credit hfind hcredit]
    simp only
    cases (s.wiring.stepOf d reportFirst).pace with
    | again => exact ⟨_, hafter⟩
    | waiting => exact ⟨_, hafter⟩
    | «over» =>
      let read := s.afterStep d (s.wiring.stepOf d reportFirst)
      refine ⟨(read.store.onFeed d.subscription.feed (·.leave)).feeds, ?_⟩
      have hleft : read.store.onFeed d.subscription.feed (·.leave) =
          { s.store with
            feeds := (read.store.onFeed d.subscription.feed (·.leave)).feeds } := by
        have hread : read.store =
            s.store.onFeed d.subscription.feed fun _ =>
              (s.wiring.stepOf d reportFirst).after.feed := hstore
        rw [hread]
        rfl
      have hdesk :=
        congrArg (Desk.beside · (read.store.onFeed d.subscription.feed (·.leave))) hafter
      rw [← hleft]
      exact hdesk

/-! ### Calls -/

/-- Launching a call puts it on the desk. -/
@[simp] theorem desk_launch (s : System) (turn : Turn) (holdsBroker : Bool) :
    (s.launch turn holdsBroker).1.desk = s.desk.begin turn holdsBroker := by
  cases turn with
  | ask call => exact desk_wake _ _
  | done answer =>
    have hnotes := desk_noteAll { s with nextCall := s.nextCall + 1 } answer.notices
    have hdesk : (s.launch (.done answer) holdsBroker).1.desk =
        { (noteAll { s with nextCall := s.nextCall + 1 } answer.notices).desk with
          finished := s.finished ++ [(s.nextCall, answer)] } := rfl
    rw [hdesk, hnotes]
    rfl

/-- After a launch the calls are those of before and the new one. -/
theorem mem_calls_launch (s : System) (turn : Turn) (holdsBroker : Bool) {c : InFlight}
    (hc : c ∈ (s.launch turn holdsBroker).1.calls) :
    c ∈ s.calls ∨ c.exchange = none ∧ turn = .ask c.call := by
  have hcalls : (s.launch turn holdsBroker).1.calls = (s.desk.begin turn holdsBroker).calls :=
    congrArg Desk.calls (desk_launch s turn holdsBroker)
  rw [hcalls] at hc
  cases turn with
  | done answer => exact .inl hc
  | ask call =>
    rcases List.mem_append.1 hc with hold | hnew
    · exact .inl hold
    · rw [List.mem_singleton.1 hnew]
      exact .inr ⟨rfl, rfl⟩

/-- What a call does with its reply leaves the desk alone. -/
@[simp] theorem desk_answered (s : System) (call : Call) (reply : Except Error call.service.Reply) :
    (s.answered call reply).1.desk = s.desk := by
  cases call with
  | watch scope stem channel =>
    cases reply with
    | ok feed => exact desk_register s scope stem channel feed
    | error e => rfl
  | watchAll scope channel held stem rest =>
    cases reply with
    | ok feed => cases rest <;> exact desk_register s scope stem channel feed
    | error e => exact desk_unsubscribeAll s _
  | listAll | next | drain => cases reply <;> rfl
  | _ => rfl

/-- A further turn of a call is a turn on the desk. -/
theorem desk_proceed (s : System) (c : InFlight) (turn : Turn) :
    (s.proceed c turn).desk = s.desk.proceed c turn := by
  cases turn with
  | ask call => rfl
  | done answer =>
    have hnotes := desk_noteAll s answer.notices
    have hdesk : desk { s.noteAll answer.notices with
        calls := (s.noteAll answer.notices).calls.filter fun other => other.id ≠ c.id
        finished := (s.noteAll answer.notices).finished ++ [(c.id, answer)] } =
          (s.noteAll answer.notices).desk.proceed c (.done answer) := rfl
    simp only [proceed, finish]
    split
    · rw [desk_release, hdesk, hnotes]
    · rw [hdesk, hnotes]

/-- The reply to a call brings it to its next turn on the desk. -/
theorem desk_conclude (s : System) (c : InFlight) (reply : Except Error c.call.service.Reply) :
    (s.conclude c reply).desk = s.desk.proceed c (s.answered c.call reply).2 := by
  simp only [conclude, desk_proceed, desk_answered]

/-- An outcome brings a call to its next turn. -/
theorem desk_settle (s : System) (c : InFlight) (started : Nat)
    (outcome : Outcome c.call.service.Reply) :
    ∃ turn, (s.settle c started outcome).desk = s.desk.proceed c turn ∧
      c.call.Resumes outcome turn := by
  cases outcome with
  | ok reply => exact ⟨_, desk_conclude _ c _, .ok _ reply⟩
  | failed error => exact ⟨_, desk_conclude _ c _, .failed _ error⟩
  | aborted why => exact ⟨_, desk_proceed _ c (.done (.aborted why)), .aborted why⟩

/-- The store carries out the request of a call. -/
theorem desk_act (s : System) (c : InFlight) (started : Nat) :
    ∃ turn, (s.act c started).desk =
        (s.desk.beside (s.store.serve s.instant c.call.request).store).proceed c turn ∧
      c.call.Resumes (s.store.serve s.instant c.call.request).outcome turn := by
  obtain ⟨turn, hdesk, hturn⟩ := desk_settle
    ({ s with store := (s.store.serve s.instant c.call.request).store }.wakeReaders
      (s.store.serve s.instant c.call.request).reached) c started
    (s.store.serve s.instant c.call.request).outcome
  rw [desk_wakeReaders] at hdesk
  exact ⟨turn, hdesk, hturn⟩

/-- Once the store has carried out the request of a call, that call may be at a further turn. -/
theorem mem_calls_act (s : System) (c : InFlight) (started : Nat) {other : InFlight}
    (hother : other ∈ (s.act c started).calls) :
    other ∈ s.calls ∨ other.exchange = none ∧
      c.call.Resumes (s.store.serve s.instant c.call.request).outcome (.ask other.call) := by
  obtain ⟨turn, hdesk, hresumes⟩ := desk_act s c started
  have hcalls : (s.act c started).calls = _ := congrArg Desk.calls hdesk
  rw [hcalls] at hother
  cases turn with
  | done answer => exact .inl (List.mem_filter.1 hother).1
  | ask next =>
    obtain ⟨old, hold, rfl⟩ := List.mem_map.1 hother
    split
    · exact .inr ⟨rfl, hresumes⟩
    · exact .inl hold

/-- The store carries out the request of a call on the desk. -/
theorem deals_act (found : s.desk.call? c.id = some c) (started : Nat) :
    s.Deals (s.act c started).desk := by
  obtain ⟨turn, hdesk, hturn⟩ := desk_act s c started
  rw [hdesk]
  exact .resumed c found turn _ (.served hturn rfl)

/-- An error that a call is told makes of the desk what a move can make of it. -/
theorem deals_conclude_error {t : System} (hdesk : t.desk = s.desk)
    (found : s.desk.call? c.id = some c) (e : Error) : s.Deals (t.conclude c (.error e)).desk := by
  rw [desk_conclude, hdesk]
  exact .resumed c found _ s.store (.refused t e)

/-- A call that waits for its reply makes of the desk what a move can make of it. -/
theorem deals_await {t : System} (hdesk : t.desk = s.desk) (found : s.desk.call? c.id = some c)
    (due : Option Nat) : s.Deals (t.await c due).desk := by
  let exchange : Exchange :=
    { started := t.now, deadline := t.now + t.settings.requestTimeout, due }
  have hwait : (t.await c due).desk = t.desk.wait { c with exchange := some exchange } := rfl
  rw [hwait, hdesk]
  exact .waits c found _

/-- Making a request makes of the desk what a move can make of it. -/
theorem deals_makeRequest (hgenuine : s.wiring.Genuine) (found : s.desk.call? c.id = some c) :
    s.Deals (s.makeRequest c).desk := by
  simp only [makeRequest]
  cases s.stopped && c.call.endsWithBroker with
  | true => exact deals_conclude_error rfl found .closed
  | false =>
    have hreply : ∀ planned, (s.script.next c.call.service).1 ≠ .reply planned :=
      next_ne_reply hgenuine
    generalize s.script.next c.call.service = taken at hreply
    obtain ⟨answer, script⟩ := taken
    cases answer with
    | forward delay =>
      cases delay with
      | zero =>
        obtain ⟨turn, hdesk, hturn⟩ := desk_act { s with script } c s.now
        simp only [Bool.false_eq_true, if_false]
        rw [hdesk]
        exact .resumed c found turn _ (.served hturn rfl)
      | succ delay =>
        exact deals_await (s := s) (t := { s with script }) rfl found (some (s.now + (delay + 1)))
    | hang => exact deals_await (s := s) (t := { s with script }) rfl found none
    | fail error =>
      let failed : System :=
        (({ s with script }.observe (.served c.call.service false)).note
          (c.call.service.failure error).2).observe (.lasted c.call.service (s.now - s.now))
      exact deals_conclude_error (s := s) (t := failed) rfl found (c.call.service.failure error).1
    | reply planned => exact absurd rfl (hreply planned)

/-- Looking for a reply makes of the desk what a move can make of it. -/
theorem deals_checkAnswer (found : s.desk.call? c.id = some c) (e : Exchange) :
    s.Deals (s.checkAnswer c e).desk := by
  simp only [checkAnswer]
  split
  · refine deals_conclude_error ?_ found .closed
    rfl
  · split
    · exact deals_act found e.started
    · split
      · refine deals_conclude_error ?_ found (c.call.service.overdue s.settings.timeout).1
        rfl
      · exact .idle s.store

/-- A poll of a call makes of the desk what a move can make of it. -/
theorem deals_pollCall (hgenuine : s.wiring.Genuine) (id : Nat) :
    s.Deals (s.pollCall id).desk := by
  simp only [pollCall]
  cases hfind : s.calls.find? fun c => decide (c.id = id) with
  | none => exact .idle s.store
  | some c =>
    have hid : c.id = id := Desk.id_of_call? (d := s.desk) hfind
    have found : s.desk.call? c.id = some c := by
      rw [hid]
      exact hfind
    simp only
    split
    · exact deals_makeRequest hgenuine found
    · next e _ => exact deals_checkAnswer found e

/-- A move that does not concern calls leaves the desk alone, but for the store. -/
theorem desk_move {m : Move} (hspares : m.sparesCalls = true) :
    ∃ store, (s.move m).desk = s.desk.beside store := by
  have hidle {t : System} (h : t.desk = s.desk) : ∃ store, t.desk = s.desk.beside store :=
    ⟨s.store, h⟩
  cases m with
  | poll worker reportFirst =>
    cases worker with
    | call id => cases hspares
    | dispatcher id =>
      obtain ⟨feeds, hdesk⟩ := desk_pollDispatcher s id reportFirst
      exact ⟨_, hdesk⟩
  | launch | take | close => cases hspares
  | release => exact hidle (desk_release s)
  | note notices => exact hidle (desk_noteAll s notices)
  | ask request => exact ⟨(s.store.serve s.instant request).store, desk_wakeReaders _ _⟩
  | compact revision => exact ⟨_, rfl⟩
  | setAvailable available => exact ⟨_, desk_setAvailable s available⟩
  | openChannel capacity held => exact hidle (desk_openChannel s capacity held)
  | receive n => exact hidle (desk_receive s n)
  | dropReceiver n => exact hidle (desk_wakeAll _ _)
  | unsubscribe id => exact hidle (desk_unsubscribe s id)
  | readFeed n | leaveFeed n =>
    simp only [move]
    split
    · exact hidle rfl
    · exact ⟨_, rfl⟩
  | _ => exact hidle rfl

/-- A move that polls no call deals with at most one call, whatever the script says. -/
theorem deals_move_of_ne {m : Move} (hother : ∀ id reportFirst, m ≠ .poll (.call id) reportFirst) :
    s.Deals (s.move m).desk := by
  have hspares (h : m.sparesCalls = true) : s.Deals (s.move m).desk := by
    obtain ⟨store, hdesk⟩ := s.desk_move h
    rw [hdesk]
    exact .idle store
  cases m with
  | poll worker reportFirst =>
    cases worker with
    | call id => exact absurd rfl (hother id reportFirst)
    | dispatcher id => exact hspares rfl
  | launch turn holdsBroker =>
    simp only [move, desk_launch]
    exact .begun turn holdsBroker
  | take call =>
    simp only [move, takeAnswer]
    cases s.finished.find? _ with
    | none => exact .idle s.store
    | some => exact .taken call
  | close holdsBroker =>
    simp only [move, desk_launch, desk_beginClose]
    exact .begun _ holdsBroker
  | _ => exact hspares rfl

/-- A move deals with at most one call. -/
theorem deals_move (hgenuine : s.wiring.Genuine) (m : Move) : s.Deals (s.move m).desk := by
  by_cases hpoll : ∃ id reportFirst, m = .poll (.call id) reportFirst
  · obtain ⟨id, reportFirst, rfl⟩ := hpoll
    exact deals_pollCall hgenuine id
  · exact deals_move_of_ne fun id reportFirst heq => hpoll ⟨id, reportFirst, heq⟩

/-! ### Runs -/

variable {d : Desk}

/-- A booked desk stays booked, whatever a move makes of it. -/
theorem Deals.booked (h : s.Deals d) (hbooked : s.desk.Booked) : d.Booked := by
  cases h with
  | idle store => exact hbooked.beside store
  | begun turn holdsBroker => exact hbooked.begin turn holdsBroker
  | taken id => exact hbooked.take id
  | waits c found exchange => exact hbooked.wait found exchange
  | resumed c found turn store resumes => exact (hbooked.beside store).proceed found turn

/-- No move takes a number of a call back. -/
theorem Deals.nextCall_le (h : s.Deals d) : s.nextCall ≤ d.nextCall := by
  cases h with
  | begun turn holdsBroker => cases turn <;> exact Nat.le_succ _
  | resumed c found turn store resumes => cases turn <;> exact Nat.le_refl _
  | _ => exact Nat.le_refl _

/-- A call stands where it stood, or the move took it a turn further. -/
theorem Deals.standing (h : s.Deals d) (hbooked : s.desk.Booked) {id : Nat} {turn : Turn}
    (hid : id < s.nextCall) (hturn : d.standing id = some turn) :
    s.desk.standing id = some turn ∨
      ∃ call, s.desk.standing id = some (.ask call) ∧ s.Resumes call d.store turn := by
  cases h with
  | idle store => exact .inl hturn
  | begun new holdsBroker =>
    have hne : id ≠ s.desk.nextCall := Nat.ne_of_lt hid
    rw [hbooked.standing_begin, if_neg hne] at hturn
    exact .inl hturn
  | taken taken =>
    rcases s.desk.standing_take taken id with hsame | hnone
    · exact .inl (hsame ▸ hturn)
    · rw [hnone] at hturn
      cases hturn
  | waits c found exchange =>
    rw [Desk.standing_wait found] at hturn
    exact .inl hturn
  | resumed c found next store resumes =>
    have hstore : ((s.desk.beside store).proceed c next).store = store := by cases next <;> rfl
    rw [(hbooked.beside store).standing_proceed found] at hturn
    split at hturn
    · next heq =>
      subst heq
      obtain rfl := Option.some.inj hturn
      refine .inr ⟨c.call, ?_, ?_⟩
      · rw [Desk.standing, found]
      · rw [hstore]
        exact resumes
    · exact .inl hturn

/-- The desk of a new system is booked. -/
theorem booked_new (settings : Settings) : (System.desk { settings }).Booked where
  calls _ hc := by cases hc
  finished _ he := by cases he
  apart _ hc := by cases hc

/-- A booked desk stays booked through moves in order. -/
theorem booked_moves (hgenuine : s.wiring.Genuine) (hbooked : s.desk.Booked) (run : List Move) :
    (s.moves run).desk.Booked := by
  induction run generalizing s with
  | nil => exact hbooked
  | cons m run ih =>
    have hmove := deals_move hgenuine m
    exact ih (hgenuine.changes (changes_move hgenuine m)) (hmove.booked hbooked)

/-- What holds of the turn of a call, and goes on to hold with each further turn that it
takes in a run, holds of its turn after the run. -/
theorem standing_moves {P : Turn → Prop} {id : Nat} {turn : Turn} {run : List Move}
    (hgenuine : s.wiring.Genuine) (hbooked : s.desk.Booked) (hid : id < s.nextCall)
    (hstart : ∀ turn, s.desk.standing id = some turn → P turn)
    (hstep : ∀ early m call turn, early ++ [m] <+: run → P (.ask call) →
      (s.moves early).Resumes call (s.moves (early ++ [m])).store turn → P turn)
    (hturn : (s.moves run).desk.standing id = some turn) : P turn := by
  induction run generalizing s with
  | nil => exact hstart turn hturn
  | cons m run ih =>
    have hmove := deals_move hgenuine m
    refine ih (hgenuine.changes (changes_move hgenuine m)) (hmove.booked hbooked)
      (Nat.lt_of_lt_of_le hid hmove.nextCall_le) (fun next hnext => ?_)
      (fun early later call next hearly hcall hresumes => ?_) hturn
    · rcases hmove.standing hbooked hid hnext with hsame | ⟨call, hcall, hresumes⟩
      · exact hstart next hsame
      · have hfirst : [] ++ [m] <+: m :: run := List.prefix_append [m] run
        exact hstep [] m call next hfirst (hstart _ hcall) hresumes
    · have hlater : (m :: early) ++ [later] <+: m :: run := List.cons_prefix_cons.2 ⟨rfl, hearly⟩
      exact hstep (m :: early) later call next hlater hcall hresumes

/-- The answer that a caller takes away is where the call stood. -/
theorem standing_of_takeAnswer (hbooked : s.desk.Booked) {id : Nat} {answer : Answer} {t : System}
    (h : s.takeAnswer id = some (answer, t)) :
    s.desk.standing id = some (.done answer) ∧ t = s.move (.take id) := by
  have hmove : t = s.move (.take id) := by
    simp only [move, h, Option.map_some, Option.getD_some]
  simp only [takeAnswer, Option.map_eq_some_iff, Prod.mk.injEq] at h
  obtain ⟨e, he, rfl, _⟩ := h
  have hid : e.1 = id := by
    have hfound := List.find?_some he
    exact of_decide_eq_true hfound
  have hnone : s.desk.call? id = none := by
    rw [Desk.call?, List.find?_eq_none]
    intro c hc heq
    have hsame : c.id = e.1 := (of_decide_eq_true heq).trans hid.symm
    exact hbooked.apart c hc e (List.mem_of_find?_eq_some he) hsame
  refine ⟨?_, hmove⟩
  rw [Desk.standing, hnone]
  exact congrArg (Option.map fun e => Turn.done e.2) he

/-- A call that stands at its answer can be taken away. -/
theorem takeAnswer_of_standing {id : Nat} {answer : Answer}
    (h : s.desk.standing id = some (.done answer)) :
    s.takeAnswer id = some (answer, s.move (.take id)) := by
  unfold Desk.standing at h
  split at h
  · cases h
  · obtain ⟨e, he, hanswer⟩ := Option.map_eq_some_iff.1 h
    have hfound : s.finished.find? (fun e => decide (e.1 = id)) = some e := he
    obtain rfl := Turn.done.inj hanswer
    simp only [move, takeAnswer, hfound, Option.map_some, Option.getD_some]

/-- A call gets the next number. -/
theorem launch_id (s : System) (turn : Turn) (holdsBroker : Bool) :
    (s.launch turn holdsBroker).2 = s.nextCall := by
  cases turn <;> rfl

/-- A new call stands at its first turn. -/
theorem standing_launch (hbooked : s.desk.Booked) (turn : Turn) (holdsBroker : Bool) :
    (s.launch turn holdsBroker).1.desk.standing s.nextCall = some turn := by
  have hbegin := hbooked.standing_begin turn holdsBroker s.nextCall
  rw [desk_launch, hbegin]
  exact if_pos rfl

/-- A call that was just launched is under way, with its request to make. -/
theorem call?_launch (hbooked : s.desk.Booked) (call : Call) (holdsBroker : Bool) :
    (s.launch (.ask call) holdsBroker).1.desk.call? s.nextCall =
      some { id := s.nextCall, call, holdsBroker } := by
  have hnone : s.desk.calls.find? (fun c => decide (c.id = s.nextCall)) = none :=
    hbooked.call?_eq_none
  rw [desk_launch]
  simp only [Desk.begin, Desk.call?, List.find?_append, hnone, Option.none_or]
  exact List.find?_cons_of_pos (decide_eq_true rfl)

/-- A poll of a call that is not under way does nothing. -/
theorem pollCall_of_gone {id : Nat} (h : s.desk.call? id = none) : s.pollCall id = s := by
  have hfind : s.calls.find? (fun c => decide (c.id = id)) = none := h
  simp only [pollCall, hfind]

/-- A poll of a call that has its answer does nothing. -/
theorem pollCall_of_answered {id : Nat} {answer : Answer}
    (h : s.desk.standing id = some (.done answer)) : s.pollCall id = s := by
  unfold Desk.standing at h
  split at h
  · cases h
  · next hnone => exact pollCall_of_gone hnone

/-- Nothing happens in a poll of a call that is not under way. -/
theorem happens_of_gone {id : Nat} (h : s.desk.call? id = none) (reportFirst : Bool) :
    s.happens (.poll (.call id) reportFirst) = [] := by
  have hfind : s.calls.find? (fun c => decide (c.id = id)) = none := h
  simp only [happens, hfind, Option.elim_none]

/-- In a poll in which the store carries out the request of a call, there happens what comes of
that. -/
theorem happens_of_actsOn {id : Nat} (h : s.desk.call? id = some c) (hacts : s.actsOn c = true)
    (reportFirst : Bool) : s.happens (.poll (.call id) reportFirst) = s.comesOf c.call := by
  have hfind : s.calls.find? (fun c => decide (c.id = id)) = some c := h
  simp only [happens, hfind, Option.elim_some, hacts, if_true]

/-- What holds of the first turn of a call, and goes on to hold with each further turn,
holds of its answer. -/
theorem answer_of_launch {P : Turn → Prop} {turn : Turn} {holdsBroker : Bool} {between : List Move}
    {answer : Answer} {t : System} (hgenuine : s.wiring.Genuine) (hbooked : s.desk.Booked)
    (hstart : P turn)
    (hstep : ∀ early m call next, early ++ [m] <+: between → P (.ask call) →
      ((s.launch turn holdsBroker).1.moves early).Resumes call
        ((s.launch turn holdsBroker).1.moves (early ++ [m])).store next → P next)
    (h : ((s.launch turn holdsBroker).1.moves between).takeAnswer (s.launch turn holdsBroker).2 =
      some (answer, t)) :
    P (.done answer) ∧
      t = s.moves (.launch turn holdsBroker :: (between ++ [.take s.nextCall])) := by
  have hlaunched : (s.launch turn holdsBroker).1 = s.move (.launch turn holdsBroker) := rfl
  have hgenuine' := hgenuine.changes (changes_move hgenuine (.launch turn holdsBroker))
  have hbooked' := (deals_move hgenuine (.launch turn holdsBroker)).booked hbooked
  have hid : s.nextCall < (s.launch turn holdsBroker).1.nextCall := by
    have hnext : (s.launch turn holdsBroker).1.nextCall = s.nextCall + 1 := by
      have hdesk := congrArg Desk.nextCall (desk_launch s turn holdsBroker)
      cases turn <;> exact hdesk
    omega
  rw [launch_id] at h
  obtain ⟨hstanding, rfl⟩ := standing_of_takeAnswer (booked_moves hgenuine' hbooked' between) h
  refine ⟨standing_moves hgenuine' hbooked' hid (fun first hfirst => ?_) hstep hstanding, ?_⟩
  · have hsame := standing_launch hbooked turn holdsBroker
    rw [← hlaunched, hsame] at hfirst
    exact Option.some.inj hfirst ▸ hstart
  · rw [moves_cons, moves_append]
    rfl

end System

end KeyBroker
