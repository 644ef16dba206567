import KeyBroker.Metrics
import KeyBroker.Proofs.Register.Incidents
import KeyBroker.Proofs.Verdict.Runs

/-!
# Every request is counted once

Only polls of calls observe facts about requests. A poll that gives a verdict observes how long
the request took, unless it was never made, and whether it succeeded, unless the broker stopped
meanwhile or the store stopped at a limit of the machine. So the measurements of a run are its
verdicts, counted.
-/

namespace KeyBroker

/-- Whether a fact is about a request. -/
def Observation.isOfRequest : Observation → Bool
  | .served .. | .lasted .. => true
  | _ => false

/-- Whether a fact says how long a request to a service took. -/
def Observation.isLasted (service : Service) : Observation → Bool
  | .lasted other _ => decide (other = service)
  | _ => false

namespace Told

variable {service : Service}

/-- Whether a call is told a reply. -/
def isOk : Told service → Bool
  | .reply (.ok _) => true
  | _ => false

/-- Whether a call is told an error other than that the broker is closed. -/
def isFailure : Told service → Bool
  | .reply (.error error) => decide (error ≠ .closed)
  | _ => false

end Told

/-- Whether the request was made. -/
def Verdict.isMade {service : Service} : Verdict service → Bool
  | .rejected => false
  | _ => true

/-- What is counted about a service: the requests that succeeded, those that failed, and those
that took a time. -/
structure Tallied (decisions : List Decision) (journal : Journal) (service : Service) : Prop where
  ok : journal.count (.served service true) =
    decisions.countP fun d => decide (d.service = service) && d.verdict.word.isOk
  err : journal.count (.served service false) =
    decisions.countP fun d => decide (d.service = service) && d.verdict.word.isFailure
  ended : (Metrics.latencies journal.observations service).length =
    decisions.countP fun d => decide (d.service = service) && d.verdict.isMade

/-! ### What a verdict adds to the counts -/

/-- No failure of the store is told as the broker being closed. -/
theorem Error.ofStorage_ne_closed (during : String) (error : StorageError) :
    Error.ofStorage during error ≠ .closed := by
  cases error <;> exact nofun

/-- A backend's failure is told as a failure. -/
theorem isFailure_failed (service : Service) (error : StorageError) :
    (Verdict.served (.failed error) : Verdict service).word.isFailure = true :=
  decide_eq_true (Error.ofStorage_ne_closed service.name error)

/-- A decision is recorded as a success of its service exactly if its call is told a reply. -/
theorem count_ok_records (d : Decision) (millis : Nat) (service : Service) :
    (d.verdict.records millis).countP (fun o => decide (o = .served service true)) =
      if decide (d.service = service) && d.verdict.word.isOk then 1 else 0 := by
  obtain ⟨call, made, verdict⟩ := d
  cases verdict with
  | served outcome =>
    cases outcome <;> simp [Verdict.records, Verdict.word, Told.isOk, List.countP_cons]
  | _ => simp [Verdict.records, Verdict.word, Told.isOk]

/-- A decision is recorded as a failure of its service exactly if its call is told one. -/
theorem count_err_records (d : Decision) (millis : Nat) (service : Service) :
    (d.verdict.records millis).countP (fun o => decide (o = .served service false)) =
      if decide (d.service = service) && d.verdict.word.isFailure then 1 else 0 := by
  obtain ⟨call, made, verdict⟩ := d
  cases verdict with
  | served outcome =>
    cases outcome with
    | failed error => simp [Verdict.records, isFailure_failed, List.countP_cons]
    | _ => simp [Verdict.records, Verdict.word, Told.isFailure]
  | _ => simp [Verdict.records, Verdict.word, Told.isFailure, List.countP_cons]

/-- A decision records a time for its service exactly if the request was made. -/
theorem count_lasted_records (d : Decision) (millis : Nat) (service : Service) :
    (d.verdict.records millis).countP (·.isLasted service) =
      if decide (d.service = service) && d.verdict.isMade then 1 else 0 := by
  obtain ⟨call, made, verdict⟩ := d
  cases verdict with
  | served outcome =>
    cases outcome <;>
      simp [Verdict.records, Verdict.isMade, Observation.isLasted, List.countP_cons]
  | _ => simp [Verdict.records, Verdict.isMade, Observation.isLasted, List.countP_cons]

namespace System

variable {s t : System} {c : InFlight} {i : Incident}

/-- The facts about requests that were observed so far, newest first. -/
def account (s : System) : List Observation := s.journal.observations.filter (·.isOfRequest)

/-- How often a success or a failure of a service was counted can be read off the account. -/
theorem count_served (s : System) (service : Service) (ok : Bool) :
    s.journal.count (.served service ok) =
      s.account.countP fun o => decide (o = .served service ok) := by
  rw [account, List.countP_filter]
  refine List.countP_congr fun o _ => ?_
  cases o <;> simp [Observation.isOfRequest]

/-- There is one latency of a service for each time on the account. -/
theorem length_latencies (s : System) (service : Service) :
    (Metrics.latencies s.journal.observations service).length =
      s.account.countP (·.isLasted service) := by
  rw [account, List.countP_filter, Metrics.latencies, List.length_filterMap_eq_countP]
  refine List.countP_congr fun o _ => ?_
  cases o <;> simp [Observation.isOfRequest, Observation.isLasted]

/-! ### What observes nothing about requests -/

/-- Waking workers leaves the account alone. -/
theorem account_wakeAll (s : System) (workers : List Worker) :
    (s.wakeAll workers).account = s.account := by
  rw [account, journal_wakeAll, account]

/-- Lines of the log leave the account alone. -/
theorem account_noteAll (s : System) (notices : List Notice) :
    (s.noteAll notices).account = s.account := by
  induction notices generalizing s with
  | nil => rfl
  | cons notice rest ih => exact ih (s.note notice)

/-- Facts that are not about requests leave the account alone. -/
theorem account_observeAll (s : System) {observations : List Observation}
    (h : ∀ o ∈ observations, o.isOfRequest = false) :
    (s.observeAll observations).account = s.account := by
  induction observations generalizing s with
  | nil => rfl
  | cons first rest ih =>
    rw [observeAll, ih _ fun o ho => h o (List.mem_cons_of_mem _ ho)]
    exact List.filter_cons_of_neg (by rw [h first List.mem_cons_self]; exact Bool.false_ne_true)

/-- Stopping the broker leaves the account alone. -/
theorem account_stop (s : System) : s.stop.account = s.account := by
  unfold stop
  split
  · rfl
  · exact account_wakeAll _ _

/-- Letting go of the broker leaves the account alone. -/
theorem account_release (s : System) : s.release.account = s.account := by
  simp only [release]
  split
  · exact account_stop _
  · rfl

/-- Unsubscribing leaves the account alone. -/
theorem account_unsubscribe (s : System) (id : Nat) : (s.unsubscribe id).account = s.account := by
  unfold unsubscribe
  split
  · exact account_wakeAll _ [.dispatcher id]
  · rfl

/-- Unsubscribing several subscriptions leaves the account alone. -/
theorem account_unsubscribeAll (s : System) (ids : List Nat) :
    (s.unsubscribeAll ids).account = s.account := by
  induction ids generalizing s with
  | nil => rfl
  | cons id rest ih => rw [unsubscribeAll, ih, account_unsubscribe]

/-- A registration leaves the account alone. -/
theorem account_register (s : System) (scope localStem : Key) (channel feed : Nat) :
    (s.register scope localStem channel feed).1.account = s.account :=
  account_wakeAll _ [.dispatcher s.nextSubscription]

/-- What a call does with its reply leaves the account alone. -/
theorem account_answered (s : System) (call : Call) (reply : Except Error call.service.Reply) :
    (s.answered call reply).1.account = s.account := by
  cases call with
  | watch scope stem channel =>
    cases reply with
    | ok feed => exact account_register s scope stem channel feed
    | error e => rfl
  | watchAll scope channel held stem rest =>
    cases reply with
    | ok feed => cases rest <;> exact account_register s scope stem channel feed
    | error e => exact account_unsubscribeAll s _
  | listAll | next | drain => cases reply <;> rfl
  | _ => rfl

/-- The end of a call leaves the account alone. -/
theorem account_finish (s : System) (c : InFlight) (answer : Answer) :
    (s.finish c answer).account = s.account := by
  have hnotes := account_noteAll s answer.notices
  simp only [finish]
  split
  · rw [account_release]
    exact hnotes
  · exact hnotes

/-- What becomes of a call after its reply leaves the account alone: the request was recorded
before. -/
theorem account_conclude (s : System) (c : InFlight) (reply : Except Error c.call.service.Reply) :
    (s.conclude c reply).account = s.account := by
  have hanswered := account_answered s c.call reply
  simp only [conclude]
  cases (s.answered c.call reply).2 with
  | ask call => exact hanswered
  | done answer => exact (account_finish _ c answer).trans hanswered

/-- Launching a call leaves the account alone. -/
theorem account_launch (s : System) (turn : Turn) (holdsBroker : Bool) :
    (s.launch turn holdsBroker).1.account = s.account := by
  cases turn with
  | ask call => exact account_wakeAll _ [.call s.nextCall]
  | done answer => exact account_noteAll { s with nextCall := s.nextCall + 1 } answer.notices

/-- A step of a dispatcher observes nothing about requests. -/
theorem account_afterStep (s : System) (d : Dispatcher) (reportFirst : Bool) :
    (s.afterStep d (s.wiring.stepOf d reportFirst)).account = s.account := by
  have hother : ∀ o ∈ (s.wiring.stepOf d reportFirst).observations, o.isOfRequest = false := by
    have hstep := (s.wiring.dispatchOf d).observations_step s.wiring.policy
      (s.wiring.stopped || d.cancelled) reportFirst
    rcases hstep with ⟨-, hbegun⟩ | ⟨-, hevents⟩
    · intro o ho
      have hone : (s.wiring.stepOf d reportFirst).observations = [.dispatchBegun] := hbegun
      rw [hone, List.mem_singleton] at ho
      rw [ho]
      rfl
    · intro o ho
      have hevent := hevents o ho
      cases o <;> first | rfl | cases hevent
  simp only [afterStep, account_wakeAll, account_observeAll _ hother, account_noteAll]
  rfl

/-- A poll of a dispatcher leaves the account alone. -/
theorem account_pollDispatcher (s : System) (id : Nat) (reportFirst : Bool) :
    (s.pollDispatcher id reportFirst).account = s.account := by
  cases hfind : s.dispatcher? id with
  | none => simp only [pollDispatcher, hfind]
  | some d =>
    by_cases hcredit : d.credit = 0
    · simp only [pollDispatcher, hfind, if_pos hcredit]
      rfl
    have hafter := s.account_afterStep d reportFirst
    rw [pollDispatcher_of_credit hfind hcredit]
    simp only
    cases (s.wiring.stepOf d reportFirst).pace <;> exact hafter

/-- A move that polls no call leaves the account alone. -/
theorem account_move {m : Move} (hspares : ∀ id, Incident.polls id (.occur (.move m)) = false) :
    (s.move m).account = s.account := by
  cases m with
  | poll worker reportFirst =>
    cases worker with
    | call id => simp [Incident.polls] at hspares
    | dispatcher id => exact account_pollDispatcher s id reportFirst
  | launch turn holdsBroker => exact account_launch s turn holdsBroker
  | take id =>
    simp only [move, takeAnswer]
    cases s.finished.find? _ <;> rfl
  | close holdsBroker =>
    refine (account_launch _ _ holdsBroker).trans ?_
    unfold beginClose
    split
    · rfl
    · exact account_stop _
  | release => exact account_release s
  | note notices => exact account_noteAll s notices
  | ask request => exact account_wakeAll _ _
  | setAvailable available =>
    cases available with
    | true => rfl
    | false => exact account_wakeAll _ _
  | openChannel capacity held =>
    simp only [move, openChannel]
    split <;> rfl
  | receive n =>
    simp only [move, receive]
    split
    · exact account_wakeAll _ _
    · rfl
  | dropReceiver n => exact account_wakeAll _ _
  | unsubscribe id => exact account_unsubscribe s id
  | readFeed n | leaveFeed n =>
    simp only [move]
    split <;> rfl
  | _ => rfl

/-- An incident that polls no call leaves the account alone. -/
theorem account_incur (hspares : ∀ id, i.polls id = false) : (s.incur i).account = s.account := by
  cases i with
  | occur o =>
    cases o with
    | move m => exact account_move hspares
    | _ => rfl
  | _ => rfl

/-! ### What a verdict adds to the account -/

/-- A poll puts on the account what it decides, and nothing if it decides nothing. -/
theorem Decides.account {verdict : Option (Verdict c.call.service)} (h : Decides s c verdict t) :
    ∃ millis, t.account = verdict.elim [] (·.records millis) ++ s.account := by
  cases h with
  | still e waits => exact ⟨0, rfl⟩
  | waits fresh script => exact ⟨0, rfl⟩
  | rejected => exact ⟨0, account_conclude s c _⟩
  | cut millis => exact ⟨millis, account_conclude _ c _⟩
  | @served u taken started outcome =>
    have hsame : u.account = s.account := by rw [System.account, taken.journal, System.account]
    rw [← hsame]
    refine ⟨u.now - started, ?_⟩
    cases outcome with
    | ok reply => exact account_conclude _ c _
    | failed error => exact account_conclude _ c _
    | aborted why => exact account_finish _ c _
  | overdue allowed notice millis => exact ⟨millis, account_conclude _ c _⟩

/-- A juncture puts on the account what it decides, and nothing if it decides nothing. -/
theorem account_pass (s : System) (j : Juncture) :
    ∃ millis, (s.pass j).account =
      (s.decision? j).elim [] (fun d => d.verdict.records millis) ++ s.account := by
  cases s.pass_cases j with
  | polls c backend poll found decides =>
    obtain ⟨millis, haccount⟩ := decides.account
    refine ⟨millis, ?_⟩
    rw [haccount, decision?_of_poll found poll]
    cases s.verdict? backend c.call c.exchange <;> rfl
  | misses id backend poll gone same =>
    refine ⟨0, ?_⟩
    have hnone : s.decision? j = none := by
      simp only [decision?, poll, gone, Option.bind_some, Option.bind_none]
    rw [same, hnone]
    rfl
  | incident i is poll spares =>
    have hnone : s.decision? j = none := by rw [decision?, poll, Option.bind_none]
    subst is
    refine ⟨0, ?_⟩
    rw [hnone]
    exact account_incur spares

/-- What each verdict adds at most once to the account is counted like the verdicts. -/
theorem count_passes {p : Observation → Bool} {q : Decision → Bool}
    (hrecords : ∀ d millis, (d.verdict.records millis).countP p = if q d then 1 else 0)
    (s : System) (run : List Juncture) :
    (s.passes run).account.countP p = s.account.countP p + (s.decisions run).countP q := by
  induction run generalizing s with
  | nil => rfl
  | cons j run ih =>
    obtain ⟨millis, haccount⟩ := s.account_pass j
    have hstep : ((s.decision? j).elim [] fun d => d.verdict.records millis).countP p =
        (s.decision? j).toList.countP q := by
      cases s.decision? j with
      | none => rfl
      | some d =>
        have hone := hrecords d millis
        rw [Option.elim_some, Option.toList_some, List.countP_singleton, hone]
    rw [passes_cons, ih, haccount, List.countP_append, decisions, List.countP_append, hstep]
    omega

/-- The counters of every service agree with the decisions of the run. -/
theorem tallied_passes (settings : Settings) (run : List Juncture) (service : Service) :
    Tallied (decisions { settings } run) (passes { settings } run).journal service where
  ok := by
    rw [count_served, count_passes fun d millis => count_ok_records d millis service]
    exact Nat.zero_add _
  err := by
    rw [count_served, count_passes fun d millis => count_err_records d millis service]
    exact Nat.zero_add _
  ended := by
    rw [length_latencies, count_passes fun d millis => count_lasted_records d millis service]
    exact Nat.zero_add _

/-! ### The law -/

/-- In every run, with any backend behind every poll, each request has one outcome and is counted
once: a broker that has stopped takes no request to the backend; otherwise the first poll decides
that finds the broker stopped, the backend done, or the time over, in this order. -/
theorem requests_settled_and_counted_once (settings : Settings) (run : List Juncture) :
    (∀ service, service ≠ .close →
      Tallied (decisions { settings } run) (passes { settings } run).journal service) ∧
      ∀ c, (passes { settings } run).desk.call? c.id = some c → c.call.service ≠ .close →
        ∀ more, (passes { settings } run).Settles c more :=
  ⟨fun service _ => tallied_passes settings run service,
    fun _ hfound hother => settles (booked_passes (booked_new settings) run) hfound hother⟩

/-- A put that a backend fails after 10 ms, and a get that nobody ever answers, each polled at its
moment: the one is told of the failure, as the backend was done in time, the other of the time that
is over, and both are counted. -/
theorem requests_settled_and_counted_once_failing :
    let settings : Settings := { requestTimeout := 20 }
    let put : Call := .put [] ['a'] [1] none
    let get : Call := .get [] ['a']
    let failing : Backend := fun _ _ =>
      { store := {}, reached := [], outcome := .failed (.unavailable "gone") }
    let polls (id : Nat) : Juncture := .incident (.occur (.move (.poll (.call id) false)))
    let run : List Juncture := [
      .incident (.plan ⟨.put, .forward 10⟩), .incident (.plan ⟨.get, .hang⟩),
      .incident (.occur (.move (.launch (.ask put) false))),
      .incident (.occur (.move (.launch (.ask get) false))), polls 0, polls 1]
    let more : List Juncture := [.incident (.occur (.move (.pass 10))), .poll 0 failing,
      .incident (.occur (.move (.pass 20))), .poll 1 failing]
    let exchange (due : Option Nat) : Exchange := { started := 0, deadline := 20, due }
    let waiting (id : Nat) (call : Call) (due : Option Nat) : InFlight :=
      { id, call, exchange := some (exchange due) }
    let s := passes { settings } run
    let t := passes { settings } (run ++ more)
    (s.desk.call? 0 = some (waiting 0 put (some 10)) ∧ s.Settles (waiting 0 put (some 10)) more) ∧
    (s.desk.call? 1 = some (waiting 1 get none) ∧ s.Settles (waiting 1 get none) more) ∧
    (s.Punctual more ∧
      ruling 0 put s (some (exchange (some 10))) more =
        some (.served (.failed (.unavailable "gone"))) ∧
      ∃ due, some 10 = some due ∧ due ≤ 20) ∧
    (ruling 1 get s (some (exchange none)) more = some (.overdue settings.timeout) ∧
      ∀ due, none = some due → 20 < due) ∧
    (t.finished.map fun e => (e.1, e.2.failure?)) =
      [(0, some (.storeUnavailable "put" (.unavailable "gone"))),
        (1, some (.storeUnavailable "get" (.timeout settings.timeout)))] ∧
    Tallied (decisions { settings } (run ++ more)) t.journal .get ∧
      t.journal.count (.served .get false) = 1 := by
  intro settings put get failing polls run more exchange waiting s t
  have hput : s.desk.call? 0 = some (waiting 0 put (some 10)) := by decide +kernel
  have hget : s.desk.call? 1 = some (waiting 1 get none) := by decide +kernel
  have hpunctual : s.Punctual more := by decide +kernel
  have hserved : ruling 0 put s (some (exchange (some 10))) more =
      some (.served (.failed (.unavailable "gone"))) := by rfl
  have hoverdue : ruling 1 get s (some (exchange none)) more =
      some (.overdue settings.timeout) := by rfl
  obtain ⟨-, hsettles⟩ := requests_settled_and_counted_once settings run
  obtain ⟨htallied, -⟩ := requests_settled_and_counted_once settings (run ++ more)
  have hputs := hsettles (waiting 0 put (some 10)) hput (by decide) more
  have hgets := hsettles (waiting 1 get none) hget (by decide) more
  exact ⟨⟨hput, hputs⟩, ⟨hget, hgets⟩,
    ⟨hpunctual, hserved, hputs.served (exchange (some 10)) rfl hpunctual _ hserved⟩,
    ⟨hoverdue, (hgets.overdue (exchange none) rfl _ hoverdue).2⟩, by decide +kernel,
    htallied .get (by decide), by decide +kernel⟩

end System

end KeyBroker
