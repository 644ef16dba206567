import KeyBroker.Proofs.System.Told

/-!
# How a request is decided

A poll decides the request of a call by the first of these that it finds: the broker stopped, the
backend done, the time over. What the backend says is left open here: any backend may stand in
for the store in any poll. One relation says all that a poll does, and what it observes.
-/

namespace KeyBroker

/-- What a backend makes of a request. -/
abbrev Backend := (service : Service) → Request service → Store.Served service

/-- When a scripted store acts on a request that is made at `now`, if it ever does. -/
def Scripted.due {service : Service} (now : Nat) : Scripted service → Option Nat
  | .forward delay => some (now + delay)
  | _ => none

/-- How a request of a call is decided. -/
inductive Verdict (service : Service) where
  /-- The broker had stopped before the request was made. -/
  | rejected
  /-- The broker stopped while the call waited. -/
  | cut
  | served (outcome : Outcome service.Reply)
  | overdue (allowed : Duration)

namespace Verdict

variable {service : Service}

/-- What the call is told about its request, for every service but closing. -/
def word : Verdict service → Told service
  | .rejected | .cut => .reply (.error .closed)
  | .served (.ok reply) => .reply (.ok reply)
  | .served (.failed error) => .reply (.error (.ofStorage service.name error))
  | .served (.aborted why) => .aborted why
  | .overdue allowed => .reply (.error (.storeUnavailable service.name (.timeout allowed)))

/-- What is observed about a request that took `millis`, newest first. -/
def records (millis : Nat) : Verdict service → List Observation
  | .rejected => []
  | .cut | .served (.aborted _) => [.lasted service millis]
  | .served (.ok _) => [.lasted service millis, .served service true]
  | .served (.failed _) | .overdue _ => [.lasted service millis, .served service false]

end Verdict

/-- For every service but closing a failure of the store is told with the name of the service. -/
theorem Service.failure_of_ne_close {service : Service} (h : service ≠ .close)
    (error : StorageError) : (service.failure error).1 = .ofStorage service.name error := by
  cases service with
  | close => exact absurd rfl h
  | _ => rfl

/-- The outcome of a backend is told to a call as any outcome of the store is. -/
theorem Verdict.word_served {service : Service} (h : service ≠ .close)
    (outcome : Outcome service.Reply) : (Verdict.served outcome).word = outcome.told := by
  cases outcome with
  | failed error => rw [word, Outcome.told, Service.failure_of_ne_close h]
  | _ => rfl

namespace System

variable {s t : System} {c : InFlight} {id : Nat}

/-! ### Polls -/

/-- The backend that the store is by itself. -/
def backend (s : System) : Backend := fun _ request => s.store.serve s.instant request

/-- The system once a backend has carried out the request of a call, before the call goes on. -/
def servedBy (s : System) (backend : Backend) (c : InFlight) : System :=
  let served := backend c.call.service c.call.request
  let script := if c.exchange.isNone then (s.script.next c.call.service).2 else s.script
  { s with store := served.store, script }.wakeReaders served.reached

/-- Polls a call while a backend stands in for the store. -/
def pollWith (s : System) (backend : Backend) (id : Nat) : System :=
  match s.desk.call? id with
  | none => s
  | some c =>
    if s.actsOn c then
      (s.servedBy backend c).settle c (c.exchange.elim s.now (·.started))
        (backend c.call.service c.call.request).outcome
    else s.pollCall id

/-- The wait that a call begins in a poll. -/
def exchange (s : System) (call : Call) : Exchange where
  started := s.now
  deadline := s.now + s.settings.requestTimeout
  due := (s.script.next call.service).1.due s.now

/-- How a poll decides a request that waits as `exchange` says or was not made yet. -/
def verdict? (s : System) (backend : Backend) (call : Call) (exchange : Option Exchange) :
    Option (Verdict call.service) :=
  match exchange with
  | none =>
    if s.stopped && call.endsWithBroker then some .rejected
    else
      match s.script.next call.service with
      | (.forward 0, _) => some (.served (backend call.service call.request).outcome)
      | (.forward _, _) | (.hang, _) => none
      | (.fail error, _) => some (.served (.failed error))
      | (.reply planned, script) =>
        some (.served (.ok (fulfil { s with script } call.service planned).2))
  | some e =>
    if s.stopped && call.endsWithBroker then some .cut
    else if e.due.any (· ≤ s.now) then
      some (.served (backend call.service call.request).outcome)
    else if e.deadline ≤ s.now then some (.overdue s.settings.timeout)
    else none

/-- A request was taken to the backend, and nothing else has happened. -/
structure Taken (s t : System) : Prop where
  before : s.Before t
  settings : t.settings = s.settings
  journal : t.journal = s.journal

/-- What a poll of the call `c` comes to with each verdict. -/
inductive Decides (s : System) (c : InFlight) :
    Option (Verdict c.call.service) → System → Prop where
  | still (e : Exchange) (waits : c.exchange = some e) : Decides s c none s
  | waits (fresh : c.exchange = none) (script : Script) :
    Decides s c none ({ s with script }.await c (s.exchange c.call).due)
  | rejected : Decides s c (some .rejected) (s.conclude c (.error .closed))
  | cut (millis : Nat) :
    Decides s c (some .cut)
      ((s.observe (.lasted c.call.service millis)).conclude c (.error .closed))
  | served {t : System} (taken : s.Taken t) (started : Nat)
    (outcome : Outcome c.call.service.Reply) :
    Decides s c (some (.served outcome)) (t.settle c started outcome)
  | overdue (allowed : Duration) (notice : Notice) (millis : Nat) :
    Decides s c (some (.overdue allowed))
      ((((s.observe (.served c.call.service false)).note notice).observe
        (.lasted c.call.service millis)).conclude c
          (.error (.storeUnavailable c.call.service.name (.timeout allowed))))

/-- Waking readers after a request only takes the request to the backend. -/
theorem taken_wakeReaders (s : System) (store : Store) (script : Script) (feeds : List Nat) :
    s.Taken ({ s with store, script }.wakeReaders feeds) where
  before := (before_withStore s store script).trans (before_wakeReaders _ feeds)
  settings := congrArg Frame.settings (frame_wakeAll _ _)
  journal := journal_wakeAll _ _

/-- A backend that carries out a request only has it taken. -/
theorem taken_servedBy (s : System) (backend : Backend) (c : InFlight) :
    s.Taken (s.servedBy backend c) :=
  taken_wakeReaders s _ _ _

/-- Preparing a planned reply leaves the journal alone. -/
theorem journal_fulfil (s : System) (service : Service) (planned : service.Planned) :
    (s.fulfil service planned).1.journal = s.journal := by
  cases service with
  | watch =>
    simp only [fulfil, openStub, endStub]
    split
    · rfl
    · exact journal_wakeAll _ _
  | _ => rfl

/-- A planned reply only has the request taken. -/
theorem taken_fulfil (s : System) (script : Script) (service : Service)
    (planned : service.Planned) :
    s.Taken (fulfil { s with script } service planned).1 where
  before := (before_withStore s s.store script).trans (before_fulfil _ service planned)
  settings := congrArg Frame.settings (frame_fulfil { s with script } service planned)
  journal := journal_fulfil { s with script } service planned

/-- Polling a call with a backend settles it by the outcome of the backend, where the store would
act. -/
theorem pollWith_of_found (hfound : s.desk.call? c.id = some c) (backend : Backend) :
    s.pollWith backend c.id =
      if s.actsOn c then
        (s.servedBy backend c).settle c (c.exchange.elim s.now (·.started))
          (backend c.call.service c.call.request).outcome
      else s.pollCall c.id := by
  rw [pollWith, hfound]

/-- With the store for a backend, a poll is a poll of the system. -/
theorem pollWith_backend (s : System) (id : Nat) : s.pollWith s.backend id = s.pollCall id := by
  cases hfound : s.desk.call? id with
  | none => rw [pollWith, hfound, pollCall_of_gone hfound]
  | some c =>
    obtain rfl := Desk.id_of_call? hfound
    rw [pollWith_of_found hfound]
    cases hacts : s.actsOn c with
    | false => rfl
    | true =>
      have hfind : s.calls.find? (fun other => decide (other.id = c.id)) = some c := hfound
      simp only [actsOn, Bool.and_eq_true, Bool.not_eq_true'] at hacts
      obtain ⟨hserves, hready⟩ := hacts
      simp only [if_true, pollCall, hfind]
      cases hexchange : c.exchange with
      | none =>
        rw [hexchange] at hready
        simp only [makeRequest, servedBy, hserves, Bool.false_eq_true, if_false, hexchange]
        generalize s.script.next c.call.service = next at hready
        obtain ⟨answer, script⟩ := next
        cases answer with
        | forward delay =>
          cases delay with
          | zero => rfl
          | succ delay => cases hready
        | _ => cases hready
      | some e =>
        rw [hexchange] at hready
        simp only [checkAnswer, servedBy, hserves, hready, Bool.false_eq_true, if_false, if_true,
          hexchange]
        rfl

/-- A poll does what its verdict says. -/
theorem decides_pollWith (hfound : s.desk.call? c.id = some c) (backend : Backend) :
    Decides s c (s.verdict? backend c.call c.exchange) (s.pollWith backend c.id) := by
  have hfind : s.calls.find? (fun other => decide (other.id = c.id)) = some c := hfound
  have hserved := s.taken_servedBy backend c
  rw [pollWith_of_found hfound]
  simp only [actsOn, pollCall, hfind, verdict?]
  generalize s.servedBy backend c = t at hserved
  generalize (backend c.call.service c.call.request).outcome = outcome
  -- the stop of the broker comes first, then a reply that is due, then the deadline
  cases hstop : s.stopped && c.call.endsWithBroker with
  | true =>
    cases hexchange : c.exchange with
    | none =>
      simp only [Bool.not_true, Bool.false_and, Bool.false_eq_true, if_false, makeRequest, hstop,
        if_true]
      exact .rejected
    | some e =>
      simp only [Bool.not_true, Bool.false_and, Bool.false_eq_true, if_false, checkAnswer, hstop,
        if_true]
      exact .cut _
  | false =>
    cases hexchange : c.exchange with
    | none =>
      simp only [Bool.not_false, Bool.true_and, makeRequest, hstop, Bool.false_eq_true, if_false]
      have hdue : (s.exchange c.call).due = (s.script.next c.call.service).1.due s.now := rfl
      generalize s.script.next c.call.service = next at hdue
      obtain ⟨answer, script⟩ := next
      cases answer with
      | forward delay =>
        cases delay with
        | zero => exact .served hserved _ _
        | succ delay =>
          have hwaits := Decides.waits (s := s) hexchange script
          rwa [hdue] at hwaits
      | hang =>
        have hwaits := Decides.waits (s := s) hexchange script
        rwa [hdue] at hwaits
      | fail error =>
        have htaken : s.Taken { s with script } := ⟨before_withStore s s.store script, rfl, rfl⟩
        exact .served htaken s.now (.failed error)
      | reply planned => exact .served (s.taken_fulfil script c.call.service planned) _ _
    | some e =>
      simp only [Bool.not_false, Bool.true_and, checkAnswer, hstop, Bool.false_eq_true, if_false]
      cases hdue : e.due.any fun due => decide (due ≤ s.now) with
      | true => exact .served hserved _ _
      | false =>
        simp only [Bool.false_eq_true, if_false]
        split
        · exact .overdue _ _ _
        · exact .still e hexchange

end System

end KeyBroker
