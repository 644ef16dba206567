import KeyBroker.Proofs.System.Asking
import KeyBroker.Proofs.Verdict.Backends

/-!
# The first poll that decides

In a run in which any backend may stand in for the store, the request of a call is decided by the
first poll of that call that finds something out, and the call waits until then. The verdicts of
a run are kept in a list, in which the request is found with the verdict that the poll gave.
Where the clock never passes the moment of a waiting call, the backend is heard if and only if it
is done by the deadline.
-/

namespace KeyBroker

/-- Something that happens to a system while any backend may stand in for the store. -/
inductive Juncture where
  | incident (i : Incident)
  /-- A call is polled, and `backend` answers in place of the store. -/
  | poll (id : Nat) (backend : Backend)

/-- The call that is polled, with the backend that answers. -/
def Juncture.poll? (s : System) : Juncture → Option (Nat × Backend)
  | .incident (.occur (.move (.poll (.call id) _))) => some (id, s.backend)
  | .incident _ => none
  | .poll id backend => some (id, backend)

/-- A request that was decided, with the number of its call. -/
structure Decision where
  call : Nat
  service : Service
  verdict : Verdict service

namespace System

/-- The system after a juncture. -/
def pass (s : System) : Juncture → System
  | .incident i => s.incur i
  | .poll id backend => s.pollWith backend id

/-- The system after junctures in order. -/
def passes (s : System) (run : List Juncture) : System := run.foldl pass s

/-- The request that a juncture decides. -/
def decision? (s : System) (j : Juncture) : Option Decision :=
  (j.poll? s).bind fun (id, backend) =>
    (s.desk.call? id).bind fun c =>
      (s.verdict? backend c.call c.exchange).map fun verdict => ⟨id, c.call.service, verdict⟩

/-- The requests that junctures in order decide. -/
def decisions (s : System) : List Juncture → List Decision
  | [] => []
  | j :: run => (s.decision? j).toList ++ (s.pass j).decisions run

/-- The verdict of the first poll in a run that decides the request of `call`, number `id`, which
waits as `exchange` says or was not made yet. -/
def ruling (id : Nat) (call : Call) (s : System) (exchange : Option Exchange) :
    List Juncture → Option (Verdict call.service)
  | [] => none
  | j :: run =>
    match (j.poll? s).filter fun polled => decide (polled.1 = id) with
    | none => ruling id call (s.pass j) exchange run
    | some (_, backend) =>
      match s.verdict? backend call exchange with
      | some verdict => some verdict
      | none => ruling id call (s.pass j) (some (exchange.getD (s.exchange call))) run

/-- No waiting call has been left alone beyond its moment. -/
def OnTime (s : System) : Prop :=
  ∀ c ∈ s.calls, ∀ e, c.exchange = some e → s.now ≤ e.wakeAt

instance (s : System) : Decidable s.OnTime :=
  inferInstanceAs (Decidable (∀ c ∈ s.calls, ∀ e ∈ c.exchange, s.now ≤ e.wakeAt))

/-- At no time in a run is a waiting call left alone beyond its moment. -/
def Punctual (s : System) : List Juncture → Prop
  | [] => s.OnTime
  | j :: run => s.OnTime ∧ (s.pass j).Punctual run

instance decidablePunctual (s : System) : (run : List Juncture) → Decidable (s.Punctual run)
  | [] => inferInstanceAs (Decidable s.OnTime)
  | j :: run =>
    have := decidablePunctual (s.pass j) run
    inferInstanceAs (Decidable (s.OnTime ∧ (s.pass j).Punctual run))

/-- What becomes in a run of the request of the call `c`. -/
structure Settles (s : System) (c : InFlight) (run : List Juncture) : Prop where
  /-- Without a verdict, the call still waits. -/
  waits : ruling c.id c.call s c.exchange run = none →
    ∃ exchange, (s.passes run).desk.call? c.id = some { c with exchange }
  /-- The call waits for the poll that gives the verdict, and goes on with that. -/
  ends : ∀ verdict, ruling c.id c.call s c.exchange run = some verdict →
    ∃ early j late, run = early ++ j :: late ∧
      (∃ exchange, (s.passes early).desk.call? c.id = some { c with exchange }) ∧
      ∃ t, ((s.passes early).pass j).desk.standing c.id =
        some (heeded t c.call verdict.word)
  /-- This verdict is the first that the run has for the call. -/
  noted : (s.decisions run).find? (fun d => decide (d.call = c.id)) =
    (ruling c.id c.call s c.exchange run).map fun verdict => ⟨c.id, c.call.service, verdict⟩
  /-- The first poll makes the request and begins the wait, unless it gives a verdict. -/
  begins : c.exchange = none → ∀ backend, s.verdict? backend c.call none = none →
    (s.pollWith backend c.id).desk.call? c.id =
      some { c with exchange := some (s.exchange c.call) }
  /-- On a stopped broker the request is not made. -/
  rejected : c.exchange = none → s.stopped = true → ∀ backend,
    s.verdict? backend c.call none = some .rejected ∧
      (s.pollWith backend c.id).store = s.store ∧ (s.pollWith backend c.id).script = s.script
  /-- A request is overdue only if the backend is not done by the deadline. -/
  overdue : ∀ e, c.exchange = some e → ∀ allowed,
    ruling c.id c.call s c.exchange run = some (.overdue allowed) →
      allowed = s.settings.timeout ∧ ∀ due, e.due = some due → e.deadline < due
  /-- On time, the backend is heard only if it is done by the deadline. -/
  served : ∀ e, c.exchange = some e → s.Punctual run → ∀ outcome,
    ruling c.id c.call s c.exchange run = some (.served outcome) →
      ∃ due, e.due = some due ∧ due ≤ e.deadline

variable {s t : System} {c : InFlight} {id : Nat} {j : Juncture}

/-- Junctures in order come one after the other. -/
@[simp] theorem passes_cons (s : System) (j : Juncture) (run : List Juncture) :
    s.passes (j :: run) = (s.pass j).passes run := rfl

/-! ### One poll -/

section Decides

variable {verdict : Option (Verdict c.call.service)}

/-- A poll that decides nothing leaves the call waiting as it waits, or lets it begin to. -/
theorem Decides.call?_none (h : Decides s c none t) (hfound : s.desk.call? c.id = some c) :
    t.desk.call? c.id =
      some { c with exchange := some (c.exchange.getD (s.exchange c.call)) } := by
  cases h with
  | still e waits => rw [hfound, waits, Option.getD_some, ← waits]
  | waits fresh script =>
    rw [fresh, Option.getD_none]
    exact Desk.call?_wait s.desk { c with exchange := some (s.exchange c.call) }

/-- A poll leaves the desk alone, puts the call behind all others, or brings it further. -/
theorem Decides.desk (h : Decides s c verdict t) :
    t.desk = s.desk ∨ t.desk = s.desk.wait { c with exchange := some (s.exchange c.call) } ∨
      ∃ store turn, t.desk = (s.desk.beside store).proceed c turn := by
  cases h with
  | still e waits => exact .inl rfl
  | waits fresh script => exact .inr (.inl rfl)
  | rejected => exact .inr (.inr ⟨s.store, _, desk_conclude s c _⟩)
  | cut millis => exact .inr (.inr ⟨s.store, _, desk_conclude _ c _⟩)
  | @served u taken started outcome =>
    obtain ⟨turn, hdesk, -⟩ := desk_settle u c started outcome
    rw [taken.before.desk] at hdesk
    exact .inr (.inr ⟨u.store, turn, hdesk⟩)
  | overdue allowed notice millis => exact .inr (.inr ⟨s.store, _, desk_conclude _ c _⟩)

/-- A poll leaves a booked desk booked, whatever it decides. -/
theorem Decides.booked (h : Decides s c verdict t) (hbooked : s.desk.Booked)
    (hfound : s.desk.call? c.id = some c) : t.desk.Booked := by
  rcases h.desk with hsame | hwaits | ⟨store, turn, hproceeds⟩
  · rwa [hsame]
  · rw [hwaits]
    exact hbooked.wait hfound _
  · rw [hproceeds]
    exact (hbooked.beside store).proceed hfound turn

/-- A poll leaves all other calls as they are, whatever it decides. -/
theorem Decides.call?_of_ne (h : Decides s c verdict t) (hfound : s.desk.call? c.id = some c)
    (hne : id ≠ c.id) : t.desk.call? id = s.desk.call? id := by
  rcases h.desk with hsame | hwaits | ⟨store, turn, hproceeds⟩
  · rw [hsame]
  · rw [hwaits]
    exact call?_wait_of_ne (c := { c with exchange := _ }) s.desk hne
  · rw [hproceeds]
    exact call?_proceed_of_ne (d := s.desk.beside store) hfound turn hne

/-- A poll leaves the settings alone. -/
theorem Decides.settings (h : Decides s c verdict t) : t.settings = s.settings := by
  have hconclude (u : System) (reply : Except Error c.call.service.Reply) :
      (u.conclude c reply).settings = u.settings :=
    congrArg Frame.settings (frame_conclude u c reply)
  cases h with
  | still e waits => rfl
  | waits fresh script => rfl
  | rejected => exact hconclude s _
  | cut millis => exact hconclude (s.observe (.lasted c.call.service millis)) _
  | @served u taken started outcome =>
    rw [← taken.settings]
    cases outcome with
    | ok reply => exact hconclude ((u.observe _).observe _) _
    | failed error => exact hconclude (((u.observe _).note _).observe _) _
    | aborted why => exact congrArg Frame.settings (frame_finish (u.observe _) c _)
  | overdue allowed notice millis =>
    exact hconclude (((s.observe (.served c.call.service false)).note notice).observe
      (.lasted c.call.service millis)) _

/-- A call goes on with the verdict. -/
theorem Decides.standing {verdict : Verdict c.call.service} (h : Decides s c (some verdict) t)
    (hbooked : s.desk.Booked) (hfound : s.desk.call? c.id = some c)
    (hother : c.call.service ≠ .close) :
    ∃ u, t.desk.standing c.id = some (heeded u c.call verdict.word) := by
  cases h with
  | rejected => exact ⟨s, (Before.refl s).standing_conclude hbooked hfound _⟩
  | cut millis => exact ⟨_, (before_lasted s _ millis).standing_conclude hbooked hfound _⟩
  | @served u taken started outcome =>
    rw [Verdict.word_served hother]
    cases outcome with
    | ok reply =>
      have hbefore := taken.before.trans (before_ended u c.call.service true (u.now - started))
      exact ⟨_, hbefore.standing_conclude hbooked hfound (.ok reply)⟩
    | failed error =>
      have hbefore := taken.before.trans
        (before_failed u c.call.service (c.call.service.failure error).2 (u.now - started))
      exact ⟨_, hbefore.standing_conclude hbooked hfound (.error (c.call.service.failure error).1)⟩
    | aborted why =>
      have hbefore := taken.before.trans (before_lasted u c.call.service (u.now - started))
      exact ⟨s, hbefore.standing_aborted hbooked hfound why⟩
  | overdue allowed notice millis =>
    exact ⟨_, (before_failed s _ notice millis).standing_conclude hbooked hfound _⟩

end Decides

/-! ### Junctures -/

/-- A juncture polls a call that is there, or one that is not, or it polls none. -/
inductive Passes (s : System) (j : Juncture) : Prop where
  | polls (c : InFlight) (backend : Backend) (poll : j.poll? s = some (c.id, backend))
    (found : s.desk.call? c.id = some c)
    (decides : Decides s c (s.verdict? backend c.call c.exchange) (s.pass j))
  | misses (id : Nat) (backend : Backend) (poll : j.poll? s = some (id, backend))
    (gone : s.desk.call? id = none) (same : s.pass j = s)
  | incident (i : Incident) (is : j = .incident i) (poll : j.poll? s = none)
    (spares : ∀ id, i.polls id = false)

/-- A juncture that polls a call with a backend passes, whether the call is there or not. -/
theorem passes_of_poll {backend : Backend} (hpoll : j.poll? s = some (id, backend))
    (hpass : s.pass j = s.pollWith backend id) : Passes s j := by
  cases hfound : s.desk.call? id with
  | none =>
    refine .misses id backend hpoll hfound ?_
    rw [hpass, pollWith, hfound]
  | some c =>
    obtain rfl := Desk.id_of_call? hfound
    refine .polls c backend hpoll hfound ?_
    rw [hpass]
    exact decides_pollWith hfound backend

/-- Every juncture polls a call that is there, or one that is not, or polls none. -/
theorem pass_cases (s : System) (j : Juncture) : Passes s j := by
  cases j with
  | poll id backend => exact passes_of_poll rfl rfl
  | incident i =>
    by_cases hpolls : ∃ id, i.polls id = true
    · obtain ⟨id, hid⟩ := hpolls
      obtain ⟨reportFirst, rfl⟩ := Incident.eq_poll hid
      exact passes_of_poll rfl (pollWith_backend s id).symm
    · have hspares : ∀ id, i.polls id = false := fun id =>
        Bool.eq_false_iff.2 fun hid => hpolls ⟨id, hid⟩
      refine .incident i rfl ?_ hspares
      unfold Juncture.poll?
      split
      · next n _ heq =>
        cases heq
        simp [Incident.polls] at hspares
      · rfl
      · next heq => cases heq

/-- A booked desk stays booked in a juncture. -/
theorem booked_pass (hbooked : s.desk.Booked) (j : Juncture) : (s.pass j).desk.Booked := by
  cases s.pass_cases j with
  | polls c backend poll found decides => exact decides.booked hbooked found
  | misses id backend poll gone same => rwa [same]
  | incident i is poll spares =>
    subst is
    exact (stirs_incur s i).booked hbooked

/-- A booked desk stays booked through junctures in order. -/
theorem booked_passes (hbooked : s.desk.Booked) (run : List Juncture) :
    (s.passes run).desk.Booked := by
  induction run generalizing s with
  | nil => exact hbooked
  | cons j run ih => exact ih (booked_pass hbooked j)

/-- A juncture leaves the settings alone. -/
theorem settings_pass (s : System) (j : Juncture) : (s.pass j).settings = s.settings := by
  cases s.pass_cases j with
  | polls c backend poll found decides => exact decides.settings
  | misses id backend poll gone same => rw [same]
  | incident i is poll spares =>
    subst is
    exact (clock_incur s i).1

/-- What does not poll a call leaves it as it is. -/
theorem call?_pass_of_other (hid : id < s.nextCall)
    (hother : (j.poll? s).filter (fun polled => decide (polled.1 = id)) = none) :
    (s.pass j).desk.call? id = s.desk.call? id := by
  cases s.pass_cases j with
  | polls c backend poll found decides =>
    have hne : id ≠ c.id := by
      rintro rfl
      simp [poll] at hother
    exact decides.call?_of_ne found hne
  | misses id backend poll gone same => rw [same]
  | incident i is poll spares =>
    subst is
    exact call?_incur_of_not_polls hid (spares id)

/-- What polls a call decides its request or leaves it waiting. -/
theorem decides_pass {backend : Backend} (hfound : s.desk.call? c.id = some c)
    (hpoll : (j.poll? s).filter (fun polled => decide (polled.1 = c.id)) = some (id, backend)) :
    j.poll? s = some (c.id, backend) ∧
      Decides s c (s.verdict? backend c.call c.exchange) (s.pass j) := by
  obtain ⟨hsome, hid⟩ := Option.filter_eq_some_iff.1 hpoll
  obtain rfl : id = c.id := of_decide_eq_true hid
  refine ⟨hsome, ?_⟩
  cases s.pass_cases j with
  | polls other backend' poll found decides =>
    obtain ⟨hsame, rfl⟩ := Prod.mk.inj (Option.some.inj (hsome.symm.trans poll))
    rw [← hsame, hfound] at found
    obtain rfl := Option.some.inj found
    exact decides
  | misses n backend' poll gone same =>
    obtain ⟨rfl, -⟩ := Prod.mk.inj (Option.some.inj (hsome.symm.trans poll))
    cases gone.symm.trans hfound
  | incident i is poll spares => cases poll.symm.trans hsome

/-- A juncture that does not poll a call decides no request of it. -/
theorem decision?_of_other
    (hother : (j.poll? s).filter (fun polled => decide (polled.1 = id)) = none) :
    ∀ d ∈ s.decision? j, d.call ≠ id := by
  intro d hd heq
  obtain ⟨⟨n, backend⟩, hpoll, hd⟩ := Option.bind_eq_some_iff.1 hd
  obtain ⟨c, -, hd⟩ := Option.bind_eq_some_iff.1 hd
  obtain ⟨verdict, -, rfl⟩ := Option.map_eq_some_iff.1 hd
  obtain rfl : n = id := heq
  simp [hpoll] at hother

/-- The request that a poll of a call decides. -/
theorem decision?_of_poll {backend : Backend} (hfound : s.desk.call? c.id = some c)
    (hpoll : j.poll? s = some (c.id, backend)) :
    s.decision? j =
      (s.verdict? backend c.call c.exchange).map fun verdict =>
        ⟨c.id, c.call.service, verdict⟩ := by
  simp only [decision?, hpoll, hfound, Option.bind_some]

/-! ### Runs -/

/-- Where a call waits, one juncture changes its wait or decides its request, and the ruling
follows. -/
inductive Follows (s : System) (c : InFlight) (j : Juncture) (run : List Juncture) : Prop where
  /-- Another exchange may have taken the place of the old one; nothing was decided. -/
  | goesOn (exchange : Option Exchange)
    (known : c.exchange.isSome → exchange = c.exchange)
    (found : (s.pass j).desk.call? c.id = some { c with exchange })
    (silent : ∀ d ∈ s.decision? j, d.call ≠ c.id)
    (same : ruling c.id c.call s c.exchange (j :: run) =
      ruling c.id c.call (s.pass j) exchange run)
  | ends (backend : Backend) (verdict : Verdict c.call.service)
    (gives : s.verdict? backend c.call c.exchange = some verdict)
    (decides : Decides s c (some verdict) (s.pass j))
    (decided : s.decision? j = some ⟨c.id, c.call.service, verdict⟩)
    (ruled : ruling c.id c.call s c.exchange (j :: run) = some verdict)

/-- A juncture changes the wait of a call or decides its request, and the ruling of the run
follows. -/
theorem follows (hbooked : s.desk.Booked) (hfound : s.desk.call? c.id = some c) (j : Juncture)
    (run : List Juncture) : Follows s c j run := by
  have hid : c.id < s.nextCall := hbooked.calls c (Desk.mem_of_call? hfound)
  cases hpoll : (j.poll? s).filter fun polled => decide (polled.1 = c.id) with
  | none =>
    refine .goesOn c.exchange (fun _ => rfl) ?_ (decision?_of_other hpoll) ?_
    · rw [call?_pass_of_other hid hpoll, hfound]
    · rw [ruling, hpoll]
  | some polled =>
    obtain ⟨n, backend⟩ := polled
    obtain ⟨hpolls, hdecides⟩ := decides_pass hfound hpoll
    have hdecision := decision?_of_poll hfound hpolls
    cases hverdict : s.verdict? backend c.call c.exchange with
    | some verdict =>
      rw [hverdict] at hdecides hdecision
      refine .ends backend verdict hverdict hdecides hdecision ?_
      rw [ruling, hpoll]
      simp only [hverdict]
    | none =>
      rw [hverdict] at hdecides hdecision
      refine .goesOn _ (fun hknown => ?_) (hdecides.call?_none hfound) ?_ ?_
      · obtain ⟨e, he⟩ := Option.isSome_iff_exists.1 hknown
        rw [he, Option.getD_some]
      · rw [hdecision]
        nofun
      · rw [ruling, hpoll]
        simp only [hverdict]

/-- A call whose request is not decided in a run waits at its end. -/
theorem waits_of_ruling (hbooked : s.desk.Booked) (hfound : s.desk.call? c.id = some c)
    {run : List Juncture} (hruling : ruling c.id c.call s c.exchange run = none) :
    ∃ exchange, (s.passes run).desk.call? c.id = some { c with exchange } := by
  induction run generalizing s c with
  | nil => exact ⟨c.exchange, hfound⟩
  | cons j run ih =>
    cases follows hbooked hfound j run with
    | goesOn exchange known found silent same =>
      exact ih (c := { c with exchange }) (booked_pass hbooked j) found (same ▸ hruling)
    | ends backend verdict gives decides decided ruled => cases ruled.symm.trans hruling

/-- A request that is decided in a run is decided in one poll of its call, which ends or goes on
with what it is told. -/
theorem ends_of_ruling (hbooked : s.desk.Booked) (hfound : s.desk.call? c.id = some c)
    (hother : c.call.service ≠ .close) {run : List Juncture} {verdict : Verdict c.call.service}
    (hruling : ruling c.id c.call s c.exchange run = some verdict) :
    ∃ early j late, run = early ++ j :: late ∧
      (∃ exchange, (s.passes early).desk.call? c.id = some { c with exchange }) ∧
      ∃ t, ((s.passes early).pass j).desk.standing c.id =
        some (heeded t c.call verdict.word) := by
  induction run generalizing s c with
  | nil => cases hruling
  | cons j run ih =>
    cases follows hbooked hfound j run with
    | goesOn exchange known found silent same =>
      obtain ⟨early, k, late, rfl, hwaits, hends⟩ :=
        ih (c := { c with exchange }) (booked_pass hbooked j) found hother (same ▸ hruling)
      exact ⟨j :: early, k, late, rfl, hwaits, hends⟩
    | ends backend given gives decides decided ruled =>
      obtain rfl := Option.some.inj (ruled.symm.trans hruling)
      exact ⟨[], j, run, rfl, ⟨c.exchange, hfound⟩, decides.standing hbooked hfound hother⟩

/-- The first decision of a run about a call is what its ruling says. -/
theorem find?_decisions (hbooked : s.desk.Booked) (hfound : s.desk.call? c.id = some c)
    (run : List Juncture) :
    (s.decisions run).find? (fun d => decide (d.call = c.id)) =
      (ruling c.id c.call s c.exchange run).map fun verdict =>
        ⟨c.id, c.call.service, verdict⟩ := by
  induction run generalizing s c with
  | nil => rfl
  | cons j run ih =>
    rw [decisions, List.find?_append]
    cases follows hbooked hfound j run with
    | goesOn exchange known found silent same =>
      have hnone : (s.decision? j).toList.find? (fun d => decide (d.call = c.id)) = none := by
        rw [List.find?_eq_none]
        intro d hd heq
        exact silent d (Option.mem_toList.1 hd) (of_decide_eq_true heq)
      rw [hnone, Option.none_or, same]
      exact ih (c := { c with exchange }) (booked_pass hbooked j) found
    | ends backend verdict gives decides decided ruled =>
      rw [decided, ruled, Option.toList_some, List.find?_singleton]
      simp

/-- A request that was not made leaves no trace at the backend. -/
theorem rejected_of_stopped (hfound : s.desk.call? c.id = some c) (hfresh : c.exchange = none)
    (hstop : (s.stopped && c.call.endsWithBroker) = true) (backend : Backend) :
    s.verdict? backend c.call none = some .rejected ∧
      (s.pollWith backend c.id).store = s.store ∧ (s.pollWith backend c.id).script = s.script := by
  have hverdict : s.verdict? backend c.call none = some .rejected := by
    simp only [verdict?, hstop, if_true]
  have hdecides := decides_pollWith hfound backend
  rw [hfresh, hverdict] at hdecides
  refine ⟨hverdict, ?_⟩
  generalize s.pollWith backend c.id = t at hdecides
  cases hdecides with
  | rejected =>
    have hdesk := congrArg Desk.store (desk_conclude s c (.error .closed))
    refine ⟨hdesk.trans ?_, congrArg Frame.script (frame_conclude s c _)⟩
    cases (s.answered c.call (.error .closed)).2 <;> rfl

/-- Where a poll finds the request overdue, the backend was not done by the deadline. -/
theorem verdict?_overdue {backend : Backend} {call : Call} {e : Exchange} {allowed : Duration}
    (h : s.verdict? backend call (some e) = some (.overdue allowed)) :
    allowed = s.settings.timeout ∧ ∀ due, e.due = some due → e.deadline < due := by
  simp only [verdict?] at h
  split at h
  · cases h
  · split at h
    · cases h
    · next hpending =>
      split at h
      · next hover =>
        cases h
        refine ⟨rfl, fun due hdue => ?_⟩
        have hlate : ¬ due ≤ s.now := by simpa [hdue] using hpending
        omega
      · cases h

/-- Where a poll in time hears the backend, that was done by the deadline. -/
theorem verdict?_served {backend : Backend} {call : Call} {e : Exchange}
    {outcome : Outcome call.service.Reply}
    (h : s.verdict? backend call (some e) = some (.served outcome)) (hontime : s.now ≤ e.wakeAt) :
    ∃ due, e.due = some due ∧ due ≤ e.deadline := by
  simp only [verdict?] at h
  split at h
  · cases h
  · split at h
    · next hdone =>
      obtain ⟨due, hdue, hdone⟩ := (Option.any_eq_true _ _).1 hdone
      refine ⟨due, hdue, ?_⟩
      have hnow : due ≤ s.now := of_decide_eq_true hdone
      have hwake : e.wakeAt = min due e.deadline := by rw [Exchange.wakeAt, hdue]
      omega
    · split at h <;> cases h

/-- A request that is ruled overdue had no reply that was due by its deadline. -/
theorem overdue_of_ruling (hbooked : s.desk.Booked) (hfound : s.desk.call? c.id = some c)
    {e : Exchange} (hexchange : c.exchange = some e) {allowed : Duration} {run : List Juncture}
    (hruling : ruling c.id c.call s c.exchange run = some (.overdue allowed)) :
    allowed = s.settings.timeout ∧ ∀ due, e.due = some due → e.deadline < due := by
  induction run generalizing s c with
  | nil => cases hruling
  | cons j run ih =>
    cases follows hbooked hfound j run with
    | goesOn exchange known found silent same =>
      obtain rfl := known (Option.isSome_of_eq_some hexchange)
      rw [← settings_pass s j]
      exact ih (booked_pass hbooked j) found hexchange (same ▸ hruling)
    | ends backend verdict gives decides decided ruled =>
      obtain rfl := Option.some.inj (ruled.symm.trans hruling)
      rw [hexchange] at gives
      exact verdict?_overdue gives

/-- In a punctual run a request that is ruled served had a reply that was due by its deadline. -/
theorem served_of_ruling (hbooked : s.desk.Booked) (hfound : s.desk.call? c.id = some c)
    {e : Exchange} (hexchange : c.exchange = some e) {run : List Juncture}
    (hpunctual : s.Punctual run) {outcome : Outcome c.call.service.Reply}
    (hruling : ruling c.id c.call s c.exchange run = some (.served outcome)) :
    ∃ due, e.due = some due ∧ due ≤ e.deadline := by
  induction run generalizing s c with
  | nil => cases hruling
  | cons j run ih =>
    cases follows hbooked hfound j run with
    | goesOn exchange known found silent same =>
      obtain rfl := known (Option.isSome_of_eq_some hexchange)
      exact ih (booked_pass hbooked j) found hexchange hpunctual.2 (same ▸ hruling)
    | ends backend verdict gives decides decided ruled =>
      obtain rfl := Option.some.inj (ruled.symm.trans hruling)
      rw [hexchange] at gives
      exact verdict?_served gives (hpunctual.1 c (Desk.mem_of_call? hfound) e hexchange)

/-- What becomes of a request in any run. -/
theorem settles (hbooked : s.desk.Booked) (hfound : s.desk.call? c.id = some c)
    (hother : c.call.service ≠ .close) (run : List Juncture) : s.Settles c run where
  waits := waits_of_ruling hbooked hfound
  ends _ := ends_of_ruling hbooked hfound hother
  noted := find?_decisions hbooked hfound run
  begins hfresh backend hverdict := by
    have hdecides := decides_pollWith hfound backend
    rw [hfresh, hverdict] at hdecides
    have hwaits := hdecides.call?_none hfound
    rwa [hfresh, Option.getD_none] at hwaits
  rejected hfresh hstopped := by
    have hends : c.call.endsWithBroker = true := by
      cases hcall : c.call with
      | close => exact absurd (by rw [hcall]) hother
      | _ => rfl
    exact rejected_of_stopped hfound hfresh (by rw [hstopped, hends]; rfl)
  overdue _ hexchange _ := overdue_of_ruling hbooked hfound hexchange
  served _ hexchange hpunctual _ := served_of_ruling hbooked hfound hexchange hpunctual

end System

end KeyBroker
