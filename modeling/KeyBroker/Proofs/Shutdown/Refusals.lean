import KeyBroker.Proofs.Shutdown.Requests

/-!
# Calls on a stopped broker

A call that is polled on a stopped broker is told that the broker is closed, and the store
behind the broker plays no part in this. Over a whole run closing is requested at most
once, and nothing else is requested once the broker is stopped.
-/

namespace KeyBroker

namespace System

open Books (Course Shift Shifts)

variable {s t : System} {c : InFlight} {es : List Episode} {i : Incident}

/-! ### One call -/

/-- A poll of a call tells it that the broker is closed, and neither looks at the store or
its script nor changes them. -/
def Refuses (s : System) (id : Nat) : Prop :=
  (∃ answer, (s.pollCall id).desk.standing id = some (.done answer) ∧
      answer.failure? = some .closed) ∧
    ∀ store script,
      pollCall { s with store, script } id = { s.pollCall id with store, script }

/-- A call that fails gives the subscriptions back that it had, and does nothing else. -/
theorem answered_error_fst (s : System) (call : Call) (e : Error) :
    (s.answered call (.error e)).1 = s.unsubscribeAll call.heldIds := by
  cases call <;> rfl

/-- Unsubscribing touches neither the store nor the script. -/
theorem unsubscribeAll_elsewhere (s : System) (ids : List Nat) (store : Store) (script : Script) :
    unsubscribeAll { s with store, script } ids = { s.unsubscribeAll ids with store, script } := by
  have hone (s : System) (id : Nat) :
      unsubscribe { s with store, script } id = { s.unsubscribe id with store, script } := by
    simp only [unsubscribe, isActive, wake]
    split
    · split <;> rfl
    · rfl
  induction ids generalizing s with
  | nil => rfl
  | cons id rest ih => rw [unsubscribeAll, hone, ih, unsubscribeAll]

/-- Unsubscribing does not stop the broker. -/
theorem stopped_unsubscribeAll (s : System) (ids : List Nat) :
    (s.unsubscribeAll ids).stopped = s.stopped := by
  have hone (s : System) (id : Nat) : (s.unsubscribe id).stopped = s.stopped := by
    have hwiring := congrArg Wiring.stopped (wiring_unsubscribe s id)
    refine hwiring.trans ?_
    unfold Wiring.unsubscribe
    split <;> rfl
  induction ids generalizing s with
  | nil => rfl
  | cons id rest ih => rw [unsubscribeAll, ih, hone]

/-- A call that ends on a stopped broker leaves it as it is, but for a holder less. -/
theorem finish_of_stopped (hstopped : s.stopped = true) (c : InFlight) {answer : Answer}
    (hnotices : answer.notices = []) :
    s.finish c answer =
      { s with
        calls := s.calls.filter fun other => other.id ≠ c.id
        finished := s.finished ++ [(c.id, answer)]
        holders := if c.holdsBroker then s.holders - 1 else s.holders } := by
  simp only [finish, hnotices, noteAll]
  cases c.holdsBroker with
  | true => simp [release, hstopped]
  | false => rfl

/-- A call is told that the broker is closed, whatever store is behind it. -/
theorem conclude_closed (hstopped : s.stopped = true) (c : InFlight) :
    ∃ answer, (s.answered c.call (.error .closed)).2 = .done answer ∧
      answer.failure? = some .closed ∧
      ∀ store script, conclude { s with store, script } c (.error .closed) =
        { s.conclude c (.error .closed) with store, script } := by
  obtain ⟨answer, hturn, hfailure⟩ := s.answered_error c.call .closed
  refine ⟨answer, hturn, hfailure, fun store script => ?_⟩
  have hnotices : answer.notices = [] := by simp [Answer.notices, hfailure]
  have hconclude {t : System} (hsame : (t.answered c.call (.error .closed)).2 = .done answer) :
      t.conclude c (.error .closed) = (t.unsubscribeAll c.call.heldIds).finish c answer := by
    simp only [conclude, hsame, answered_error_fst]
    rfl
  have hsame : (answered { s with store, script } c.call (.error .closed)).2 = .done answer := by
    rw [← hturn]
    cases c.call <;> rfl
  have hstill := (stopped_unsubscribeAll s c.call.heldIds).trans hstopped
  rw [hconclude hturn, hconclude hsame, unsubscribeAll_elsewhere,
    finish_of_stopped hstill c hnotices]
  exact finish_of_stopped (s := { s.unsubscribeAll c.call.heldIds with store, script }) hstill c
    hnotices

/-- A stopped broker refuses every call but closing at its next poll. -/
theorem refuses_of_stopped (hbooked : s.desk.Booked) (hstopped : s.stopped = true) {id : Nat}
    (hfind : s.desk.call? id = some c) (hends : c.call.endsWithBroker = true) :
    s.Refuses id := by
  have hid := Desk.id_of_call? hfind
  subst hid
  have hcall : s.calls.find? (fun other => decide (other.id = c.id)) = some c := hfind
  have hgate : (s.stopped && c.call.endsWithBroker) = true := by rw [hstopped, hends]; rfl
  cases hexchange : c.exchange with
  | none =>
    obtain ⟨answer, hturn, hfailure, helsewhere⟩ := conclude_closed hstopped c
    have hpoll (store : Store) (script : Script) : pollCall { s with store, script } c.id =
        conclude { s with store, script } c (.error .closed) := by
      simp only [pollCall, hcall, hexchange, makeRequest, hgate, if_true]
    have hhere : s.pollCall c.id = s.conclude c (.error .closed) := hpoll s.store s.script
    refine ⟨⟨answer, ?_, hfailure⟩, fun store script => ?_⟩
    · rw [hhere, (Before.refl s).standing_conclude hbooked hfind, hturn]
    · rw [hpoll, hhere, helsewhere]
  | some e =>
    let waited (u : System) : System := u.observe (.lasted c.call.service (s.now - e.started))
    obtain ⟨answer, hturn, hfailure, helsewhere⟩ := conclude_closed (s := waited s) hstopped c
    have hpoll (store : Store) (script : Script) : pollCall { s with store, script } c.id =
        conclude { waited s with store, script } c (.error .closed) := by
      simp only [pollCall, hcall, hexchange, checkAnswer, hgate, if_true]
      rfl
    have hhere : s.pollCall c.id = (waited s).conclude c (.error .closed) := hpoll s.store s.script
    have hbefore : s.Before (waited s) := before_lasted s c.call.service (s.now - e.started)
    refine ⟨⟨answer, ?_, hfailure⟩, fun store script => ?_⟩
    · rw [hhere, hbefore.standing_conclude hbooked hfind, hturn]
    · rw [hpoll, hhere, helsewhere]

/-- A stopped broker refuses every order that needs it, at the first poll of its call. -/
theorem refuses_launch (hbooked : s.desk.Booked) (hstopped : s.stopped = true) {turn : Turn}
    (hturn : (∃ call, turn = .ask call ∧ call.endsWithBroker = true) ∨
      ∃ answer, turn = .done answer ∧ answer.failure? = some .closed) (holdsBroker : Bool) :
    (s.launch turn holdsBroker).1.Refuses s.nextCall := by
  have hbegun : (s.launch turn holdsBroker).1.desk.Booked := by
    rw [desk_launch]
    exact hbooked.begin turn holdsBroker
  have hstill : (s.launch turn holdsBroker).1.stopped = true :=
    (congrArg Wiring.stopped (wiring_launch s turn holdsBroker)).trans hstopped
  rcases hturn with ⟨call, rfl, hends⟩ | ⟨answer, rfl, hfailure⟩
  · exact refuses_of_stopped hbegun hstill (call?_launch hbooked call holdsBroker) hends
  · have hstanding := standing_launch hbooked (.done answer) holdsBroker
    have hnone : (s.launch (.done answer) holdsBroker).1.desk.call? s.nextCall = none := by
      rw [desk_launch]
      exact hbooked.call?_eq_none
    have hcall : (s.launch (.done answer) holdsBroker).1.calls.find?
        (fun c => decide (c.id = s.nextCall)) = none := hnone
    refine ⟨⟨answer, ?_, hfailure⟩, fun store script => ?_⟩
    · simp only [pollCall, hcall]
      exact hstanding
    · simp only [pollCall, hcall]

/-! ### Runs -/

/-- A stopped broker stays stopped. -/
theorem Kept.stopped_incur (h : s.Kept es) (hstopped : s.stopped = true) (i : Incident) :
    (s.incur i).stopped = true :=
  (h.incur i).exact.stopped.2 (List.mem_append_left _ (h.exact.stopped.1 hstopped))

/-- A stopped broker makes no request but closing. -/
theorem requests_of_stopped (hstopped : s.stopped = true) (i : Incident) :
    ∀ service ∈ s.requests i, service = .close := by
  intro service hservice
  unfold requests at hservice
  split at hservice
  · next id reportFirst =>
    cases hfind : s.desk.call? id with
    | none =>
      rw [hfind] at hservice
      cases hservice
    | some c =>
      rw [hfind, hstopped] at hservice
      simp only [Option.elim_some] at hservice
      split at hservice
      · next hasks =>
        rw [List.mem_singleton.1 hservice]
        cases hcall : c.call with
        | close => rfl
        | _ => simp [hcall, Call.endsWithBroker] at hasks
      · cases hservice
  · cases hservice

/-- Once the broker is stopped, nothing but closing is requested. -/
theorem Kept.requestsAll_of_stopped (h : s.Kept es) (hstopped : s.stopped = true)
    (run : List Incident) : ∀ service ∈ s.requestsAll run, service = .close := by
  induction run generalizing s es with
  | nil => nofun
  | cons i run ih =>
    intro service hservice
    rcases List.mem_append.1 hservice with hnow | hlater
    · exact requests_of_stopped hstopped i service hnow
    · exact ih (h.incur i) (h.stopped_incur hstopped i) service hlater

/-- Closing that was asked for stays so. -/
theorem closing_course {b b' : Books} {es : List Episode} (h : Course b es b')
    (hclosing : b.closing = true) : b'.closing = true := by
  have hshift {b b' : Books} {es : List Episode} (h : Shift b es b') (hclosing : b.closing = true) :
      b'.closing = true := by
    cases h with
    | around beside => exact beside.closing.trans hclosing
    | stop closing grows => exact grows hclosing
    | _ => exact hclosing
  cases h with
  | shifts shifts =>
    induction shifts with
    | nil => exact hclosing
    | cons first _ ih => exact ih (hshift first hclosing)
  | _ => exact hclosing

/-- After closing has happened it was asked for. -/
theorem closing_of_closes (hcloses : i.closes = true) : (s.incur i).closing = true := by
  have hclose (holdsBroker : Bool) : (s.move (.close holdsBroker)).books.closing = true := by
    simp only [move, books_launch, beginClose]
    split
    · next h => exact h
    · rw [books_stop]
      rfl
  unfold Incident.closes at hcloses
  split at hcloses
  · exact hclose _
  · cases hcloses

/-- Closing is requested once at most, and not if it was asked for before the run. -/
theorem Kept.count_requestsAll (h : s.Kept es) {run : List Incident} (hordered : s.Ordered run) :
    (s.requestsAll run).count .close ≤ s.desk.closesDue + if s.closing then 0 else 1 := by
  -- the calls that still have to close the store, and one more if nobody has asked for closing yet,
  -- bound what is to come
  induction run generalizing s es with
  | nil => exact Nat.zero_le _
  | cons i run ih =>
    have hnow := (handles_incur hordered.1).closesDue
    have hlater := ih (h.incur i) hordered.2
    rw [requestsAll, List.count_append]
    cases hclosing : s.closing with
    | true =>
      have hstill : (s.incur i).closing = true := closing_course (h.course i) hclosing
      simp only [hclosing, hstill, Bool.not_true, Bool.and_false, Bool.false_eq_true, if_false,
        if_true] at hnow hlater ⊢
      omega
    | false =>
      cases hcloses : i.closes with
      | true =>
        simp only [hclosing, hcloses, closing_of_closes hcloses, Bool.not_false, Bool.and_true,
          Bool.false_eq_true, if_false, if_true] at hnow hlater ⊢
        omega
      | false =>
        simp only [hclosing, hcloses, Bool.false_and, Bool.false_eq_true, if_false] at hnow ⊢
        have hone : (if (s.incur i).closing = true then 0 else 1) ≤ 1 := by
          split <;> omega
        omega

/-- Closing is not requested if nobody asks for it. -/
theorem count_requestsAll_of_open {run : List Incident} (hordered : s.Ordered run)
    (hnone : ∀ i ∈ run, i.closes = false) :
    (s.requestsAll run).count .close ≤ s.desk.closesDue := by
  induction run generalizing s with
  | nil => exact Nat.zero_le _
  | cons i run ih =>
    have hnow := (handles_incur hordered.1).closesDue
    have hlater := ih hordered.2 fun other hother => hnone other (List.mem_cons_of_mem _ hother)
    have hfirst := hnone i List.mem_cons_self
    simp only [hfirst, Bool.false_and, Bool.false_eq_true, if_false] at hnow
    rw [requestsAll, List.count_append]
    omega

/-- Callers are told that the broker is closed only once it is stopped. -/
def Honest (s : System) : Prop :=
  ∀ e ∈ s.finished, e.2.failure? = some .closed → s.stopped = true

/-- An incident tells a caller that the broker is closed only if it was stopped. -/
theorem Handles.honest {d : Desk} (h : s.Handles i d) {e : Nat × Answer} (he : e ∈ d.finished)
    (hclosed : e.2.failure? = some .closed) : e ∈ s.finished ∨ s.stopped = true := by
  have hfair {turn : Turn} {answer : Answer} (hfair : turn.Fair s.stopped)
      (hturn : turn = .done answer) (hclosed : answer.failure? = some .closed) :
      s.stopped = true := by
    subst hturn
    rcases hfair with hopen | ⟨hstopped, _⟩
    · cases hopen with
      | done open' => exact absurd hclosed open'
    · exact hstopped
  cases h with
  | spares store silent => exact .inl he
  | takes id silent => exact .inl (List.mem_filter.1 he).1
  | closes holdsBroker silent closes first => exact .inl he
  | waits c found requests store exchange => exact .inl he
  | begins turn holdsBroker silent fair =>
    cases turn with
    | ask call => exact .inl he
    | done answer =>
      rcases List.mem_append.1 he with he | he
      · exact .inl he
      · rw [List.mem_singleton.1 he] at hclosed
        exact .inr (hfair fair rfl hclosed)
  | resumes c found requests store turn fair =>
    cases turn with
    | ask call => exact .inl he
    | done answer =>
      rcases List.mem_append.1 he with he | he
      · exact .inl he
      · rw [List.mem_singleton.1 he] at hclosed
        exact .inr (hfair fair rfl hclosed)

/-- A run tells callers that the broker is closed only once it is stopped, if calls begin in the
ways that there are. -/
theorem Kept.honest_incurs (h : s.Kept es) (hhonest : s.Honest) {run : List Incident}
    (hordered : s.Ordered run) : (s.incurs run).Honest := by
  induction run generalizing s es with
  | nil => exact hhonest
  | cons i run ih =>
    refine ih (h.incur i) (fun e he hclosed => ?_) hordered.2
    rcases (handles_incur hordered.1).honest he hclosed with hbefore | hstopped
    · exact h.stopped_incur (hhonest e hbefore hclosed) i
    · exact h.stopped_incur hstopped i

end System

end KeyBroker
