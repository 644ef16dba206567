import KeyBroker.Proofs.Retrying.Plea
import KeyBroker.Proofs.Shutdown.Refusals

/-!
# Waiting for relief

A caller who is told that a call failed and that it may be tried again takes the answer and
waits until the store can be reached and nothing delays it any more. Nothing but the environment
has changed by then: the broker still runs, and its store has the history that it had when the
call failed. Only the failure of a request tells to try again: neither what is answered at once
nor what is made of a reply does.
-/

namespace KeyBroker

namespace System

/-- The system after a wait, with the connection restored and no answer delayed any more. -/
def relieved (s : System) (wait : Nat) : System :=
  { s.setAvailable true with now := s.now + wait, script := [] }

/-- The system once the caller has taken the answer of a call away and waited for relief. -/
def recovered (s : System) (id wait : Nat) : System :=
  (s.moves [.poll (.call id) false, .take id]).relieved wait

/-- A call that began as a plea fails in its next poll, and the caller, who keeps the broker,
is told that it may be tried again. -/
structure Stumbles (s : System) (p : Plea) (c : InFlight) (answer : Answer) : Prop where
  found : s.desk.call? c.id = some c
  began : p.Began s c.call
  answered : (s.pollCall c.id).desk.standing c.id = some (.done answer)
  retryable : ∃ e, answer.failure? = some e ∧ e.isRetryable = true
  held : c.holdsBroker = true → 1 < s.holders

variable {s t : System} {p : Plea} {c : InFlight} {answer : Answer} {es : List Episode}

/-- Every run of moves from a new system is kept, with the episodes that it brings upon
subscriptions. -/
theorem kept_moves (settings : Settings) (run : List Move) :
    (moves { settings } run).Kept
      (episodes { settings } (run.map fun m => .occur (.move m))) := by
  have hrun : incurs { settings } (run.map fun m => .occur (.move m)) =
      moves { settings } run := List.foldl_map
  rw [← hrun]
  exact kept_incurs settings _

/-! ### The failure -/

/-- A pair that cannot be shown is no failure to be tried again. -/
theorem not_retryable_of_reveal {scope : Key} {pair : KeyValue} {e : Error}
    (h : (pair.reveal scope).map some = .error e) : e.isRetryable = false := by
  cases hreveal : pair.reveal scope with
  | error e' =>
    rw [hreveal] at h
    cases h
    rw [KeyValue.foreign_of_reveal hreveal]
    rfl
  | ok shown =>
    rw [hreveal] at h
    cases h

/-- No failure to hand out a pair is one to be tried again. -/
theorem not_retryable_of_take {listing : Listing} {e : Error}
    (h : listing.take.2 = .error e) : e.isRetryable = false := by
  obtain ⟨key, rfl⟩ := Listing.foreign_of_take h
  rfl

/-- An answer that is made of a reply is not one that tells to try again. -/
theorem not_retryable_of_reply {call : Call} (hsingle : call.single = true ∨ call = .close)
    {reply : call.service.Reply} (hanswer : (t.answered call (.ok reply)).2 = .done answer)
    {e : Error} (hfailure : answer.failure? = some e) : e.isRetryable = false := by
  cases call with
  | get scope key =>
    obtain rfl := Turn.done.inj hanswer
    cases reply with
    | none => cases hfailure
    | some pair =>
      cases hreveal : (pair.reveal scope).map some with
      | ok shown => simp [Except.bind, hreveal, Answer.failure?] at hfailure
      | error e' =>
        have hsame : e' = e := by simpa [Except.bind, hreveal, Answer.failure?] using hfailure
        exact hsame ▸ not_retryable_of_reveal hreveal
  | next listing =>
    have hturn : Turn.done (.stepped (listing.absorb reply).take.1 (listing.absorb reply).take.2) =
        .done answer := hanswer
    obtain rfl := Turn.done.inj hturn
    cases hresult : (listing.absorb reply).take.2 with
    | ok first => simp [hresult, Answer.failure?] at hfailure
    | error e' =>
      have hsame : e' = e := by simpa [hresult, Answer.failure?] using hfailure
      exact hsame ▸ not_retryable_of_take hresult
  | listAll | drain | watchAll => simp [Call.single, Call.brief] at hsingle
  | _ =>
    obtain rfl := Turn.done.inj hanswer
    cases hfailure

/-- The request of the call has failed. -/
theorem Stumbles.failed (h : s.Stumbles p c answer) (hbooked : s.desk.Booked) :
    ∃ t e, (System.answered t c.call (.error e)).2 = .done answer := by
  obtain ⟨e, hfailure, hretryable⟩ := h.retryable
  have hstanding := h.answered
  rcases responds_pollCall h.found with ⟨hsame, _⟩ | hresponds
  · rw [hsame, standing_ask h.found] at hstanding
    cases hstanding
  generalize s.pollCall c.id = s' at hresponds hstanding
  cases hresponds with
  | waits before due =>
    rw [before.standing_await h.found] at hstanding
    cases hstanding
  | aborts before why =>
    rw [before.standing_aborted hbooked h.found] at hstanding
    obtain rfl := Turn.done.inj (Option.some.inj hstanding)
    cases hfailure
  | @concludes t before reply honest =>
    rw [before.standing_conclude hbooked h.found] at hstanding
    have hturn := Option.some.inj hstanding
    cases reply with
    | error e' => exact ⟨t, e', hturn⟩
    | ok reply =>
      have hnot := not_retryable_of_reply h.began.single hturn hfailure
      cases hretryable.symm.trans hnot

/-- The broker was running: a stopped one refuses the call for good. -/
theorem Stumbles.running (h : s.Stumbles p c answer) (hbooked : s.desk.Booked)
    (hends : c.call.endsWithBroker = true) : s.stopped = false := by
  cases hstopped : s.stopped with
  | false => rfl
  | true =>
    obtain ⟨⟨answer', hstanding, hclosed⟩, _⟩ := refuses_of_stopped hbooked hstopped h.found hends
    obtain rfl := Turn.done.inj (Option.some.inj (h.answered.symm.trans hstanding))
    obtain ⟨e, hfailure, hretryable⟩ := h.retryable
    obtain rfl := Option.some.inj (hclosed.symm.trans hfailure)
    cases hretryable

/-! ### The system that has recovered -/

/-- A poll of a call leaves the settings alone. -/
theorem settings_pollCall (hgenuine : s.wiring.Genuine) (hfind : s.desk.call? c.id = some c) :
    (s.pollCall c.id).settings = s.settings := by
  have hpolled := polled_pollCall hgenuine hfind
  generalize s.pollCall c.id = s' at hpolled
  cases hpolled with
  | idle quiet => rfl
  | waits script fewer due quiet => rfl
  | fails script fewer journal error quiet =>
    exact congrArg Frame.settings (frame_conclude { s with script, journal } c (.error error))
  | acts script fewer started acts =>
    exact congrArg Frame.settings (frame_act { s with script } c started)

/-- What a turn brings upon subscriptions is nothing that stops the broker. -/
theorem not_shutDown_brings (turn : Turn) (had : List Handle) : .shutDown ∉ turn.brings had := by
  intro hshut
  rcases List.mem_append.1 hshut with hopened | hback
  · obtain ⟨_, _, heq⟩ := List.mem_map.1 hopened
    cases heq
  · split at hback
    · obtain ⟨_, _, heq⟩ := List.mem_map.1 hback
      cases heq
    · cases hback

/-- The failure does not stop the broker. -/
theorem Stumbles.stays (h : s.Stumbles p c answer) (hkept : s.Kept es)
    (hends : c.call.endsWithBroker = true) : (s.pollCall c.id).stopped = false := by
  have hrunning := h.running hkept.booked hends
  have hafter := hkept.incur (.occur (.move (.poll (.call c.id) false)))
  have hbefalls : s.befalls (.occur (.move (.poll (.call c.id) false))) = s.answers c := by
    simp only [befalls, affects, h.found, Option.elim_some]
  have hlast : (c.holdsBroker && decide (s.holders ≤ 1)) = false := by
    cases hholds : c.holdsBroker with
    | false => rfl
    | true => exact decide_eq_false (Nat.not_le.2 (h.held hholds))
  refine Bool.eq_false_iff.2 fun hstopped => ?_
  rcases List.mem_append.1 (hafter.exact.stopped.1 hstopped) with hbefore | hnow
  · cases (hkept.exact.stopped.2 hbefore).symm.trans hrunning
  · have hstands : s.turnOf c = some (.done answer) := h.answered
    rw [hbefalls, answers, hstands, Option.elim_some, Bool.and_assoc, hlast, Bool.and_false,
      List.mem_append] at hnow
    exact hnow.elim (not_shutDown_brings _ _) List.not_mem_nil

/-- After relief the wiring is that after the poll, with the store within reach and no script. -/
theorem wiring_recovered (s : System) (id wait : Nat) :
    (s.recovered id wait).wiring =
      { (s.pollCall id).wiring with
        store := { (s.pollCall id).store with available := true }, script := [] } := by
  have htaken : ((s.pollCall id).move (.take id)).wiring = (s.pollCall id).wiring :=
    (move_take (s.pollCall id) id).2.1
  have hrelieved (t : System) : (t.relieved wait).wiring =
      { t.wiring with store := { t.wiring.store with available := true }, script := [] } := rfl
  refine (hrelieved _).trans ?_
  rw [show s.moves [.poll (.call id) false, .take id] = (s.pollCall id).move (.take id) from rfl,
    htaken]
  rfl

/-- Relief leaves the settings alone. -/
theorem settings_recovered (s : System) (id wait : Nat) :
    (s.recovered id wait).settings = (s.pollCall id).settings :=
  congrArg Frame.settings (move_take (s.pollCall id) id).1

/-- The store can be reached then, unless it was closed for good. -/
theorem refusal_recovered (s : System) (id wait : Nat) :
    (s.recovered id wait).store.refusal = none ↔ (s.recovered id wait).store.closed = false := by
  have havailable : (s.recovered id wait).store.available = true := rfl
  cases hclosed : (s.recovered id wait).store.closed <;>
    simp [Store.refusal, hclosed, havailable]

/-- Relief does not ask for closing. -/
theorem closing_recovered (s : System) (id wait : Nat) :
    (s.recovered id wait).closing = (s.pollCall id).closing := by
  have htaken : ((s.pollCall id).move (.take id)).closing = (s.pollCall id).closing := by
    simp only [move, takeAnswer]
    cases (s.pollCall id).finished.find? _ <;> rfl
  exact htaken

/-- Time only adds to the ledger while the call fails and the caller waits. -/
theorem later_recovered (hgenuine : s.wiring.Genuine)
    (hfloor : s.store.ledger.compacted ≤ s.store.ledger.revision)
    (hbounded : s.store.ledger.Bounded) (id wait : Nat) :
    ∃ events, s.store.ledger.Later (s.recovered id wait).store.ledger events := by
  have hledger : (s.recovered id wait).store.ledger = (s.pollCall id).store.ledger :=
    congrArg (fun w : Wiring => w.store.ledger) (wiring_recovered s id wait)
  rw [hledger]
  exact later_moves hgenuine ⟨[], .refl hfloor hbounded⟩ [.poll (.call id) false]

/-- Nothing stands in the way of the caller any more. -/
theorem Stumbles.prompt (h : s.Stumbles p c answer) (hkept : s.Kept es)
    (hgenuine : s.wiring.Genuine) (hends : c.call.endsWithBroker = true) (wait : Nat) :
    (s.recovered c.id wait).Prompt where
  script := rfl
  booked := by
    let taken : System := s.moves [.poll (.call c.id) false, .take c.id]
    have hdesk : (s.recovered c.id wait).desk = taken.desk.beside (taken.store.setAvailable true) :=
      desk_setAvailable taken true
    rw [hdesk]
    exact (booked_moves hgenuine hkept.booked _).beside _
  running :=
    (congrArg Wiring.stopped (wiring_recovered s c.id wait)).trans (h.stays hkept hends)

end System

end KeyBroker
