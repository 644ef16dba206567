import KeyBroker.Proofs.System.Asking

/-!
# What a call is told about its request

Whether a call goes on when it is polled, and with what, depends on its request and on since
when it waits, not on what it wants the reply for. Calls that ask for the same at the same time
are told the same.
-/

namespace KeyBroker

/-- What a call is told about its request when it is polled. -/
inductive Told (service : Service) where
  /-- That it has to wait. -/
  | nothing
  | reply (reply : Except Error service.Reply)
  | aborted (why : Abort)

/-- What a call is told of the outcome that the store gave its request. -/
def Outcome.told {service : Service} : Outcome service.Reply → Told service
  | .ok reply => .reply (.ok reply)
  | .failed error => .reply (.error (service.failure error).1)
  | .aborted why => .aborted why

namespace System

variable {s t : System} {c : InFlight} {id : Nat}

/-- What a call is told about `request`, if it waits for the reply as `exchange` says or has not
made the request yet. Stopping the broker ends most calls. -/
def told (s : System) {service : Service} (request : Request service) (endsWithBroker : Bool)
    (exchange : Option Exchange) : Told service :=
  if s.stopped && endsWithBroker then .reply (.error .closed)
  else
    match exchange with
    | none =>
      match s.script.next service with
      | (.forward 0, _) => (s.store.serve s.instant request).outcome.told
      | (.forward _, _) | (.hang, _) => .nothing
      | (.fail error, _) => .reply (.error (service.failure error).1)
      | (.reply planned, script) => .reply (.ok (fulfil { s with script } service planned).2)
    | some e =>
      if e.due.any (· ≤ s.now) then (s.store.serve s.instant request).outcome.told
      else if e.deadline ≤ s.now then .reply (.error (service.overdue s.settings.timeout).1)
      else .nothing

/-- What comes of a poll of the call `c` that is told something, from the system `t` on. -/
inductive Heeds (t : System) (c : InFlight) : Told c.call.service → System → Prop where
  | still (waits : c.exchange ≠ none) : Heeds t c .nothing t
  | waits (fresh : c.exchange = none) (due : Option Nat) : Heeds t c .nothing (t.await c due)
  | concludes (reply : Except Error c.call.service.Reply) :
    Heeds t c (.reply reply) (t.conclude c reply)
  | aborts (why : Abort) : Heeds t c (.aborted why) (t.finish c (.aborted why))

/-- A call heeds what it is told of the outcome of its request. -/
theorem heeds_settle (h : s.Before t) (started : Nat) (outcome : Outcome c.call.service.Reply) :
    ∃ u, s.Before u ∧ Heeds u c outcome.told (t.settle c started outcome) := by
  cases outcome with
  | ok reply => exact ⟨_, h.trans (before_ended t _ _ _), .concludes (.ok reply)⟩
  | failed error => exact ⟨_, h.trans (before_failed t _ _ _), .concludes _⟩
  | aborted why => exact ⟨_, h.trans (before_lasted t _ _), .aborts why⟩

/-- A call heeds what it is told of its request once the store has carried it out. -/
theorem heeds_act (h : s.Before t) (started : Nat) :
    ∃ u, s.Before u ∧
      Heeds u c (t.store.serve t.instant c.call.request).outcome.told (t.act c started) := by
  let served := t.store.serve t.instant c.call.request
  have hserved := (before_withStore t served.store t.script).trans
    (before_wakeReaders { t with store := served.store } served.reached)
  exact heeds_settle (h.trans hserved) started served.outcome

/-- What a poll makes of a call that is told something. -/
theorem heeds_pollCall (hfound : s.desk.call? c.id = some c) :
    ∃ t, s.Before t ∧
      Heeds t c (s.told c.call.request c.call.endsWithBroker c.exchange) (s.pollCall c.id) := by
  have hfind : s.calls.find? (fun other => decide (other.id = c.id)) = some c := hfound
  simp only [pollCall, hfind, told]
  cases hexchange : c.exchange with
  | none =>
    simp only [makeRequest]
    split
    · exact ⟨s, .refl s, .concludes _⟩
    · generalize s.script.next c.call.service = taken
      obtain ⟨answer, script⟩ := taken
      have hscript : s.Before { s with script } := before_withStore s s.store script
      cases answer with
      | forward delay =>
        cases delay with
        | zero => exact heeds_act hscript s.now
        | succ delay => exact ⟨_, hscript, .waits hexchange _⟩
      | hang => exact ⟨_, hscript, .waits hexchange _⟩
      | fail error => exact heeds_settle hscript s.now (.failed error)
      | reply planned =>
        have hfulfil := before_fulfil { s with script } c.call.service planned
        exact heeds_settle (hscript.trans hfulfil) _
          (.ok (fulfil { s with script } c.call.service planned).2)
  | some e =>
    simp only [checkAnswer]
    split
    · exact ⟨_, before_lasted s _ _, .concludes _⟩
    · split
      · exact heeds_act (.refl s) e.started
      · split
        · exact ⟨_, before_failed s _ _ _, .concludes _⟩
        · exact ⟨s, .refl s, .still (hexchange ▸ Option.some_ne_none e)⟩

/-- The turn of a call that was told something. -/
def heeded (t : System) (call : Call) : Told call.service → Turn
  | .nothing => .ask call
  | .reply reply => (t.answered call reply).2
  | .aborted why => .done (.aborted why)

/-- Where a call stands that was told something. -/
theorem standing_told (hbooked : s.desk.Booked) (hfound : s.desk.call? c.id = some c) :
    ∃ t, s.Before t ∧ (s.pollCall c.id).desk.standing c.id =
      some (t.heeded c.call (s.told c.call.request c.call.endsWithBroker c.exchange)) := by
  obtain ⟨t, hbefore, hheeds⟩ := heeds_pollCall hfound
  refine ⟨t, hbefore, ?_⟩
  generalize s.told c.call.request c.call.endsWithBroker c.exchange = word at hheeds
  generalize s.pollCall c.id = after at hheeds
  cases hheeds with
  | still waits =>
    have hcall : (s.desk.beside t.store).call? c.id = some c := hfound
    rw [hbefore.desk, Desk.standing, hcall]
    rfl
  | waits fresh due => exact hbefore.standing_await hfound due
  | concludes reply => exact hbefore.standing_conclude hbooked hfound reply
  | aborts why => exact hbefore.standing_aborted hbooked hfound why

/-- Systems that differ in one call tell others, and this call, the same. -/
theorem Alike.told (h : Alike id s t) {service : Service} (request : Request service)
    (endsWithBroker : Bool) (exchange : Option Exchange) :
    s.told request endsWithBroker exchange = t.told request endsWithBroker exchange := by
  have houtcome : (s.store.serve s.instant request).outcome =
      (t.store.serve t.instant request).outcome := by rw [h.store, h.instant]
  simp only [System.told, h.stopped, ← h.script, houtcome, h.now, h.settings]
  split
  · rfl
  · cases exchange with
    | some e => rfl
    | none =>
      generalize s.script.next service = taken
      obtain ⟨answer, script⟩ := taken
      have hnext : Alike id
          { s with script, settings := t.settings, now := t.now, stopped := t.stopped }
          { t with script } :=
        { h with script := rfl, settings := rfl, now := rfl, stopped := rfl }
      cases answer with
      | forward delay => cases delay <;> rfl
      | reply planned =>
        exact congrArg (fun reply => Told.reply (.ok reply)) (hnext.fulfil service planned).2
      | _ => rfl

/-! ### Another call in place of one -/

/-- The system with the call `c` in place of the one with its number. -/
def inPlace (s : System) (c : InFlight) : System :=
  { s with calls := s.calls.map fun other => if other.id = c.id then c else other }

/-- Putting a call in place of another changes that one call on the desk. -/
theorem desk_inPlace (s : System) (c : InFlight) (call : Call) :
    (s.inPlace { c with call }).desk =
      { s.desk with
        calls := s.desk.calls.map fun other =>
          if other.id = c.id then { c with call } else other } := rfl

/-- Putting a call in place of one under way leaves the desk booked. -/
theorem booked_inPlace (hbooked : s.desk.Booked) (hfound : s.desk.call? c.id = some c)
    (call : Call) : (s.inPlace { c with call }).desk.Booked := by
  refine hbooked.withCalls fun other hother => ?_
  obtain ⟨old, hold, rfl⟩ := List.mem_map.1 hother
  split
  · exact ⟨c, Desk.mem_of_call? hfound, rfl⟩
  · exact ⟨old, hold, rfl⟩

/-- The call that was put in place is the call of its number. -/
theorem call?_inPlace (hfound : s.desk.call? c.id = some c) (call : Call) :
    (s.inPlace { c with call }).desk.call? c.id = some { c with call } := by
  have hsame : ((fun other : InFlight => decide (other.id = c.id)) ∘ fun other =>
      if other.id = c.id then { c with call } else other) =
        fun other => decide (other.id = c.id) := by
    funext other
    simp only [Function.comp]
    split
    · next heq => simp [heq]
    · rfl
  have hfind : s.calls.find? (fun other => decide (other.id = c.id)) = some c := hfound
  simp only [desk_inPlace, Desk.call?, List.find?_map, hsame]
  rw [desk, hfind, Option.map_some, if_pos rfl]

/-- A system with another call in place of one holds the same but for that call. -/
theorem alike_inPlace (s : System) (c : InFlight) (call : Call) :
    Alike c.id (s.inPlace { c with call }) s := by
  refine { Alike.refl c.id s with calls := ?_ }
  have hsame : ((fun other : InFlight => decide (other.id ≠ c.id)) ∘ fun other =>
      if other.id = c.id then { c with call } else other) =
        fun other => decide (other.id ≠ c.id) := by
    funext other
    simp only [Function.comp]
    split
    · next heq => rw [heq]
    · rfl
  simp only [inPlace, List.filter_map]
  rw [hsame]
  refine (List.map_congr_left fun other hother => ?_).trans (List.map_id _)
  have hne : other.id ≠ c.id := of_decide_eq_true (List.mem_filter.1 hother).2
  rw [if_neg hne, id]

/-- Where a call would stand that was told something in place of another. -/
theorem standing_inPlace (hbooked : s.desk.Booked) (hfound : s.desk.call? c.id = some c)
    (call : Call) :
    ∃ t, ((s.inPlace { c with call }).pollCall c.id).desk.standing c.id =
      some (heeded t call (s.told call.request call.endsWithBroker c.exchange)) := by
  obtain ⟨t, -, hstanding⟩ := standing_told (c := { c with call })
    (booked_inPlace hbooked hfound call) (call?_inPlace hfound call)
  rw [(alike_inPlace s c call).told] at hstanding
  exact ⟨t, hstanding⟩

end System

end KeyBroker
