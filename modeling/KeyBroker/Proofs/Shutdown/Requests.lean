import KeyBroker.Proofs.Shutdown.Orders

/-!
# Requests to the store

A call makes its request to the store when it is first polled, unless the broker was stopped.
Every incident puts a new call on the desk, brings one further, takes an answer away, or has
nothing to do with calls. So closing is requested at most once, and only a stopped broker
tells callers that it is closed.
-/

namespace KeyBroker

/-- Whether closing is what happens. -/
def Incident.closes : Incident → Bool
  | .occur (.move (.close _)) => true
  | _ => false

/-- A turn that tells a caller that the broker is closed only if it was `stopped`. -/
def Turn.Fair (stopped : Bool) (turn : Turn) : Prop :=
  turn.Open ∨
    stopped = true ∧ ∃ answer, turn = .done answer ∧ answer.failure? = some .closed

/-- A call that still has to make its request for closing. -/
def InFlight.wantsClose (c : InFlight) : Bool := !c.call.endsWithBroker && c.exchange.isNone

/-! ### Answers to requests -/

namespace System

variable {s : System} {c : InFlight} {call : Call}

/-- A call that is told an error ends with an answer that tells of it. -/
theorem answered_error (s : System) (call : Call) (e : Error) :
    ∃ answer, (s.answered call (.error e)).2 = .done answer ∧ answer.failure? = some e := by
  cases call <;> exact ⟨_, rfl, rfl⟩

/-- A call that is told anything but that the broker is closed does not tell its caller so. -/
theorem answered_open (s : System) {reply : Except Error call.service.Reply}
    (h : reply ≠ .error .closed) : (s.answered call reply).2.Open := by
  cases reply with
  | error e =>
    obtain ⟨answer, hturn, hfailure⟩ := s.answered_error call e
    rw [hturn]
    refine .done fun hclosed => h ?_
    rw [hfailure] at hclosed
    rw [Option.some.inj hclosed]
  | ok reply =>
    cases call with
    | get scope key =>
      cases reply with
      | none => exact .done fun h => by cases h
      | some pair =>
        have hpair := pair.reveal_ne_closed scope
        refine .done fun hclosed => ?_
        simp only [Except.bind] at hclosed
        cases hreveal : pair.reveal scope with
        | ok shown =>
          rw [hreveal] at hclosed
          cases hclosed
        | error e =>
          rw [hreveal] at hclosed hpair
          exact hpair (congrArg Except.error (Option.some.inj hclosed))
    | listAll listing => exact Call.open_continueDrain _ _
    | next listing => exact Call.open_stepped (listing.absorb reply)
    | drain listing taken =>
      simp only [answered, Call.drainPage]
      split
      · exact .done fun h => by cases h
      · exact Call.open_continueDrain _ _
    | watchAll scope channel held stem rest =>
      cases rest with
      | nil => exact .done fun h => by cases h
      | cons next rest => exact .ask rfl
    | _ => exact .done fun h => by cases h

/-! ### What an incident makes of the desk -/

/-- The requests that the broker makes to the store in an incident. -/
def requests (s : System) : Incident → List Service
  | .occur (.move (.poll (.call id) _)) =>
    (s.desk.call? id).elim [] fun c =>
      if c.exchange.isNone && !(s.stopped && c.call.endsWithBroker) then [c.call.service] else []
  | _ => []

/-- The requests that the broker makes to the store in incidents in order. -/
def requestsAll (s : System) : List Incident → List Service
  | [] => []
  | i :: run => s.requests i ++ (s.incur i).requestsAll run

/-- Calls that are launched in an incident begin in one of the ways that there are. -/
def Admits (s : System) (i : Incident) : Prop :=
  ∀ turn holdsBroker, i = .occur (.move (.launch turn holdsBroker)) → ∃ o : Order, o.turn s = turn

/-- In incidents in order, calls begin in the ways that there are. -/
def Ordered (s : System) : List Incident → Prop
  | [] => True
  | i :: run => s.Admits i ∧ (s.incur i).Ordered run

/-- What an incident makes of the desk. -/
inductive Handles (s : System) (i : Incident) : Desk → Prop where
  | spares (store : Store) (silent : s.requests i = []) : Handles s i (s.desk.beside store)
  | takes (id : Nat) (silent : s.requests i = []) : Handles s i (s.desk.take id)
  | begins (turn : Turn) (holdsBroker : Bool) (silent : s.requests i = [])
    (fair : turn.Fair s.stopped) : Handles s i (s.desk.begin turn holdsBroker)
  | closes (holdsBroker : Bool) (silent : s.requests i = []) (closes : i.closes = true)
    (first : s.closing = false) : Handles s i (s.desk.begin (.ask .close) holdsBroker)
  | waits (c : InFlight) (found : s.desk.call? c.id = some c)
    (requests : s.requests i = [] ∨ c.exchange.isNone = true ∧ s.requests i = [c.call.service])
    (store : Store) (exchange : Exchange) :
    Handles s i ((s.desk.beside store).wait { c with exchange := some exchange })
  | resumes (c : InFlight) (found : s.desk.call? c.id = some c)
    (requests : s.requests i = [] ∨ c.exchange.isNone = true ∧ s.requests i = [c.call.service])
    (store : Store) (turn : Turn) (fair : turn.Fair s.stopped) :
    Handles s i ((s.desk.beside store).proceed c turn)

/-- A poll makes no request, or the first request of the call. -/
theorem requests_poll (hfind : s.desk.call? c.id = some c) (reportFirst : Bool) :
    s.requests (.occur (.move (.poll (.call c.id) reportFirst))) = [] ∨
      c.exchange.isNone = true ∧
        s.requests (.occur (.move (.poll (.call c.id) reportFirst))) = [c.call.service] := by
  simp only [requests, hfind, Option.elim_some]
  split
  · next h => exact .inr ⟨(Bool.and_eq_true_iff.1 h).1, rfl⟩
  · exact .inl rfl

/-- A poll of a call handles the desk in one of the ways that there are. -/
theorem handles_pollCall (id : Nat) (reportFirst : Bool) :
    s.Handles (.occur (.move (.poll (.call id) reportFirst))) (s.pollCall id).desk := by
  cases hfind : s.desk.call? id with
  | none =>
    rw [pollCall_of_gone hfind]
    exact .spares s.store (by simp [requests, hfind])
  | some c =>
    have hid := Desk.id_of_call? hfind
    subst hid
    have hrequests := requests_poll hfind reportFirst
    rcases responds_pollCall hfind with ⟨hsame, hexchange⟩ | hresponds
    · rw [hsame]
      refine .spares s.store ?_
      rcases hrequests with hnone | ⟨hisNone, _⟩
      · exact hnone
      · exact absurd (Option.isNone_iff_eq_none.1 hisNone) hexchange
    generalize s.pollCall c.id = s' at hresponds
    cases hresponds with
    | @waits t before due =>
      rw [desk_await, before.desk]
      exact .waits c hfind hrequests t.store _
    | @concludes t before reply honest =>
      rw [desk_conclude, before.desk]
      refine .resumes c hfind hrequests t.store _ ?_
      by_cases hclosed : reply = .error .closed
      · subst hclosed
        exact .inr ⟨(honest rfl).1, t.answered_error c.call .closed⟩
      · exact .inl (t.answered_open hclosed)
    | @aborts t before why =>
      have hfinish : (t.finish c (.aborted why)).desk =
          t.desk.proceed c (.done (.aborted why)) := desk_proceed t c (.done (.aborted why))
      rw [hfinish, before.desk]
      exact .resumes c hfind hrequests t.store _ (.inl (.done fun h => by cases h))

/-- Every incident handles the desk in one of the ways that there are, if calls begin in theirs. -/
theorem handles_incur {i : Incident} (hadmits : s.Admits i) : s.Handles i (s.incur i).desk := by
  cases i with
  | occur o =>
    cases o with
    | move m =>
      have hspares (hspares : m.sparesCalls = true) (hsilent : s.requests (.occur (.move m)) = []) :
          s.Handles (.occur (.move m)) (s.move m).desk := by
        obtain ⟨store, hdesk⟩ := s.desk_move hspares
        rw [hdesk]
        exact .spares store hsilent
      simp only [incur, occur]
      cases m with
      | poll worker reportFirst =>
        cases worker with
        | call id => exact handles_pollCall id reportFirst
        | dispatcher id => exact hspares rfl rfl
      | launch turn holdsBroker =>
        obtain ⟨o, ho⟩ := hadmits turn holdsBroker rfl
        simp only [move, desk_launch]
        exact .begins turn holdsBroker rfl (ho ▸ o.turn_open s)
      | take call =>
        simp only [move, takeAnswer]
        cases s.finished.find? _ with
        | none => exact .spares s.store rfl
        | some => exact .takes call rfl
      | close holdsBroker =>
        simp only [move, desk_launch, desk_beginClose]
        simp only [beginClose]
        split
        · exact .begins _ holdsBroker rfl (.inl (.done fun h => by cases h))
        · next hfirst => exact .closes holdsBroker rfl rfl (eq_false_of_ne_true hfirst)
      | _ => exact hspares rfl rfl
    | signal n signal => exact .spares (s.store.onFeed n (·.push signal)) rfl
    | _ => exact .spares s.store rfl
  | plan line => exact .spares s.store rfl
  | finish n => exact .spares (s.store.onFeed n (·.finish)) rfl

end System

/-! ### Closing is requested once -/

namespace Desk

variable {d : Desk} {c : InFlight}

/-- How many calls still have to make a request for closing. -/
def closesDue (d : Desk) : Nat := d.calls.countP InFlight.wantsClose

/-- A call that leaves the line is not counted any more. -/
theorem countP_others (calls : List InFlight) (hc : c ∈ calls) :
    (calls.filter fun other => decide (other.id ≠ c.id)).countP InFlight.wantsClose +
        (if c.wantsClose then 1 else 0) ≤ calls.countP InFlight.wantsClose := by
  obtain ⟨before, after, rfl⟩ := List.append_of_mem hc
  have hothers : ((before ++ c :: after).filter fun other => decide (other.id ≠ c.id)).Sublist
      (before ++ after) := by
    rw [List.filter_append, List.filter_cons_of_neg (by simp)]
    exact List.filter_sublist.append List.filter_sublist
  have hle : List.countP InFlight.wantsClose _ ≤ List.countP InFlight.wantsClose _ :=
    hothers.countP_le
  rw [List.countP_append] at hle
  rw [List.countP_append, List.countP_cons]
  omega

/-- A call under way that asks for something else takes the place of one that asked before. -/
theorem countP_replaced (calls : List InFlight) {next : InFlight}
    (hnext : next.wantsClose = false) (id : Nat) :
    (calls.map fun other => if other.id = id then next else other).countP InFlight.wantsClose =
      (calls.filter fun other => decide (other.id ≠ id)).countP InFlight.wantsClose := by
  induction calls with
  | nil => rfl
  | cons other rest ih =>
    by_cases hid : other.id = id
    · simp [hid, hnext, ih]
    · simp [hid, List.countP_cons, ih]

/-- A call that waits for its reply has no request for closing left. -/
theorem closesDue_wait (hc : c ∈ d.calls) (exchange : Exchange) :
    (d.wait { c with exchange := some exchange }).closesDue + (if c.wantsClose then 1 else 0) ≤
      d.closesDue := by
  have hothers := countP_others d.calls hc
  have hwaiting : InFlight.wantsClose { c with exchange := some exchange } = false := by
    simp [InFlight.wantsClose]
  simp only [closesDue, wait, List.countP_append, List.countP_singleton, hwaiting]
  simpa using hothers

/-- A call that goes on has no request for closing left, and gets no new one. -/
theorem closesDue_proceed (hc : c ∈ d.calls) {turn : Turn} {stopped : Bool}
    (hfair : turn.Fair stopped) :
    (d.proceed c turn).closesDue + (if c.wantsClose then 1 else 0) ≤ d.closesDue := by
  have hothers := countP_others d.calls hc
  rcases hfair with hopen | ⟨_, answer, rfl, _⟩
  · cases hopen with
    | @ask call ends =>
      have hnext : InFlight.wantsClose { c with call, exchange := none } = false := by
        simp [InFlight.wantsClose, ends]
      simp only [closesDue, proceed, countP_replaced d.calls hnext c.id]
      exact hothers
    | done => exact hothers
  · exact hothers

/-- A new call is none that has a request for closing to make. -/
theorem closesDue_begin {turn : Turn} {stopped : Bool} (hfair : turn.Fair stopped)
    (holdsBroker : Bool) : (d.begin turn holdsBroker).closesDue = d.closesDue := by
  rcases hfair with hopen | ⟨_, answer, rfl, _⟩
  · cases hopen with
    | ask ends => simp [begin, closesDue, InFlight.wantsClose, ends]
    | done => rfl
  · rfl

end Desk

namespace System

variable {s : System} {d : Desk} {i : Incident}

/-- An incident asks for closing at most once, and only for the call that had yet to. -/
theorem count_requests {c : InFlight}
    (hrequests : s.requests i = [] ∨ c.exchange.isNone = true ∧ s.requests i = [c.call.service]) :
    (s.requests i).count .close ≤ if c.wantsClose then 1 else 0 := by
  rcases hrequests with hnone | ⟨hexchange, hone⟩
  · simp [hnone]
  · rw [hone]
    simp only [InFlight.wantsClose, hexchange, Bool.and_true]
    cases c.call <;> exact Nat.le_refl _

/-- Closing is due once more when it is asked for the first time, and no more once it is
requested. -/
theorem Handles.closesDue (h : s.Handles i d) :
    d.closesDue + (s.requests i).count .close ≤
      s.desk.closesDue + if i.closes && !s.closing then 1 else 0 := by
  have hsilent {d : Desk} (hsame : d.closesDue = s.desk.closesDue) (hsilent : s.requests i = []) :
      d.closesDue + (s.requests i).count .close ≤
        s.desk.closesDue + if i.closes && !s.closing then 1 else 0 := by
    rw [hsame, hsilent, List.count_nil]
    omega
  cases h with
  | spares store silent => exact hsilent rfl silent
  | takes id silent => exact hsilent rfl silent
  | begins turn holdsBroker silent fair => exact hsilent (Desk.closesDue_begin fair _) silent
  | closes holdsBroker silent closes first =>
    rw [silent, closes, first]
    simp [Desk.begin, Desk.closesDue, InFlight.wantsClose, Call.endsWithBroker]
  | waits c found requests store exchange =>
    have hmem : c ∈ (s.desk.beside store).calls := Desk.mem_of_call? found
    have hwait := Desk.closesDue_wait hmem exchange
    have hcount := count_requests requests
    have hsame : (s.desk.beside store).closesDue = s.desk.closesDue := rfl
    omega
  | resumes c found requests store turn fair =>
    have hmem : c ∈ (s.desk.beside store).calls := Desk.mem_of_call? found
    have hproceed := Desk.closesDue_proceed hmem fair
    have hcount := count_requests requests
    have hsame : (s.desk.beside store).closesDue = s.desk.closesDue := rfl
    omega

end System

end KeyBroker
