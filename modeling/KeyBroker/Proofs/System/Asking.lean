import KeyBroker.Proofs.Usable.Waiting

/-!
# What a call asks of the store

A call makes its request in the first poll that finds no request made, unless the broker has
stopped by then. Whoever polls something else leaves the call as it stands, and a call that has
a single request never asks for anything again once it was polled.
-/

namespace KeyBroker

/-- A request that was put to the store. -/
abbrev Demand := (service : Service) × Request service

/-- Whether an incident polls the call of a number. -/
def Incident.polls (id : Nat) : Incident → Bool
  | .occur (.move (.poll (.call n) _)) => decide (n = id)
  | _ => false

/-- An incident that polls a call is a poll of it, and nothing else. -/
theorem Incident.eq_poll {id : Nat} {i : Incident} (h : i.polls id = true) :
    ∃ reportFirst, i = .occur (.move (.poll (.call id) reportFirst)) := by
  unfold polls at h
  split at h
  · next n reportFirst => exact ⟨reportFirst, by rw [of_decide_eq_true h]⟩
  · cases h

/-- A call that has its answer is no longer under way, and all others are. -/
theorem Desk.call?_proceed_done (d : Desk) (c : InFlight) (answer : Answer) (id : Nat) :
    (d.proceed c (.done answer)).call? id = if id = c.id then none else d.call? id :=
  find?_filter_ne InFlight.id d.calls c.id id

namespace System

variable {s : System} {c : InFlight} {i : Incident} {id : Nat}

/-- What a call asks of the store in an incident: its request, when it is polled for the first
time, on a broker that serves it. -/
def asks (s : System) (id : Nat) (i : Incident) : List Demand :=
  if i.polls id then
    (s.desk.call? id).elim [] fun c =>
      if c.exchange.isNone && !(s.stopped && c.call.endsWithBroker) then
        [⟨c.call.service, c.call.request⟩]
      else []
  else []

/-- What a call asks of the store in incidents in order. -/
def asksAll (s : System) (id : Nat) : List Incident → List Demand
  | [] => []
  | i :: run => s.asks id i ++ (s.incur i).asksAll id run

/-- Incidents in two parts come one part after the other. -/
theorem incurs_append (s : System) (run more : List Incident) :
    s.incurs (run ++ more) = (s.incurs run).incurs more :=
  List.foldl_append

/-- A call asks in two parts what it asks in the first, then what it asks in the second after it. -/
theorem asksAll_append (s : System) (id : Nat) (run more : List Incident) :
    s.asksAll id (run ++ more) = s.asksAll id run ++ (s.incurs run).asksAll id more := by
  induction run generalizing s with
  | nil => rfl
  | cons i run ih =>
    rw [List.cons_append, asksAll, asksAll, ih, List.append_assoc]
    rfl

/-- A call asks for nothing when it is not polled. -/
theorem asks_of_not_polls (h : i.polls id = false) : s.asks id i = [] := by
  simp only [asks, h, Bool.false_eq_true, if_false]

/-- A call that is not under way asks for nothing. -/
theorem asks_of_gone (h : s.desk.call? id = none) (i : Incident) : s.asks id i = [] := by
  simp only [asks, h, Option.elim_none, ite_self]

/-- A call that is polled makes its request if it has not done so yet, unless the broker is
stopped and it ends with the broker. -/
theorem asks_of_polls (hpolls : i.polls c.id = true) (hfound : s.desk.call? c.id = some c) :
    s.asks c.id i =
      if c.exchange.isNone && !(s.stopped && c.call.endsWithBroker) then
        [⟨c.call.service, c.call.request⟩]
      else [] := by
  simp only [asks, hpolls, if_true, hfound, Option.elim_some]

/-! ### Calls that are not polled -/

/-- A poll of another call leaves a call as it is. -/
theorem call?_pollCall_of_other {n : Nat} (h : id ≠ n) :
    (s.pollCall n).desk.call? id = s.desk.call? id := by
  cases hfind : s.desk.call? n with
  | none => rw [pollCall_of_gone hfind]
  | some c =>
    obtain rfl := Desk.id_of_call? hfind
    have hlooks := looks_pollCall hfind
    generalize (s.pollCall c.id).desk = d at hlooks
    cases hlooks with
    | early exchange early => rfl
    | waits store due fresh =>
      exact call?_wait_of_ne (c := { c with exchange := _ }) (s.desk.beside store) h
    | goesOn store turn reacts =>
      exact call?_proceed_of_ne (d := s.desk.beside store) hfind turn h

/-- What does not poll a call leaves it as it is. -/
theorem call?_incur_of_not_polls (hid : id < s.nextCall) (hpolls : i.polls id = false) :
    (s.incur i).desk.call? id = s.desk.call? id := by
  have hne : id ≠ s.desk.nextCall := Nat.ne_of_lt hid
  cases i with
  | occur o =>
    cases o with
    | move m =>
      have hspares (h : m.sparesCalls = true) : (s.move m).desk.call? id = s.desk.call? id := by
        obtain ⟨store, hdesk⟩ := s.desk_move h
        rw [hdesk]
        rfl
      cases m with
      | poll worker reportFirst =>
        cases worker with
        | dispatcher n => exact hspares rfl
        | call n => exact call?_pollCall_of_other (Ne.symm (of_decide_eq_false hpolls))
      | launch turn holdsBroker =>
        have hbegin := call?_begin_of_ne s.desk turn holdsBroker hne
        rwa [← desk_launch] at hbegin
      | take n =>
        simp only [incur, occur, move, takeAnswer]
        cases s.finished.find? _ <;> rfl
      | close holdsBroker =>
        have hbegin := call?_begin_of_ne s.desk s.beginClose.2 holdsBroker hne
        rw [← desk_beginClose, ← desk_launch, desk_beginClose] at hbegin
        exact hbegin
      | _ => exact hspares rfl
    | _ => rfl
  | _ => rfl

/-- Nor does it bring the call further; at most its answer is taken away. -/
theorem standing_incur_of_not_polls (hbooked : s.desk.Booked) (hid : id < s.nextCall)
    (hpolls : i.polls id = false) :
    (s.incur i).desk.standing id = s.desk.standing id ∨
      (s.incur i).desk.standing id = none := by
  rcases (stirs_incur s i).standing hbooked hid with hsame | ⟨call, _, hcall, -⟩ | ⟨-, hnone⟩
  · exact .inl hsame
  · cases hfound : s.desk.call? id with
    | none =>
      obtain ⟨answer, hdone⟩ := (isNone_call?_iff hcall).1 (by rw [hfound]; rfl)
      cases hdone
    | some c =>
      rw [Desk.standing, call?_incur_of_not_polls hid hpolls, hfound, Desk.standing, hfound]
      exact .inl rfl
  · exact .inr hnone

/-! ### Calls with one request -/

/-- A call that has nothing to ask any more: it ended, or it waits for the answer to the only
request it has. -/
structure Spent (s : System) (id : Nat) : Prop where
  known : id < s.nextCall
  waits : ∀ c, s.desk.call? id = some c → c.exchange.isSome = true ∧ c.call.single = true

/-- A call that has ended has nothing to ask any more. -/
theorem Spent.of_gone (known : id < s.nextCall) (hgone : s.desk.call? id = none) : s.Spent id where
  known := known
  waits c hfound := by cases hgone.symm.trans hfound

/-- A call that is over as soon as it begins has nothing to ask. -/
theorem spent_launch (hbooked : s.desk.Booked) (answer : Answer) (holdsBroker : Bool) :
    (s.launch (.done answer) holdsBroker).1.Spent s.nextCall := by
  refine .of_gone (Nat.lt_of_lt_of_eq (Nat.lt_succ_self _) (nextCall_launch ..).symm) ?_
  have hstanding := standing_launch hbooked (.done answer) holdsBroker
  exact Option.isNone_iff_eq_none.1 ((isNone_call?_iff hstanding).2 ⟨answer, rfl⟩)

/-- A call that has nothing to ask asks for nothing. -/
theorem Spent.asks (h : s.Spent id) (i : Incident) : s.asks id i = [] := by
  unfold System.asks
  split
  · cases hfound : s.desk.call? id with
    | none => rfl
    | some c =>
      obtain ⟨e, hexchange⟩ := Option.isSome_iff_exists.1 (h.waits c hfound).1
      simp [hexchange]
  · rfl

/-- An incident takes no number of a call back. -/
theorem nextCall_incur (s : System) (i : Incident) : s.nextCall ≤ (s.incur i).nextCall :=
  (stirs_incur s i).nextCall_le

/-- Incidents in order take no number of a call back. -/
theorem nextCall_incurs (s : System) (run : List Incident) :
    s.nextCall ≤ (s.incurs run).nextCall := by
  induction run generalizing s with
  | nil => exact Nat.le_refl _
  | cons i run ih => exact Nat.le_trans (nextCall_incur s i) (ih (s.incur i))

/-- A poll leaves a call with one request nothing to ask. -/
theorem spent_of_polled (known : id < s.nextCall)
    (hsingle : ∀ c, s.desk.call? id = some c → c.call.single = true) (hpolls : i.polls id = true) :
    (s.incur i).Spent id := by
  have hlater := Nat.lt_of_lt_of_le known (nextCall_incur s i)
  obtain ⟨reportFirst, rfl⟩ := Incident.eq_poll hpolls
  refine ⟨hlater, fun c hc => ?_⟩
  have hpolled : (s.pollCall id).desk.call? id = some c := hc
  cases hfind : s.desk.call? id with
  | none =>
    rw [pollCall_of_gone hfind, hfind] at hpolled
    cases hpolled
  | some before =>
    have hone := hsingle before hfind
    obtain rfl := Desk.id_of_call? hfind
    have hlooks := looks_pollCall hfind
    generalize (s.pollCall before.id).desk = d at hlooks hpolled
    cases hlooks with
    | early exchange early =>
      obtain rfl := Option.some.inj (hfind.symm.trans hpolled)
      exact ⟨Option.isSome_of_eq_some exchange, hone⟩
    | waits store due fresh =>
      have hwait := Desk.call?_wait (s.desk.beside store)
        { before with
          exchange := some
            { started := s.now, deadline := s.now + s.settings.requestTimeout, due } }
      obtain rfl := Option.some.inj (hwait.symm.trans hpolled)
      exact ⟨rfl, hone⟩
    | goesOn store turn reacts =>
      obtain ⟨answer, rfl⟩ := reacts.done (.inl hone)
      rw [Desk.call?_proceed_done, if_pos rfl] at hpolled
      cases hpolled

/-- A call that has nothing to ask has nothing to ask after any incident. -/
theorem Spent.incur (h : s.Spent id) (i : Incident) : (s.incur i).Spent id := by
  cases hpolls : i.polls id with
  | true => exact spent_of_polled h.known (fun c hc => (h.waits c hc).2) hpolls
  | false =>
    refine ⟨Nat.lt_of_lt_of_le h.known (nextCall_incur s i), fun c hc => ?_⟩
    rw [call?_incur_of_not_polls h.known hpolls] at hc
    exact h.waits c hc

end System

end KeyBroker
