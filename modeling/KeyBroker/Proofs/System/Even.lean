import KeyBroker.Proofs.System.Asking
import KeyBroker.Proofs.System.Same

/-!
# Systems of which nobody can tell the difference

What stands in the journal, and the order in which workers stand in line, decide nothing. Two
systems that differ in nothing else meet with every incident in the same way, whatever the
store and its script do.
-/

namespace KeyBroker.System

variable {s t : System} {id : Nat}

/-- The systems hold the same but for the order of the workers and the journal. -/
structure Even (s t : System) : Prop where
  left : s.desk.Booked
  right : t.desk.Booked
  alike : ∀ id, Alike id s t

/-- An incident that does not poll the call takes alike systems to alike systems. -/
theorem Alike.incur (h : Alike id s t) {i : Incident} (hpolls : i.polls id = false) :
    Alike id (s.incur i) (t.incur i) := by
  have hfed (n : Nat) (f : Feed → Feed) :
      Alike id { s with store := s.store.onFeed n f } { t with store := t.store.onFeed n f } :=
    { h with store := by rw [h.store] }
  cases i with
  | occur o =>
    cases o with
    | move m =>
      refine h.move fun reportFirst hm => ?_
      rw [hm, Incident.polls, decide_eq_true rfl] at hpolls
      cases hpolls
    | offer n item => exact h.onChannel n _
    | send n item => exact h.onChannel n _
    | giveUp n => exact h.onChannel n _
    | signal n signal => exact hfed n _
  | plan line => exact { h with script := by simp only [System.incur, h.script] }
  | finish n => exact hfed n _

/-- Systems that differ in nothing but the journal and the order of the workers have the same
calls under way. -/
theorem Even.calls (h : Even s t) : s.calls = t.calls := (calls_of_alike h.alike h.left h.right).1

/-- Systems that differ in nothing but the journal and the order of the workers have the same call
of each number. -/
theorem Even.call? (h : Even s t) (id : Nat) : s.desk.call? id = t.desk.call? id := by
  simp only [Desk.call?, desk, h.calls]

/-- Calls ask in both for what they ask for in one. -/
theorem Even.asks (h : Even s t) (id : Nat) (i : Incident) : s.asks id i = t.asks id i := by
  simp only [System.asks, h.call? id, (h.alike id).stopped]

/-- Some call is not polled, and was not made before some moment. -/
theorem exists_unpolled (i : Incident) (n : Nat) : ∃ id, n ≤ id ∧ i.polls id = false := by
  cases hpolls : i.polls n with
  | false => exact ⟨n, Nat.le_refl n, hpolls⟩
  | true =>
    obtain ⟨reportFirst, rfl⟩ := Incident.eq_poll hpolls
    exact ⟨n + 1, Nat.le_succ n, decide_eq_false (Nat.ne_of_lt (Nat.lt_succ_self n))⟩

/-- Both meet with an incident in the same way. -/
theorem Even.incur (h : Even s t) (i : Incident) : Even (s.incur i) (t.incur i) := by
  -- a number that is not polled, and that no call has before or after it
  obtain ⟨unused, hlate, hpolls⟩ := exists_unpolled i ((s.incur i).nextCall + (t.incur i).nextCall)
  have hs := (stirs_incur s i).booked h.left
  have ht := (stirs_incur t i).booked h.right
  have halike := (h.alike unused).incur hpolls
  refine ⟨hs, ht, halike.everywhere (hs.standing_eq_none ?_) (ht.standing_eq_none ?_)⟩
  · exact Nat.le_trans (Nat.le_add_right _ _) hlate
  · exact Nat.le_trans (Nat.le_add_left _ _) hlate

/-- A note in the journal makes no difference. -/
theorem even_note (hbooked : s.desk.Booked) (notices : List Notice) :
    Even (s.incur (.occur (.move (.note notices)))) s where
  left := (stirs_incur s _).booked hbooked
  right := hbooked
  alike _ := Alike.noteAll s notices

end KeyBroker.System
