import KeyBroker.Proofs.System.Moves

/-!
# Calls under way and their answers

A call has a number of its own. It stands at a request to make until it is answered,
and its answer lies on the desk until it is taken away. A move of a system puts at
most one new call on the desk, and brings at most one of those there further.
-/

namespace KeyBroker

/-- The part of a system that knows of its calls, with the store that they ask. -/
structure Desk where
  calls : List InFlight
  finished : List (Nat × Answer)
  nextCall : Nat
  store : Store

/-- The desk of a system. -/
def System.desk (s : System) : Desk where
  calls := s.calls
  finished := s.finished
  nextCall := s.nextCall
  store := s.store

namespace Desk

/-- The call under way of a number. -/
def call? (d : Desk) (id : Nat) : Option InFlight := d.calls.find? (·.id = id)

/-- Where a call stands: it has a request to make, or it has an answer. -/
def standing (d : Desk) (id : Nat) : Option Turn :=
  match d.call? id with
  | some c => some (.ask c.call)
  | none => (d.finished.find? (·.1 = id)).map fun e => .done e.2

/-- Puts a new call on the desk. -/
def begin (d : Desk) (turn : Turn) (holdsBroker : Bool) : Desk :=
  match turn with
  | .ask call =>
    { d with
      calls := d.calls ++ [{ id := d.nextCall, call, holdsBroker }]
      nextCall := d.nextCall + 1 }
  | .done answer =>
    { d with finished := d.finished ++ [(d.nextCall, answer)], nextCall := d.nextCall + 1 }

/-- Puts a call behind all others. -/
def wait (d : Desk) (c : InFlight) : Desk :=
  { d with calls := (d.calls.filter fun other => other.id ≠ c.id) ++ [c] }

/-- Brings a call to its next turn. -/
def proceed (d : Desk) (c : InFlight) : Turn → Desk
  | .done answer =>
    { d with
      calls := d.calls.filter fun other => other.id ≠ c.id
      finished := d.finished ++ [(c.id, answer)] }
  | .ask call =>
    { d with
      calls := d.calls.map fun other =>
        if other.id = c.id then { c with call, exchange := none } else other }

/-- Takes an answer away. -/
def take (d : Desk) (id : Nat) : Desk :=
  { d with finished := d.finished.filter fun e => e.1 ≠ id }

/-- Numbers were given out in order, and no call under way has an answer. -/
structure Booked (d : Desk) : Prop where
  calls : ∀ c ∈ d.calls, c.id < d.nextCall
  finished : ∀ e ∈ d.finished, e.1 < d.nextCall
  apart : ∀ c ∈ d.calls, ∀ e ∈ d.finished, c.id ≠ e.1

variable {d : Desk} {c : InFlight}

/-- The desk beside another store. -/
def beside (d : Desk) (store : Store) : Desk := { d with store }

/-- A booked desk is booked beside any store. -/
theorem Booked.beside (h : d.Booked) (store : Store) : (d.beside store).Booked where
  calls := h.calls
  finished := h.finished
  apart := h.apart

/-! ### Numbers -/

/-- Once the entry of a number is taken away, nothing is found under it, and under others what was
found before. -/
theorem find?_filter_ne {α : Type} (number : α → Nat) (entries : List α) (taken id : Nat) :
    (entries.filter fun e => decide (number e ≠ taken)).find? (fun e => decide (number e = id)) =
      if id = taken then none else entries.find? fun e => decide (number e = id) := by
  rw [List.find?_filter]
  by_cases hid : id = taken
  · rw [if_pos hid, List.find?_eq_none]
    intro e _ hboth
    obtain ⟨htaken, he⟩ : number e ≠ taken ∧ number e = id := by simpa using hboth
    exact htaken (he.trans hid)
  · rw [if_neg hid]
    congr 1
    funext e
    by_cases he : number e = id
    · have htaken : number e ≠ taken := fun h => hid (he.symm.trans h)
      simp [he, hid]
    · simp [he]

/-- The call of a number has that number. -/
theorem id_of_call? {id : Nat} (h : d.call? id = some c) : c.id = id := by
  have hid := List.find?_some h
  exact of_decide_eq_true hid

/-- A call that is found by its number is under way. -/
theorem mem_of_call? {id : Nat} (h : d.call? id = some c) : c ∈ d.calls :=
  List.mem_of_find?_eq_some h

/-- No call under way has the next number. -/
theorem Booked.call?_eq_none (h : d.Booked) : d.call? d.nextCall = none := by
  rw [call?, List.find?_eq_none]
  intro c hc hid
  have hlt := h.calls c hc
  have heq : c.id = d.nextCall := of_decide_eq_true hid
  omega

/-- No answer is there under the next number. -/
theorem Booked.finished?_eq_none (h : d.Booked) :
    d.finished.find? (fun e => decide (e.1 = d.nextCall)) = none := by
  rw [List.find?_eq_none]
  intro e he hid
  have hlt := h.finished e he
  have heq : e.1 = d.nextCall := of_decide_eq_true hid
  omega

/-- A call under way has no answer yet. -/
theorem Booked.unanswered (h : d.Booked) (hc : c ∈ d.calls) :
    d.finished.find? (fun e => decide (e.1 = c.id)) = none := by
  rw [List.find?_eq_none]
  intro e he hid
  exact h.apart c hc e he (of_decide_eq_true hid).symm

/-! ### Where calls stand -/

/-- A new call stands at its first turn, and all others where they stood. -/
theorem Booked.standing_begin (h : d.Booked) (turn : Turn) (holdsBroker : Bool) (id : Nat) :
    (d.begin turn holdsBroker).standing id =
      if id = d.nextCall then some turn else d.standing id := by
  cases turn with
  | ask call =>
    simp only [begin, standing, call?, List.find?_append, List.find?_cons, List.find?_nil]
    by_cases hid : id = d.nextCall
    · have hnone : d.calls.find? (fun c => decide (c.id = d.nextCall)) = none := h.call?_eq_none
      simp [hid, hnone]
    · cases d.calls.find? fun c => decide (c.id = id) <;> simp [hid, Ne.symm hid]
  | done answer =>
    simp only [begin, standing, call?, List.find?_append, List.find?_cons, List.find?_nil]
    by_cases hid : id = d.nextCall
    · have hnone : d.calls.find? (fun c => decide (c.id = d.nextCall)) = none := h.call?_eq_none
      simp [hid, hnone, h.finished?_eq_none]
    · cases d.calls.find? fun c => decide (c.id = id) <;> simp [hid, Ne.symm hid]

/-- A call that waits stands where it stood, and so do all others. -/
theorem standing_wait (hc : d.call? c.id = some c) (exchange : Option Exchange) (id : Nat) :
    (d.wait { c with exchange }).standing id = d.standing id := by
  have hcall : (d.wait { c with exchange }).call? id =
      if id = c.id then some { c with exchange } else d.call? id := by
    simp only [wait, call?, List.find?_append, find?_filter_ne, List.find?_cons, List.find?_nil]
    by_cases hid : id = c.id
    · simp [hid]
    · simp [hid, Ne.symm hid]
  unfold standing
  rw [hcall]
  by_cases hid : id = c.id
  · rw [if_pos hid, hid, hc]
  · rw [if_neg hid]
    rfl

/-- A call with a further request stays under way. -/
theorem call?_proceed (hc : d.call? c.id = some c) (call : Call) (id : Nat) :
    (d.proceed c (.ask call)).call? id =
      if id = c.id then some { c with call, exchange := none } else d.call? id := by
  simp only [proceed, call?, List.find?_map]
  have hsame : ((fun other : InFlight => decide (other.id = id)) ∘ fun other =>
      if other.id = c.id then { c with call, exchange := none } else other) =
        fun other => decide (other.id = id) := by
    funext other
    simp only [Function.comp]
    split
    · next heq => simp [heq]
    · rfl
  rw [hsame]
  by_cases hid : id = c.id
  · have hfind : d.calls.find? (fun other => decide (other.id = c.id)) = some c := hc
    simp [hid, hfind]
  · cases hfind : d.calls.find? fun other => decide (other.id = id) with
    | none => simp [hid]
    | some other =>
      have hother : other.id = id := id_of_call? (d := d) hfind
      simp [hid, hother]

/-- A further turn is where its call stands, and all others stand where they stood. -/
theorem Booked.standing_proceed (h : d.Booked) (hc : d.call? c.id = some c) (turn : Turn)
    (id : Nat) :
    (d.proceed c turn).standing id = if id = c.id then some turn else d.standing id := by
  cases turn with
  | ask call =>
    unfold standing
    rw [call?_proceed hc]
    by_cases hid : id = c.id
    · rw [if_pos hid, if_pos hid]
    · rw [if_neg hid, if_neg hid]
      rfl
  | done answer =>
    have hcall : (d.proceed c (.done answer)).call? id = if id = c.id then none else d.call? id :=
      find?_filter_ne InFlight.id d.calls c.id id
    unfold standing
    rw [hcall]
    by_cases hid : id = c.id
    · have hnone := h.unanswered (mem_of_call? hc)
      simp [hid, proceed, List.find?_append, hnone]
    · simp [hid, proceed, List.find?_append, Ne.symm hid]

/-- Taking an answer away leaves a call where it stood, or nowhere. -/
theorem standing_take (d : Desk) (taken id : Nat) :
    (d.take taken).standing id = d.standing id ∨ (d.take taken).standing id = none := by
  simp only [take, standing, call?, find?_filter_ne]
  cases d.calls.find? fun c => decide (c.id = id) with
  | some c => exact .inl rfl
  | none =>
    by_cases hid : id = taken
    · rw [if_pos hid]
      exact .inr rfl
    · rw [if_neg hid]
      exact .inl rfl

/-! ### Booking -/

/-- A new call leaves the desk booked. -/
theorem Booked.begin (h : d.Booked) (turn : Turn) (holdsBroker : Bool) :
    (d.begin turn holdsBroker).Booked := by
  have hcalls : ∀ c ∈ d.calls, c.id < d.nextCall + 1 :=
    fun c hc => Nat.lt_succ_of_lt (h.calls c hc)
  have hfinished : ∀ e ∈ d.finished, e.1 < d.nextCall + 1 :=
    fun e he => Nat.lt_succ_of_lt (h.finished e he)
  cases turn with
  | ask call =>
    refine ⟨List.forall_mem_append.2 ⟨hcalls, ?_⟩, hfinished,
      List.forall_mem_append.2 ⟨h.apart, ?_⟩⟩
    · exact List.forall_mem_singleton.2 (Nat.lt_succ_self _)
    · exact List.forall_mem_singleton.2 fun e he => Nat.ne_of_gt (h.finished e he)
  | done answer =>
    refine ⟨hcalls, List.forall_mem_append.2 ⟨hfinished, ?_⟩, fun c hc => ?_⟩
    · exact List.forall_mem_singleton.2 (Nat.lt_succ_self _)
    · refine List.forall_mem_append.2 ⟨h.apart c hc, ?_⟩
      exact List.forall_mem_singleton.2 (Nat.ne_of_lt (h.calls c hc))

/-- Calls may change as long as no new number comes up. -/
theorem Booked.withCalls (h : d.Booked) {calls : List InFlight}
    (hcalls : ∀ c ∈ calls, ∃ old ∈ d.calls, c.id = old.id) : Booked { d with calls } where
  calls c hc := by
    obtain ⟨old, hold, hid⟩ := hcalls c hc
    exact hid ▸ h.calls old hold
  finished := h.finished
  apart c hc e he := by
    obtain ⟨old, hold, hid⟩ := hcalls c hc
    exact hid ▸ h.apart old hold e he

/-- A call that waits leaves the desk booked. -/
theorem Booked.wait (h : d.Booked) (hc : d.call? c.id = some c) (exchange : Option Exchange) :
    (d.wait { c with exchange }).Booked := by
  refine h.withCalls (List.forall_mem_append.2 ⟨fun c' hc' => ?_, ?_⟩)
  · exact ⟨c', (List.mem_filter.1 hc').1, rfl⟩
  · exact List.forall_mem_singleton.2 ⟨c, mem_of_call? hc, rfl⟩

/-- A further turn of a call leaves the desk booked. -/
theorem Booked.proceed (h : d.Booked) (hc : d.call? c.id = some c) (turn : Turn) :
    (d.proceed c turn).Booked := by
  have hold := mem_of_call? hc
  cases turn with
  | ask call =>
    refine h.withCalls fun c' hc' => ?_
    obtain ⟨other, hother, rfl⟩ := List.mem_map.1 hc'
    split
    · exact ⟨c, hold, rfl⟩
    · exact ⟨other, hother, rfl⟩
  | done answer =>
    refine ⟨fun c' hc' => h.calls c' (List.mem_filter.1 hc').1,
      List.forall_mem_append.2 ⟨h.finished, ?_⟩, fun c' hc' => ?_⟩
    · exact List.forall_mem_singleton.2 (h.calls c hold)
    · obtain ⟨hc', hne⟩ := List.mem_filter.1 hc'
      refine List.forall_mem_append.2 ⟨h.apart c' hc', ?_⟩
      exact List.forall_mem_singleton.2 (of_decide_eq_true hne)

/-- Taking an answer away leaves the desk booked. -/
theorem Booked.take (h : d.Booked) (id : Nat) : (d.take id).Booked where
  calls := h.calls
  finished e he := h.finished e (List.mem_filter.1 he).1
  apart c hc e he := h.apart c hc e (List.mem_filter.1 he).1

end Desk

end KeyBroker
