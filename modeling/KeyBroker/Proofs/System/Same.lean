import KeyBroker.Proofs.System.Effects

/-!
# Systems that hold the same

Two systems that hold the same but for the order of the workers and the journal go on to do
so, whatever happens to both. Systems that are alike but for one call hold the same once this
call has left no trace in either.
-/

namespace KeyBroker

/-- Numbers that were not given out yet belong to no call. -/
theorem Desk.Booked.standing_eq_none {d : Desk} (h : d.Booked) {id : Nat} (hid : d.nextCall ≤ id) :
    d.standing id = none := by
  have hcall : d.call? id = none := by
    rw [call?, List.find?_eq_none]
    intro c hc heq
    have hlt := h.calls c hc
    have hsame : c.id = id := of_decide_eq_true heq
    omega
  have hfinished : d.finished.find? (fun e => decide (e.1 = id)) = none := by
    rw [List.find?_eq_none]
    intro e he heq
    have hlt := h.finished e he
    have hsame : e.1 = id := of_decide_eq_true heq
    omega
  rw [standing, hcall, hfinished]
  rfl

namespace System

variable {s t : System} {id : Nat}

/-- The systems are at the beginning of a run, and hold the same but for the order of the
workers and the journal. -/
structure Same (s t : System) : Prop where
  left : s.InOrder
  right : t.InOrder
  alike : ∀ id, Alike id s t

/-- A system in order holds the same as itself. -/
theorem Same.refl (hs : s.InOrder) : Same s s := ⟨hs, hs, fun id => Alike.refl id s⟩

/-- A call that stands nowhere is not among the calls, and has no answer. -/
theorem filter_of_standing_eq_none (hnone : s.desk.standing id = none) :
    (s.calls.filter fun c => decide (c.id ≠ id)) = s.calls ∧
      (s.finished.filter fun e => decide (e.1 ≠ id)) = s.finished := by
  unfold Desk.standing at hnone
  cases hcall : s.desk.call? id with
  | some c =>
    rw [hcall] at hnone
    cases hnone
  | none =>
    rw [hcall] at hnone
    have hfinished := Option.map_eq_none_iff.1 hnone
    have hcalls : s.calls.find? (fun c => decide (c.id = id)) = none := hcall
    have hanswers : s.finished.find? (fun e => decide (e.1 = id)) = none := hfinished
    constructor
    · refine List.filter_eq_self.2 fun c hc => ?_
      have hother := List.find?_eq_none.1 hcalls c hc
      simpa using hother
    · refine List.filter_eq_self.2 fun e he => ?_
      have hother := List.find?_eq_none.1 hanswers e he
      simpa using hother

/-- Systems that are alike but for a call without a trace are alike but for any call. -/
theorem Alike.everywhere (h : Alike id s t) (hnone : s.desk.standing id = none)
    (hnone' : t.desk.standing id = none) (n : Nat) : Alike n s t := by
  have hcalls := h.calls
  have hfinished := h.finished
  obtain ⟨hcalls₁, hfinished₁⟩ := filter_of_standing_eq_none hnone
  obtain ⟨hcalls₂, hfinished₂⟩ := filter_of_standing_eq_none hnone'
  rw [hcalls₁, hcalls₂] at hcalls
  rw [hfinished₁, hfinished₂] at hfinished
  exact { h with
    calls := by rw [hcalls]
    finished := by rw [hfinished] }

/-- They hold the same. -/
theorem Alike.same (h : Alike id s t) (hs : s.InOrder) (ht : t.InOrder)
    (hnone : s.desk.standing id = none) (hnone' : t.desk.standing id = none) : Same s t :=
  ⟨hs, ht, h.everywhere hnone hnone'⟩

/-- Systems that are alike but for any call have the same calls and answers. -/
theorem calls_of_alike (h : ∀ id, Alike id s t) (hs : s.desk.Booked) (ht : t.desk.Booked) :
    s.calls = t.calls ∧ s.finished = t.finished := by
  have hnone := hs.standing_eq_none (Nat.le_refl _)
  have hnext : t.nextCall ≤ s.nextCall := Nat.le_of_eq (h 0).nextCall.symm
  have hnone' := ht.standing_eq_none hnext
  obtain ⟨hcalls₁, hfinished₁⟩ := filter_of_standing_eq_none hnone
  obtain ⟨hcalls₂, hfinished₂⟩ := filter_of_standing_eq_none hnone'
  exact ⟨hcalls₁.symm.trans ((h _).calls.trans hcalls₂),
    hfinished₁.symm.trans ((h _).finished.trans hfinished₂)⟩

/-- Calls stand in both where they stand in one. -/
theorem Same.standing (h : Same s t) (id : Nat) : s.desk.standing id = t.desk.standing id := by
  obtain ⟨hcalls, hfinished⟩ := calls_of_alike h.alike h.left.booked h.right.booked
  simp only [Desk.standing, Desk.call?, desk, hcalls, hfinished]

/-- The number of the call that a move polls. -/
def polled (st : Fated) : Nat :=
  match st.move with
  | .poll (.call n) _ => n
  | _ => 0

/-- A move polls no call with a number above the one that it names. -/
theorem polls_eq_false {st : Fated} (hid : polled st < id) : st.polls id = false := by
  unfold polled at hid
  unfold Fated.polls
  split
  · next n reportFirst hmove =>
    rw [hmove] at hid
    exact decide_eq_false (Nat.ne_of_lt hid)
  · rfl

/-- Whatever happens to both, they hold the same. -/
theorem Same.fate (h : Same s t) (st : Fated) : Same (s.fate st) (t.fate st) := by
  -- a number that the move does not poll, and that no call has before or after it
  let unused := (polled st + 1) + ((s.fate st).nextCall + (t.fate st).nextCall)
  have hother : st.polls unused = false := polls_eq_false (by omega)
  have halike := ((h.alike unused).fate hother).1
  have hs := h.left.fate st
  have ht := h.right.fate st
  refine halike.same hs ht (hs.booked.standing_eq_none ?_) (ht.booked.standing_eq_none ?_)
  · have hnext : (s.fate st).desk.nextCall = (s.fate st).nextCall := rfl
    omega
  · have hnext : (t.fate st).desk.nextCall = (t.fate st).nextCall := rfl
    omega

/-- Systems that hold the same still do after the same moves. -/
theorem Same.fates (h : Same s t) (run : List Fated) : Same (s.fates run) (t.fates run) := by
  induction run generalizing s t with
  | nil => exact h
  | cons st run ih => exact ih (h.fate st)

/-! ### Beginnings and ends of calls -/

/-- The beginning of a call is one of the moves of a run. -/
theorem launch_eq_fate (hs : s.InOrder) (turn : Turn) (holdsBroker : Bool) :
    (s.launch turn holdsBroker).1 = s.fate (.plain (.launch turn holdsBroker)) := by
  have hsame : s.under (.plain (.launch turn holdsBroker)) = s := by
    have hscript : { s with script := [] } = s := by rw [← hs.script]
    exact hscript
  have hscript := (hs.launch turn holdsBroker).script
  simp only [System.fate, hsame]
  change _ = { (s.launch turn holdsBroker).1 with script := [] }
  rw [← hscript]

/-- Taking an answer leaves the script alone. -/
theorem script_take (s : System) (id : Nat) : (s.move (.take id)).script = s.script := by
  simp only [move, takeAnswer]
  cases s.finished.find? _ <;> rfl

/-- So is the end, when its answer is taken away. -/
theorem take_eq_fate (hs : s.InOrder) (id : Nat) :
    s.move (.take id) = s.fate (.plain (.take id)) := by
  have hsame : s.under (.plain (.take id)) = s := by
    have hscript : { s with script := [] } = s := by rw [← hs.script]
    exact hscript
  have hscript : (s.move (.take id)).script = [] := (script_take s id).trans hs.script
  simp only [System.fate, hsame]
  change _ = { s.move (.take id) with script := [] }
  rw [← hscript]

/-- Systems that hold the same still do after a call was launched. -/
theorem Same.launch (h : Same s t) (turn : Turn) (holdsBroker : Bool) :
    Same (s.launch turn holdsBroker).1 (t.launch turn holdsBroker).1 := by
  rw [launch_eq_fate h.left, launch_eq_fate h.right]
  exact h.fate _

/-- Systems that hold the same still do after an answer was taken away. -/
theorem Same.take (h : Same s t) (id : Nat) : Same (s.move (.take id)) (t.move (.take id)) := by
  rw [take_eq_fate h.left, take_eq_fate h.right]
  exact h.fate _

/-- Nobody else sees an answer taken away. -/
theorem alike_take (s : System) (id : Nat) : Alike id (s.move (.take id)) s := by
  refine (Alike.take_eq s id).trans { Alike.refl id s with finished := ?_ }
  rw [List.filter_filter]
  simp only [Bool.and_self]

/-- A call whose answer was taken away stands nowhere. -/
theorem standing_take_self {answer : Answer} (hdone : s.desk.standing id = some (.done answer)) :
    (s.move (.take id)).desk.standing id = none := by
  have hcall := Option.isNone_iff_eq_none.1 ((isNone_call?_iff hdone).2 ⟨answer, rfl⟩)
  have hfind := Desk.find?_filter_ne Prod.fst s.finished id id
  rw [if_pos rfl] at hfind
  unfold Desk.standing at hdone
  rw [hcall] at hdone
  obtain ⟨e, he, _⟩ := Option.map_eq_some_iff.1 hdone
  have hfound : s.finished.find? (fun e => decide (e.1 = id)) = some e := he
  have hdesk : (s.move (.take id)).desk = s.desk.take id := by
    simp only [move, takeAnswer, hfound]
    rfl
  rw [hdesk, Desk.standing]
  have hgone : (s.desk.take id).call? id = none := hcall
  rw [hgone]
  exact congrArg (Option.map fun e => Turn.done e.2) hfind

/-- Whoever would make a call changes nothing else. -/
theorem InOrder.spare (hs : s.InOrder) (turn : Turn) (holdsBroker : Bool) :
    (s.spare turn holdsBroker).InOrder where
  script := hs.script
  booked := {
    calls := fun c hc => Nat.lt_succ_of_lt (hs.booked.calls c hc)
    finished := fun e he => Nat.lt_succ_of_lt (hs.booked.finished e he)
    apart := hs.booked.apart }

/-! ### Calls that are over -/

/-- What holds of where a call stands goes on to hold in a run if the call makes no request. -/
theorem standing_fates {P : Turn → Prop} (hs : s.InOrder) (hid : id < s.nextCall)
    (hidle : ∀ call, ¬ P (.ask call))
    (hstart : ∀ turn, s.desk.standing id = some turn → P turn) (run : List Fated) :
    ∀ turn, (s.fates run).desk.standing id = some turn → P turn := by
  induction run generalizing s with
  | nil => exact hstart
  | cons st run ih =>
    refine ih (hs.fate st) (Nat.lt_of_lt_of_le hid (nextCall_fate s st)) fun turn hturn => ?_
    have hdeals : (s.under st).Deals (s.fate st).desk := deals_move (genuine_under s st) st.move
    rcases hdeals.standing hs.booked hid hturn with hsame | ⟨call, hcall, _⟩
    · exact hstart turn hsame
    · exact absurd (hstart _ hcall) (hidle call)

/-- An answer stays what it is until it is taken away. -/
theorem done_fates {answer : Answer} (hs : s.InOrder) (hid : id < s.nextCall)
    (hdone : s.desk.standing id = some (.done answer)) (run : List Fated) {turn : Turn}
    (hturn : (s.fates run).desk.standing id = some turn) : turn = .done answer := by
  refine standing_fates (P := (· = .done answer)) hs hid (by nofun) (fun turn hturn => ?_) run turn
    hturn
  rw [hdone] at hturn
  exact (Option.some.inj hturn).symm

/-- A call that is not made never comes to stand anywhere. -/
theorem standing_fates_eq_none (hs : s.InOrder) (hid : id < s.nextCall)
    (hnone : s.desk.standing id = none) (run : List Fated) :
    (s.fates run).desk.standing id = none := by
  refine Option.eq_none_iff_forall_ne_some.2 fun turn hturn => ?_
  refine standing_fates (P := fun _ => False) hs hid (by nofun) (fun turn hstart => ?_) run turn
    hturn
  rw [hnone] at hstart
  cases hstart

end System

end KeyBroker
