import KeyBroker.Proofs.Register.Bookkeeping

/-!
# Subscriptions off the register

A subscription that was taken off the register never comes back to it. Its dispatcher may
be in the middle of anything: about to begin, resting, waiting for room on the channel, or
about to report the loss of its feed. Whatever it is, the dispatcher is gone after it has been
polled three times.
-/

namespace KeyBroker

/-- The number of polls after which a dispatcher that is to stop is gone: one for a rest that is
due, one to begin, and one to end. -/
def Dispatcher.rounds (d : Dispatcher) : Nat :=
  (if d.credit = 0 then 1 else 0) + (if d.phase = .starting then 1 else 0) + 1

/-- A dispatcher that is to stop is gone after three polls at most. -/
theorem Dispatcher.rounds_le (d : Dispatcher) : d.rounds ≤ 3 := by
  unfold rounds
  split <;> split <;> omega

/-- A rest that is due takes one of the polls. -/
theorem Dispatcher.rounds_refreshed (d : Dispatcher) :
    d.refreshed.rounds + (if d.credit = 0 then 1 else 0) = d.rounds := by
  have hrefreshed : d.refreshed.rounds = 0 + (if d.phase = .starting then 1 else 0) + 1 := rfl
  rw [hrefreshed, rounds]
  omega

/-- A dispatcher that is to stop ends in its next step, unless it has not begun. -/
theorem Dispatch.step_of_stop (d : Dispatch) (policy : SlowPolicy) (reportFirst : Bool) :
    (d.step policy true reportFirst).pace = .over ∨
      (d.step policy true reportFirst).dispatcher.rounds < d.dispatcher.rounds := by
  cases hphase : d.dispatcher.phase with
  | starting =>
    right
    simp only [step, hphase, Step.dispatcher, Dispatcher.rounds, enter, Nat.sub_zero, if_true,
      reduceCtorEq, if_false]
    omega
  | reading | sending =>
    left
    simp only [step, hphase, if_true, giveUp]
  | reporting reason =>
    left
    have hattempt : (d.sendReport reason).pace = .over ∨ (d.sendReport reason).pace = .waiting := by
      unfold sendReport
      dsimp only
      split
      · exact .inl rfl
      · exact .inr rfl
      · exact .inl rfl
    simp only [step, hphase, Bool.true_and]
    split
    · rfl
    · rcases hattempt with hover | hwaiting
      · simp [hover]
      · simp [hwaiting, giveUp]

/-- The dispatcher that is polled in an incident. -/
def Incident.polled? : Incident → Option Nat
  | .occur o => o.polled?
  | _ => none

namespace Books

variable {b b' : Books} {es more : List Episode} {n k : Nat}

/-- Numbers only rise. -/
theorem Shift.next_le (h : Shift b es b') :
    b.wiring.nextSubscription ≤ b'.wiring.nextSubscription := by
  cases h with
  | around beside => exact Nat.le_of_eq beside.next.symm
  | register => exact Nat.le_succ _
  | unsubscribe id =>
    refine Nat.le_of_eq ?_
    unfold Wiring.unsubscribe
    split <;> rfl
  | stop => exact Nat.le_refl _

/-- No incident takes a number back. -/
theorem Course.next_le (h : Course b es b') :
    b.wiring.nextSubscription ≤ b'.wiring.nextSubscription := by
  cases h with
  | shifts shifts =>
    induction shifts with
    | nil => exact Nat.le_refl _
    | cons first _ ih => exact Nat.le_trans first.next_le ih
  | dispatch d reportFirst works =>
    exact Nat.le_of_eq (Wiring.stopped_dispatch b.wiring d reportFirst).2.symm
  | rest => exact Nat.le_refl _

/-- A subscription was taken off the register, and its dispatcher has at most `k` polls left. -/
structure Off (b : Books) (n k : Nat) : Prop where
  known : n < b.wiring.nextSubscription
  unlisted : n ∉ b.wiring.registered
  short : ∀ d ∈ b.wiring.dispatchers, d.subscription.id = n → d.rounds ≤ k

/-- The dispatcher of a subscription off the register is to stop. -/
theorem Exact.stops_of_unlisted (h : b.Exact es) (hunlisted : n ∉ b.wiring.registered)
    {d : Dispatcher} (hd : d ∈ b.wiring.dispatchers) (hid : d.subscription.id = n) :
    (b.wiring.stopped || d.cancelled) = true := by
  cases hcancelled : d.cancelled with
  | true => exact Bool.or_true _
  | false =>
    rw [h.listed] at hunlisted
    exact absurd (Dispatcher.mem_roster.2 ⟨d, hd, hcancelled, hid⟩) hunlisted

/-- A change that no dispatcher makes brings nobody back on the register. -/
theorem Off.shift (h : b.Off n k) (hshift : Shift b more b') : b'.Off n k := by
  cases hshift with
  | around beside =>
    exact ⟨beside.next.symm ▸ h.known, beside.registered.symm ▸ h.unlisted,
      beside.dispatchers.symm ▸ h.short⟩
  | register scope localStem channel feed =>
    have hne := Nat.ne_of_lt h.known
    refine ⟨Nat.lt_succ_of_lt h.known, ?_, ?_⟩
    · exact List.not_mem_append h.unlisted fun hmem => hne (List.mem_singleton.1 hmem)
    · refine List.forall_mem_append.2 ⟨h.short, List.forall_mem_singleton.2 fun hid => ?_⟩
      exact absurd hid.symm hne
  | unsubscribe id =>
    unfold Wiring.unsubscribe
    split
    · refine ⟨h.known, fun hmem => h.unlisted (List.mem_of_mem_erase hmem), fun d hd hid => ?_⟩
      obtain ⟨old, hold, rfl⟩ := List.mem_map.1 hd
      have hshort := h.short old hold
      split at hid <;> split <;> exact hshort hid
    · exact h
  | stop => exact ⟨h.known, h.unlisted, h.short⟩

/-- Such changes in order bring nobody back on the register. -/
theorem Off.shifts (h : b.Off n k) (hshifts : Shifts b more b') : b'.Off n k := by
  induction hshifts with
  | nil => exact h
  | cons first _ ih => exact ih (h.shift first)

/-- A step of the dispatcher leaves it less to do, and one of another leaves it as it is. -/
theorem Off.dispatch (h : b.Off n k) (hexact : b.Exact es) {d : Dispatcher}
    (hd : d ∈ b.wiring.dispatchers) (reportFirst : Bool) :
    (b.dispatch d reportFirst).Off n (if d.subscription.id = n then k - 1 else k) := by
  obtain ⟨hsub, -⟩ := Wiring.stepOf_dispatcher b.wiring d reportFirst
  refine ⟨?_, fun hmem => h.unlisted ?_, fun d' hd' hid => ?_⟩
  · exact (Wiring.stopped_dispatch b.wiring d reportFirst).2.symm ▸ h.known
  · simp only [Books.dispatch, Wiring.dispatch] at hmem
    split at hmem
    · exact List.mem_of_mem_erase hmem
    · exact hmem
  rcases Wiring.mem_dispatch hd' hsub with ⟨rfl, hgoes⟩ | ⟨hold, hne⟩
  · rw [hsub] at hid
    have hshort := h.short d hd hid
    have hstep := (b.wiring.dispatchOf d).step_of_stop b.wiring.policy reportFirst
    rw [← hexact.stops_of_unlisted h.unlisted hd hid] at hstep
    have hless : (b.wiring.stepOf d reportFirst).dispatcher.rounds < d.rounds :=
      hstep.resolve_left hgoes
    rw [if_pos hid]
    omega
  · rw [if_neg fun heq => hne (hid.trans heq.symm)]
    exact h.short d' hold hid

/-- A rest that is due is over after a poll. -/
theorem Off.rest (h : b.Off n k) {d : Dispatcher} (hd : d ∈ b.wiring.dispatchers) :
    { b with wiring := b.wiring.withDispatcher d.refreshed }.Off n
      (if d.subscription.id = n ∧ d.credit = 0 then k - 1 else k) := by
  refine ⟨h.known, h.unlisted, fun d' hd' hid => ?_⟩
  obtain ⟨other, hother, rfl⟩ := List.mem_map.1 hd'
  have hrefreshed := d.rounds_refreshed
  have hsame : d.refreshed.subscription = d.subscription := rfl
  rw [hsame] at hid ⊢
  split at hid
  · next heq =>
    rw [hsame] at hid
    have hshort := h.short d hd hid
    rw [if_pos heq]
    by_cases hcredit : d.credit = 0
    · rw [if_pos hcredit] at hrefreshed
      rw [if_pos ⟨hid, hcredit⟩]
      omega
    · rw [if_neg fun hboth => hcredit hboth.2]
      omega
  · next hne =>
    rw [if_neg hne, if_neg fun hboth => hne (hid.trans hboth.1.symm)]
    exact h.short other hother hid

/-- A bound on the polls that are left may be raised. -/
theorem Off.mono {fewer : Nat} (h : b.Off n fewer) (hle : fewer ≤ k) : b.Off n k :=
  ⟨h.known, h.unlisted, fun d hd hid => Nat.le_trans (h.short d hd hid) hle⟩

/-- No incident brings a subscription back on the register, nor gives its dispatcher polls. -/
theorem Off.course (h : b.Off n k) (hexact : b.Exact es) (hcourse : Course b more b') :
    b'.Off n k := by
  cases hcourse with
  | shifts shifts => exact h.shifts shifts
  | dispatch d reportFirst works =>
    exact (h.dispatch hexact works reportFirst).mono (by split <;> omega)
  | rest d works => exact (h.rest works).mono (by split <;> omega)

end Books

namespace System

open Books (Off)

variable {s : System} {es : List Episode} {n k : Nat}

/-- A poll brings the dispatcher of a subscription off the register nearer to its end. -/
theorem off_pollDispatcher (hkept : s.Kept es) (h : s.books.Off n k) (reportFirst : Bool) :
    (s.pollDispatcher n reportFirst).books.Off n (k - 1) := by
  cases hfind : s.dispatcher? n with
  | none =>
    have hsame : s.pollDispatcher n reportFirst = s := by simp only [pollDispatcher, hfind]
    rw [hsame]
    refine ⟨h.known, h.unlisted, fun d hd hid => ?_⟩
    have hnone := List.find?_eq_none.1 hfind d hd
    exact absurd hid (by simpa using hnone)
  | some d =>
    have hd : d ∈ s.books.wiring.dispatchers := List.mem_of_find?_eq_some hfind
    have hid : d.subscription.id = n := by simpa using List.find?_some hfind
    by_cases hcredit : d.credit = 0
    · have hrests : s.pollDispatcher n reportFirst = s.rest d := by
        simp only [pollDispatcher, hfind, if_pos hcredit]
      have hrest := h.rest hd
      rw [if_pos ⟨hid, hcredit⟩] at hrest
      rw [hrests]
      exact hrest
    · have hstep := h.dispatch hkept.exact hd reportFirst
      rw [if_pos hid] at hstep
      rw [books_pollDispatcher hfind hcredit]
      exact hstep

/-- Every poll of a dispatcher that is to stop leaves it one poll fewer. -/
theorem off_incur (hkept : s.Kept es) (h : s.books.Off n k) (i : Incident) :
    (s.incur i).books.Off n (k - if i.polled? = some n then 1 else 0) := by
  split
  · next hpolled =>
    unfold Incident.polled? Occurrence.polled? at hpolled
    split at hpolled
    · split at hpolled
      · next id reportFirst =>
        obtain rfl := Option.some.inj hpolled
        exact off_pollDispatcher hkept h reportFirst
      · cases hpolled
    · cases hpolled
  · exact h.course hkept.exact (hkept.course i)

/-- Off the register once is off the register for good, and the dispatcher is the nearer to its
end the more often it was polled. -/
theorem off_incurs (hkept : s.Kept es) (h : s.books.Off n k) (run : List Incident) :
    (s.incurs run).books.Off n (k - run.countP fun i => decide (i.polled? = some n)) := by
  induction run generalizing s es k with
  | nil => exact h
  | cons i run ih =>
    have hrest := ih (hkept.incur i) (off_incur hkept h i)
    rw [Nat.sub_sub, Nat.add_comm] at hrest
    rw [List.countP_cons]
    simpa using hrest

/-- Once it was polled three times, the dispatcher of a subscription off the register is
gone. -/
theorem gone_of_polled (hkept : s.Kept es) (hknown : n < s.nextSubscription)
    (hunlisted : n ∉ s.registered) {run : List Incident}
    (hpolled : 3 ≤ run.countP fun i => decide (i.polled? = some n)) :
    ∀ d ∈ (s.incurs run).dispatchers, d.subscription.id ≠ n := by
  have hoff : s.books.Off n 3 := ⟨hknown, hunlisted, fun d _ _ => d.rounds_le⟩
  intro d hd hid
  have hshort := (off_incurs hkept hoff run).short d hd hid
  have hpositive : 0 < d.rounds := Nat.succ_pos _
  omega

end System

end KeyBroker
