import KeyBroker.Proofs.Shutdown.Refusals

/-!
# Subscriptions on a stopped broker

A dispatcher that is to stop does not read its feed any more. So the loss of a feed is
reported after the broker was stopped only if its dispatcher had found the feed lost
before. Once all dispatchers and calls have ended, nobody but an outside sender keeps a channel
open: its receiver gets what is there and then learns that there is no more.
-/

namespace KeyBroker

/-- The sending side of a feed is gone or has failed. -/
def Feed.Lost (feed : Feed) : Prop := feed.fed = false ∨ ∃ e, .error e ∈ feed.queue

namespace Dispatch

variable {d : Dispatch} {policy : SlowPolicy} {stop reportFirst : Bool}

/-- A dispatcher that begins to report while it reads has a lost feed. -/
theorem lost_of_readOne (hphase : d.dispatcher.phase.reports = false)
    (hreports : (d.readOne policy).after.dispatcher.phase.reports = true) : d.feed.Lost := by
  cases hqueue : d.feed.queue with
  | nil =>
    cases hfed : d.feed.fed with
    | false => exact .inl hfed
    | true =>
      have hnothing : d.feed.read = .nothingYet := by simp [Feed.read, hqueue, hfed]
      simp only [readOne, hnothing, hphase] at hreports
      cases hreports
  | cons signal rest =>
    cases signal with
    | error e => exact .inr ⟨e, hqueue ▸ List.mem_cons_self⟩
    | ok event =>
      have hsignal : d.feed.read = .signal (.ok event) { d.feed with queue := rest } := by
        simp [Feed.read, hqueue]
      simp only [readOne, hsignal] at hreports
      split at hreports
      · cases policy with
        | block => cases hreports
        | dropAndSignal =>
          have hoffer := phase_offer (d := { d with feed := { d.feed with queue := rest } }) event
          simp only [hoffer, hphase] at hreports
          cases hreports
      · simp only [hphase] at hreports
        cases hreports

/-- A dispatcher finds its feed lost only when it is, and only if it is not to stop. -/
theorem lost_of_step (hphase : d.dispatcher.phase.reports = false)
    (hreports : (d.step policy stop reportFirst).after.dispatcher.phase.reports = true) :
    stop = false ∧ d.feed.Lost := by
  cases stop with
  | true =>
    have hstill := (keeps_step_stop d policy reportFirst hphase).2
    rw [hreports] at hstill
    cases hstill
  | false =>
    refine ⟨rfl, ?_⟩
    cases hcase : d.dispatcher.phase with
    | starting => simp [step, hcase, enter, Phase.reports] at hreports
    | reading =>
      have hstep : d.step policy false reportFirst = d.readOne policy := by simp [step, hcase]
      rw [hstep] at hreports
      exact lost_of_readOne hphase hreports
    | sending event =>
      have hkept : (d.sendEvent event).after.dispatcher.phase.reports = false := by
        simp only [sendEvent]
        split
        · rfl
        · exact hphase
        · exact hphase
      have hstep : d.step policy false reportFirst = d.sendEvent event := by simp [step, hcase]
      rw [hstep, hkept] at hreports
      cases hreports
    | reporting reason =>
      rw [hcase] at hphase
      cases hphase

end Dispatch

namespace Books

variable {b b' : Books} {es : List Episode}

/-- Changes that no dispatcher makes leave all of them in their phases. -/
theorem Shift.phase (h : Shift b es b') {d : Dispatcher} (hd : d ∈ b'.wiring.dispatchers)
    (hreports : d.phase.reports = true) :
    ∃ old ∈ b.wiring.dispatchers, old.subscription = d.subscription ∧ old.phase = d.phase := by
  cases h with
  | around beside => exact ⟨d, beside.dispatchers ▸ hd, rfl, rfl⟩
  | register scope localStem channel feed =>
    rcases List.mem_append.1 hd with hd | hd
    · exact ⟨d, hd, rfl, rfl⟩
    · rw [List.mem_singleton.1 hd] at hreports
      cases hreports
  | stop closing grows => exact ⟨d, hd, rfl, rfl⟩
  | unsubscribe id =>
    simp only [Wiring.unsubscribe] at hd
    split at hd
    · obtain ⟨old, hold, rfl⟩ := List.mem_map.1 hd
      refine ⟨old, hold, ?_⟩
      split <;> exact ⟨rfl, rfl⟩
    · exact ⟨d, hd, rfl, rfl⟩

/-- Changes that no dispatcher makes bring no dispatcher to report. -/
theorem Shifts.phase (h : Shifts b es b') {d : Dispatcher} (hd : d ∈ b'.wiring.dispatchers)
    (hreports : d.phase.reports = true) :
    ∃ old ∈ b.wiring.dispatchers, old.subscription = d.subscription ∧ old.phase = d.phase := by
  induction h with
  | nil => exact ⟨d, hd, rfl, rfl⟩
  | cons first _ ih =>
    obtain ⟨between, hbetween, hsub, hphase⟩ := ih hd
    obtain ⟨old, hold, hsub', hphase'⟩ := first.phase hbetween (hphase ▸ hreports)
    exact ⟨old, hold, hsub'.trans hsub, hphase'.trans hphase⟩

/-- The feed of a subscription is lost while its dispatcher runs and the broker serves. -/
def Loses (b : Books) (sub : Subscription) : Prop :=
  b.wiring.stopped = false ∧ (∃ d ∈ b.wiring.dispatchers, d.subscription = sub) ∧
    (b.wiring.store.feed sub.feed).Lost

/-- A dispatcher that reports did so before, or has just found its feed lost. -/
theorem Course.reports (h : Course b es b') {d : Dispatcher} (hd : d ∈ b'.wiring.dispatchers)
    (hreports : d.phase.reports = true) :
    (∃ old ∈ b.wiring.dispatchers, old.subscription = d.subscription ∧
        old.phase.reports = true) ∨ b.Loses d.subscription := by
  cases h with
  | shifts shifts =>
    obtain ⟨old, hold, hsub, hphase⟩ := shifts.phase hd hreports
    exact .inl ⟨old, hold, hsub, hphase ▸ hreports⟩
  | rest other works =>
    obtain ⟨old, hold, heq⟩ := List.mem_map.1 hd
    refine .inl ?_
    split at heq
    · subst heq
      exact ⟨other, works, rfl, hreports⟩
    · subst heq
      exact ⟨old, hold, rfl, hreports⟩
  | dispatch polled reportFirst works =>
    have hsub := (Wiring.stepOf_dispatcher b.wiring polled reportFirst).1
    rcases Wiring.mem_dispatch hd hsub with ⟨rfl, _⟩ | ⟨hd, _⟩
    · rw [hsub]
      cases hbefore : polled.phase.reports with
      | true => exact .inl ⟨polled, works, rfl, hbefore⟩
      | false =>
        rw [Wiring.phase_stepOf] at hreports
        obtain ⟨hstop, hlost⟩ :=
          Dispatch.lost_of_step (d := b.wiring.dispatchOf polled) hbefore hreports
        exact .inr ⟨(Bool.or_eq_false_iff.1 hstop).1, ⟨polled, works, rfl⟩, hlost⟩
    · exact .inl ⟨d, hd, rfl, hreports⟩

/-- On a stopped broker, the only reports of lost feeds are those that were under way. -/
theorem Course.flows_of_stopped (h : Course b es b') (hstopped : b.wiring.stopped = true)
    (n : Nat) :
    Channel.Flows (fun e => e.2.IsReport → e.1 = outsider ∨
        ∃ d ∈ b.wiring.dispatchers, d.subscription.id = e.1 ∧ d.phase.reports = true)
      (b.wiring.channel n) (b'.wiring.channel n) := by
  cases h with
  | shifts shifts => exact (shifts.flows n).mono fun e hothers _ => .inl hothers
  | rest d works => exact .of_same rfl
  | dispatch d reportFirst works =>
    have hstop : (b.wiring.stopped || d.cancelled) = true := by rw [hstopped]; rfl
    obtain ⟨items, hkeeps, hitems⟩ :=
      (b.wiring.dispatchOf d).keeps_step_of_stop b.wiring.policy reportFirst
    rw [← hstop] at hkeeps
    refine Wiring.flows_dispatch hkeeps.channel (fun item hitem _ => .inr ⟨d, works, rfl, ?_⟩) n
    obtain ⟨reason, hphase, _⟩ := hitems item hitem
    have hreporting : d.phase = .reporting reason := hphase
    rw [hreporting]
    rfl

end Books

namespace System

variable {s : System} {es : List Episode} {n : Nat}

/-- A dispatcher that reports after a run found its feed lost in it, while the broker served. -/
theorem Kept.reports_incurs (h : s.Kept es) {p : Subscription → Prop}
    (hp : ∀ d ∈ s.dispatchers, d.phase.reports = true → p d.subscription)
    (run : List Incident) {d : Dispatcher} (hd : d ∈ (s.incurs run).dispatchers)
    (hreports : d.phase.reports = true) :
    p d.subscription ∨
      ∃ before after, run = before ++ after ∧ (s.incurs before).books.Loses d.subscription := by
  induction run generalizing s es p with
  | nil => exact .inl (hp d hd hreports)
  | cons i run ih =>
    let pastOrNow (sub : Subscription) : Prop := p sub ∨ s.books.Loses sub
    have hnow : ∀ d ∈ (s.incur i).dispatchers, d.phase.reports = true →
        pastOrNow d.subscription := by
      intro d hd hreports
      rcases (h.course i).reports hd hreports with ⟨old, hold, hsub, hbefore⟩ | hloses
      · exact .inl (hsub ▸ hp old hold hbefore)
      · exact .inr hloses
    rcases ih (p := pastOrNow) (h.incur i) hnow hd with
      (hbefore | hloses) | ⟨before, after, rfl, hloses⟩
    · exact .inl hbefore
    · exact .inr ⟨[], i :: run, rfl, hloses⟩
    · exact .inr ⟨i :: before, after, rfl, hloses⟩

/-! ### Receiving what is left -/

/-- What a receiver finds when it receives again and again. -/
def receiveAll (s : System) (n : Nat) : (times : Nat) → List Receipt
  | 0 => []
  | times + 1 => (s.receive n).2 :: (s.receive n).1.receiveAll n times

/-- Nobody can send on a channel any more. -/
structure Unfed (s : System) (n : Nat) : Prop where
  dispatchers : s.dispatchers = []
  calls : ∀ c ∈ s.calls, c.call.channel? ≠ some n
  held : (s.channel n).held = false

/-- Nobody can send on a channel that is unfed. -/
theorem Unfed.isFed (h : s.Unfed n) : s.isFed n = false := by
  have hcalls : s.calls.any (fun c => decide (c.call.channel? = some n)) = false :=
    List.any_eq_false.2 fun c hc => by simpa using h.calls c hc
  simp [System.isFed, h.held, h.dispatchers, hcalls]

/-- Receiving takes the oldest item from a channel and feeds it as little as before. -/
theorem Unfed.receive (h : s.Unfed n) {sender : Nat} {item : Item} {rest : List (Nat × Item)}
    (hitems : (s.channel n).items = (sender, item) :: rest) :
    (s.receive n).2 = .item item ∧ (s.receive n).1.Unfed n ∧
      ((s.receive n).1.channel n).items = rest := by
  let taken : Channel := { s.channel n with items := rest }
  have hpromise : taken.promise.1.items = rest ∧ taken.promise.1.held = (s.channel n).held := by
    unfold Channel.promise
    split <;> exact ⟨rfl, rfl⟩
  have hreceive : s.receive n =
      ((s.onChannel n fun _ => taken.promise.1).wakeAll
        (taken.promise.2.toList.map .dispatcher), .item item) := by
    simp only [System.receive, Channel.receive, hitems]
    rfl
  have hwiring : (s.receive n).1.wiring = s.wiring.onChannel n fun _ => taken.promise.1 := by
    rw [hreceive, wiring_wakeAll]
    rfl
  have hdesk : (s.receive n).1.desk = s.desk := by
    rw [hreceive]
    exact desk_wakeAll _ _
  have hlt : n < s.channels.length := by
    refine Nat.lt_of_not_le fun hle => ?_
    have hnone : s.channel n = { capacity := 0, received := false } := by
      rw [channel, List.getD_eq_getElem?_getD, List.getElem?_eq_none hle]
      rfl
    rw [hnone] at hitems
    cases hitems
  have hchannel : (s.receive n).1.channel n = taken.promise.1 := by
    have hsame : (s.receive n).1.channel n = (s.receive n).1.wiring.channel n := rfl
    rw [hsame, hwiring, Wiring.channel_onChannel, if_pos ⟨rfl, hlt⟩]
  refine ⟨by rw [hreceive], ⟨?_, ?_, ?_⟩, ?_⟩
  · exact (congrArg Wiring.dispatchers hwiring).trans h.dispatchers
  · have hcalls : (s.receive n).1.calls = s.calls := congrArg Desk.calls hdesk
    rw [hcalls]
    exact h.calls
  · rw [hchannel, hpromise.2, h.held]
  · rw [hchannel, hpromise.1]

/-- The receiver of a channel on which nobody can send gets all that is there, in order, and
then learns that there is no more. -/
theorem Unfed.receiveAll (h : s.Unfed n) :
    s.receiveAll n ((s.channel n).items.length + 1) =
      (s.channel n).items.map (fun e => .item e.2) ++ [.closed] := by
  generalize hitems : (s.channel n).items = items
  induction items generalizing s with
  | nil =>
    have hreceive : (s.receive n).2 = .closed := by
      simp [System.receive, Channel.receive, hitems, h.isFed]
    simp [System.receiveAll, hreceive]
  | cons oldest rest ih =>
    obtain ⟨hitem, hunfed, hrest⟩ := h.receive hitems
    have hlater := ih hunfed hrest
    rw [List.length_cons, System.receiveAll, hitem, hlater]
    rfl

end System

end KeyBroker
