import KeyBroker.Proofs.Register.Episodes

/-!
# The end of a dispatcher

A dispatcher that nobody told to stop ends in two ways: the loss of its feed is reported,
or it has something to deliver and the receiver is gone. Both can be seen without looking at
the register. A dispatcher that was told to stop sends at most that report.
-/

namespace KeyBroker

namespace Channel

variable {c : Channel} {sender : Nat} {item : Item}

/-- Sending if there is room fails without a receiver. -/
theorem trySend_of_gone (h : c.received = false) : c.trySend sender item = .closed := by
  simp [trySend, h]

/-- Sending if there is room finds the channel open while there is a receiver. -/
theorem trySend_ne_closed (h : c.received = true) : c.trySend sender item ≠ .closed := by
  simp only [trySend, h, Bool.not_true, Bool.false_eq_true, if_false]
  split <;> nofun

/-- Sending fails without a receiver. -/
theorem send_of_gone (h : c.received = false) : c.send sender item = .closed := by
  simp [send, h]

/-- Sending finds the channel open while there is a receiver. -/
theorem send_ne_closed (h : c.received = true) : c.send sender item ≠ .closed := by
  simp only [send, h, Bool.not_true, Bool.false_eq_true, if_false]
  split
  · nofun
  split
  · nofun
  · have htry : c.trySend sender item ≠ .closed := trySend_ne_closed h
    split
    · nofun
    · exact htry

end Channel

namespace Dispatch

variable {d : Dispatch} {policy : SlowPolicy} {stop reportFirst : Bool}

/-! ### Events -/

/-- Offering an event is the last step of a dispatcher exactly if its receiver is gone. -/
theorem over_offerEvent_iff (event : Event) :
    (d.offerEvent event).pace = .over ↔ d.channel.received = false := by
  simp only [offerEvent]
  cases hreceived : d.channel.received with
  | false => simp [Channel.trySend_of_gone hreceived]
  | true =>
    have hopen : d.channel.trySend d.dispatcher.subscription.id
        (d.dispatcher.subscription.itemOf event) ≠ .closed := Channel.trySend_ne_closed hreceived
    split
    · simp
    · simp [drop]
    · next h => exact absurd h hopen

/-- Offering an event behind the report of a gap is the last step exactly if the
receiver is gone. -/
theorem over_offer_iff (event : Event) :
    (d.offer event).pace = .over ↔ d.channel.received = false := by
  simp only [offer]
  split
  · exact over_offerEvent_iff event
  have hsends := Channel.sends_trySend d.channel d.dispatcher.subscription.id
    (.error (.watchLagged d.dispatcher.missed))
  cases hreceived : d.channel.received with
  | false => simp [Channel.trySend_of_gone hreceived]
  | true =>
    have hopen : d.channel.trySend d.dispatcher.subscription.id
        (.error (.watchLagged d.dispatcher.missed)) ≠ .closed := Channel.trySend_ne_closed hreceived
    cases hsend : d.channel.trySend d.dispatcher.subscription.id
        (.error (.watchLagged d.dispatcher.missed)) with
    | sent channel =>
      rw [hsend] at hsends
      cases hsends with
      | sent gains => rw [over_offerEvent_iff, gains.received_eq, hreceived]
    | full channel => simp [drop]
    | closed => exact absurd hsend hopen

/-- A dispatcher that reads ends if it has an event to deliver and nobody to receive it. -/
theorem over_readOne_iff (hphase : d.dispatcher.phase = .reading) :
    (d.readOne policy).pace = .over ↔ (!d.channel.received && d.delivers policy) = true := by
  simp only [readOne, Feed.read, delivers, hphase]
  cases d.feed.queue with
  | nil => cases d.feed.fed <;> simp [lose]
  | cons signal rest =>
    cases signal with
    | error e => simp [lose]
    | ok event =>
      by_cases hbegins : d.dispatcher.subscription.stem.beginsWith event.key = true
      · cases policy with
        | block => simp [hbegins]
        | dropAndSignal =>
          simp only [hbegins, if_true, Bool.and_true, Bool.not_eq_true']
          exact over_offer_iff event
      · cases policy <;> simp [hbegins]

/-- Sending the event in hand is the last step of a dispatcher exactly if its receiver is gone. -/
theorem over_sendEvent_iff (event : Event) :
    (d.sendEvent event).pace = .over ↔ d.channel.received = false := by
  simp only [sendEvent]
  cases hreceived : d.channel.received with
  | false => simp [Channel.send_of_gone hreceived]
  | true =>
    have hopen : d.channel.send d.dispatcher.subscription.id
        (d.dispatcher.subscription.itemOf event) ≠ .closed := Channel.send_ne_closed hreceived
    split
    · simp
    · simp
    · next h => exact absurd h hopen

/-! ### Reports -/

/-- The report of a lost feed. -/
def report (d : Dispatch) (reason : String) : Item :=
  .error (.watchStreamBroken d.dispatcher.subscription.localStem reason)

/-- What comes of sending the report of a lost feed. -/
inductive Reports (d : Dispatch) (reason : String) (step : Step) : Prop where
  | sent (pace : step.pace = .over) (keeps : Keeps d step [d.report reason])
  | full (pace : step.pace = .waiting) (keeps : Keeps d step [])
    (received : d.channel.received = true)
  | closed (pace : step.pace = .over) (keeps : Keeps d step [])
    (gone : d.channel.received = false)

/-- Sending the report of a lost feed comes to one of its three ends: sent, in line, or without a
receiver. -/
theorem reports_sendReport (d : Dispatch) (reason : String) :
    d.Reports reason (d.sendReport reason) := by
  have hsends := Channel.sends_send d.channel d.dispatcher.subscription.id (d.report reason)
  have hreport : Except.error (.watchStreamBroken d.dispatcher.subscription.localStem reason) =
      d.report reason := rfl
  simp only [sendReport, hreport]
  cases hreceived : d.channel.received with
  | false =>
    rw [Channel.send_of_gone hreceived]
    exact .closed rfl ⟨rfl, rfl, .refl _ _⟩ hreceived
  | true =>
    have hopen : d.channel.send d.dispatcher.subscription.id (d.report reason) ≠ .closed :=
      Channel.send_ne_closed hreceived
    generalize d.channel.send d.dispatcher.subscription.id (d.report reason) = sending
      at hsends hopen
    cases hsends with
    | sent gains => exact .sent rfl ⟨rfl, rfl, gains⟩
    | full gains => exact .full rfl ⟨rfl, rfl, gains⟩ hreceived
    | closed => exact absurd rfl hopen

/-- A step that sends the report and nothing else sends the report. -/
theorem reportsIn_of_report {step : Step} {reason : String}
    (h : Keeps d step [d.report reason]) : d.reportsIn step = true := by
  simp [reportsIn, h.channel.items_eq, report]

/-- A step that sends nothing sends no report. -/
theorem reportsIn_of_nothing {step : Step} (h : Keeps d step []) : d.reportsIn step = false := by
  simp [reportsIn, h.channel.items_eq]

/-- A step that reports sends the report at most, unless it gives way to the wish to stop. -/
theorem step_reporting {reason : String} (hphase : d.dispatcher.phase = .reporting reason)
    (policy : SlowPolicy) (stop reportFirst : Bool) :
    stop = true ∧ d.step policy stop reportFirst = d.giveUp ∨
      (reportFirst || !stop) = true ∧
        d.Reports reason (d.step policy stop reportFirst) := by
  have hreports := reports_sendReport d reason
  simp only [step, hphase]
  cases stop with
  | false => simpa using hreports
  | true =>
    cases reportFirst with
    | false => simp
    | true =>
      simp only [Bool.not_true, Bool.and_false, Bool.false_eq_true, if_false, Bool.true_and,
        beq_iff_eq]
      split
      · exact .inl ⟨trivial, rfl⟩
      · exact .inr ⟨rfl, hreports⟩

/-! ### Endings -/

/-- How the end of a subscription shows in a step. -/
theorem endings_cases (d : Dispatch) (policy : SlowPolicy) (stop reportFirst : Bool) :
    d.endings policy stop reportFirst = [] ∨
      d.endings policy stop reportFirst = [.reported d.dispatcher.subscription.id] ∨
      d.endings policy stop reportFirst = [.abandoned d.dispatcher.subscription.id] := by
  unfold endings
  simp only
  split <;> split <;> simp

/-- A step ends a subscription just if it ends its dispatcher, and nobody told that to stop. -/
theorem endings_step (d : Dispatch) (policy : SlowPolicy) (stop reportFirst : Bool) :
    ((d.step policy stop reportFirst).pace ≠ .over → d.endings policy stop reportFirst = []) ∧
      ((d.step policy stop reportFirst).pace = .over → stop = false →
        d.endings policy stop reportFirst ≠ []) := by
  -- while it has no loss to report, a dispatcher ends by itself just if it finds its receiver gone
  -- as it delivers
  have hevent {pace : Pace}
      (hover : pace = .over ↔ (!d.channel.received && d.delivers policy) = true)
      (hreports : d.dispatcher.phase.reports = false) (hstop : stop = false) :
      (pace ≠ .over → d.endings policy stop reportFirst = []) ∧
        (pace = .over → stop = false → d.endings policy stop reportFirst ≠ []) := by
    subst hstop
    simp only [endings, hreports, Bool.false_eq_true, if_false, Bool.not_false, Bool.true_and]
    exact ⟨fun h => if_neg fun h' => h (hover.2 h'), fun h _ => by simp [hover.1 h]⟩
  have hgivesUp (hreports : d.dispatcher.phase.reports = false) (hstop : stop = true) :
      d.endings policy stop reportFirst = [] := by
    simp [endings, hreports, hstop]
  cases hphase : d.dispatcher.phase with
  | starting =>
    have hnone : d.endings policy stop reportFirst = [] := by
      simp [endings, hphase, Phase.reports, delivers]
    simp [step, hphase, hnone]
  | reading =>
    cases stop with
    | true => simp [hgivesUp (hphase ▸ rfl) rfl]
    | false =>
      have hstep : d.step policy false reportFirst = d.readOne policy := by
        simp [step, hphase]
      rw [hstep]
      exact hevent (over_readOne_iff hphase) (hphase ▸ rfl) rfl
  | sending event =>
    cases stop with
    | true => simp [hgivesUp (hphase ▸ rfl) rfl]
    | false =>
      have hstep : d.step policy false reportFirst = d.sendEvent event := by
        simp [step, hphase]
      rw [hstep]
      refine hevent ?_ (hphase ▸ rfl) rfl
      rw [over_sendEvent_iff]
      simp [delivers, hphase]
  | reporting reason =>
    have hendings : d.endings policy stop reportFirst =
        if (reportFirst || !stop) &&
            (!d.channel.received || d.reportsIn (d.step policy stop reportFirst)) then
          [.reported d.dispatcher.subscription.id]
        else [] := by
      simp [endings, hphase, Phase.reports]
    rw [hendings]
    rcases step_reporting hphase policy stop reportFirst with ⟨hstop, hstep⟩ | ⟨hfirst, hreports⟩
    · rw [hstep]
      exact ⟨fun h => absurd rfl h, fun _ h => by rw [hstop] at h; cases h⟩
    · rw [hfirst]
      cases hreports with
      | sent pace keeps => simp [pace, reportsIn_of_report keeps]
      | full pace keeps received => simp [pace, received, reportsIn_of_nothing keeps]
      | closed pace keeps gone => simp [pace, gone]

/-- A dispatcher that is to stop sends at most the report of its lost feed. -/
theorem keeps_step_of_stop (d : Dispatch) (policy : SlowPolicy) (reportFirst : Bool) :
    ∃ items, Keeps d (d.step policy true reportFirst) items ∧
      ∀ item ∈ items, ∃ reason, d.dispatcher.phase = .reporting reason ∧
        item = d.report reason := by
  cases hphase : d.dispatcher.phase with
  | reporting reason =>
    rcases step_reporting hphase policy true reportFirst with ⟨_, hstep⟩ | ⟨_, hreports⟩
    · rw [hstep]
      exact ⟨[], keeps_giveUp d, nofun⟩
    · cases hreports with
      | sent pace keeps => exact ⟨_, keeps, fun item h => ⟨reason, rfl, List.mem_singleton.1 h⟩⟩
      | full pace keeps received => exact ⟨[], keeps, nofun⟩
      | closed pace keeps gone => exact ⟨[], keeps, nofun⟩
  | _ => exact ⟨[], (keeps_step_stop d policy reportFirst (hphase ▸ rfl)).1, nofun⟩

/-- Offering an event leaves a dispatcher in its phase. -/
theorem phase_offer (event : Event) :
    (d.offer event).after.dispatcher.phase = d.dispatcher.phase := by
  have hoffer (d : Dispatch) :
      (d.offerEvent event).after.dispatcher.phase = d.dispatcher.phase := by
    simp only [offerEvent]
    split <;> rfl
  simp only [offer]
  split
  · exact hoffer d
  · split
    · exact hoffer _
    · rfl
    · rfl

/-- Every step leaves a dispatcher that has begun. -/
theorem begun_step (d : Dispatch) (policy : SlowPolicy) (stop reportFirst : Bool) :
    (d.step policy stop reportFirst).after.dispatcher.phase ≠ .starting := by
  have hstays {phase : Phase} (hne : d.dispatcher.phase ≠ .starting)
      (h : phase = d.dispatcher.phase) : phase ≠ .starting := h ▸ hne
  cases hphase : d.dispatcher.phase with
  | starting => simp [step, hphase, enter]
  | reading =>
    have hne : d.dispatcher.phase ≠ .starting := by simp [hphase]
    simp only [step, hphase]
    split
    · exact hstays hne rfl
    · unfold readOne
      split
      · exact hstays hne rfl
      · exact fun h => by cases h
      · exact fun h => by cases h
      · next event feed _ =>
        simp only
        split
        · cases policy with
          | block => exact fun h => by cases h
          | dropAndSignal => exact hstays hne (phase_offer (d := { d with feed }) event)
        · exact hstays hne rfl
  | sending event =>
    have hne : d.dispatcher.phase ≠ .starting := by simp [hphase]
    simp only [step, hphase]
    split
    · exact hstays hne rfl
    · simp only [sendEvent]
      split
      · exact fun h => by cases h
      · exact hstays hne rfl
      · exact hstays hne rfl
  | reporting reason =>
    have hne : d.dispatcher.phase ≠ .starting := by simp [hphase]
    have hreport : (d.sendReport reason).after.dispatcher.phase = d.dispatcher.phase := by
      simp only [sendReport]
      split <;> rfl
    simp only [step, hphase]
    split
    · exact hstays hne rfl
    · split
      · exact hstays hne rfl
      · exact hstays hne hreport

/-- Only a dispatcher that nobody told to stop waits, and not before it has begun. -/
theorem of_waiting (h : (d.step policy stop reportFirst).pace = .waiting) :
    stop = false ∧ d.dispatcher.phase ≠ .starting := by
  cases hphase : d.dispatcher.phase with
  | starting => simp [step, hphase] at h
  | reporting reason =>
    refine ⟨?_, nofun⟩
    cases stop with
    | false => rfl
    | true =>
      simp only [step, hphase, Bool.true_and] at h
      split at h
      · simp [giveUp] at h
      · split at h
        · simp [giveUp] at h
        · next hnot => simp [h] at hnot
  | _ =>
    cases stop with
    | false => exact ⟨rfl, nofun⟩
    | true => simp [step, hphase, giveUp] at h

end Dispatch

end KeyBroker
