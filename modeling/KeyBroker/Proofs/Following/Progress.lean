import KeyBroker.Proofs.Following.Line
import KeyBroker.Proofs.Independence.Outlet
import KeyBroker.Proofs.Register.Endings

/-!
# How a dispatcher gets on

A step after which a dispatcher goes on does one of a few things: it takes a signal or none,
and sends something or nothing. In its last step it sends at most the report of its lost feed.
One that waits has read all there is, or finds no room.
-/

namespace KeyBroker

/-- A sender that has to wait finds a receiver and no room. -/
theorem Channel.of_full {c c' : Channel} {sender : Nat} {item : Item} (htight : c.Tight)
    (h : c.send sender item = .full c') : c.received = true ∧ c.room = 0 := by
  unfold send at h
  split at h
  · cases h
  next hreceived =>
  refine ⟨by simpa using hreceived, ?_⟩
  split at h
  · cases h
  split at h
  · next hline => exact htight (List.ne_nil_of_mem hline)
  · cases htry : c.trySend sender item with
    | full c'' => exact (full_trySend htry).2
    | _ =>
      rw [htry] at h
      cases h

/-- A feed that is read as ended is empty and has no sender. -/
theorem Feed.of_ended {feed : Feed} (h : feed.read = .ended) :
    feed.queue = [] ∧ feed.fed = false := by
  unfold Feed.read at h
  split at h
  · cases h
  · next hqueue =>
    split at h
    · cases h
    · next hfed => exact ⟨hqueue, by simpa using hfed⟩

/-- A feed on which there is nothing yet is empty and has its sender. -/
theorem Feed.of_nothingYet {feed : Feed} (h : feed.read = .nothingYet) :
    feed.queue = [] ∧ feed.fed = true := by
  unfold Feed.read at h
  split at h
  · cases h
  · next hqueue =>
    split at h
    · next hfed => exact ⟨hqueue, hfed⟩
    · cases h

namespace Dispatch

variable {d : Dispatch} {policy : SlowPolicy} {stop reportFirst : Bool}

/-- What a step does after which the dispatcher goes on: the items that it sends and the
signals that it takes off the feed. -/
inductive Progress (d : Dispatch) (policy : SlowPolicy) (after : Dispatch) :
    List Item → List Signal → Prop where
  /-- It begins, or waits. -/
  | still
    (phase : after.dispatcher.phase = d.dispatcher.phase ∨
      d.dispatcher.phase = .starting ∧ after.dispatcher.phase = .reading)
    (missed : after.dispatcher.missed = d.dispatcher.missed) : Progress d policy after [] []
  /-- It finds the end of its feed. -/
  | ended (reads : d.dispatcher.phase = .reading) (empty : d.feed.queue = [])
    (unfed : d.feed.fed = false)
    (phase : after.dispatcher.phase = .reporting "native watch stream ended")
    (missed : after.dispatcher.missed = d.dispatcher.missed) : Progress d policy after [] []
  /-- It reads an error. -/
  | failed (e : StorageError) (reads : d.dispatcher.phase = .reading)
    (phase : after.dispatcher.phase = .reporting e.message)
    (missed : after.dispatcher.missed = d.dispatcher.missed) :
    Progress d policy after [] [.error e]
  /-- It reads an event outside its stem. -/
  | passed (event : Event) (reads : d.dispatcher.phase = .reading)
    (outside : d.dispatcher.subscription.stem.beginsWith event.key = false)
    (phase : after.dispatcher.phase = .reading)
    (missed : after.dispatcher.missed = d.dispatcher.missed) :
    Progress d policy after [] [.ok event]
  /-- It reads an event and holds it. -/
  | held (event : Event) (reads : d.dispatcher.phase = .reading) (blocks : policy = .block)
    (under : d.dispatcher.subscription.stem.beginsWith event.key = true)
    (phase : after.dispatcher.phase = .sending event) : Progress d policy after [] [.ok event]
  /-- It reads an event and delivers or drops it. -/
  | offered (event : Event) {items : List Item} (reads : d.dispatcher.phase = .reading)
    (drops : policy = .dropAndSignal) (received : d.channel.received = true)
    (under : d.dispatcher.subscription.stem.beginsWith event.key = true)
    (phase : after.dispatcher.phase = .reading)
    (accounts : ∀ before seen,
      d.dispatcher.subscription.Accounts d.dispatcher.missed before seen →
        d.dispatcher.subscription.Accounts after.dispatcher.missed (before ++ items)
          (seen ++ [event])) : Progress d policy after items [.ok event]
  /-- It delivers the event that it held. -/
  | delivered (event : Event) (sends : d.dispatcher.phase = .sending event)
    (received : d.channel.received = true) (phase : after.dispatcher.phase = .reading) :
    Progress d policy after [d.dispatcher.subscription.itemOf event] []

/-- A step that goes on, as it shows at both ends of the dispatcher. -/
structure GoesOn (d : Dispatch) (policy : SlowPolicy) (step : Step) (items : List Item)
    (more : List Signal) : Prop where
  keeps : Keeps d step items
  queue : d.feed.queue = more ++ step.after.feed.queue
  fed : step.after.feed.fed = d.feed.fed
  progress : d.Progress policy step.after items more

/-- A dispatcher that reads and goes on makes progress. -/
theorem goesOn_readOne (hphase : d.dispatcher.phase = .reading)
    (hpace : (d.readOne policy).pace ≠ .over) :
    ∃ items more, d.GoesOn policy (d.readOne policy) items more := by
  unfold readOne at hpace ⊢
  cases hread : d.feed.read with
  | nothingYet => exact ⟨[], [], ⟨rfl, rfl, .refl _ _⟩, rfl, rfl, .still (.inl rfl) rfl⟩
  | ended =>
    obtain ⟨hempty, hunfed⟩ := Feed.of_ended hread
    exact ⟨[], [], ⟨rfl, rfl, .refl _ _⟩, rfl, rfl, .ended hphase hempty hunfed rfl rfl⟩
  | signal signal feed =>
    obtain ⟨hqueue, hrest⟩ := Feed.of_read hread
    have hfed : feed.fed = d.feed.fed := hrest ▸ rfl
    cases signal with
    | error e =>
      exact ⟨[], [.error e], ⟨rfl, rfl, .refl _ _⟩, hqueue, hfed, .failed e hphase rfl rfl⟩
    | ok event =>
      rw [hread] at hpace
      simp only at hpace ⊢
      cases hbegins : d.dispatcher.subscription.stem.beginsWith event.key with
      | false =>
        exact ⟨[], [.ok event], ⟨rfl, rfl, .refl _ _⟩, hqueue, hfed,
          .passed event hphase hbegins hphase rfl⟩
      | true =>
        rw [hbegins] at hpace
        cases policy with
        | block =>
          exact ⟨[], [.ok event], ⟨rfl, rfl, .refl _ _⟩, hqueue, hfed,
            .held event hphase rfl hbegins rfl⟩
        | dropAndSignal =>
          simp only [if_true] at hpace ⊢
          have hreceived : d.channel.received = true := by
            rw [ne_eq, over_offer_iff] at hpace
            simpa using hpace
          obtain ⟨items, hsettles⟩ := settles_offer (d := { d with feed }) event
            (by rw [hphase]; exact nofun) hpace
          obtain ⟨hsame, _⟩ := feed_offer { d with feed } event
          refine ⟨items, [.ok event], ⟨hsettles.subscription, hsettles.cancelled,
            hsettles.channel⟩, ?_, ?_, .offered event hphase rfl hreceived hbegins ?_
              hsettles.accounts⟩
          · rw [hqueue, hsame]
            rfl
          · rw [hsame]
            exact hfed
          · exact (phase_offer event).trans hphase

/-- A dispatcher that sends the event in its hand and goes on makes progress. -/
theorem goesOn_sendEvent {event : Event} (hphase : d.dispatcher.phase = .sending event)
    (hpace : (d.sendEvent event).pace ≠ .over) :
    ∃ items more, d.GoesOn policy (d.sendEvent event) items more := by
  have hreceived : d.channel.received = true := by
    rw [ne_eq, over_sendEvent_iff] at hpace
    simpa using hpace
  have hsends := Channel.sends_send d.channel d.dispatcher.subscription.id
    (d.dispatcher.subscription.itemOf event)
  simp only [sendEvent] at hpace ⊢
  generalize d.channel.send d.dispatcher.subscription.id
    (d.dispatcher.subscription.itemOf event) = sending at hsends hpace
  cases hsends with
  | sent gains => exact ⟨_, [], ⟨rfl, rfl, gains⟩, rfl, rfl, .delivered event hphase hreceived rfl⟩
  | full gains => exact ⟨[], [], ⟨rfl, rfl, gains⟩, rfl, rfl, .still (.inl rfl) rfl⟩
  | closed => exact absurd rfl hpace

/-- A dispatcher that reports a lost feed and goes on makes progress: it still waits for room. -/
theorem goesOn_sendReport {reason : String} (hpace : (d.sendReport reason).pace ≠ .over) :
    ∃ items more, d.GoesOn policy (d.sendReport reason) items more := by
  have hsends := Channel.sends_send d.channel d.dispatcher.subscription.id
    (.error (.watchStreamBroken d.dispatcher.subscription.localStem reason))
  simp only [sendReport] at hpace ⊢
  generalize d.channel.send d.dispatcher.subscription.id
    (.error (.watchStreamBroken d.dispatcher.subscription.localStem reason)) = sending
    at hsends hpace
  cases hsends with
  | sent gains => exact absurd rfl hpace
  | full gains => exact ⟨[], [], ⟨rfl, rfl, gains⟩, rfl, rfl, .still (.inl rfl) rfl⟩
  | closed => exact absurd rfl hpace

/-- Every step after which a dispatcher goes on is one of these. -/
theorem goesOn_step (hpace : (d.step policy stop reportFirst).pace ≠ .over) :
    ∃ items more, d.GoesOn policy (d.step policy stop reportFirst) items more := by
  unfold step at hpace ⊢
  cases hphase : d.dispatcher.phase with
  | starting => exact ⟨[], [], ⟨rfl, rfl, .refl _ _⟩, rfl, rfl, .still (.inr ⟨hphase, rfl⟩) rfl⟩
  | reading =>
    rw [hphase] at hpace
    cases stop with
    | true => exact absurd rfl hpace
    | false => exact goesOn_readOne hphase hpace
  | sending event =>
    rw [hphase] at hpace
    cases stop with
    | true => exact absurd rfl hpace
    | false => exact goesOn_sendEvent hphase hpace
  | reporting reason =>
    rw [hphase] at hpace
    simp only at hpace ⊢
    split at hpace
    · exact absurd rfl hpace
    · next hgoes =>
      rw [if_neg hgoes]
      split at hpace
      · exact absurd rfl hpace
      · next hstays =>
        rw [if_neg hstays]
        exact goesOn_sendReport hpace

/-- A step sends what it sends. -/
theorem Keeps.unique {step : Step} {items more : List Item} (h : Keeps d step items)
    (h' : Keeps d step more) : items = more := by
  have hsame := List.append_cancel_left (h.channel.items_eq.symm.trans h'.channel.items_eq)
  exact (List.map_inj_right fun _ _ hpair => (Prod.mk.inj hpair).2).1 hsame

/-! ### The last step -/

/-- In its last step a dispatcher sends nothing, because it is told to stop or nobody receives
it, or it sends the report of its lost feed. -/
theorem of_over {items : List Item} (hover : (d.step policy stop reportFirst).pace = .over)
    (hkeeps : Keeps d (d.step policy stop reportFirst) items) :
    items = [] ∧ (stop = true ∨ d.channel.received = false) ∨
      ∃ reason, d.dispatcher.phase = .reporting reason ∧ items = [d.report reason] := by
  cases hreceived : d.channel.received with
  | false =>
    refine .inl ⟨Classical.not_not.1 fun hsome => ?_, .inr rfl⟩
    rw [hkeeps.channel.live hsome] at hreceived
    cases hreceived
  | true =>
    have hgone {readsOrSends : Bool} : ¬ (!d.channel.received && readsOrSends) = true := by
      simp [hreceived]
    cases hphase : d.dispatcher.phase with
    | starting => simp [step, hphase] at hover
    | reporting reason =>
      rcases step_reporting hphase policy stop reportFirst with ⟨hstop, hstep⟩ | ⟨_, hreports⟩
      · rw [hstep] at hkeeps
        exact .inl ⟨hkeeps.unique (keeps_giveUp d), .inl hstop⟩
      · cases hreports with
        | sent pace keeps => exact .inr ⟨reason, rfl, hkeeps.unique keeps⟩
        | full pace keeps received =>
          rw [pace] at hover
          cases hover
        | closed pace keeps gone =>
          rw [gone] at hreceived
          cases hreceived
    | reading =>
      cases stop with
      | true => exact .inl ⟨hkeeps.unique (keeps_step_stop d policy _ (hphase ▸ rfl)).1, .inl rfl⟩
      | false =>
        simp only [step, hphase] at hover
        exact absurd ((over_readOne_iff hphase).1 hover) hgone
    | sending event =>
      cases stop with
      | true => exact .inl ⟨hkeeps.unique (keeps_step_stop d policy _ (hphase ▸ rfl)).1, .inl rfl⟩
      | false =>
        simp only [step, hphase] at hover
        rw [if_neg Bool.false_ne_true, over_sendEvent_iff, hreceived] at hover
        cases hover

/-! ### Waiting -/

/-- A dispatcher that waits has read all of a feed that goes on, or holds something for which
there is no room. -/
theorem waits_cases (htight : d.channel.Tight)
    (hpace : (d.step policy stop reportFirst).pace = .waiting) :
    d.dispatcher.phase = .reading ∧ d.feed.queue = [] ∧ d.feed.fed = true ∨
      ((∃ event, d.dispatcher.phase = .sending event) ∨ d.dispatcher.phase.reports = true) ∧
        d.channel.received = true ∧ d.channel.room = 0 := by
  obtain ⟨rfl, hbegun⟩ := of_waiting hpace
  cases hphase : d.dispatcher.phase with
  | starting => exact absurd hphase hbegun
  | reading =>
    simp only [step, hphase, Bool.false_eq_true, if_false, readOne] at hpace
    cases hread : d.feed.read with
    | nothingYet => exact .inl ⟨rfl, Feed.of_nothingYet hread⟩
    | ended =>
      rw [hread] at hpace
      cases hpace
    | signal signal feed =>
      rw [hread] at hpace
      cases signal with
      | error e => cases hpace
      | ok event =>
        simp only at hpace
        split at hpace
        · cases policy with
          | block => cases hpace
          | dropAndSignal => exact absurd hpace (feed_offer _ event).2
        · cases hpace
  | sending event =>
    simp only [step, hphase, Bool.false_eq_true, if_false, sendEvent] at hpace
    split at hpace
    · cases hpace
    · next hsend => exact .inr ⟨.inl ⟨event, rfl⟩, Channel.of_full htight hsend⟩
    · cases hpace
  | reporting reason =>
    simp only [step, hphase, Bool.false_and, Bool.false_eq_true, if_false, sendReport] at hpace
    split at hpace
    · cases hpace
    · next hsend => exact .inr ⟨.inr rfl, Channel.of_full htight hsend⟩
    · cases hpace

end Dispatch

end KeyBroker
