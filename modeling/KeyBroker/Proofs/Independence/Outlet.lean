import KeyBroker.Proofs.Independence.Anonymous

/-!
# A subscription by itself

All that there is of a subscription, but for its numbers, is its place on the register, its
channel, and its dispatcher with its feed until the dispatcher has ended. If nobody else
has its channel, the next step of its dispatcher depends on nothing else and changes nothing
else of it.
-/

namespace KeyBroker

/-- All that there is of a subscription but its numbers. -/
structure Outlet where
  /-- Whether it is registered. -/
  active : Bool
  channel : Channel
  /-- Its dispatcher and its feed, unless the dispatcher has ended. -/
  running? : Option (Dispatcher × Feed)

namespace Outlet

/-- The outlet after a step of the dispatcher. -/
def step (policy : SlowPolicy) (o : Outlet) : Outlet :=
  match o.running? with
  | none => o
  | some (dispatcher, feed) =>
    let step := Dispatch.step { dispatcher, feed, channel := o.channel } policy
      dispatcher.cancelled false
    if step.pace = .over then { active := false, channel := step.after.channel, running? := none }
    else
      { o with
        channel := step.after.channel
        running? := some (step.after.dispatcher, step.after.feed) }

/-- The outlet after events were committed. -/
def fed (o : Outlet) (events : List Event) : Outlet :=
  { o with
    running? := o.running?.map fun (d, feed) =>
      let more := events.filter fun e => d.subscription.stem.beginsWith e.key
      (d, { feed with queue := feed.queue ++ more.map .ok }) }

/-- The outlet after its subscriber asked it to stop. -/
def unsubscribed (o : Outlet) : Outlet :=
  if o.active then
    { o with
      active := false
      running? := o.running?.map fun (d, feed) => ({ d with cancelled := true }, feed) }
  else o

/-- The outlet with its channel changed by `f`. -/
def onChannel (o : Outlet) (f : Channel → Channel) : Outlet := { o with channel := f o.channel }

/-- The outlet of a new subscription on a new channel. -/
def new (scope localStem : Key) (capacity : Nat) (held : Bool) : Outlet where
  active := true
  channel := { capacity, held }
  running? := some ({ subscription :=
    { id := 0, localStem, stem := scope.qualify localStem, scope, channel := 0, feed := 0 } }, {})

end Outlet

/-! ### Steps that change nothing -/

/-- A sender in line stays where it is while there is no room for it. -/
theorem Channel.eq_of_full {c c' : Channel} {sender : Nat} {item : Item}
    (h : c.send sender item = .full c') (hline : sender ∈ c.pending) : c' = c := by
  unfold Channel.send at h
  split at h
  · cases h
  split at h
  · cases h
  next hpromised =>
  have hwaiting : sender ∈ c.waiting := (List.mem_append.1 hline).resolve_left hpromised
  rw [if_pos hwaiting] at h
  exact (Channel.Sending.full.inj h).symm

/-- Reading takes the first signal off the queue. -/
theorem Feed.of_read {feed rest : Feed} {signal : Signal} (h : feed.read = .signal signal rest) :
    feed.queue = signal :: rest.queue ∧ rest = { feed with queue := rest.queue } := by
  unfold Feed.read at h
  cases hqueue : feed.queue with
  | nil =>
    rw [hqueue] at h
    simp only at h
    split at h <;> cases h
  | cons first others =>
    rw [hqueue] at h
    cases h
    exact ⟨rfl, rfl⟩

/-- Both ends of the feed of a standing watch are there. -/
theorem Store.Watched.feed_eq {s : Store} {n : Nat} {stem : Key} (h : s.Watched n stem) :
    s.feed n = { queue := (s.feed n).queue } := by
  have hfed := h.fed
  have hattended := h.attended
  generalize s.feed n = feed at hfed hattended
  obtain ⟨queue, fed, attended⟩ := feed
  cases hfed
  cases hattended
  rfl

namespace Dispatch

variable {d : Dispatch} {policy : SlowPolicy} {stop reportFirst : Bool}

/-- A dispatcher that waits, and stands in line if it holds an event, is left as it is by its
next step. -/
theorem after_of_waiting (hphase : d.dispatcher.phase.reports = false)
    (hline : d.dispatcher.phase.held ≠ [] → d.dispatcher.subscription.id ∈ d.channel.pending)
    (hpace : (d.step policy stop reportFirst).pace = .waiting) :
    (d.step policy stop reportFirst).after = d := by
  unfold step at hpace ⊢
  cases hcase : d.dispatcher.phase with
  | starting =>
    rw [hcase] at hpace
    cases hpace
  | reading =>
    rw [hcase] at hpace
    cases stop with
    | true => cases hpace
    | false =>
      simp only [Bool.false_eq_true, if_false, readOne] at hpace ⊢
      cases hread : d.feed.read with
      | nothingYet => rfl
      | ended =>
        rw [hread] at hpace
        cases hpace
      | signal signal feed =>
        rw [hread] at hpace
        cases signal with
        | error e => cases hpace
        | ok event =>
          simp only at hpace
          split at hpace
          · cases policy with
            | block => cases hpace
            | dropAndSignal => exact absurd hpace (feed_offer _ event).2
          · cases hpace
  | sending event =>
    rw [hcase] at hpace
    -- who holds an event stands in line already, so sending finds the channel full and keeps the
    -- place
    have hpending : d.dispatcher.subscription.id ∈ d.channel.pending := by
      refine hline ?_
      rw [hcase]
      exact List.cons_ne_nil _ _
    cases stop with
    | true => cases hpace
    | false =>
      simp only [Bool.false_eq_true, if_false, sendEvent] at hpace ⊢
      cases hsending : d.channel.send d.dispatcher.subscription.id
          (d.dispatcher.subscription.itemOf event) with
      | sent c =>
        rw [hsending] at hpace
        cases hpace
      | full c => rw [Channel.eq_of_full hsending hpending]
      | closed => rfl
  | reporting reason =>
    rw [hcase] at hphase
    cases hphase

/-- A step takes signals off the front of the feed at most. -/
theorem feed_step (d : Dispatch) (policy : SlowPolicy) (stop reportFirst : Bool) :
    ∃ queue, queue <:+ d.feed.queue ∧
      (d.step policy stop reportFirst).after.feed = { d.feed with queue } := by
  have hsame {feed : Feed} (h : feed = d.feed) :
      ∃ queue, queue <:+ d.feed.queue ∧ feed = { d.feed with queue } :=
    ⟨d.feed.queue, List.suffix_refl _, h⟩
  unfold step
  cases d.dispatcher.phase with
  | starting => exact hsame rfl
  | reading =>
    cases stop with
    | true => exact hsame rfl
    | false =>
      simp only [Bool.false_eq_true, if_false, readOne]
      cases hread : d.feed.read with
      | nothingYet => exact hsame rfl
      | ended => exact hsame rfl
      -- only reading takes a signal, and it takes the first
      | signal signal feed =>
        obtain ⟨hqueue, hrest⟩ := Feed.of_read hread
        refine ⟨feed.queue, hqueue ▸ List.suffix_cons _ _, ?_⟩
        rw [← hrest]
        cases signal with
        | error e => rfl
        | ok event =>
          simp only
          split
          · cases policy with
            | block => rfl
            | dropAndSignal => exact (feed_offer { d with feed } event).1
          · rfl
  | sending event =>
    cases stop with
    | true => exact hsame rfl
    | false =>
      simp only [Bool.false_eq_true, if_false, sendEvent]
      split <;> exact hsame rfl
  | reporting reason =>
    have hreport : (d.sendReport reason).after.feed = d.feed := by
      simp only [sendReport]
      split <;> rfl
    simp only
    split
    · exact hsame rfl
    · split
      · exact hsame rfl
      · exact hsame hreport

end Dispatch

/-- A feed that is not lost is not lost either when signals are read from its front. -/
theorem Feed.not_lost_of_suffix {feed : Feed} {queue : List Signal} (h : ¬feed.Lost)
    (hqueue : queue <:+ feed.queue) : ¬Feed.Lost { feed with queue } := by
  rintro (hfed | ⟨e, he⟩)
  · exact h (.inl hfed)
  · exact h (.inr ⟨e, hqueue.subset he⟩)

/-- Nobody has anything to do: every dispatcher waits, and one that waits for room stands in
line for it. -/
structure System.Still (s : System) : Prop where
  rests : s.AtRest
  inLine : ∀ d ∈ s.dispatchers, d.phase.held ≠ [] →
    d.subscription.id ∈ (s.channel d.subscription.channel).pending

instance (s : System) : Decidable s.Still :=
  decidable_of_iff
    (s.AtRest ∧ ∀ d ∈ s.dispatchers, d.phase.held ≠ [] →
      d.subscription.id ∈ (s.channel d.subscription.channel).pending)
    ⟨fun h => ⟨h.1, h.2⟩, fun h => ⟨h.rests, h.inLine⟩⟩

/-- The native watch of a dispatcher stands in the store, and nothing is lost. -/
structure Dispatcher.Working (d : Dispatcher) (store : Store) : Prop where
  watched : store.Watched d.subscription.feed d.subscription.stem
  intact : ¬(store.feed d.subscription.feed).Lost
  phase : d.phase.reports = false

namespace Wiring

/-- The wiring has subscription `id` with channel `n` to itself, and `o` is all that there is
of it. -/
structure Holds (w : Wiring) (id n : Nat) (o : Outlet) : Prop where
  opened : n < w.channels.length
  known : id < w.nextSubscription
  own : ∀ d ∈ w.dispatchers, d.subscription.channel = n ↔ d.subscription.id = id
  line : (w.channel n).LinedBy id
  active : o.active = decide (id ∈ w.registered)
  channel : o.channel = (w.channel n).anonymous
  working : ∀ d ∈ w.dispatchers, d.subscription.id = id →
    d.Working w.store ∧ o.running? = some (d.anonymous, w.store.feed d.subscription.feed)
  ended : (∀ d ∈ w.dispatchers, d.subscription.id ≠ id) → o.running? = none

variable {w w' : Wiring} {id n : Nat} {o : Outlet} {d : Dispatcher}

/-! ### Steps of the dispatcher -/

/-- A working dispatcher that goes on with a step works on, and its feed is as the step
leaves it. -/
theorem working_dispatch_self (h : d.Working w.store) {reportFirst : Bool}
    (hpace : (w.stepOf d reportFirst).pace ≠ .over) :
    (w.stepOf d reportFirst).dispatcher.Working (w.dispatch d reportFirst).store ∧
      (w.dispatch d reportFirst).store.feed d.subscription.feed =
        (w.stepOf d reportFirst).after.feed := by
  obtain ⟨hsub, _⟩ := stepOf_dispatcher w d reportFirst
  obtain ⟨queue, hqueue, hfeed⟩ := Dispatch.feed_step (w.dispatchOf d) w.policy
    (w.stopped || d.cancelled) reportFirst
  have hafter : (w.stepOf d reportFirst).after.feed =
      { w.store.feed d.subscription.feed with queue } := hfeed
  have hstore := store_dispatch w d reportFirst hpace
  have hnew : (w.dispatch d reportFirst).store.feed d.subscription.feed =
      (w.stepOf d reportFirst).after.feed := by
    rw [hstore, Store.feed_onFeed_self h.watched.opened]
  refine ⟨⟨?_, ?_, ?_⟩, hnew⟩
  · rw [hsub, hstore]
    refine h.watched.onFeed _ fun _ => ?_
    rw [hafter]
    exact ⟨h.watched.fed, h.watched.attended⟩
  · rw [hsub, hnew, hafter]
    exact Feed.not_lost_of_suffix h.intact hqueue
  · rw [phase_stepOf]
    refine eq_false_of_ne_true fun hreports => h.intact ?_
    exact (Dispatch.lost_of_step (d := w.dispatchOf d) h.phase hreports).2

/-- A step of a dispatcher leaves its channel as the step says. -/
theorem channel_dispatch_self (hopened : d.subscription.channel < w.channels.length)
    (reportFirst : Bool) :
    (w.dispatch d reportFirst).channel d.subscription.channel =
      (w.stepOf d reportFirst).after.channel := by
  rw [channel_dispatch, if_pos ⟨rfl, hopened⟩]

/-- A step takes the subscription of its dispatcher off the register exactly if it is the last. -/
theorem registered_dispatch (w : Wiring) (d : Dispatcher) (reportFirst : Bool) :
    (w.dispatch d reportFirst).registered =
      if (w.stepOf d reportFirst).pace = .over then w.registered.erase d.subscription.id
      else w.registered := by
  simp only [Wiring.dispatch]
  cases (w.stepOf d reportFirst).pace <;> rfl

/-- A dispatcher that goes on with a step stands in its place as the step leaves it. -/
theorem mem_dispatch_self (hd : d ∈ w.dispatchers) {reportFirst : Bool}
    (hpace : (w.stepOf d reportFirst).pace ≠ .over) :
    (w.stepOf d reportFirst).dispatcher ∈ (w.dispatch d reportFirst).dispatchers := by
  obtain ⟨hsub, _⟩ := stepOf_dispatcher w d reportFirst
  have hreplaced : (w.stepOf d reportFirst).dispatcher ∈
      (w.withDispatcher (w.stepOf d reportFirst).dispatcher).dispatchers :=
    List.mem_map.2 ⟨d, hd, if_pos (by rw [hsub])⟩
  simp only [Wiring.dispatch]
  exact hreplaced

/-- The step of the outlet is the step of the dispatcher, without numbers. -/
theorem Holds.step_eq (h : w.Holds id n o) (hrunning : w.stopped = false)
    (hd : d ∈ w.dispatchers) (hid : d.subscription.id = id) (reportFirst : Bool) :
    let step := w.stepOf d reportFirst
    step.after.channel.LinedBy id ∧
      o.step w.policy =
        if step.pace = .over then
          { active := false, channel := step.after.channel.anonymous, running? := none }
        else
          { o with
            channel := step.after.channel.anonymous
            running? := some (step.dispatcher.anonymous, step.after.feed) } := by
  intro step
  subst hid
  obtain rfl : d.subscription.channel = n := (h.own d hd).2 rfl
  obtain ⟨hworking, hruns⟩ := h.working d hd rfl
  obtain ⟨credit, hdispatcher⟩ := step.dispatcher_eq
  let masked := Dispatch.step
    { dispatcher := d.anonymous, feed := w.store.feed d.subscription.feed, channel := o.channel }
    w.policy d.cancelled false
  have hmasked : masked = Dispatch.step (w.dispatchOf d).anonymous w.policy
      (w.stopped || d.cancelled) false := by
    have hanonymous : (w.dispatchOf d).anonymous =
        { dispatcher := d.anonymous, feed := w.store.feed d.subscription.feed
          channel := o.channel } := by
      rw [h.channel]
      rfl
    rw [hanonymous, hrunning, Bool.false_or]
  have hmasks : Dispatch.Masks d.subscription.id step masked := by
    rw [hmasked]
    exact Dispatch.masks_step (d := w.dispatchOf d) h.line hworking.phase _ reportFirst
  have hstep : o.step w.policy =
      if masked.pace = .over then
        { active := false, channel := masked.after.channel, running? := none }
      else
        { o with
          channel := masked.after.channel
          running? := some (masked.after.dispatcher, masked.after.feed) } := by
    simp only [Outlet.step, hruns]
    rfl
  refine ⟨hmasks.line, ?_⟩
  rw [hstep, ← hmasks.pace, ← hmasks.after, hdispatcher]
  rfl

/-- A step of its dispatcher takes a subscription on as a step of its outlet. -/
theorem Holds.dispatch_self (h : w.Holds id n o) (hsound : w.Sound) (hrunning : w.stopped = false)
    (hd : d ∈ w.dispatchers) (hid : d.subscription.id = id) (reportFirst : Bool) :
    (w.dispatch d reportFirst).Holds id n (o.step w.policy) := by
  obtain ⟨hline, hstep⟩ := h.step_eq hrunning hd hid reportFirst
  subst hid
  obtain rfl : d.subscription.channel = n := (h.own d hd).2 rfl
  obtain ⟨hworking, hruns⟩ := h.working d hd rfl
  obtain ⟨hsub, _⟩ := stepOf_dispatcher w d reportFirst
  have hchannel := channel_dispatch_self (w := w) h.opened reportFirst
  have hregistered := registered_dispatch w d reportFirst
  have hopened : d.subscription.channel < (w.dispatch d reportFirst).channels.length := by
    rw [channels_dispatch]
    exact (List.length_modify ..).symm ▸ h.opened
  have hown : ∀ d' ∈ (w.dispatch d reportFirst).dispatchers,
      d'.subscription.channel = d.subscription.channel ↔
        d'.subscription.id = d.subscription.id := by
    intro d' hd'
    rcases mem_dispatch hd' hsub with ⟨rfl, _⟩ | ⟨hold, _⟩
    · simp only [hsub]
    · exact h.own d' hold
  have hknown := (stopped_dispatch w d reportFirst).2 ▸ h.known
  rw [hstep]
  -- a last step takes the subscription off the register; otherwise its dispatcher works on
  by_cases hpace : (w.stepOf d reportFirst).pace = .over
  · rw [if_pos hpace] at hregistered ⊢
    have hgone : d.subscription.id ∉ (w.dispatch d reportFirst).registered := by
      rw [hregistered]
      exact fun hmem => (hsound.distinct.mem_erase_iff.1 hmem).1 rfl
    exact
      { opened := hopened
        known := hknown
        own := hown
        line := hchannel ▸ hline
        active := (decide_eq_false hgone).symm
        channel := by rw [hchannel]
        working := fun d' hd' hid => by
          rcases mem_dispatch hd' hsub with ⟨_, hgoes⟩ | ⟨_, hne⟩
          · exact absurd hpace hgoes
          · exact absurd hid hne
        ended := fun _ => rfl }
  · rw [if_neg hpace] at hregistered ⊢
    obtain ⟨hworks, hfeed⟩ := working_dispatch_self hworking hpace
    exact
      { opened := hopened
        known := hknown
        own := hown
        line := hchannel ▸ hline
        active := hregistered ▸ h.active
        channel := by rw [hchannel]
        working := fun d' hd' hid => by
          rcases mem_dispatch hd' hsub with ⟨rfl, _⟩ | ⟨_, hne⟩
          · rw [hsub, hfeed]
            exact ⟨hworks, rfl⟩
          · exact absurd hid hne
        ended := fun hnone =>
          absurd (congrArg (·.id) hsub) (hnone _ (mem_dispatch_self hd hpace)) }

end Wiring

/-! ### Stillness -/

/-- When nobody has anything to do, the outlet has no steps to take. -/
theorem System.Still.step_eq {s : System} {id n : Nat} {o : Outlet} (h : s.Still)
    (hholds : s.wiring.Holds id n o) (hrunning : s.stopped = false) :
    o.step s.settings.slowPolicy = o := by
  by_cases hworks : ∃ d ∈ s.dispatchers, d.subscription.id = id
  · obtain ⟨d, hd, hid⟩ := hworks
    obtain ⟨_, hstep⟩ := hholds.step_eq hrunning hd hid false
    obtain ⟨hworking, hruns⟩ := hholds.working d hd hid
    have hpace : (s.wiring.stepOf d false).pace = .waiting := h.rests d hd false
    have hafter : (s.wiring.stepOf d false).after = s.wiring.dispatchOf d :=
      Dispatch.after_of_waiting (d := s.wiring.dispatchOf d) hworking.phase (h.inLine d hd) hpace
    obtain ⟨credit, hdispatcher⟩ := (s.wiring.stepOf d false).dispatcher_eq
    obtain rfl : d.subscription.channel = n := (hholds.own d hd).2 hid
    have hgoes : ¬(s.wiring.stepOf d false).pace = .over := by simp [hpace]
    have hchannel : (s.wiring.dispatchOf d).channel.anonymous = o.channel := hholds.channel.symm
    have hpolicy : s.settings.slowPolicy = s.wiring.policy := rfl
    rw [hpolicy, hstep, if_neg hgoes, hdispatcher, hafter, hchannel]
    have hkept : o.running? = some
        ({ (s.wiring.dispatchOf d).dispatcher with credit }.anonymous,
          (s.wiring.dispatchOf d).feed) := hruns
    rw [← hkept]
  · have hended := hholds.ended fun d hd hid => hworks ⟨d, hd, hid⟩
    simp only [Outlet.step, hended]

end KeyBroker
