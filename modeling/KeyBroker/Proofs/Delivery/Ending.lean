import KeyBroker.Proofs.Delivery.Tracking

/-!
# Subscriptions that end

A dispatcher that was told to stop sends nothing more, unless it was already about
to report the loss of its feed. What its subscription was sent then stays the
beginning of what it is owed, whatever happens later.
-/

namespace KeyBroker.Wiring

variable {w w' : Wiring} {hs : List Happening} {sub : Subscription} {got owed : List Item}

/-- A dispatcher that is to stop and has no loss to report. -/
def Stops (w : Wiring) (d : Dispatcher) : Prop :=
  (w.stopped || d.cancelled) = true ∧ d.phase.reports = false

/-- A subscription that is sent nothing more. -/
structure Ends (w : Wiring) (sub : Subscription) (got owed : List Item) : Prop where
  stops : ∀ d ∈ w.dispatchers, d.subscription.id = sub.id → w.Stops d
  old : sub.id < w.nextSubscription
  front : got ++ w.queued sub <+: owed

/-- Items pass in the same way between wirings with the same channels. -/
theorem Passes.congr (h : Passes w w' hs sub) {w'' : Wiring}
    (hchannels : w''.channels = w'.channels) : Passes w w'' hs sub where
  lost hlost := (lost_congr hchannels sub).2 (h.lost hlost)
  all hlost := by
    rw [queued_congr hchannels]
    exact h.all fun hlost' => hlost ((lost_congr hchannels sub).2 hlost')
  front := by
    rw [queued_congr hchannels]
    exact h.front

/-- The channels after a step of a dispatcher. -/
theorem channels_dispatch (w : Wiring) (d : Dispatcher) (reportFirst : Bool) :
    (w.dispatch d reportFirst).channels =
      (w.onChannel d.subscription.channel
        fun _ => (w.stepOf d reportFirst).after.channel).channels := by
  simp only [dispatch]
  split <;> rfl

/-- A step changes the channel of its dispatcher, if that was made, and no other. -/
theorem channel_dispatch (w : Wiring) (d : Dispatcher) (reportFirst : Bool) (n : Nat) :
    (w.dispatch d reportFirst).channel n =
      if d.subscription.channel = n ∧ n < w.channels.length then
        (w.stepOf d reportFirst).after.channel
      else w.channel n := by
  rw [channel, channels_dispatch]
  exact channel_onChannel w d.subscription.channel n _

/-- The dispatchers after a step of one of them are that one as the step leaves it, if it
goes on, and the others. -/
theorem mem_dispatch {d d' : Dispatcher} {reportFirst : Bool}
    (hmem : d' ∈ (w.dispatch d reportFirst).dispatchers)
    (hsub : (w.stepOf d reportFirst).dispatcher.subscription = d.subscription) :
    d' = (w.stepOf d reportFirst).dispatcher ∧ (w.stepOf d reportFirst).pace ≠ .over ∨
      d' ∈ w.dispatchers ∧ d'.subscription.id ≠ d.subscription.id := by
  have hsent : ∀ d' ∈ (w.withDispatcher (w.stepOf d reportFirst).dispatcher).dispatchers,
      d' = (w.stepOf d reportFirst).dispatcher ∨
        d' ∈ w.dispatchers ∧ d'.subscription.id ≠ d.subscription.id := by
    intro d' hd'
    obtain ⟨other, hother, rfl⟩ := List.mem_map.1 hd'
    rw [hsub]
    split
    · exact .inl rfl
    · next hne => exact .inr ⟨hother, hne⟩
  simp only [dispatch] at hmem
  split at hmem
  · obtain ⟨hmem, hne⟩ := List.mem_filter.1 hmem
    rcases hsent d' hmem with rfl | hother
    · simp [hsub] at hne
    · exact .inr hother
  · next hpace =>
    rcases hsent d' hmem with rfl | hother
    · exact .inl ⟨rfl, fun hover => hpace hover⟩
    · exact .inr hother

/-- A step of a dispatcher passes no items of other subscriptions, and none of its own
when it stops. -/
theorem passes_dispatch (w : Wiring) (d : Dispatcher) (reportFirst : Bool)
    (hquiet : d.subscription.id ≠ sub.id ∨ w.Stops d) :
    Passes w (w.dispatch d reportFirst) [] sub := by
  have hgains : ∃ items, Channel.Gains (w.channel d.subscription.channel)
      (w.stepOf d reportFirst).after.channel d.subscription.id items ∧
        (d.subscription.id ≠ sub.id ∨ items = []) := by
    rcases hquiet with hne | ⟨hstop, hphase⟩
    · obtain ⟨items, hkeeps⟩ := keeps_stepOf w d reportFirst
      exact ⟨items, hkeeps.channel, .inl hne⟩
    · have hkeeps := (Dispatch.keeps_step_stop (w.dispatchOf d) w.policy reportFirst hphase).1
      rw [← hstop] at hkeeps
      exact ⟨[], hkeeps.channel, .inr rfl⟩
  obtain ⟨items, hgains, hsender⟩ := hgains
  exact (passes_onChannel (f := fun _ => (w.stepOf d reportFirst).after.channel) hgains
    hsender).congr (channels_dispatch w d reportFirst)

/-- The policy never changes. -/
theorem Change.policy_eq (h : Change w hs w') : w'.policy = w.policy := by
  cases h with
  | unsubscribe id =>
    unfold Wiring.unsubscribe
    split <;> rfl
  | dispatch d reportFirst works =>
    simp only [Wiring.dispatch]
    split <;> rfl
  | _ => rfl

/-- Changes in order keep a wiring sound and its policy as it is. -/
theorem Changes.sound (h : Changes w hs w') (hsound : w.Sound) :
    w'.Sound ∧ w'.policy = w.policy := by
  induction h with
  | nil => exact ⟨hsound, rfl⟩
  | cons first _ ih =>
    obtain ⟨hlast, hpolicy⟩ := ih (hsound.change first)
    exact ⟨hlast, hpolicy.trans first.policy_eq⟩

/-- A step of a dispatcher neither stops the broker nor gives out numbers. -/
theorem stopped_dispatch (w : Wiring) (d : Dispatcher) (reportFirst : Bool) :
    (w.dispatch d reportFirst).stopped = w.stopped ∧
      (w.dispatch d reportFirst).nextSubscription = w.nextSubscription := by
  simp only [dispatch]
  split <;> exact ⟨rfl, rfl⟩

/-- A step of any dispatcher leaves a subscription ended that was sent nothing more. -/
theorem Ends.dispatch (h : w.Ends sub got owed) {d : Dispatcher} (hd : d ∈ w.dispatchers)
    (reportFirst : Bool) : (w.dispatch d reportFirst).Ends sub got owed := by
  obtain ⟨hsub, hcancelled⟩ := stepOf_dispatcher w d reportFirst
  obtain ⟨hstopped, hnext⟩ := stopped_dispatch w d reportFirst
  have hquiet : d.subscription.id ≠ sub.id ∨ w.Stops d := by
    by_cases hid : d.subscription.id = sub.id
    · exact .inr (h.stops d hd hid)
    · exact .inl hid
  have hfront := (passes_dispatch w d reportFirst hquiet).front_trans h.front
  refine ⟨fun d' hd' hid => ?_, hnext ▸ h.old,
    by simpa [Subscription.got, Subscription.owed] using hfront⟩
  unfold Stops
  rw [hstopped]
  rcases mem_dispatch hd' hsub with ⟨rfl, _⟩ | ⟨hother, _⟩
  · rw [hsub] at hid
    obtain ⟨hstop, hphase⟩ := h.stops d hd hid
    have hkeeps := Dispatch.keeps_step_stop (w.dispatchOf d) w.policy reportFirst hphase
    rw [← hstop] at hkeeps
    refine ⟨hcancelled ▸ hstop, ?_⟩
    rw [phase_stepOf]
    exact hkeeps.2
  · exact h.stops d' hother hid

/-- A subscription that has ended stays so. -/
theorem Ends.change (h : w.Ends sub got owed) (hchange : Change w hs w') :
    w'.Ends sub (got ++ sub.got hs) (owed ++ sub.owed hs) := by
  cases hchange with
  | serve now request =>
    exact ⟨h.stops, h.old, (passes_of_channels rfl (sub.got_committed _)).front_trans h.front⟩
  | subscribe now scope localStem channel feed opened =>
    refine ⟨fun d hd hid => ?_, Nat.lt_succ_of_lt h.old,
      (passes_of_channels rfl rfl).front_trans h.front⟩
    rcases List.mem_append.1 hd with hd | hd
    · exact h.stops d hd hid
    -- a new dispatcher has a higher number
    · have hold := h.old
      have hnew : w.nextSubscription = sub.id := (List.mem_singleton.1 hd ▸ hid :)
      omega
  | stop => exact ⟨fun d hd hid => ⟨rfl, (h.stops d hd hid).2⟩, h.old,
      (passes_of_channels rfl rfl).front_trans h.front⟩
  | unsubscribe id =>
    unfold unsubscribe
    split
    · refine ⟨fun d hd hid => ?_, h.old, (passes_of_channels rfl rfl).front_trans h.front⟩
      obtain ⟨before, hbefore, rfl⟩ := List.mem_map.1 hd
      split at hid
      · next heq =>
        rw [if_pos heq]
        exact ⟨Bool.or_true _, (h.stops before hbefore hid).2⟩
      · next heq =>
        rw [if_neg heq]
        exact h.stops before hbefore hid
    · exact ⟨h.stops, h.old, (passes_of_channels rfl rfl).front_trans h.front⟩
  | dispatch d reportFirst works =>
    simpa [Subscription.got, Subscription.owed] using h.dispatch works reportFirst
  | rest d works =>
    refine ⟨fun d' hd' hid => ?_, h.old, (passes_of_channels rfl rfl).front_trans h.front⟩
    obtain ⟨before, hbefore, rfl⟩ := List.mem_map.1 hd'
    split at hid
    · next heq =>
      rw [if_pos heq]
      exact h.stops d works hid
    · next heq =>
      rw [if_neg heq]
      exact h.stops before hbefore hid
  | openChannel capacity held =>
    exact ⟨h.stops, h.old, (passes_openChannel w sub capacity held).front_trans h.front⟩
  | dropSender n =>
    exact ⟨h.stops, h.old, (passes_dropSender w n sub).front_trans h.front⟩
  | receive n sender item rest oldest =>
    exact ⟨h.stops, h.old, (passes_receive oldest).front_trans h.front⟩
  | dropReceiver n =>
    exact ⟨h.stops, h.old, (passes_dropReceiver w n sub).front_trans h.front⟩
  | _ => exact ⟨h.stops, h.old, (passes_of_channels rfl rfl).front_trans h.front⟩

end KeyBroker.Wiring
