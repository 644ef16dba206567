import KeyBroker.Proofs.Following.Loss

/-!
# Subscriptions without a receiver

A dispatcher looks for the receiver of its channel when it has something to send, and not
before. So a subscription whose receiver has gone away ends with the next event under its stem,
with the loss of its feed, or when it is told to. While nothing of the kind happens it stays
registered, however long that is.
-/

namespace KeyBroker

/-- Whether a dispatcher in a phase has nothing to send. -/
def Phase.idle : Phase → Bool
  | .starting | .reading => true
  | .sending _ | .reporting _ => false

/-- The signals are events outside the stem of a subscription. -/
def Subscription.Ignores (sub : Subscription) (signals : List Signal) : Prop :=
  ∀ signal ∈ signals, ∃ event, signal = .ok event ∧ sub.stem.beginsWith event.key = false

/-- Signals in two parts are ignored if those of both parts are. -/
theorem Subscription.ignores_append {sub : Subscription} {signals more : List Signal} :
    sub.Ignores (signals ++ more) ↔ sub.Ignores signals ∧ sub.Ignores more :=
  List.forall_mem_append

namespace Dispatch

/-- A dispatcher without a receiver, that was idle or not at first, is idle as long as it has
met nothing to send, and is held up by what it has met. -/
structure Forsaken (atFirst : Bool) (d : Dispatch) (taken : List Signal) : Prop where
  gone : d.channel.received = false
  idle : d.dispatcher.phase.idle = true →
    atFirst = true ∧ d.dispatcher.subscription.Ignores taken
  busy : d.dispatcher.phase.idle = false →
    ¬ (atFirst = true ∧ d.dispatcher.subscription.Ignores taken ∧ d.feed.fed = true)

/-- A dispatcher that has just lost its receiver is forsaken, with nothing taken since. -/
theorem forsaken_new {d : Dispatch} (hgone : d.channel.received = false) :
    d.Forsaken d.dispatcher.phase.idle [] where
  gone := hgone
  idle hidle := ⟨hidle, nofun⟩
  busy hbusy h := absurd (hbusy.symm.trans h.1) nofun

/-- So it goes on. -/
theorem lasting_forsaken (policy : SlowPolicy) (atFirst : Bool) :
    Lasting policy (fun _ => True) fun d _ taken => d.Forsaken atFirst taken where
  meanwhile := by
    rintro d d' _ taken ⟨hgone, hidle, hbusy⟩ hlike hfills htended
    refine ⟨Bool.eq_false_iff.2 fun hreceived => ?_, ?_, ?_⟩
    · cases hgone.symm.trans (htended.received hreceived)
    · rwa [hlike.phase, hlike.subscription]
    · rw [hlike.phase, hlike.subscription]
      exact fun hphase h => hbusy hphase ⟨h.1, h.2.1, hfills.fed h.2.2⟩
  step := by
    rintro d step _ items taken more ⟨hgone, hidle, hbusy⟩ _ hgoes
    have hlost (h : d.channel.received = true) : False := absurd (hgone.symm.trans h) nofun
    have hgone' := hgoes.keeps.channel.received_eq.trans hgone
    -- a step that leaves it busy has met something that it would have to send, or stop, for
    have hmeets (hbusy : step.after.dispatcher.phase.idle = false)
        (hmet : ¬ (d.dispatcher.subscription.Ignores (taken ++ more) ∧ d.feed.fed = true)) :
        step.after.Forsaken atFirst (taken ++ more) := by
      refine ⟨hgone', fun hidle => absurd (hbusy.symm.trans hidle) nofun, fun _ h => hmet ?_⟩
      rw [← hgoes.keeps.subscription, ← hgoes.fed]
      exact h.2
    cases hgoes.progress with
    | still phase missed =>
      have hsame : step.after.dispatcher.phase.idle = d.dispatcher.phase.idle := by
        rcases phase with heq | ⟨hbefore, hafter⟩
        · rw [heq]
        · rw [hbefore, hafter]
          rfl
      rw [List.append_nil]
      refine ⟨hgone', ?_, ?_⟩
      · rwa [hsame, hgoes.keeps.subscription]
      · rwa [hsame, hgoes.keeps.subscription, hgoes.fed]
    | ended reads empty unfed phase missed =>
      exact hmeets (phase ▸ rfl) fun h => absurd (unfed.symm.trans h.2) nofun
    | failed e reads phase missed =>
      refine hmeets (phase ▸ rfl) fun h => ?_
      obtain ⟨event, heq, _⟩ := h.1 _ (List.mem_append_right _ (List.mem_singleton.2 rfl))
      cases heq
    | passed event reads outside phase missed =>
      refine ⟨hgone', fun _ => ?_, fun hbusy => ?_⟩
      · obtain ⟨hfirst, hignores⟩ := hidle (reads ▸ rfl)
        rw [hgoes.keeps.subscription, Subscription.ignores_append]
        exact ⟨hfirst, hignores, fun signal hsignal =>
          ⟨event, List.mem_singleton.1 hsignal, outside⟩⟩
      · rw [phase] at hbusy
        cases hbusy
    | held event reads blocks under phase =>
      refine hmeets (phase ▸ rfl) fun h => ?_
      obtain ⟨other, heq, houtside⟩ := h.1 _ (List.mem_append_right _ (List.mem_singleton.2 rfl))
      cases heq
      cases under.symm.trans houtside
    -- without a receiver nothing is sent
    | offered event reads drops received under phase accounts => exact (hlost received).elim
    | delivered event sends received phase => exact (hlost received).elim

/-- A dispatcher that reads and has something to deliver has it at the front of its feed. -/
theorem queue_of_delivers {d : Dispatch} {policy : SlowPolicy}
    (hphase : d.dispatcher.phase = .reading) (h : d.delivers policy = true) :
    ∃ event rest, d.feed.queue = .ok event :: rest ∧
      d.dispatcher.subscription.stem.beginsWith event.key = true := by
  simp only [delivers, hphase] at h
  split at h
  · next event rest hqueue => exact ⟨event, rest, hqueue, h⟩
  · cases h

/-- A dispatcher that is forsaken and was not told to stop takes its last step for something
that it cannot ignore. -/
theorem Forsaken.not_ignores {d : Dispatch} {atFirst : Bool} {taken : List Signal}
    {policy : SlowPolicy} {reportFirst : Bool} (h : d.Forsaken atFirst taken)
    (hover : (d.step policy false reportFirst).pace = .over) :
    ¬ (atFirst = true ∧ d.dispatcher.subscription.Ignores (taken ++ d.feed.queue) ∧
      d.feed.fed = true) := by
  rintro ⟨hfirst, hignores, hfed⟩
  rw [Subscription.ignores_append] at hignores
  cases hphase : d.dispatcher.phase with
  | starting => simp [step, hphase] at hover
  | reading =>
    simp only [step, hphase] at hover
    have hdelivers := (over_readOne_iff hphase).1 hover
    rw [Bool.and_eq_true] at hdelivers
    obtain ⟨event, rest, hqueue, hunder⟩ := queue_of_delivers hphase hdelivers.2
    obtain ⟨other, heq, houtside⟩ := hignores.2 (.ok event) (hqueue ▸ List.mem_cons_self)
    cases heq
    cases hunder.symm.trans houtside
  | _ => exact h.busy (hphase ▸ rfl) ⟨hfirst, hignores.1, hfed⟩

end Dispatch

namespace System

open Episode (Left)

/-- Nothing has happened that a dispatcher would have to send anything for, or stop. -/
structure Undisturbed (s : System) (es : List Episode) (d : Dispatcher) (stream : List Signal) :
    Prop where
  idle : d.phase.idle = true
  ignores : d.subscription.Ignores stream
  fed : (s.store.feed d.subscription.feed).fed = true
  up : .shutDown ∉ es
  stays : ¬ Left es d.subscription.id

variable {s : System} {es : List Episode} {policy : SlowPolicy} {sent : List Item}
  {stream : List Signal} {d : Dispatcher}

/-- At rest a forsaken dispatcher that is still at work has been left undisturbed, and is still
active. -/
theorem AtWork.undisturbed (hrest : s.AtRest) (hsupplied : s.Supplied es)
    (h : AtWork (fun d' _ taken => d'.Forsaken d.phase.idle taken) s d.subscription sent stream) :
    s.isActive d.subscription.id = true ∧ s.Undisturbed es d stream := by
  obtain ⟨d', hd', hsub, taken, rfl, hforsaken⟩ := h
  have htight : (s.wiring.dispatchOf d').channel.Tight :=
    hsupplied.supplied.tight d'.subscription.channel
  have hactive : s.isActive d.subscription.id = true := by
    rw [isActive, decide_eq_true_eq, hsupplied.toKept.registered hrest, ← hsub]
    exact List.mem_map_of_mem hd'
  obtain ⟨hlives, hup⟩ := ((hsupplied.toKept.shows hrest).active _).1 hactive
  refine ⟨hactive, ?_⟩
  rcases Dispatch.waits_cases htight (hrest d' hd' false) with
    ⟨hreads, hempty, hfed⟩ | ⟨_, hreceived, _⟩
  · have hnothing : (s.store.feed d.subscription.feed).queue = [] := hsub ▸ hempty
    obtain ⟨hidle, hignores⟩ := hforsaken.idle (hreads ▸ rfl)
    rw [hnothing, List.append_nil]
    exact ⟨hidle, hsub ▸ hignores, hsub ▸ hfed, hup,
      fun hleft => hleft.not_lives hsupplied.exact.rising hlives⟩
  · cases hforsaken.gone.symm.trans hreceived

/-- A forsaken dispatcher that is gone was disturbed. -/
theorem Departed.disturbed
    (h : Departed policy (fun d' _ taken => d'.Forsaken d.phase.idle taken) s es d.subscription
      sent stream) : ¬ s.Undisturbed es d stream := by
  obtain ⟨d', stop, reportFirst, before, items, taken, rest, ⟨hforsaken, hover, _⟩, hsub, _, rfl,
    ⟨later, rfl⟩, htold, hfed, _⟩ := h.last
  intro hundisturbed
  cases stop with
  | true =>
    rcases htold rfl with hshut | hleft
    · exact hundisturbed.up hshut
    · exact hundisturbed.stays hleft
  | false =>
    have hignores := hundisturbed.ignores
    rw [← List.append_assoc, Subscription.ignores_append] at hignores
    exact hforsaken.not_ignores hover
      ⟨hundisturbed.idle, hsub ▸ hignores.1, hfed hundisturbed.fed⟩

/-- A subscription without a receiver ends as soon as there is something to send, and not
before. Take a subscription whose receiver is gone, and any run after that. Whenever all
dispatchers are at rest, the subscription is still registered just if its dispatcher held
nothing at first, its feed goes on and has brought only events outside its stem since,
and nobody has told it to stop. Otherwise nothing is left of it, and it is not counted. -/
theorem forsaken_ends_iff_disturbed (settings : Settings) (early later : List Incident)
    (d : Dispatcher) (hlive : d ∈ (incurs { settings } early).dispatchers)
    (hmade : d.subscription.channel < (incurs { settings } early).channels.length)
    (hgone : ((incurs { settings } early).channel d.subscription.channel).received = false)
    (hrest : ((incurs { settings } early).incurs later).AtRest) :
    let before := incurs { settings } early
    let s := before.incurs later
    let sub := d.subscription
    let es := episodes { settings } early ++ before.episodes later
    let stream := (before.store.feed sub.feed).queue ++ before.poured sub.feed later
    (s.isActive sub.id = true ↔ s.Undisturbed es d stream) ∧
      (s.isActive sub.id = false →
        s.Concluded sub ∧ s.activeWatches = (s.registered.filter (· ≠ sub.id)).length) := by
  intro before s sub es stream
  have hsupplied : before.Supplied (episodes { settings } early) :=
    (supplied_new settings).incurs early
  have hafter : s.Supplied es := hsupplied.incurs later
  have hforsaken : (before.wiring.dispatchOf d).Forsaken d.phase.idle [] :=
    Dispatch.forsaken_new (d := before.wiring.dispatchOf d) hgone
  have hstarts : Followed before.wiring.policy (fun d' _ taken => d'.Forsaken d.phase.idle taken)
      before (episodes { settings } early) sub [] (before.store.feed sub.feed).queue :=
    hsupplied.followed hlive hmade hforsaken
  have hfollowed := hstarts.incurs (Dispatch.lasting_forsaken _ _) hsupplied later
    fun _ _ _ _ => trivial
  rcases hfollowed.stands with hworks | hdeparted
  · obtain ⟨hactive, hundisturbed⟩ := hworks.undisturbed hrest hafter
    exact ⟨iff_of_true hactive hundisturbed, fun hnot => absurd (hnot.symm.trans hactive) nofun⟩
  · have hconcluded := hafter.concluded hdeparted
    have hinactive : s.isActive sub.id = false := decide_eq_false hconcluded.unregistered
    have hcounted : s.registered.filter (· ≠ sub.id) = s.registered :=
      List.filter_eq_self.2 fun id hid => decide_eq_true fun heq =>
        hconcluded.unregistered (heq ▸ hid)
    refine ⟨iff_of_false (by rw [hinactive]; exact nofun) hdeparted.disturbed, fun _ => ?_⟩
    exact ⟨hconcluded, by rw [hcounted]; rfl⟩

/-- The receiver goes away while an event is still unread: with that event, the subscription
ends. -/
theorem forsaken_ends_iff_disturbed_unread :
    let step : Incident := .occur (.move (.poll (.dispatcher 1) false))
    let early : List Incident := [.occur (.move (.openChannel 1 false)),
      .occur (.move (.launch (.ask (.watch [] ['k'] 0)) false)),
      .occur (.move (.poll (.call 0) false)), step,
      .occur (.move (.ask (.put ['k'] [0] none))), .occur (.move (.dropReceiver 0))]
    let d : Dispatcher :=
      { subscription := { id := 1, localStem := ['k'], stem := ['k'], scope := [], channel := 0,
                          feed := 0 }
        phase := .reading }
    let before := incurs { settings := {} } early
    let s := before.incurs [step, step]
    d ∈ before.dispatchers ∧ 0 < before.channels.length ∧ (before.channel 0).received = false ∧
      s.AtRest ∧ s.isActive 1 = false ∧ s.Concluded d.subscription ∧ s.activeWatches = 0 := by
  intro step early d before s
  have hlive : d ∈ before.dispatchers := by decide +kernel
  have hmade : 0 < before.channels.length := by decide +kernel
  have hgone : (before.channel 0).received = false := by decide +kernel
  have hrest : s.AtRest := by decide +kernel
  have hinactive : s.isActive 1 = false := by decide +kernel
  obtain ⟨_, hends⟩ := forsaken_ends_iff_disturbed {} early [step, step] d hlive hmade hgone hrest
  exact ⟨hlive, hmade, hgone, hrest, hinactive, (hends hinactive).1, by decide +kernel⟩

/-- The receiver goes away and nothing else happens: the subscription stays registered and
counted, and its feed is kept. -/
theorem forsaken_stays_undisturbed :
    let step : Incident := .occur (.move (.poll (.dispatcher 1) false))
    let run : List Incident := [.occur (.move (.openChannel 1 false)),
      .occur (.move (.launch (.ask (.watch [] ['k'] 0)) false)),
      .occur (.move (.poll (.call 0) false)), step, .occur (.move (.dropReceiver 0)), step]
    let s := incurs { settings := {} } run
    s.AtRest ∧ (s.channel 0).received = false ∧ s.isActive 1 = true ∧ s.activeWatches = 1 ∧
      (s.store.feed 0).attended = true := by
  decide +kernel

end System

end KeyBroker
