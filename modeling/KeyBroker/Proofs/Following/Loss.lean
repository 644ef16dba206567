import KeyBroker.Proofs.Following.Follow

/-!
# The report of a lost stream

A subscription tells its subscriber of the events that its stream yields, and when the stream
fails it says so once, as the last thing it sends. What it reports is the first failure, after
it has told of all that came before, and nothing that came later gets through.
-/

namespace KeyBroker

/-- The items tell of the events, but for the one in hand under the blocking policy, or for the
last `missed` under the other. -/
def Subscription.Conveys (sub : Subscription) (policy : SlowPolicy) (held : List Event)
    (missed : Nat) (items : List Item) (events : List Event) : Prop :=
  match policy with
  | .block => items ++ held.map sub.itemOf = events.map sub.itemOf
  | .dropAndSignal => held = [] ∧ sub.Accounts missed items events

/-- How a stream fails that has yielded some events: with an error, or with its end. -/
inductive Failure (Whole : List Signal → Prop) (yielded : List Event) :
    List Signal → String → Prop where
  | error (e : StorageError) : Failure Whole yielded (yielded.map .ok ++ [.error e]) e.message
  | ended (whole : Whole (yielded.map .ok)) :
    Failure Whole yielded (yielded.map .ok) "native watch stream ended"

/-- What a dispatcher has taken off its stream: events, and the failure that it reports. -/
def Phase.Took (Whole : List Signal → Prop) (yielded : List Event) (taken : List Signal) :
    Phase → Prop
  | .reporting reason => Failure Whole yielded taken reason
  | _ => taken = yielded.map .ok

/-- A dispatcher that is not about to report a failure has taken events only. -/
theorem Phase.took_iff {Whole : List Signal → Prop} {yielded : List Event} {taken : List Signal}
    {phase : Phase} (h : phase.reports = false) :
    phase.Took Whole yielded taken ↔ taken = yielded.map .ok := by
  cases phase with
  | reporting reason => cases h
  | _ => exact Iff.rfl

/-- A dispatcher that has met no failure has taken events only, and may take one more. -/
theorem Phase.took_concat {Whole : List Signal → Prop} (yielded : List Event) (event : Event)
    {phase : Phase} (h : phase.reports = false) :
    phase.Took Whole (yielded ++ [event]) (yielded.map .ok ++ [.ok event]) :=
  (took_iff h).2 (by rw [List.map_append, List.map_singleton])

/-- A dispatcher tells of all events that its stream yields before it fails. -/
def Dispatch.Tells (policy : SlowPolicy) (Whole : List Signal → Prop) (d : Dispatch)
    (sent : List Item) (taken : List Signal) : Prop :=
  ∃ yielded, d.dispatcher.phase.Took Whole yielded taken ∧
    d.dispatcher.subscription.Conveys policy d.dispatcher.phase.held d.dispatcher.missed sent
      (d.dispatcher.subscription.matching (yielded.map .ok))

namespace Subscription

variable {sub : Subscription} {policy : SlowPolicy} {held : List Event} {missed : Nat}
  {items : List Item} {events : List Event}

/-- No event of a subscription is reported as the loss of its feed. -/
theorem not_isReport_itemOf (sub : Subscription) (event : Event) :
    ¬ (sub.itemOf event).IsReport := by
  rintro ⟨stem, reason, h⟩
  simp only [itemOf, Key.reveal] at h
  split at h
  · cases h
  · split at h <;> cases h

/-- Items that account for events report no lost feed. -/
theorem Accounts.not_isReport (h : sub.Accounts missed items events) :
    ∀ item ∈ items, ¬ item.IsReport := by
  induction h with
  | pending events left => exact nofun
  | delivered event _ ih =>
    rw [List.forall_mem_cons]
    exact ⟨sub.not_isReport_itemOf event, ih⟩
  | reported gone some _ ih =>
    rw [List.forall_mem_cons]
    refine ⟨?_, ih⟩
    rintro ⟨stem, reason, h⟩
    cases h

/-- What tells of events is no report of a lost stream. -/
theorem Conveys.not_isReport (h : sub.Conveys policy held missed items events) :
    ∀ item ∈ items, ¬ item.IsReport := by
  cases policy with
  | dropAndSignal => exact h.2.not_isReport
  | block =>
    intro item hitem
    have hmem : item ∈ events.map sub.itemOf := h ▸ List.mem_append_left _ hitem
    obtain ⟨event, _, rfl⟩ := List.mem_map.1 hmem
    exact sub.not_isReport_itemOf event

/-- An event that was taken is in hand. -/
theorem Conveys.hold (h : sub.Conveys .block [] missed items events) (event : Event)
    (later : Nat) : sub.Conveys .block [event] later items (events ++ [event]) := by
  have hall : items ++ [] = events.map sub.itemOf := h
  show items ++ [sub.itemOf event] = (events ++ [event]).map sub.itemOf
  rw [List.map_append, ← hall, List.append_nil]
  rfl

/-- An event that was in hand is sent. -/
theorem Conveys.deliver {event : Event} (h : sub.Conveys policy [event] missed items events)
    (later : Nat) : sub.Conveys policy [] later (items ++ [sub.itemOf event]) events := by
  cases policy with
  | dropAndSignal => exact absurd h.1 (List.cons_ne_nil _ _)
  | block =>
    have hall : items ++ [sub.itemOf event] = events.map sub.itemOf := h
    exact (List.append_nil _).trans hall

/-- The events of a subscription in two parts of a stream are those of the one, then those of the
other. -/
theorem matching_append (sub : Subscription) (signals more : List Signal) :
    sub.matching (signals ++ more) = sub.matching signals ++ sub.matching more := by
  simp [matching]

/-- One more event of the stream is one of the subscription's if its key is under the stem. -/
theorem matching_concat (sub : Subscription) (yielded : List Event) (event : Event) :
    sub.matching ((yielded ++ [event]).map .ok) = sub.matching (yielded.map .ok) ++
      if sub.stem.beginsWith event.key then [event] else [] := by
  have hone : sub.matching [.ok event] =
      if sub.stem.beginsWith event.key then [event] else [] := by
    cases hbegins : sub.stem.beginsWith event.key <;>
      simp [matching, Except.toOption, hbegins]
  rw [List.map_append, matching_append, List.map_singleton, hone]

/-- No items tell of no events. -/
theorem conveys_nil (sub : Subscription) (policy : SlowPolicy) :
    sub.Conveys policy [] 0 [] [] := by
  cases policy with
  | block => rfl
  | dropAndSignal => exact ⟨rfl, .nil sub⟩

end Subscription

namespace Dispatch

variable {policy : SlowPolicy} {Whole : List Signal → Prop}

/-- A dispatcher that has yet to start has told of nothing. -/
theorem tells_new {d : Dispatch} (hphase : d.dispatcher.phase = .starting)
    (hmissed : d.dispatcher.missed = 0) : d.Tells policy Whole [] [] := by
  refine ⟨[], ?_, ?_⟩
  · rw [hphase]
    rfl
  · rw [hphase, hmissed]
    exact d.dispatcher.subscription.conveys_nil policy

/-- A dispatcher goes on telling of what it takes. -/
theorem lasting_tells (policy : SlowPolicy) (Whole : List Signal → Prop) :
    Lasting policy Whole (Tells policy Whole) where
  meanwhile := by
    rintro d d' sent taken ⟨yielded, htook, hconveys⟩ hlike _ _
    refine ⟨yielded, ?_, ?_⟩
    · rwa [hlike.phase]
    · rwa [hlike.subscription, hlike.phase, hlike.missed]
  step := by
    rintro d step sent items taken more ⟨yielded, htook, hconveys⟩ hwhole hgoes
    have hsub := hgoes.keeps.subscription
    unfold Tells
    rw [hsub]
    cases hgoes.progress with
    -- nothing is taken: the dispatcher begins, rests or waits for room
    | still phase missed =>
      rw [List.append_nil, List.append_nil, missed]
      refine ⟨yielded, ?_⟩
      rcases phase with hsame | ⟨hbefore, hafter⟩
      · rw [hsame]
        exact ⟨htook, hconveys⟩
      · rw [hbefore] at htook hconveys
        rw [hafter]
        exact ⟨htook, hconveys⟩
    | ended reads empty unfed phase missed =>
      rw [reads] at htook hconveys
      obtain rfl : taken = yielded.map .ok := htook
      rw [phase, missed, List.append_nil, List.append_nil]
      exact ⟨yielded, .ended (hwhole empty unfed), hconveys⟩
    | failed e reads phase missed =>
      rw [reads] at htook hconveys
      obtain rfl : taken = yielded.map .ok := htook
      rw [phase, missed, List.append_nil]
      exact ⟨yielded, .error e, hconveys⟩
    -- an event is taken: it is about other keys, or goes into the hand, or is offered at once
    | passed event reads outside phase missed =>
      rw [reads] at htook hconveys
      obtain rfl : taken = yielded.map .ok := htook
      refine ⟨yielded ++ [event], Phase.took_concat yielded event (phase ▸ rfl), ?_⟩
      rw [phase, missed, List.append_nil, Subscription.matching_concat, outside, if_neg nofun,
        List.append_nil]
      exact hconveys
    | held event reads blocks under phase =>
      subst blocks
      rw [reads] at htook hconveys
      obtain rfl : taken = yielded.map .ok := htook
      refine ⟨yielded ++ [event], Phase.took_concat yielded event (phase ▸ rfl), ?_⟩
      rw [phase, List.append_nil, Subscription.matching_concat, under, if_pos rfl]
      exact hconveys.hold event _
    | offered event reads drops received under phase accounts =>
      subst drops
      rw [reads] at htook hconveys
      obtain rfl : taken = yielded.map .ok := htook
      refine ⟨yielded ++ [event], Phase.took_concat yielded event (phase ▸ rfl), ?_⟩
      rw [phase, Subscription.matching_concat, under, if_pos rfl]
      exact ⟨rfl, accounts _ _ hconveys.2⟩
    | delivered event sends received phase =>
      rw [sends] at htook hconveys
      rw [phase, List.append_nil]
      exact ⟨yielded, htook, hconveys.deliver _⟩

end Dispatch

/-- The items tell of the first of the events, in their order: of each of them, or under the
dropping policy of each that is not dropped, with the number of those dropped before it. -/
def Subscription.Relays (sub : Subscription) (policy : SlowPolicy) (items : List Item)
    (events : List Event) : Prop :=
  match policy with
  | .block => items <+: events.map sub.itemOf
  | .dropAndSignal => ∃ missed, sub.Accounts missed items events

/-- Items that tell of all events but those on the way relay the first of the events, in their
order. -/
theorem Subscription.Conveys.relays {sub : Subscription} {policy : SlowPolicy}
    {held : List Event} {missed : Nat} {items : List Item} {events : List Event}
    (h : sub.Conveys policy held missed items events) : sub.Relays policy items events := by
  cases policy with
  | block => exact ⟨_, h⟩
  | dropAndSignal => exact ⟨missed, h.2⟩

/-- What was taken off a stream begins with the events that the stream yielded. -/
theorem Phase.Took.begins {Whole : List Signal → Prop} {yielded : List Event}
    {taken : List Signal} {phase : Phase} (h : phase.Took Whole yielded taken) :
    ∃ failing, taken = yielded.map .ok ++ failing := by
  cases phase with
  | reporting reason =>
    cases h with
    | error e => exact ⟨_, rfl⟩
    | ended whole => exact ⟨[], (List.append_nil _).symm⟩
  | _ => exact ⟨[], h.trans (List.append_nil _).symm⟩

namespace System

/-- The signals are all that was put on a feed until a moment at which it had ended. -/
def Ended (s : System) (feed : Nat) (run : List Incident) (signals : List Signal) : Prop :=
  ∃ now soon, run = now ++ soon ∧ ((s.incurs now).store.feed feed).fed = false ∧
    (s.store.feed feed).queue ++ s.poured feed now = signals

/-- Why a stream failed that has yielded some events, and what else is on it. -/
def FailedBy (whole : Prop) (rest : List Signal) (reason : String) : Prop :=
  (∃ e more, rest = .error e :: more ∧ reason = e.message) ∨
    whole ∧ reason = "native watch stream ended"

/-- A subscription has reported the failure of its stream and is no more. -/
structure Concluded (s : System) (sub : Subscription) : Prop where
  unregistered : sub.id ∉ s.registered
  /-- Its dispatcher is gone, and its sender with it. -/
  gone : ∀ d ∈ s.dispatchers, d.subscription.id ≠ sub.id
  released : (s.store.feed sub.feed).attended = false

variable {s : System} {es : List Episode} {policy : SlowPolicy} {Whole : List Signal → Prop}
  {sub : Subscription} {sent : List Item} {stream : List Signal}

/-- A departed dispatcher leaves a subscription that is concluded. -/
theorem Supplied.concluded (h : s.Supplied es)
    {P : Dispatch → List Item → List Signal → Prop}
    (hdeparted : Departed policy P s es sub sent stream) : s.Concluded sub where
  unregistered hmem := by
    have hlisted : s.registered = Dispatcher.roster s.dispatchers := h.exact.listed
    rw [hlisted] at hmem
    obtain ⟨d, hd, _, hid⟩ := Dispatcher.mem_roster.1 hmem
    exact hdeparted.gone d hd hid
  gone := hdeparted.gone
  released := hdeparted.released

/-- A dispatcher at work that rests, with room to send in, has met no failure. -/
theorem AtWork.unfailed (h : AtWork (Dispatch.Tells policy Whole) s sub sent stream)
    (hsupplied : s.Supplied es) (hrest : s.AtRest) (hroom : 0 < (s.channel sub.channel).room) :
    (∀ e, .error e ∉ stream) ∧ (s.store.feed sub.feed).fed = true := by
  obtain ⟨d, hd, rfl, taken, rfl, yielded, htook, _⟩ := h
  have htight : (s.wiring.dispatchOf d).channel.Tight :=
    hsupplied.supplied.tight d.subscription.channel
  rcases Dispatch.waits_cases htight (hrest d hd false) with ⟨hreads, hempty, hfed⟩ | ⟨_, _, hfull⟩
  · rw [hreads] at htook
    obtain rfl : taken = yielded.map .ok := htook
    have hnothing : (s.store.feed d.subscription.feed).queue = [] := hempty
    refine ⟨fun e hmem => ?_, hfed⟩
    rw [hnothing, List.append_nil] at hmem
    obtain ⟨event, _, heq⟩ := List.mem_map.1 hmem
    cases heq
  · exact absurd hfull (Nat.ne_of_gt hroom)

/-- What a subscription has shown of the events that its stream yielded first, and of the
failure of its stream. -/
structure Shown (policy : SlowPolicy) (Whole : List Signal → Prop) (s : System)
    (es : List Episode) (sub : Subscription) (yielded : List Event) (rest : List Signal)
    (items report : List Item) : Prop where
  /-- No report comes before the report. -/
  quiet : ∀ item ∈ items, ¬ item.IsReport
  relays : sub.Relays policy items (sub.matching (yielded.map .ok))
  once : report = [] ∨ s.Concluded sub ∧ ∃ reason,
    report = [.error (.watchStreamBroken sub.localStem reason)] ∧
      FailedBy (Whole (yielded.map .ok)) rest reason ∧
        (policy = .block → items = (sub.matching (yielded.map .ok)).map sub.itemOf)
  /-- At rest a failure was reported, unless the subscriber left or cannot receive it. -/
  settled : s.AtRest →
    ((∃ e, .error e ∈ yielded.map .ok ++ rest) ∨ (s.store.feed sub.feed).fed = false) →
    ¬ Episode.Left es sub.id → .shutDown ∉ es → (s.channel sub.channel).received = true →
      0 < (s.channel sub.channel).room → report ≠ []

/-- While its dispatcher is at work, a subscription has shown events that its stream yielded, and
no failure. -/
theorem AtWork.shown (h : AtWork (Dispatch.Tells policy Whole) s sub sent stream)
    (hsupplied : s.Supplied es) :
    ∃ yielded rest, stream = yielded.map .ok ++ rest ∧
      Shown policy Whole s es sub yielded rest sent [] := by
  have hunfailed := h.unfailed hsupplied
  obtain ⟨d, hd, rfl, taken, hstream, yielded, htook, hconveys⟩ := h
  obtain ⟨failing, rfl⟩ := htook.begins
  rw [List.append_assoc] at hstream
  refine ⟨yielded, _, hstream, hconveys.not_isReport, hconveys.relays, .inl rfl, ?_⟩
  intro hrest hfailed _ _ _ hroom
  obtain ⟨hnone, hfed⟩ := hunfailed hrest hroom
  rcases hfailed with ⟨e, hmem⟩ | hunfed
  · exact absurd (hstream ▸ hmem) (hnone e)
  · cases hfed.symm.trans hunfed

/-- Once its dispatcher is gone, a subscription has shown events that its stream yielded, and then
at most the report of the failure. -/
theorem Departed.shown (h : Departed policy (Dispatch.Tells policy Whole) s es sub sent stream)
    (hsupplied : s.Supplied es) :
    ∃ yielded rest items report, stream = yielded.map .ok ++ rest ∧ sent = items ++ report ∧
      Shown policy Whole s es sub yielded rest items report := by
  have hconcluded := hsupplied.concluded h
  obtain ⟨d, stop, reportFirst, before, items, taken, rest, ⟨⟨yielded, htook, hconveys⟩, hover,
    hkeeps⟩, rfl, rfl, rfl, _, htold, _, hreceived⟩ := h.last
  rcases Dispatch.of_over hover hkeeps with ⟨rfl, hquit⟩ | ⟨reason, hphase, rfl⟩
  · obtain ⟨failing, rfl⟩ := htook.begins
    rw [List.append_assoc]
    refine ⟨yielded, _, _, _, rfl, rfl, hconveys.not_isReport, hconveys.relays, .inl rfl, ?_⟩
    intro _ _ hstays hup hlive _
    rcases hquit with hstop | hgone
    · rcases htold hstop with hshut | hleft
      · exact absurd hshut hup
      · exact absurd hleft hstays
    · cases (hreceived hlive).symm.trans hgone
  · rw [hphase] at htook hconveys
    have hcomplete (hblock : policy = .block) :
        before = (d.dispatcher.subscription.matching (yielded.map .ok)).map
          d.dispatcher.subscription.itemOf := by
      subst hblock
      exact (List.append_nil _).symm.trans hconveys
    have hreport (rest : List Signal) (hfailed : FailedBy (Whole (yielded.map .ok)) rest reason) :
        Shown policy Whole s es d.dispatcher.subscription yielded rest before
          [d.report reason] :=
      ⟨hconveys.not_isReport, hconveys.relays, .inr ⟨hconcluded, reason, rfl, hfailed, hcomplete⟩,
        fun _ _ _ _ _ _ => List.cons_ne_nil _ _⟩
    cases htook with
    | error e =>
      rw [List.append_assoc]
      exact ⟨yielded, _, _, _, rfl, rfl, hreport _ (.inl ⟨e, rest, rfl, rfl⟩)⟩
    | ended whole => exact ⟨yielded, _, _, _, rfl, rfl, hreport _ (.inr ⟨whole, rfl⟩)⟩

/-- The failure of a stream is reported once, last, and after everything before it. Take a
subscription that has just been entered, and what was sent for it and put on its feed until the
end of any run. The stream yields events and then fails or goes on; the items sent tell of
these events, in order, and nothing that comes after a failure is sent. At most the very last
item is the report of the failure, under the stem that the subscriber gave, with the text of
the first error, or that of the end, which the stream then had come to after these events.
Under the blocking policy the report comes after all of these events, and with it the
subscription is gone. At rest, a failure has been reported if the subscriber did not leave, the
broker was not stopped, and there is somebody to receive the report and room for it. -/
theorem loss_reported_once_and_last (settings : Settings) (early later : List Incident)
    (d : Dispatcher) (hlive : d ∈ (incurs { settings } early).dispatchers)
    (hnew : d.phase = .starting)
    (hmade : d.subscription.channel < (incurs { settings } early).channels.length) :
    let before := incurs { settings } early
    let sub := d.subscription
    let es := episodes { settings } early ++ before.episodes later
    sub.stem = sub.scope.qualify sub.localStem ∧ ∃ yielded rest items report,
      (before.store.feed sub.feed).queue ++ before.poured sub.feed later =
        yielded.map .ok ++ rest ∧
      before.sent sub later = items ++ report ∧
      Shown settings.slowPolicy (before.Ended sub.feed later) (before.incurs later) es sub yielded
        rest items report := by
  intro before sub es
  have hsupplied : before.Supplied (episodes { settings } early) :=
    (supplied_new settings).incurs early
  have hpolicy : before.wiring.policy = settings.slowPolicy :=
    (supplied_new settings).policy_incurs early
  have hafter := hsupplied.incurs later
  have htells : Dispatch.Tells settings.slowPolicy (before.Ended sub.feed later)
      (before.wiring.dispatchOf d) [] [] :=
    Dispatch.tells_new hnew (hsupplied.supplied.unused d hlive hnew)
  have hfollowed := hsupplied.followed hlive hmade htells
  rw [hpolicy] at hfollowed
  have hfollowed := hfollowed.incurs (Dispatch.lasting_tells _ _) hsupplied later
    fun now soon hrun hended => ⟨now, soon, hrun, hended, rfl⟩
  rw [List.nil_append] at hfollowed
  refine ⟨hsupplied.supplied.named d hlive, ?_⟩
  rcases hfollowed.stands with hworks | hdeparted
  · obtain ⟨yielded, rest, hstream, hshown⟩ := hworks.shown hafter
    exact ⟨yielded, rest, _, [], hstream, (List.append_nil _).symm, hshown⟩
  · exact hdeparted.shown hafter

/-- The channel has room for one item. The second event waits for it, the error is read behind
both, and its report waits, too, until the second event is received; the third event is behind
the error and never sent. -/
theorem loss_reported_once_and_last_in_line :
    let put : Incident := .occur (.move (.ask (.put ['p', 'k'] [0] none)))
    let step : Incident := .occur (.move (.poll (.dispatcher 1) false))
    let receive : Incident := .occur (.move (.receive 0))
    let lost : Incident := .occur (.signal 0 (.error (.unavailable "gone")))
    let early : List Incident := [.occur (.move (.openChannel 1 false)),
      .occur (.move (.launch (.ask (.watch ['p'] ['k'] 0)) false)),
      .occur (.move (.poll (.call 0) false))]
    let later : List Incident := [step, put, put, lost, put, step, step, step, step, receive, step,
      step, step, receive, step, receive]
    let d : Dispatcher :=
      { subscription := { id := 1, localStem := ['k'], stem := ['p', 'k'], scope := ['p'],
                          channel := 0, feed := 0 } }
    let before := incurs { settings := {} } early
    let s := before.incurs later
    let errorOf : Item → Option Error
      | .ok _ => none
      | .error e => some e
    d ∈ before.dispatchers ∧ d.phase = .starting ∧ 0 < before.channels.length ∧ s.AtRest ∧
      (before.sent d.subscription later).map errorOf =
        [none, none, some (.watchStreamBroken ['k'] "Backend unavailable: gone")] ∧
      ∃ yielded rest items report,
        (before.store.feed 0).queue ++ before.poured 0 later = yielded.map .ok ++ rest ∧
        before.sent d.subscription later = items ++ report ∧
        Shown .block (before.Ended 0 later) s
          (episodes { settings := {} } early ++ before.episodes later) d.subscription yielded rest
          items report := by
  intro put step receive lost early later d before s errorOf
  have hlive : d ∈ before.dispatchers := by decide +kernel
  have hmade : 0 < before.channels.length := by decide +kernel
  have hrest : s.AtRest := by decide +kernel
  obtain ⟨_, hshown⟩ := loss_reported_once_and_last {} early later d hlive rfl hmade
  exact ⟨hlive, rfl, hmade, hrest, by decide +kernel, hshown⟩

end System

end KeyBroker
