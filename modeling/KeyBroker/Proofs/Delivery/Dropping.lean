import KeyBroker.Proofs.Delivery.Accounts
import KeyBroker.Proofs.Delivery.Retained
import KeyBroker.Proofs.Delivery.Running

/-!
# Delivery under the dropping policy

Under the policy that drops events, every subscription accounts exactly for what its
subscriber did not get. Whatever happens between two polls of its dispatcher, and
whoever else sends on the channel, the items of the subscription account for the
events its dispatcher took in, up to those dropped since the last report.
-/

namespace KeyBroker

/-- The number of senders that have no subscription; subscriptions count from 1. -/
def outsider : Nat := 0

/-- Something that happens to a system on whose channels others send, too. -/
inductive Occurrence where
  | move (m : Move)
  /-- Somebody else sends on a channel, if there is room. -/
  | offer (channel : Nat) (item : Item)
  /-- Somebody else sends on a channel, standing in line if there is no room. -/
  | send (channel : Nat) (item : Item)
  /-- Somebody else leaves the line of a channel. -/
  | giveUp (channel : Nat)
  /-- Another store sends a signal on a feed. -/
  | signal (feed : Nat) (signal : Signal)

/-- The dispatcher that is polled in an occurrence. -/
def Occurrence.polled? : Occurrence → Option Nat
  | .move (.poll (.dispatcher id) _) => some id
  | _ => none

/-- The channel that is left by sending on it. -/
def Channel.Sending.left (c : Channel) : Channel.Sending → Channel
  | .sent c' | .full c' => c'
  | .closed => c

/-- Whatever comes of sending an item, the channel only gains items of its sender. -/
theorem Channel.Sends.gains_left {c : Channel} {sender : Nat} {item : Item}
    {sending : Channel.Sending} (h : Channel.Sends c sender item sending) :
    ∃ items, Channel.Gains c (sending.left c) sender items := by
  cases h with
  | sent gains => exact ⟨_, gains⟩
  | full gains => exact ⟨_, gains⟩
  | closed => exact ⟨_, .refl c sender⟩

/-- What a dispatcher has done: the items it sent, the events of its subscription it took
in, and the number of events it reported as dropped to the journal. -/
@[ext]
structure Dealings where
  sent : List Item := []
  taken : List Event := []
  dropped : Nat := 0

instance : Append Dealings where
  append x y := { sent := x.sent ++ y.sent, taken := x.taken ++ y.taken,
                  dropped := x.dropped + y.dropped }

namespace Dealings

/-- No dealings behind others add nothing. -/
theorem append_empty (x : Dealings) : x ++ ({} : Dealings) = x :=
  Dealings.ext (List.append_nil x.sent) (List.append_nil x.taken) (Nat.add_zero x.dropped)

/-- No dealings in front of others add nothing. -/
theorem empty_append (x : Dealings) : ({} : Dealings) ++ x = x :=
  Dealings.ext (List.nil_append x.sent) (List.nil_append x.taken) (Nat.zero_add x.dropped)

/-- Dealings add up in any grouping. -/
theorem append_assoc (x y z : Dealings) : x ++ y ++ z = x ++ (y ++ z) :=
  Dealings.ext (List.append_assoc x.sent y.sent z.sent)
    (List.append_assoc x.taken y.taken z.taken) (Nat.add_assoc x.dropped y.dropped z.dropped)

end Dealings

namespace System

/-- The system after an occurrence. -/
def occur (s : System) : Occurrence → System
  | .move m => s.move m
  | .offer n item => s.onChannel n fun c => (c.trySend outsider item).left c
  | .send n item => s.onChannel n fun c => (c.send outsider item).left c
  | .giveUp n => s.onChannel n fun c => (c.abandon outsider).1
  | .signal n signal => { s with store := s.store.onFeed n (·.push signal) }

/-- The system after occurrences in order. -/
def occurs (s : System) (run : List Occurrence) : System := run.foldl occur s

/-- What the dispatcher of a subscription has done from one system to the next: by how much
its channel has grown, its feed has shrunk, and the journal counts more drops. -/
def dealings (sub : Subscription) (s s' : System) : Dealings :=
  let unread := (s.store.feed sub.feed).queue
  let left := (s'.store.feed sub.feed).queue
  { sent := ((s'.channel sub.channel).items.drop (s.channel sub.channel).items.length).map (·.2)
    taken := sub.matching (unread.take (unread.length - left.length))
    dropped := s'.journal.count (.dropped sub.stem) - s.journal.count (.dropped sub.stem) }

/-- What the dispatcher of subscription `id` does in an occurrence, namely when it is
polled. -/
def dealt (s : System) (id : Nat) (o : Occurrence) : Dealings :=
  match s.dispatcher? id with
  | none => {}
  | some d => if o.polled? = some id then dealings d.subscription s (s.occur o) else {}

/-- What the dispatcher of subscription `id` does in occurrences in order. -/
def dealtAll (s : System) (id : Nat) : List Occurrence → Dealings
  | [] => {}
  | o :: run => s.dealt id o ++ (s.occur o).dealtAll id run

end System

/-- The accounts of a live dispatcher are in order. -/
structure Dispatcher.Balanced (d : Dispatcher) (x : Dealings) : Prop where
  accounts : d.subscription.Accounts d.missed x.sent x.taken
  counted : x.dropped = lagged x.sent + d.missed
  phase : ∀ event, d.phase ≠ .sending event

namespace System

variable {s : System}

/-! ### One poll -/

/-- Waking workers leaves the journal as it is. -/
theorem journal_wakeAll (s : System) (workers : List Worker) :
    (s.wakeAll workers).journal = s.journal := by
  induction workers generalizing s with
  | nil => rfl
  | cons worker rest ih =>
    rw [wakeAll, ih, wake]
    split <;> rfl

/-- Lines of the log count no facts. -/
theorem count_noteAll (s : System) (notices : List Notice) (fact : Observation) :
    (s.noteAll notices).journal.count fact = s.journal.count fact := by
  induction notices generalizing s with
  | nil => rfl
  | cons notice rest ih => exact ih (s.note notice)

/-- Observing facts counts each of them as often as it is among them. -/
theorem count_observeAll (s : System) (observations : List Observation) (fact : Observation) :
    (s.observeAll observations).journal.count fact =
      s.journal.count fact + observations.countP (· = fact) := by
  induction observations generalizing s with
  | nil => rfl
  | cons first rest ih =>
    rw [observeAll, ih, List.countP_cons]
    have hone : (s.observe first).journal.count fact =
        s.journal.count fact + if decide (first = fact) = true then 1 else 0 :=
      List.countP_cons
    rw [hone]
    omega

/-- The journal counts what a step observes. -/
theorem count_afterStep (s : System) (d : Dispatcher) (step : Dispatch.Step)
    (fact : Observation) :
    (s.afterStep d step).journal.count fact =
      s.journal.count fact + step.observations.countP (· = fact) := by
  simp only [afterStep, journal_wakeAll, count_observeAll, count_noteAll]
  rfl

/-- The channel of a dispatcher grows by what a step sends. -/
theorem sent_dispatch {w : Wiring} {d : Dispatcher} {reportFirst : Bool} {items : List Item}
    (hgains : Channel.Gains (w.channel d.subscription.channel)
      (w.stepOf d reportFirst).after.channel d.subscription.id items) :
    (((w.dispatch d reportFirst).channel d.subscription.channel).items.drop
      (w.channel d.subscription.channel).items.length).map (·.2) = items := by
  rw [Wiring.channel_dispatch]
  by_cases hlt : d.subscription.channel < w.channels.length
  · rw [if_pos ⟨rfl, hlt⟩, hgains.items_eq, List.drop_left, List.map_map]
    exact List.map_id items
  · -- on a channel that was never made nothing is sent
    have hreceived : (w.channel d.subscription.channel).received = false := by
      simp [Wiring.channel, List.getD_eq_getElem?_getD,
        List.getElem?_eq_none (Nat.le_of_not_lt hlt)]
    have hnone : items = [] := by
      cases items with
      | nil => rfl
      | cons item rest =>
        rw [hgains.live (by simp)] at hreceived
        cases hreceived
    rw [if_neg fun h => hlt h.2, hnone, List.drop_length, List.map_nil]

/-- A poll with credit deals with what the step takes in and sends, if the dispatcher goes
on. -/
theorem dealt_of_step {d : Dispatcher} (hfind : s.dispatcher? d.subscription.id = some d)
    (hopened : d.subscription.feed < s.store.feeds.length) (hcredit : d.credit ≠ 0)
    {reportFirst : Bool} (hpace : (s.wiring.stepOf d reportFirst).pace ≠ .over)
    {items : List Item} {signals : List Signal}
    (hgains : Channel.Gains (s.channel d.subscription.channel)
      (s.wiring.stepOf d reportFirst).after.channel d.subscription.id items)
    (hqueue : (s.store.feed d.subscription.feed).queue =
      signals ++ (s.wiring.stepOf d reportFirst).after.feed.queue) :
    s.dealt d.subscription.id (.move (.poll (.dispatcher d.subscription.id) reportFirst)) =
      { sent := items
        taken := d.subscription.matching signals
        dropped := (s.wiring.stepOf d reportFirst).observations.countP
          (· = .dropped d.subscription.stem) } := by
  have hwiring : (s.pollDispatcher d.subscription.id reportFirst).wiring =
      s.wiring.dispatch d reportFirst :=
    (wiring_pollDispatcher hfind reportFirst).trans (if_neg hcredit)
  have hsent := sent_dispatch (w := s.wiring) hgains
  rw [← hwiring] at hsent
  have hleft : (s.pollDispatcher d.subscription.id reportFirst).store.feed d.subscription.feed =
      (s.wiring.stepOf d reportFirst).after.feed := by
    have hstore := (congrArg Wiring.store hwiring).trans
      (Wiring.store_dispatch s.wiring d reportFirst hpace)
    exact (congrArg (Store.feed · d.subscription.feed) hstore).trans
      (Store.feed_onFeed_self hopened _)
  have hcount : (s.pollDispatcher d.subscription.id reportFirst).journal.count
      (.dropped d.subscription.stem) = s.journal.count (.dropped d.subscription.stem) +
        (s.wiring.stepOf d reportFirst).observations.countP
          (· = .dropped d.subscription.stem) := by
    have hstep := s.count_afterStep d (s.wiring.stepOf d reportFirst)
      (.dropped d.subscription.stem)
    rw [pollDispatcher_of_credit hfind hcredit]
    simp only
    cases hcase : (s.wiring.stepOf d reportFirst).pace with
    | again => exact hstep
    | waiting => exact hstep
    | «over» => exact absurd hcase hpace
  have hpolled : (Occurrence.move (.poll (.dispatcher d.subscription.id) reportFirst)).polled? =
      some d.subscription.id := rfl
  simp only [dealt, hfind, if_pos hpolled, occur, move, dealings]
  refine Dealings.ext hsent ?_ ?_
  · simp only [hleft, hqueue, List.length_append, Nat.add_sub_cancel, List.take_left]
  · simp only [hcount, Nat.add_sub_cancel_left]

/-- Where nothing has changed nothing was done. -/
theorem dealings_of_same {sub : Subscription} {s' : System}
    (hchannel : s'.channel sub.channel = s.channel sub.channel)
    (hfeed : s'.store.feed sub.feed = s.store.feed sub.feed) (hjournal : s'.journal = s.journal) :
    dealings sub s s' = {} := by
  simp only [dealings, hchannel, hfeed, hjournal]
  refine Dealings.ext ?_ ?_ ?_
  · simp only [List.drop_length, List.map_nil]
  · simp only [Nat.sub_self, List.take_zero]
    rfl
  · simp only [Nat.sub_self]

/-- A dispatcher that is not polled does nothing. -/
theorem dealt_of_ne {id : Nat} {o : Occurrence} (h : o.polled? ≠ some id) : s.dealt id o = {} := by
  unfold dealt
  split
  · rfl
  · rw [if_neg h]

/-- A poll of one dispatcher is no dealing of another. -/
theorem dealt_poll_of_ne {id other : Nat} (h : id ≠ other) (reportFirst : Bool) :
    s.dealt other (.move (.poll (.dispatcher id) reportFirst)) = {} :=
  dealt_of_ne fun hpolled => h (Option.some.inj hpolled)

/-- A dispatcher that is not there does nothing. -/
theorem dealt_of_none {id : Nat} (o : Occurrence) (h : s.dispatcher? id = none) :
    s.dealt id o = {} := by
  simp only [dealt, h]

/-! ### Runs -/

/-- The dispatchers of a system under the dropping policy have dealt in good order. -/
structure Accounted (s : System) (past : Nat → Dealings) : Prop where
  sound : s.wiring.Sound
  genuine : s.wiring.Genuine
  policy : s.wiring.policy = .dropAndSignal
  positive : outsider < s.nextSubscription
  balanced : ∀ d ∈ s.dispatchers, d.Balanced (past d.subscription.id)
  /-- Subscriptions to come have dealt in nothing. -/
  clear : ∀ id, s.nextSubscription ≤ id → past id = {}

namespace Accounted

variable {past : Nat → Dealings} {o : Occurrence}

/-- On a new broker under the dropping policy there is nothing to account for. -/
theorem new (settings : Settings) (hpolicy : settings.slowPolicy = .dropAndSignal) :
    Accounted { settings } fun _ => {} where
  sound := Wiring.sound_new settings
  genuine := genuine_new settings
  policy := hpolicy
  positive := Nat.zero_lt_one
  balanced d hd := by cases hd
  clear _ _ := rfl

/-- A dispatcher is found by its number. -/
theorem dispatcher?_eq (h : s.Accounted past) {d : Dispatcher} (hd : d ∈ s.dispatchers) :
    s.dispatcher? d.subscription.id = some d := by
  cases hfind : s.dispatcher? d.subscription.id with
  | none =>
    have hnone := List.find?_eq_none.1 hfind d hd
    simp at hnone
  | some other =>
    have hmem : other ∈ s.wiring.dispatchers := List.mem_of_find?_eq_some hfind
    have hid := List.find?_some hfind
    rw [h.sound.eq_of_id hmem hd (of_decide_eq_true hid)]

/-- Accounts stay in order when no dispatcher is brought on. -/
theorem retain (h : s.Accounted past) {s' : System} (hsound : s'.wiring.Sound)
    (hgenuine : s'.wiring.Genuine) (hretains : s.wiring.Retains s'.wiring)
    (hquiet : ∀ id, s.dealt id o = {}) :
    s'.Accounted fun id => past id ++ s.dealt id o := by
  have hsame : (fun id => past id ++ s.dealt id o) = past := by
    funext id
    rw [hquiet id, Dealings.append_empty]
  have hnext := hretains.next
  have hpositive := h.positive
  rw [hsame]
  exact {
    sound := hsound
    genuine := hgenuine
    policy := hretains.policy.trans h.policy
    positive := Nat.lt_of_lt_of_le hpositive hnext
    balanced := by
      intro d' hd'
      rcases hretains.dispatchers d' hd' with ⟨d, hd, hlike⟩ | hfresh
      · have hbalanced := h.balanced d hd
        constructor
        · rw [hlike.subscription, hlike.missed]
          exact hbalanced.accounts
        · rw [hlike.subscription, hlike.missed]
          exact hbalanced.counted
        · rw [hlike.phase]
          exact hbalanced.phase
      · rw [h.clear _ hfresh.number]
        constructor
        · rw [hfresh.missed]
          exact .nil _
        · rw [hfresh.missed]
          rfl
        · rw [hfresh.phase]
          exact nofun
    clear := fun id hid => h.clear id (Nat.le_trans hnext hid) }

/-- The step of a dispatcher that goes on is accounted for. -/
theorem balanced_step (h : s.Accounted past) {d : Dispatcher} (hd : d ∈ s.dispatchers)
    (hcredit : d.credit ≠ 0) {reportFirst : Bool}
    (hpace : (s.wiring.stepOf d reportFirst).pace ≠ .over) :
    (s.wiring.stepOf d reportFirst).dispatcher.Balanced (past d.subscription.id ++
      s.dealt d.subscription.id
        (.move (.poll (.dispatcher d.subscription.id) reportFirst))) := by
  have hbalanced := h.balanced d hd
  have hstep : s.wiring.stepOf d reportFirst = (s.wiring.dispatchOf d).step .dropAndSignal
      (s.wiring.stopped || d.cancelled) reportFirst := by
    rw [← h.policy]
    rfl
  obtain ⟨items, signals, hqueue, hsettles⟩ :=
    Dispatch.settles_step (d := s.wiring.dispatchOf d) hbalanced.phase (hstep ▸ hpace)
  rw [← hstep] at hqueue hsettles
  have hopened := h.sound.opened _ (Wiring.mem_subscriptions hd)
  have hdealt := dealt_of_step (h.dispatcher?_eq hd) hopened hcredit hpace hsettles.channel hqueue
  obtain ⟨credit, heq⟩ := (s.wiring.stepOf d reportFirst).dispatcher_eq
  have hsub : (s.wiring.stepOf d reportFirst).after.dispatcher.subscription = d.subscription :=
    hsettles.subscription
  have hcounted : d.missed + (s.wiring.stepOf d reportFirst).observations.countP
      (· = .dropped d.subscription.stem) =
        lagged items + (s.wiring.stepOf d reportFirst).after.dispatcher.missed := hsettles.counted
  have hbefore := hbalanced.counted
  rw [hdealt, heq]
  constructor
  · simp only [hsub]
    exact hsettles.accounts _ _ hbalanced.accounts
  · show (past d.subscription.id).dropped + _ =
      lagged ((past d.subscription.id).sent ++ items) + _
    rw [lagged_append]
    simp only
    omega
  · exact hsettles.phase

/-- The poll of a dispatcher keeps the accounts. -/
theorem poll (h : s.Accounted past) (id : Nat) (reportFirst : Bool) :
    (s.pollDispatcher id reportFirst).Accounted fun other =>
      past other ++ s.dealt other (.move (.poll (.dispatcher id) reportFirst)) := by
  cases hfind : s.dispatcher? id with
  | none =>
    have hsame : s.pollDispatcher id reportFirst = s := by simp only [pollDispatcher, hfind]
    rw [hsame]
    refine h.retain h.sound h.genuine (.refl _) fun other => ?_
    by_cases hid : id = other
    · exact dealt_of_none _ (hid ▸ hfind)
    · exact dealt_poll_of_ne hid reportFirst
  | some d =>
    have hd : d ∈ s.wiring.dispatchers := List.mem_of_find?_eq_some hfind
    have hid : d.subscription.id = id := by
      have hsome := List.find?_some hfind
      simpa using hsome
    subst hid
    have hchanges := changes_move h.genuine (.poll (.dispatcher d.subscription.id) reportFirst)
    obtain ⟨hsound, hpolicy⟩ := hchanges.sound h.sound
    have hgenuine := h.genuine.changes hchanges
    have hwiring := wiring_pollDispatcher hfind reportFirst
    by_cases hcredit : d.credit = 0
    · -- the dispatcher only begins to rest
      rw [if_pos hcredit] at hwiring
      have hrests : s.pollDispatcher d.subscription.id reportFirst = s.rest d := by
        simp only [pollDispatcher, hfind, if_pos hcredit]
      refine h.retain hsound hgenuine ?_ fun other => ?_
      · rw [hwiring]
        refine ⟨rfl, Nat.le_refl _, fun d' hd' => ?_⟩
        obtain ⟨before, hbefore, rfl⟩ := List.mem_map.1 hd'
        left
        split
        · exact ⟨d, hd, rfl, rfl, rfl⟩
        · exact ⟨before, hbefore, rfl, rfl, rfl⟩
      · by_cases hother : d.subscription.id = other
        · subst hother
          simp only [dealt, hfind, occur, move, hrests]
          split
          · exact dealings_of_same rfl rfl rfl
          · rfl
        · exact dealt_poll_of_ne hother reportFirst
    rw [if_neg hcredit] at hwiring
    obtain ⟨hsub, _⟩ := Wiring.stepOf_dispatcher s.wiring d reportFirst
    have hnext : (s.pollDispatcher d.subscription.id reportFirst).nextSubscription =
        s.nextSubscription :=
      (congrArg Wiring.nextSubscription hwiring).trans
        (Wiring.stopped_dispatch s.wiring d reportFirst).2
    exact {
      sound := hsound
      genuine := hgenuine
      policy := hpolicy.trans h.policy
      positive := by
        rw [hnext]
        exact h.positive
      balanced := by
        intro d' hd'
        have hmem : d' ∈ (s.wiring.dispatch d reportFirst).dispatchers := hwiring ▸ hd'
        rcases Wiring.mem_dispatch hmem hsub with ⟨rfl, hpace⟩ | ⟨hother, hne⟩
        · rw [hsub]
          exact h.balanced_step hd hcredit hpace
        · rw [dealt_poll_of_ne hne.symm, Dealings.append_empty]
          exact h.balanced d' hother
      clear := by
        intro other hother
        rw [hnext] at hother
        have hlt := h.sound.fresh _ (Wiring.mem_subscriptions hd)
        have hne : d.subscription.id ≠ other := Nat.ne_of_lt (Nat.lt_of_lt_of_le hlt hother)
        rw [h.clear other hother, dealt_poll_of_ne hne]
        rfl }

/-- A move keeps the accounts, with what each dispatcher deals in it. -/
theorem move (h : s.Accounted past) (m : Move) :
    (s.move m).Accounted fun id => past id ++ s.dealt id (.move m) := by
  by_cases hpoll : ∃ id reportFirst, m = .poll (.dispatcher id) reportFirst
  · obtain ⟨id, reportFirst, rfl⟩ := hpoll
    exact h.poll id reportFirst
  · have hother : ∀ id reportFirst, m ≠ .poll (.dispatcher id) reportFirst :=
      fun id reportFirst heq => hpoll ⟨id, reportFirst, heq⟩
    have hchanges := changes_move h.genuine m
    refine h.retain (hchanges.sound h.sound).1 (h.genuine.changes hchanges)
      (retains_move h.genuine hother) fun id => dealt_of_ne ?_
    unfold Occurrence.polled?
    split
    · next other reportFirst heq =>
      exact absurd (Occurrence.move.inj heq) (hother other reportFirst)
    · exact nofun

/-- What others do to a channel concerns no dispatcher. -/
theorem onChannel (h : s.Accounted past) (n : Nat) {f : Channel → Channel} {items : List Item}
    (hgains : Channel.Gains (s.channel n) (f (s.channel n)) outsider items)
    (hquiet : o.polled? = none) :
    (s.onChannel n f).Accounted fun id => past id ++ s.dealt id o := by
  have hitems : (f (s.wiring.channel n)).items =
      (s.wiring.channel n).items ++ items.map (outsider, ·) := hgains.items_eq
  have hsound : (s.wiring.onChannel n f).Sound := h.sound.onChannel n fun e he => by
    rw [hitems] at he
    rcases List.mem_append.1 he with hold | hnew
    · exact h.sound.senders n e hold
    · obtain ⟨item, _, rfl⟩ := List.mem_map.1 hnew
      exact h.positive
  refine h.retain hsound h.genuine (.of_same rfl rfl rfl) fun id => dealt_of_ne ?_
  rw [hquiet]
  exact nofun

/-- Whatever happens keeps the accounts. -/
theorem occur (h : s.Accounted past) (o : Occurrence) :
    (s.occur o).Accounted fun id => past id ++ s.dealt id o := by
  cases o with
  | move m => exact h.move m
  | offer n item =>
    obtain ⟨items, hgains⟩ := (Channel.sends_trySend (s.channel n) outsider item).gains_left
    exact h.onChannel n hgains rfl
  | send n item =>
    obtain ⟨items, hgains⟩ := (Channel.sends_send (s.channel n) outsider item).gains_left
    exact h.onChannel n hgains rfl
  | giveUp n => exact h.onChannel n (Channel.gains_abandon (s.channel n) outsider) rfl
  | signal n signal =>
    have hsound := h.sound.withStore (Store.onlyNew_onFeed s.store n (·.push signal))
    exact h.retain hsound h.genuine (.of_same rfl rfl rfl) fun id => dealt_of_ne nofun

/-- So does every run. -/
theorem occurs (h : s.Accounted past) (run : List Occurrence) :
    (s.occurs run).Accounted fun id => past id ++ s.dealtAll id run := by
  induction run generalizing s past with
  | nil =>
    have hsame : (fun id => past id ++ s.dealtAll id []) = past :=
      funext fun id => Dealings.append_empty (past id)
    rw [hsame]
    exact h
  | cons o run ih =>
    have hrest := ih (h.occur o)
    simp only [Dealings.append_assoc] at hrest
    exact hrest

end Accounted

/-- Dropped events are accounted for exactly and in place. After any run under the dropping
policy, take a dispatcher that has not ended. The items it sent account for the events
that it took in, but for the last `missed` ones, which it has dropped since: event by event,
and report by report. So the reports in front of an event that was delivered stand for
just the events dropped in that place, the number of all events dropped is what has been
reported and what is still to be, and no event is ever waiting for room in the channel. -/
theorem drops_accounted_in_place (settings : Settings)
    (hpolicy : settings.slowPolicy = .dropAndSignal) (run : List Occurrence) (d : Dispatcher)
    (hlive : d ∈ (occurs { settings } run).dispatchers) :
    let s := occurs { settings } run
    let sub := d.subscription
    let past := dealtAll { settings } sub.id run
    sub.Accounts d.missed past.sent past.taken ∧
    (∀ before lags item later, past.sent = before ++ lags ++ item :: later →
      (∀ lag ∈ lags, (lagOf lag).isSome) → lagOf item = none →
        ∃ seen gone event rest, past.taken = seen ++ gone ++ event :: rest ∧
          sub.Accounts 0 before seen ∧ gone.length = lagged lags ∧ item = sub.itemOf event) ∧
    past.dropped = lagged past.sent + d.missed ∧
    (∀ event, d.phase ≠ .sending event) ∧
    ∀ reportFirst, (s.wiring.stepOf d reportFirst).pace = .waiting →
      d.phase = .reading ∧ (s.store.feed sub.feed).queue = [] ∨ d.phase.reports = true := by
  intro s sub past
  have haccounted := (Accounted.new settings hpolicy).occurs run
  have hbalanced := haccounted.balanced d hlive
  simp only [Dealings.empty_append] at hbalanced
  refine ⟨hbalanced.accounts, ?_, hbalanced.counted, hbalanced.phase, ?_⟩
  · intro before lags item later hsent hlags hitem
    have haccounts := hbalanced.accounts
    change sub.Accounts d.missed past.sent past.taken at haccounts
    rw [hsent] at haccounts
    exact haccounts.gap hlags hitem
  · intro reportFirst hpace
    have hstep : s.wiring.stepOf d reportFirst = (s.wiring.dispatchOf d).step .dropAndSignal
        (s.wiring.stopped || d.cancelled) reportFirst := by
      rw [← haccounted.policy]
      rfl
    rw [hstep] at hpace
    exact Dispatch.waiting_step (d := s.wiring.dispatchOf d) hbalanced.phase hpace

/-- Six events go to a channel with room for two, of which the first two are received in
between: the third and the fourth event are dropped and reported before the fifth, and
the sixth is dropped with its report still to come. -/
theorem drops_accounted_in_place_pending :
    let settings : Settings := { slowPolicy := .dropAndSignal }
    let put : Occurrence := .move (.ask (.put ['k'] [0] none))
    let poll : Occurrence := .move (.poll (.dispatcher 1) false)
    let receive : Occurrence := .move (.receive 0)
    let run : List Occurrence := [.move (.openChannel 2 false),
      .move (.launch (.ask (.watch [] ['k'] 0)) false), .move (.poll (.call 0) false), poll, put,
      put, put, put, poll, poll, poll, poll, receive, receive, put, put, poll, poll, poll]
    let d : Dispatcher :=
      { subscription := { id := 1, localStem := ['k'], stem := ['k'], scope := [], channel := 0,
                          feed := 0 }
        missed := 1, phase := .reading }
    let past := dealtAll { settings } 1 run
    settings.slowPolicy = .dropAndSignal ∧ d ∈ (occurs { settings } run).dispatchers ∧
      past.sent.map lagOf = [none, none, some 2, none] ∧ past.taken.length = 6 ∧
      d.subscription.Accounts d.missed past.sent past.taken ∧
      past.dropped = lagged past.sent + d.missed := by
  intro settings put poll receive run d past
  have hlive : d ∈ (occurs { settings } run).dispatchers := by decide +kernel
  have hsent : past.sent.map lagOf = [none, none, some 2, none] := by decide +kernel
  have htaken : past.taken.length = 6 := by decide +kernel
  obtain ⟨haccounts, _, hcounted, _⟩ := drops_accounted_in_place settings rfl run d hlive
  exact ⟨rfl, hlive, hsent, htaken, haccounts, hcounted⟩

end System

end KeyBroker
