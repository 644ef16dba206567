import KeyBroker.Proofs.Delivery.Dispatch

/-!
# Accounts of dropped events

A dispatcher that drops events accounts for them in place. Walk the items that it
sent along the events that it took in: an event in the channel is the next one taken
in, a report of dropped events stands for as many of the next ones, and what is left
after the last item are the events dropped since. One step of the dispatcher keeps
these accounts, whatever room it finds for the report and for the event.
-/

namespace KeyBroker

/-- How many events an item reports as dropped, if it is such a report. -/
def lagOf : Item → Option Nat
  | .error (.watchLagged missed) => some missed
  | _ => none

/-- How many events the reports among the items stand for. -/
def lagged : List Item → Nat
  | [] => 0
  | item :: rest => (lagOf item).getD 0 + lagged rest

/-- Reports in two lists stand for the sum of what each list reports. -/
theorem lagged_append (items more : List Item) :
    lagged (items ++ more) = lagged items + lagged more := by
  induction items with
  | nil => exact (Nat.zero_add _).symm
  | cons item rest ih => simp only [List.cons_append, lagged, ih, Nat.add_assoc]

namespace Subscription

/-- The items account for the events, of which the last `missed` have not been reported
yet. -/
inductive Accounts (sub : Subscription) (missed : Nat) : List Item → List Event → Prop where
  | pending (events : List Event) (left : events.length = missed) : Accounts sub missed [] events
  | delivered {items : List Item} {events : List Event} (event : Event)
    (rest : Accounts sub missed items events) :
    Accounts sub missed (sub.itemOf event :: items) (event :: events)
  | reported {items : List Item} {events : List Event} (gone : List Event)
    (some : 1 ≤ gone.length) (rest : Accounts sub missed items events) :
    Accounts sub missed (.error (.watchLagged gone.length) :: items) (gone ++ events)

variable {sub : Subscription} {missed : Nat} {items more : List Item} {events : List Event}

/-- An event is shown as itself or as out of scope, never as a report. -/
theorem lagOf_itemOf (sub : Subscription) (event : Event) : lagOf (sub.itemOf event) = none := by
  simp only [itemOf, Key.reveal]
  split
  · rfl
  · split <;> rfl

namespace Accounts

/-! ### One more event -/

/-- Nothing sent accounts for nothing taken in. -/
theorem nil (sub : Subscription) : sub.Accounts 0 [] [] := .pending [] rfl

/-- Dropping one more event leaves the accounts in order, with one more event to report. -/
theorem drop (h : sub.Accounts missed items events) (event : Event) :
    sub.Accounts (missed + 1) items (events ++ [event]) := by
  induction h with
  | pending events left =>
    refine .pending _ ?_
    rw [List.length_append, List.length_singleton, left]
  | delivered first _ ih => exact .delivered first ih
  | reported gone some _ ih =>
    rw [List.append_assoc]
    exact .reported gone some ih

/-- An event is delivered only when no dropped one waits to be reported. -/
theorem deliver (h : sub.Accounts 0 items events) (event : Event) :
    sub.Accounts 0 (items ++ [sub.itemOf event]) (events ++ [event]) := by
  induction h with
  | pending events left =>
    rw [List.length_eq_zero_iff.1 left]
    exact .delivered event (nil sub)
  | delivered first _ ih => exact .delivered first ih
  | reported gone some _ ih =>
    rw [List.append_assoc]
    exact .reported gone some ih

/-- A report settles what was dropped. -/
theorem report (h : sub.Accounts missed items events) (hmissed : 1 ≤ missed) :
    sub.Accounts 0 (items ++ [.error (.watchLagged missed)]) events := by
  induction h with
  | pending events left =>
    have hall := Accounts.reported events (left ▸ hmissed) (nil sub)
    rwa [List.append_nil, left] at hall
  | delivered first _ ih => exact .delivered first ih
  | reported gone some _ ih => exact .reported gone some ih

/-! ### Parts of accounts -/

/-- The first items account for the first events, with nothing left over. -/
theorem split (h : sub.Accounts missed (items ++ more) events) :
    ∃ seen rest, events = seen ++ rest ∧ sub.Accounts 0 items seen ∧
      sub.Accounts missed more rest := by
  generalize hall : items ++ more = all at h
  -- along the accounts, item by item: a report takes the events that it stands for with it
  induction h generalizing items with
  | pending events left =>
    obtain ⟨rfl, rfl⟩ := List.append_eq_nil_iff.1 hall
    exact ⟨[], events, rfl, nil sub, .pending events left⟩
  | @delivered rest events event h ih =>
    cases items with
    | nil =>
      rw [List.nil_append] at hall
      exact ⟨[], event :: events, rfl, nil sub, hall ▸ .delivered event h⟩
    | cons item items =>
      obtain ⟨rfl, htail⟩ := List.cons.inj hall
      obtain ⟨seen, left, rfl, hseen, hleft⟩ := ih htail
      exact ⟨event :: seen, left, rfl, .delivered event hseen, hleft⟩
  | @reported rest events gone some h ih =>
    cases items with
    | nil =>
      rw [List.nil_append] at hall
      exact ⟨[], gone ++ events, rfl, nil sub, hall ▸ .reported gone some h⟩
    | cons item items =>
      obtain ⟨rfl, htail⟩ := List.cons.inj hall
      obtain ⟨seen, left, rfl, hseen, hleft⟩ := ih htail
      refine ⟨gone ++ seen, left, ?_, .reported gone some hseen, hleft⟩
      rw [List.append_assoc]

/-- Reports by themselves account for as many events as they tell of. -/
theorem length_of_reports (h : sub.Accounts 0 items events)
    (hreports : ∀ item ∈ items, (lagOf item).isSome) : events.length = lagged items := by
  induction h with
  | pending events left => exact left
  | delivered event _ _ =>
    have hevent := hreports _ List.mem_cons_self
    rw [lagOf_itemOf] at hevent
    cases hevent
  | @reported items events gone _ _ ih =>
    have hrest := ih fun item hitem => hreports item (List.mem_cons_of_mem _ hitem)
    rw [List.length_append, hrest]
    rfl

/-- The reports in front of an event that is delivered stand for exactly the events that
were dropped in that place. -/
theorem gap {before lags later : List Item} {item : Item}
    (h : sub.Accounts missed (before ++ lags ++ item :: later) events)
    (hlags : ∀ lag ∈ lags, (lagOf lag).isSome) (hitem : lagOf item = none) :
    ∃ seen gone event rest, events = seen ++ gone ++ event :: rest ∧
      sub.Accounts 0 before seen ∧ gone.length = lagged lags ∧ item = sub.itemOf event := by
  obtain ⟨first, rest, rfl, hfirst, hrest⟩ := h.split
  obtain ⟨seen, gone, rfl, hseen, hgone⟩ := hfirst.split
  cases hrest with
  | delivered event _ =>
    exact ⟨seen, gone, event, _, rfl, hseen, hgone.length_of_reports hlags, rfl⟩
  | reported gone _ _ => cases hitem

end Accounts

end Subscription

/-- The events among signals that a subscription is about. -/
def Subscription.matching (sub : Subscription) (signals : List Signal) : List Event :=
  (signals.filterMap (·.toOption)).filter fun e => sub.stem.beginsWith e.key

namespace Dispatch

/-- What a step of a dropping dispatcher, that goes on, does with the events that it takes
in: the items it sends and the number of events it drops keep the accounts. -/
structure Settles (d : Dispatch) (step : Step) (items : List Item) (events : List Event) :
    Prop extends Keeps d step items where
  accounts : ∀ before seen,
    d.dispatcher.subscription.Accounts d.dispatcher.missed before seen →
      d.dispatcher.subscription.Accounts step.after.dispatcher.missed (before ++ items)
        (seen ++ events)
  counted : d.dispatcher.missed +
      step.observations.countP (· = .dropped d.dispatcher.subscription.stem) =
    lagged items + step.after.dispatcher.missed
  phase : ∀ event, step.after.dispatcher.phase ≠ .sending event

variable {d : Dispatch}

/-- A step that sends nothing and takes no event in. -/
theorem Settles.still {step : Step} (keeps : Keeps d step [])
    (hmissed : step.after.dispatcher.missed = d.dispatcher.missed)
    (hcount : step.observations.countP (· = .dropped d.dispatcher.subscription.stem) = 0)
    (hphase : ∀ event, step.after.dispatcher.phase ≠ .sending event) :
    Settles d step [] [] where
  toKeeps := keeps
  accounts before seen h := by
    rw [List.append_nil, List.append_nil, hmissed]
    exact h
  counted := by
    rw [hcount, hmissed]
    exact Nat.add_comm _ _
  phase := hphase

/-- A step that drops the event it takes in keeps the accounts. -/
theorem settles_drop (event : Event) (hphase : ∀ event, d.dispatcher.phase ≠ .sending event) :
    Settles d d.drop [] [event] where
  subscription := rfl
  cancelled := rfl
  channel := .refl _ _
  accounts before seen h := by
    rw [List.append_nil]
    exact h.drop event
  counted := by
    have hone : d.drop.observations.countP
        (· = .dropped d.dispatcher.subscription.stem) = 1 := by simp [Dispatch.drop]
    rw [hone]
    exact (Nat.zero_add _).symm
  phase := hphase

/-- With nothing to report, the event is delivered or dropped. -/
theorem settles_offerEvent (event : Event) (hmissed : d.dispatcher.missed = 0)
    (hphase : ∀ event, d.dispatcher.phase ≠ .sending event)
    (hpace : (d.offerEvent event).pace ≠ .over) :
    ∃ items, Settles d (d.offerEvent event) items [event] := by
  have hsends := Channel.sends_trySend d.channel d.dispatcher.subscription.id
    (d.dispatcher.subscription.itemOf event)
  simp only [offerEvent] at hpace ⊢
  generalize d.channel.trySend d.dispatcher.subscription.id
    (d.dispatcher.subscription.itemOf event) = sending at hsends hpace
  cases hsends with
  | sent gains =>
    refine ⟨[d.dispatcher.subscription.itemOf event], ⟨rfl, rfl, gains⟩, ?_, ?_, hphase⟩
    · intro before seen h
      rw [hmissed] at h ⊢
      exact h.deliver event
    · have hnone : lagged [d.dispatcher.subscription.itemOf event] = 0 := by
        simp [lagged, Subscription.lagOf_itemOf]
      rw [hnone, hmissed]
      simp
  | full gains => exact ⟨[], settles_drop event hphase⟩
  | closed => exact absurd rfl hpace

/-- What was dropped is reported before the event is delivered; without room for the
report the event is dropped as well. -/
theorem settles_offer (event : Event) (hphase : ∀ event, d.dispatcher.phase ≠ .sending event)
    (hpace : (d.offer event).pace ≠ .over) :
    ∃ items, Settles d (d.offer event) items [event] := by
  simp only [offer] at hpace ⊢
  by_cases hmissed : d.dispatcher.missed = 0
  · rw [if_pos hmissed] at hpace ⊢
    obtain ⟨items, hsettles⟩ := settles_offerEvent event hmissed hphase hpace
    exact ⟨items, { hsettles with }⟩
  rw [if_neg hmissed] at hpace ⊢
  have hsends := Channel.sends_trySend d.channel d.dispatcher.subscription.id
    (.error (.watchLagged d.dispatcher.missed))
  generalize d.channel.trySend d.dispatcher.subscription.id
    (.error (.watchLagged d.dispatcher.missed)) = sending at hsends hpace
  cases hsends with
  | @sent channel gains =>
    -- the report is in the channel, and the event finds its own room or none
    obtain ⟨items, hsettles⟩ := settles_offerEvent
      (d := { d with channel, dispatcher := { d.dispatcher with missed := 0 } }) event rfl hphase
      hpace
    refine ⟨[.error (.watchLagged d.dispatcher.missed)] ++ items,
      ⟨hsettles.subscription, hsettles.cancelled, gains.trans hsettles.channel⟩, ?_, ?_,
      hsettles.phase⟩
    · intro before seen h
      rw [← List.append_assoc]
      exact hsettles.accounts _ _ (h.report (Nat.one_le_iff_ne_zero.2 hmissed))
    · have hcounted := hsettles.counted
      have hlag : lagged [.error (.watchLagged d.dispatcher.missed)] = d.dispatcher.missed := by
        simp [lagged, lagOf]
      rw [lagged_append, hlag]
      simp only at hcounted ⊢
      omega
  | full gains => exact ⟨[], { settles_drop event hphase with }⟩
  | closed => exact absurd rfl hpace

/-- An offer leaves the feed alone and waits for nothing. -/
theorem feed_offer (d : Dispatch) (event : Event) :
    (d.offer event).after.feed = d.feed ∧ (d.offer event).pace ≠ .waiting := by
  have hevent (d : Dispatch) :
      (d.offerEvent event).after.feed = d.feed ∧ (d.offerEvent event).pace ≠ .waiting := by
    simp only [offerEvent]
    split <;> exact ⟨rfl, Pace.noConfusion⟩
  simp only [offer]
  split
  · exact hevent d
  · split
    · exact hevent _
    · exact ⟨rfl, Pace.noConfusion⟩
    · exact ⟨rfl, Pace.noConfusion⟩

/-- The event that a dropping dispatcher reads is settled at once. -/
theorem settles_readOne (hphase : ∀ event, d.dispatcher.phase ≠ .sending event)
    (hpace : (d.readOne .dropAndSignal).pace ≠ .over) :
    ∃ items signals, d.feed.queue = signals ++ (d.readOne .dropAndSignal).after.feed.queue ∧
      Settles d (d.readOne .dropAndSignal) items
        (d.dispatcher.subscription.matching signals) := by
  unfold readOne at hpace ⊢
  cases hread : d.feed.read with
  | nothingYet => exact ⟨[], [], rfl, .still ⟨rfl, rfl, .refl _ _⟩ rfl rfl hphase⟩
  | ended => exact ⟨[], [], rfl, .still ⟨rfl, rfl, .refl _ _⟩ rfl rfl nofun⟩
  | signal signal feed =>
    have hqueue : d.feed.queue = [signal] ++ feed.queue := by
      unfold Feed.read at hread
      cases hq : d.feed.queue with
      | nil =>
        rw [hq] at hread
        simp only at hread
        split at hread <;> cases hread
      | cons first rest =>
        rw [hq] at hread
        cases hread
        rfl
    cases signal with
    | error e => exact ⟨[], [.error e], hqueue, .still ⟨rfl, rfl, .refl _ _⟩ rfl rfl nofun⟩
    | ok event =>
      rw [hread] at hpace
      simp only at hpace ⊢
      cases hbegins : d.dispatcher.subscription.stem.beginsWith event.key with
      | false =>
        have hnone : d.dispatcher.subscription.matching [.ok event] = [] := by
          simp [Subscription.matching, Except.toOption, hbegins]
        refine ⟨[], [.ok event], hqueue, ?_⟩
        rw [hnone]
        exact .still ⟨rfl, rfl, .refl _ _⟩ rfl rfl hphase
      | true =>
        have hone : d.dispatcher.subscription.matching [.ok event] = [event] := by
          simp [Subscription.matching, Except.toOption, hbegins]
        rw [hbegins] at hpace
        simp only [if_true] at hpace ⊢
        obtain ⟨items, hsettles⟩ := settles_offer (d := { d with feed }) event hphase hpace
        refine ⟨items, [.ok event], ?_, ?_⟩
        · rw [hqueue, (feed_offer { d with feed } event).1]
        · rw [hone]
          exact { hsettles with }

/-- A step that waits to report a lost feed keeps the accounts, as it sends and takes nothing. -/
theorem settles_sendReport (reason : String) (hphase : d.dispatcher.phase = .reporting reason)
    (hpace : (d.sendReport reason).pace ≠ .over) : Settles d (d.sendReport reason) [] [] := by
  have hsends := Channel.sends_send d.channel d.dispatcher.subscription.id
    (.error (.watchStreamBroken d.dispatcher.subscription.localStem reason))
  simp only [sendReport] at hpace ⊢
  generalize d.channel.send d.dispatcher.subscription.id
    (.error (.watchStreamBroken d.dispatcher.subscription.localStem reason)) = sending
    at hsends hpace
  cases hsends with
  | sent gains => exact absurd rfl hpace
  | full gains =>
    refine .still ⟨rfl, rfl, gains⟩ rfl rfl ?_
    rw [hphase]
    exact fun _ => Phase.noConfusion
  | closed => exact absurd rfl hpace

/-- A step of a dropping dispatcher that goes on keeps the accounts. -/
theorem settles_step (hphase : ∀ event, d.dispatcher.phase ≠ .sending event)
    {stop reportFirst : Bool} (hpace : (d.step .dropAndSignal stop reportFirst).pace ≠ .over) :
    ∃ items signals,
      d.feed.queue = signals ++ (d.step .dropAndSignal stop reportFirst).after.feed.queue ∧
        Settles d (d.step .dropAndSignal stop reportFirst) items
          (d.dispatcher.subscription.matching signals) := by
  unfold step at hpace ⊢
  cases hcase : d.dispatcher.phase with
  | starting =>
    exact ⟨[], [], rfl, .still ⟨rfl, rfl, .refl _ _⟩ rfl rfl nofun⟩
  | reading =>
    rw [hcase] at hpace
    cases stop with
    | true => exact absurd rfl hpace
    | false => exact settles_readOne hphase hpace
  | sending event => exact absurd hcase (hphase event)
  | reporting reason =>
    rw [hcase] at hpace
    have hsame : (d.sendReport reason).after.feed = d.feed := by
      simp only [sendReport]
      split <;> rfl
    simp only at hpace ⊢
    split at hpace
    · exact absurd rfl hpace
    · next hgoes =>
      rw [if_neg hgoes]
      split at hpace
      · exact absurd rfl hpace
      · next hstays =>
        rw [if_neg hstays]
        refine ⟨[], [], ?_, settles_sendReport reason hcase hpace⟩
        rw [hsame, List.nil_append]

/-- A dropping dispatcher waits only for its feed, or to report that the feed is lost. -/
theorem waiting_step (hphase : ∀ event, d.dispatcher.phase ≠ .sending event)
    {stop reportFirst : Bool}
    (hpace : (d.step .dropAndSignal stop reportFirst).pace = .waiting) :
    d.dispatcher.phase = .reading ∧ d.feed.queue = [] ∨ d.dispatcher.phase.reports = true := by
  unfold step at hpace
  cases hcase : d.dispatcher.phase with
  | starting =>
    rw [hcase] at hpace
    cases hpace
  | reading =>
    rw [hcase] at hpace
    left
    refine ⟨rfl, ?_⟩
    cases stop with
    | true => cases hpace
    | false =>
      cases hqueue : d.feed.queue with
      | nil => rfl
      | cons signal rest =>
        have hread : d.feed.read = .signal signal { d.feed with queue := rest } := by
          simp only [Feed.read, hqueue]
        simp only [readOne, hread, Bool.false_eq_true, if_false] at hpace
        cases signal with
        | error e => cases hpace
        | ok event =>
          simp only at hpace
          split at hpace
          · exact absurd hpace (feed_offer _ event).2
          · cases hpace
  | sending event => exact absurd hcase (hphase event)
  | reporting reason => exact .inr rfl

end Dispatch

end KeyBroker
