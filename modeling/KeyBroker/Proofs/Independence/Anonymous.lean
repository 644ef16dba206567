import KeyBroker.Proofs.Shutdown.Endings

/-!
# Dispatchers without numbers

Numbers tell subscriptions, channels and feeds apart and mean nothing else. A dispatcher for
whose channel nobody else stands in line does the same, step by step, if all numbers are
made alike; its credit does not matter to a step either.
-/

namespace KeyBroker

/-- The subscription without its numbers. -/
def Subscription.anonymous (sub : Subscription) : Subscription :=
  { sub with id := 0, channel := 0, feed := 0 }

/-- The dispatcher without its numbers, as if it had just rested. -/
def Dispatcher.anonymous (d : Dispatcher) : Dispatcher :=
  { d.refreshed with subscription := d.subscription.anonymous }

namespace Channel

/-- The channel with all senders made alike. -/
def anonymous (c : Channel) : Channel :=
  { c with
    items := c.items.map fun e => (0, e.2)
    waiting := c.waiting.map fun _ => 0
    promised := c.promised.map fun _ => 0 }

/-- Nobody but `sender` stands in line or was promised room. -/
def LinedBy (c : Channel) (sender : Nat) : Prop := ∀ k ∈ c.pending, k = sender

/-- What came of sending, with all senders made alike. -/
def Sending.anonymous : Sending → Sending
  | .sent c => .sent c.anonymous
  | .full c => .full c.anonymous
  | .closed => .closed

variable {c : Channel} {sender : Nat}

/-! ### Lines of one sender -/

/-- In a line of one sender, made alike, somebody stands exactly if the sender does. -/
theorem mem_map_alike {line : List Nat} (h : ∀ k ∈ line, k = sender) :
    0 ∈ line.map (fun _ => 0) ↔ sender ∈ line := by
  cases line with
  | nil => simp
  | cons first rest =>
    obtain rfl := h first List.mem_cons_self
    simp

/-- Taking the sender out of a line of its own commutes with making all senders alike. -/
theorem map_erase_alike {line : List Nat} (h : ∀ k ∈ line, k = sender) :
    (line.erase sender).map (fun _ => 0) = (line.map fun _ => 0).erase 0 := by
  cases line with
  | nil => rfl
  | cons first rest =>
    obtain rfl := h first List.mem_cons_self
    simp

/-- Room was promised to nobody but the sender. -/
theorem LinedBy.promised (h : c.LinedBy sender) : ∀ k ∈ c.promised, k = sender :=
  fun k hk => h k (List.mem_append_left _ hk)

/-- Nobody but the sender waits in line. -/
theorem LinedBy.waiting (h : c.LinedBy sender) : ∀ k ∈ c.waiting, k = sender :=
  fun k hk => h k (List.mem_append_right _ hk)

/-- A line stays the sender's when others leave it. -/
theorem LinedBy.mono (h : c.LinedBy sender) {c' : Channel}
    (hpending : ∀ k ∈ c'.pending, k ∈ c.pending ∨ k = sender) : c'.LinedBy sender :=
  fun k hk => (hpending k hk).elim (h k) id

/-- Promising a place leaves the line to the sender. -/
theorem linedBy_promise (h : c.LinedBy sender) : c.promise.1.LinedBy sender := by
  refine h.mono fun k hk => .inl ?_
  unfold promise at hk
  split at hk
  · exact hk
  · next hwaiting =>
    simp only [pending, List.mem_append, List.mem_singleton] at hk ⊢
    rw [hwaiting, List.mem_cons]
    rcases hk with (hk | hk) | hk
    · exact .inl hk
    · exact .inr (.inl hk)
    · exact .inr (.inr hk)

/-- Promising a place does not depend on who stands in line. -/
theorem anonymous_promise (c : Channel) : c.promise.1.anonymous = c.anonymous.promise.1 := by
  unfold promise
  cases hwaiting : c.waiting with
  | nil =>
    have hnone : c.anonymous.waiting = [] := congrArg (List.map fun _ => 0) hwaiting
    rw [hnone]
  | cons first rest =>
    have hfirst : c.anonymous.waiting = 0 :: rest.map fun _ => 0 :=
      congrArg (List.map fun _ => 0) hwaiting
    rw [hfirst]
    simp [anonymous]

/-! ### Sending -/

/-- Sending if there is room does not depend on who sends. -/
theorem anonymous_trySend (c : Channel) (sender : Nat) (item : Item) :
    (c.trySend sender item).anonymous = c.anonymous.trySend 0 item := by
  have hroom : c.anonymous.room = c.room := by simp [room, anonymous]
  simp only [trySend, hroom]
  cases hreceived : c.received with
  | false => simp [hreceived, anonymous, Sending.anonymous]
  | true =>
    by_cases hfree : 0 < c.room <;> simp [hreceived, hfree, anonymous, Sending.anonymous]

/-- Sending if there is room leaves the line to the sender. -/
theorem linedBy_trySend (h : c.LinedBy sender) (item : Item) :
    ((c.trySend sender item).left c).LinedBy sender := by
  unfold trySend
  split
  · exact h
  · split <;> exact h

/-- Sending in a line of one's own does not depend on the number of the sender. -/
theorem anonymous_send (h : c.LinedBy sender) (item : Item) :
    (c.send sender item).anonymous = c.anonymous.send 0 item := by
  have hpromised : 0 ∈ c.anonymous.promised ↔ sender ∈ c.promised := mem_map_alike h.promised
  have hwaiting : 0 ∈ c.anonymous.waiting ↔ sender ∈ c.waiting := mem_map_alike h.waiting
  have herase := map_erase_alike h.promised
  have htry := anonymous_trySend c sender item
  simp only [send, hpromised, hwaiting, ← htry]
  cases hreceived : c.received with
  | false => simp [hreceived, anonymous, Sending.anonymous]
  | true =>
    have hlive : c.anonymous.received = true := hreceived
    simp only [hlive, Bool.not_true, Bool.false_eq_true, if_false]
    by_cases hp : sender ∈ c.promised
    · simp [hp, anonymous, Sending.anonymous, herase]
    by_cases hw : sender ∈ c.waiting
    · simp [hp, hw, Sending.anonymous]
    simp only [hp, hw, if_false]
    cases c.trySend sender item with
    | full c' => simp [Sending.anonymous, anonymous]
    | _ => rfl

/-- Sending leaves the line to the sender. -/
theorem linedBy_send (h : c.LinedBy sender) (item : Item) :
    ((c.send sender item).left c).LinedBy sender := by
  unfold send
  split
  · exact h
  split
  · refine h.mono fun k hk => .inl ?_
    rcases List.mem_append.1 hk with hk | hk
    · exact List.mem_append_left _ (List.mem_of_mem_erase hk)
    · exact List.mem_append_right _ hk
  split
  · exact h
  · have htry := linedBy_trySend h item
    cases hsending : c.trySend sender item with
    | sent c' =>
      rw [hsending] at htry
      exact htry
    | full c' =>
      rw [hsending] at htry
      refine LinedBy.mono htry fun k hk => ?_
      simp only [Sending.left, pending, List.mem_append, List.mem_singleton] at hk ⊢
      rcases hk with hk | hk | hk
      · exact .inl (.inl hk)
      · exact .inl (.inr hk)
      · exact .inr hk
    | closed => exact h

/-- Giving up a place in a line of one's own does not depend on the number of the sender. -/
theorem anonymous_abandon (h : c.LinedBy sender) :
    (c.abandon sender).1.anonymous = (c.anonymous.abandon 0).1 := by
  have hpromised : 0 ∈ c.anonymous.promised ↔ sender ∈ c.promised := mem_map_alike h.promised
  simp only [abandon, hpromised]
  split
  · rw [anonymous_promise]
    simp only [anonymous, map_erase_alike h.promised]
  · simp only [anonymous, map_erase_alike h.waiting]

/-- Giving up a place leaves the line to the sender. -/
theorem linedBy_abandon (h : c.LinedBy sender) : (c.abandon sender).1.LinedBy sender := by
  unfold abandon
  split
  · refine linedBy_promise (h.mono fun k hk => .inl ?_)
    rcases List.mem_append.1 hk with hk | hk
    · exact List.mem_append_left _ (List.mem_of_mem_erase hk)
    · exact List.mem_append_right _ hk
  · refine h.mono fun k hk => .inl ?_
    rcases List.mem_append.1 hk with hk | hk
    · exact List.mem_append_left _ hk
    · exact List.mem_append_right _ (List.mem_of_mem_erase hk)

end Channel

namespace Dispatch

/-- The dispatch without numbers. -/
def anonymous (d : Dispatch) : Dispatch where
  dispatcher := d.dispatcher.anonymous
  feed := d.feed
  channel := d.channel.anonymous

/-- A step is seen without numbers as the step `masked`, and leaves the line to the sender. -/
structure Masks (sender : Nat) (step masked : Step) : Prop where
  after : step.after.anonymous = masked.after
  pace : step.pace = masked.pace
  line : step.after.channel.LinedBy sender

variable {d : Dispatch} {policy : SlowPolicy}

/-- A dispatcher with the line to itself gives up in the same way whatever its number. -/
theorem masks_giveUp (h : d.channel.LinedBy d.dispatcher.subscription.id) :
    Masks d.dispatcher.subscription.id d.giveUp d.anonymous.giveUp where
  after := congrArg (Dispatch.mk d.dispatcher.anonymous d.feed) (Channel.anonymous_abandon h)
  pace := rfl
  line := Channel.linedBy_abandon h

/-- A dispatcher with the line to itself offers an event in the same way whatever its number. -/
theorem masks_offerEvent (h : d.channel.LinedBy d.dispatcher.subscription.id) (event : Event) :
    Masks d.dispatcher.subscription.id (d.offerEvent event) (d.anonymous.offerEvent event) := by
  let item := d.dispatcher.subscription.itemOf event
  have hsend : d.anonymous.channel.trySend d.anonymous.dispatcher.subscription.id
      (d.anonymous.dispatcher.subscription.itemOf event) =
        (d.channel.trySend d.dispatcher.subscription.id item).anonymous :=
    (Channel.anonymous_trySend d.channel d.dispatcher.subscription.id item).symm
  have hline := Channel.linedBy_trySend h item
  simp only [offerEvent, hsend]
  cases hsending : d.channel.trySend d.dispatcher.subscription.id item with
  | sent c =>
    rw [hsending] at hline
    exact ⟨rfl, rfl, hline⟩
  | full c => exact ⟨rfl, rfl, h⟩
  | closed => exact ⟨rfl, rfl, h⟩

/-- A dispatcher with the line to itself reports a gap and offers an event in the same way
whatever its number. -/
theorem masks_offer (h : d.channel.LinedBy d.dispatcher.subscription.id) (event : Event) :
    Masks d.dispatcher.subscription.id (d.offer event) (d.anonymous.offer event) := by
  let report : Item := .error (.watchLagged d.dispatcher.missed)
  have hsend : d.anonymous.channel.trySend d.anonymous.dispatcher.subscription.id
      (.error (.watchLagged d.anonymous.dispatcher.missed)) =
        (d.channel.trySend d.dispatcher.subscription.id report).anonymous :=
    (Channel.anonymous_trySend d.channel d.dispatcher.subscription.id report).symm
  have hline := Channel.linedBy_trySend h report
  have hmissed : d.anonymous.dispatcher.missed = d.dispatcher.missed := rfl
  simp only [offer, hmissed]
  by_cases hnone : d.dispatcher.missed = 0
  · have hevent := masks_offerEvent h event
    simp only [hnone, if_true]
    exact ⟨hevent.after, hevent.pace, hevent.line⟩
  simp only [hnone, if_false]
  rw [← hmissed, hsend, hmissed]
  cases hsending : d.channel.trySend d.dispatcher.subscription.id report with
  | sent c =>
    rw [hsending] at hline
    have hevent := masks_offerEvent
      (d := { d with channel := c, dispatcher := { d.dispatcher with missed := 0 } }) hline event
    exact ⟨hevent.after, hevent.pace, hevent.line⟩
  | full c => exact ⟨rfl, rfl, h⟩
  | closed => exact ⟨rfl, rfl, h⟩

/-- A dispatcher with the line to itself reads in the same way whatever its number. -/
theorem masks_readOne (h : d.channel.LinedBy d.dispatcher.subscription.id) :
    Masks d.dispatcher.subscription.id (d.readOne policy) (d.anonymous.readOne policy) := by
  have hfeed : d.anonymous.feed = d.feed := rfl
  simp only [readOne, hfeed]
  cases d.feed.read with
  | nothingYet => exact ⟨rfl, rfl, h⟩
  | ended => exact ⟨rfl, rfl, h⟩
  | signal signal feed =>
    cases signal with
    | error e => exact ⟨rfl, rfl, h⟩
    | ok event =>
      have hstem : d.anonymous.dispatcher.subscription.stem = d.dispatcher.subscription.stem := rfl
      simp only [hstem]
      cases d.dispatcher.subscription.stem.beginsWith event.key with
      | false => exact ⟨rfl, rfl, h⟩
      | true =>
        cases policy with
        | block => exact ⟨rfl, rfl, h⟩
        | dropAndSignal =>
          have hoffer := masks_offer (d := { d with feed }) h event
          exact ⟨hoffer.after, hoffer.pace, hoffer.line⟩

/-- A dispatcher with the line to itself sends the event in its hand in the same way whatever its
number. -/
theorem masks_sendEvent (h : d.channel.LinedBy d.dispatcher.subscription.id) (event : Event) :
    Masks d.dispatcher.subscription.id (d.sendEvent event) (d.anonymous.sendEvent event) := by
  let item := d.dispatcher.subscription.itemOf event
  have hsend : d.anonymous.channel.send d.anonymous.dispatcher.subscription.id
      (d.anonymous.dispatcher.subscription.itemOf event) =
        (d.channel.send d.dispatcher.subscription.id item).anonymous :=
    (Channel.anonymous_send h item).symm
  have hline := Channel.linedBy_send h item
  simp only [sendEvent, hsend]
  cases hsending : d.channel.send d.dispatcher.subscription.id item with
  | sent c | full c =>
    rw [hsending] at hline
    exact ⟨rfl, rfl, hline⟩
  | closed => exact ⟨rfl, rfl, h⟩

/-- A step of a dispatcher that has not lost its feed is the same without numbers. -/
theorem masks_step (h : d.channel.LinedBy d.dispatcher.subscription.id)
    (hphase : d.dispatcher.phase.reports = false) (stop reportFirst : Bool) :
    Masks d.dispatcher.subscription.id (d.step policy stop reportFirst)
      (d.anonymous.step policy stop false) := by
  have hsame : d.anonymous.dispatcher.phase = d.dispatcher.phase := rfl
  simp only [step, hsame]
  cases hcase : d.dispatcher.phase with
  | starting => exact ⟨rfl, rfl, h⟩
  | reading =>
    cases stop with
    | true => exact masks_giveUp h
    | false => exact masks_readOne h
  | sending event =>
    cases stop with
    | true => exact masks_giveUp h
    | false => exact masks_sendEvent h event
  | reporting reason =>
    rw [hcase] at hphase
    cases hphase

end Dispatch

end KeyBroker
