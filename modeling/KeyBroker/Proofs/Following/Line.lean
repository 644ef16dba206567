import KeyBroker.Proofs.Delivery.Dropping

/-!
# The line before a full channel

Senders only stand in line while a channel has no room, because room that becomes free goes
to the first of them. A receiver that has gone away does not come back. Nothing that anybody
does to a channel changes either.
-/

namespace KeyBroker

namespace Channel

/-- Nobody stands in line while there is room. -/
def Tight (c : Channel) : Prop := c.waiting ≠ [] → c.room = 0

/-- What is done to a channel forms no line while there is room, and brings no receiver
back. -/
structure Tended (c c' : Channel) : Prop where
  tight : c.Tight → c'.Tight
  received : c'.received = true → c.received = true

variable {c c' c'' : Channel} {sender : Nat} {item : Item}

/-- A channel left alone was tended. -/
theorem Tended.refl (c : Channel) : c.Tended c := ⟨id, id⟩

/-- A channel tended twice was tended. -/
theorem Tended.trans (h : c.Tended c') (h' : c'.Tended c'') : c.Tended c'' :=
  ⟨fun htight => h'.tight (h.tight htight), fun hreceived => h.received (h'.received hreceived)⟩

/-- A new channel has nobody in line. -/
theorem tight_new (capacity : Nat) (held : Bool) : Tight { capacity, held } := fun h => absurd rfl h

/-- Room that is promised in the place of an item is taken as it was. -/
theorem tight_promise (htight : c.Tight)
    (hsame : c'.waiting = c.waiting ∧ c'.capacity = c.capacity)
    (hfreed : c'.items.length + c'.promised.length + 1 = c.items.length + c.promised.length) :
    c'.promise.1.Tight := by
  intro hline
  unfold promise at hline ⊢
  cases hwaiting : c'.waiting with
  | nil =>
    rw [hwaiting] at hline
    exact absurd hwaiting hline
  | cons first rest =>
    have hfull := htight (by rw [← hsame.1, hwaiting]; exact List.cons_ne_nil _ _)
    simp only [room, List.length_append, List.length_singleton, hsame.2] at hfull ⊢
    omega

/-- A promise of room brings no receiver and takes none away. -/
theorem received_promise (c : Channel) : c.promise.1.received = c.received := by
  unfold promise
  split <;> rfl

/-- Giving up a place in line tends the channel, as its room goes to the next. -/
theorem tended_abandon (c : Channel) (sender : Nat) : c.Tended (c.abandon sender).1 := by
  unfold abandon
  split
  · next hpromised =>
    refine ⟨fun htight => tight_promise htight ⟨rfl, rfl⟩ ?_, fun h => ?_⟩
    · have hlength := List.length_erase_of_mem hpromised
      have hpos := List.length_pos_of_mem hpromised
      simp only [hlength]
      omega
    · rwa [received_promise] at h
  · refine ⟨fun htight hline => htight fun hnone => hline ?_, id⟩
    simp [hnone]

/-- An item takes free room. -/
theorem tended_trySend {c' : Channel} (h : c.trySend sender item = .sent c') : c.Tended c' := by
  unfold trySend at h
  split at h
  · cases h
  split at h
  · obtain rfl := Sending.sent.inj h
    refine ⟨fun htight hline => ?_, id⟩
    have hfull := htight hline
    simp only [room, List.length_append] at hfull ⊢
    omega
  · cases h

/-- Sending without a place in line finds the channel full only if there is no room, and leaves it
alone. -/
theorem full_trySend {c' : Channel} (h : c.trySend sender item = .full c') :
    c' = c ∧ c.room = 0 := by
  unfold trySend at h
  split at h
  · cases h
  split at h
  · cases h
  · next hroom => exact ⟨(Sending.full.inj h).symm, by omega⟩

/-- Sending if there is room tends the channel. -/
theorem tended_left_trySend (c : Channel) (sender : Nat) (item : Item) :
    c.Tended ((c.trySend sender item).left c) := by
  cases h : c.trySend sender item with
  | sent c' => exact tended_trySend h
  | full c' =>
    obtain ⟨rfl, _⟩ := full_trySend h
    exact .refl c'
  | closed => exact .refl c

/-- A sender goes into line only when there is no room. -/
theorem tended_left_send (c : Channel) (sender : Nat) (item : Item) :
    c.Tended ((c.send sender item).left c) := by
  unfold send
  split
  · exact .refl c
  split
  · next hpromised =>
    refine ⟨fun htight hline => ?_, id⟩
    have hfull := htight hline
    have hlength := List.length_erase_of_mem hpromised
    simp only [Sending.left, room, List.length_append, List.length_singleton, hlength] at hfull ⊢
    omega
  split
  · exact .refl c
  · cases h : c.trySend sender item with
    | sent c' => exact tended_trySend h
    | full c' =>
      obtain ⟨rfl, hroom⟩ := full_trySend h
      exact ⟨fun _ _ => hroom, id⟩
    | closed => exact .refl c

/-- Receiving an item frees its room for the first in line. -/
theorem tended_receive {first : Nat × Item} {rest : List (Nat × Item)}
    (hitems : c.items = first :: rest) : c.Tended { c with items := rest }.promise.1 := by
  refine ⟨fun htight => tight_promise htight ⟨rfl, rfl⟩ ?_, fun h => ?_⟩
  · simp only [hitems, List.length_cons]
    omega
  · rwa [received_promise] at h

/-- Closing a channel tends it. -/
theorem tended_close (c : Channel) : c.Tended c.close := ⟨fun _ h => absurd rfl h, nofun⟩

end Channel

namespace Dispatch

variable {d : Dispatch}

/-- Offering an event tends the channel. -/
theorem tended_offerEvent (d : Dispatch) (event : Event) :
    d.channel.Tended (d.offerEvent event).after.channel := by
  simp only [offerEvent]
  split
  · next h => exact Channel.tended_trySend h
  · exact .refl _
  · exact .refl _

/-- Offering an event behind the report of a gap tends the channel. -/
theorem tended_offer (d : Dispatch) (event : Event) :
    d.channel.Tended (d.offer event).after.channel := by
  simp only [offer]
  split
  · exact tended_offerEvent d event
  · split
    · next channel h =>
      exact (Channel.tended_trySend h).trans (tended_offerEvent
        { d with channel, dispatcher := { d.dispatcher with missed := 0 } } event)
    · exact .refl _
    · exact .refl _

/-- Reading tends the channel under either policy. -/
theorem tended_readOne (d : Dispatch) (policy : SlowPolicy) :
    d.channel.Tended (d.readOne policy).after.channel := by
  unfold readOne
  split
  · exact .refl _
  · exact .refl _
  · exact .refl _
  · next event feed _ =>
    simp only
    split
    · cases policy with
      | block => exact .refl _
      | dropAndSignal => exact tended_offer { d with feed } event
    · exact .refl _

/-- Sending the event in hand tends the channel. -/
theorem tended_sendEvent (d : Dispatch) (event : Event) :
    d.channel.Tended (d.sendEvent event).after.channel := by
  have hleft := Channel.tended_left_send d.channel d.dispatcher.subscription.id
    (d.dispatcher.subscription.itemOf event)
  simp only [sendEvent]
  cases hsend : d.channel.send d.dispatcher.subscription.id
    (d.dispatcher.subscription.itemOf event) <;> rw [hsend] at hleft <;> exact hleft

/-- Sending the report of a lost feed tends the channel. -/
theorem tended_sendReport (d : Dispatch) (reason : String) :
    d.channel.Tended (d.sendReport reason).after.channel := by
  have hleft := Channel.tended_left_send d.channel d.dispatcher.subscription.id
    (.error (.watchStreamBroken d.dispatcher.subscription.localStem reason))
  simp only [sendReport]
  cases hsend : d.channel.send d.dispatcher.subscription.id
    (.error (.watchStreamBroken d.dispatcher.subscription.localStem reason)) <;>
    rw [hsend] at hleft <;> exact hleft

/-- So it is with everything that a dispatcher does. -/
theorem tended_step (d : Dispatch) (policy : SlowPolicy) (stop reportFirst : Bool) :
    d.channel.Tended (d.step policy stop reportFirst).after.channel := by
  have hgiveUp : d.channel.Tended d.giveUp.after.channel :=
    Channel.tended_abandon d.channel d.dispatcher.subscription.id
  unfold step
  split
  · exact .refl _
  · split
    · exact hgiveUp
    · exact tended_readOne d policy
  · next event _ =>
    split
    · exact hgiveUp
    · exact tended_sendEvent d event
  · next reason _ =>
    split
    · exact hgiveUp
    simp only
    split
    · exact hgiveUp
    · exact tended_sendReport d reason

end Dispatch

end KeyBroker
