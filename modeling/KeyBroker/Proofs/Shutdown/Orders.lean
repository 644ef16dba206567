import KeyBroker.Proofs.Register.Bookkeeping

/-!
# What callers ask of a broker

Callers begin their calls in the ways that the broker and its views offer, and on what
they got from earlier calls. Being told that the broker is closed is nothing that a call comes
to by itself: it needs a broker that was stopped.
-/

namespace KeyBroker

/-- What a caller asks for, through the broker or a view, or with a listing or a batch that it
got before. -/
inductive Order where
  | put (scope key : Key) (value : Bytes) (ttl : Option Duration)
  | get (scope key : Key)
  | delete (scope key : Key)
  | deletePrefix (scope stem : Key)
  | list (scope stem : Key) (keysOnly : Bool)
  | listAll (scope stem : Key) (keysOnly : Bool)
  /-- One step of an open listing. -/
  | next (listing : Listing)
  /-- All that an open listing still holds. -/
  | collect (listing : Listing)
  | commit (batch : Batch)
  | watch (scope stem : Key) (channel : Nat)
  | watchAll (scope : Key) (channel : Nat) (stems : List Key)

namespace Order

/-- How the call of an order begins. -/
def turn (s : System) : Order → Turn
  | .put scope key value ttl => Call.beginPut scope key value ttl
  | .get scope key => .ask (.get scope key)
  | .delete scope key => Call.beginDelete scope key
  | .deletePrefix scope stem => .ask (.deletePrefix scope stem)
  | .list scope stem keysOnly => Call.beginList s.settings scope stem keysOnly .list
  | .listAll scope stem keysOnly => Call.beginList s.settings scope stem keysOnly .listAll
  | .next listing => Call.beginNext listing
  | .collect listing => Call.continueDrain listing []
  | .commit batch => Call.beginCommit batch s.stopped
  | .watch scope stem channel => .ask (.watch scope stem channel)
  | .watchAll scope channel stems => Call.beginWatchAll scope channel stems

/-- Whether an order needs the broker to be open: writes need a key, a listing has to read a
page, and a batch must not be committed yet. -/
def needsBroker : Order → Bool
  | .put _ key _ _ | .delete _ key => !key.isEmpty
  | .next listing => listing.needsPage
  | .collect listing =>
    (Listing.revealAll listing.scope listing.buffer).2.isNone && listing.more
  | .commit batch => !batch.committed
  | .watchAll _ _ stems => !stems.isEmpty
  | _ => true

/-- Whether the machine has room for what an order sets up before anything else. -/
def fits (settings : Settings) : Order → Bool
  | .list .. | .listAll .. => pageBufferFits settings.pageSize
  | _ => true

end Order

/-! ### Errors of the broker itself -/

/-- Showing a key never tells that the broker is closed. -/
theorem Key.reveal_ne_closed (scope key : Key) : Key.reveal scope key ≠ .error .closed := by
  unfold Key.reveal
  split
  · nofun
  · split <;> nofun

/-- Showing a pair never tells that the broker is closed. -/
theorem KeyValue.reveal_ne_closed (scope : Key) (pair : KeyValue) :
    pair.reveal scope ≠ .error .closed := by
  have hkey := Key.reveal_ne_closed scope pair.key
  intro h
  unfold KeyValue.reveal at h
  cases hreveal : Key.reveal scope pair.key with
  | ok key =>
    rw [hreveal] at h
    cases h
  | error e =>
    rw [hreveal] at h hkey
    exact hkey (congrArg Except.error (Except.error.inj h))

/-- Showing pairs never tells that the broker is closed. -/
theorem Listing.revealAll_ne_closed (scope : Key) (pairs : List KeyValue) :
    (Listing.revealAll scope pairs).2 ≠ some .closed := by
  induction pairs with
  | nil => nofun
  | cons pair rest ih =>
    have hpair := pair.reveal_ne_closed scope
    simp only [Listing.revealAll]
    cases hreveal : pair.reveal scope with
    | error e =>
      rw [hreveal] at hpair
      exact fun h => hpair (congrArg Except.error (Option.some.inj h))
    | ok shown => exact ih

/-- Handing out a pair never tells that the broker is closed. -/
theorem Listing.take_ne_closed (listing : Listing) : listing.take.2 ≠ .error .closed := by
  unfold Listing.take
  cases listing.buffer with
  | nil => nofun
  | cons pair rest =>
    have hpair := pair.reveal_ne_closed listing.scope
    simp only
    cases hreveal : pair.reveal listing.scope with
    | ok shown => nofun
    | error e =>
      rw [hreveal] at hpair
      exact fun h => hpair (congrArg Except.error (Except.error.inj h))

/-- How a call goes on without having been told that the broker is closed. -/
inductive Turn.Open : Turn → Prop where
  | ask {call : Call} (ends : call.endsWithBroker = true) : Open (.ask call)
  | done {answer : Answer} (open' : answer.failure? ≠ some .closed) : Open (.done answer)

/-- Reading on in a listing never tells that the broker is closed. -/
theorem Call.open_continueDrain (listing : Listing) (taken : List KeyValue) :
    (Call.continueDrain listing taken).Open := by
  have hreveal := Listing.revealAll_ne_closed listing.scope listing.buffer
  unfold Call.continueDrain
  split
  · next shown failure heq =>
    rw [heq] at hreveal
    exact .done hreveal
  · simp only
    split
    · exact .ask rfl
    · exact .done nofun

/-- A step that needs no page never tells that the broker is closed. -/
theorem Call.open_stepped (listing : Listing) :
    (Turn.done (.stepped listing.take.1 listing.take.2)).Open := by
  have htake := listing.take_ne_closed
  refine .done fun h => ?_
  cases hresult : listing.take.2 with
  | ok pair =>
    rw [hresult] at h
    cases h
  | error e =>
    rw [hresult] at h htake
    exact htake (congrArg Except.error (Option.some.inj h))

/-- A call begins open, unless the broker was stopped. -/
theorem Order.turn_open (o : Order) (s : System) :
    (o.turn s).Open ∨
      s.stopped = true ∧ ∃ answer, o.turn s = .done answer ∧ answer.failure? = some .closed := by
  cases o with
  | put scope key value ttl =>
    refine .inl ?_
    simp only [turn, Call.beginPut]
    split
    · exact .done nofun
    · exact .ask rfl
  | delete scope key =>
    refine .inl ?_
    simp only [turn, Call.beginDelete]
    split
    · exact .done nofun
    · exact .ask rfl
  | list scope stem keysOnly | listAll scope stem keysOnly =>
    refine .inl ?_
    simp only [turn, Call.beginList]
    split
    · exact .ask rfl
    · exact .done nofun
  | next listing =>
    refine .inl ?_
    simp only [turn, Call.beginNext]
    split
    · exact .ask rfl
    · exact Call.open_stepped listing
  | collect listing => exact .inl (Call.open_continueDrain listing [])
  -- a commit checks in order: committed before, broker stopped, empty key, empty batch
  | commit batch =>
    simp only [turn, Call.beginCommit, Batch.commit]
    split
    · next heq =>
      split at heq
      · cases heq
        exact .inl (.done nofun)
      · split at heq
        · next hstopped =>
          cases heq
          exact .inr ⟨hstopped, _, rfl, rfl⟩
        · split at heq
          · cases heq
            exact .inl (.done nofun)
          · split at heq
            · cases heq
              exact .inl (.done nofun)
            · cases heq
    · exact .inl (.ask rfl)
  | watchAll scope channel stems =>
    refine .inl ?_
    cases stems with
    | nil => exact .done nofun
    | cons stem rest => exact .ask rfl
  | _ => exact .inl (.ask rfl)

/-- Without room, an order stops before it asks anything of the broker. -/
theorem Order.turn_of_not_fits {o : Order} {s : System} (hfits : o.fits s.settings = false) :
    o.turn s = .done (.aborted .pageBuffer) := by
  cases o with
  | list scope stem keysOnly | listAll scope stem keysOnly =>
    have hbuffer : pageBufferFits s.settings.pageSize = false := hfits
    simp [turn, Call.beginList, hbuffer]
  | _ => cases hfits

/-- On a stopped broker, an order that needs the broker gets nowhere by itself. -/
theorem Order.turn_of_stopped {o : Order} {s : System} (hstopped : s.stopped = true)
    (hneeds : o.needsBroker = true) (hfits : o.fits s.settings = true) :
    (∃ call, o.turn s = .ask call ∧ call.endsWithBroker = true) ∨
      ∃ answer, o.turn s = .done answer ∧ answer.failure? = some .closed := by
  cases o with
  | put scope key value ttl =>
    have hkey : key.isEmpty = false := by simpa [needsBroker] using hneeds
    simp [turn, Call.beginPut, hkey, Call.endsWithBroker]
  | delete scope key =>
    have hkey : key.isEmpty = false := by simpa [needsBroker] using hneeds
    simp [turn, Call.beginDelete, hkey, Call.endsWithBroker]
  | list scope stem keysOnly | listAll scope stem keysOnly =>
    have hbuffer : pageBufferFits s.settings.pageSize = true := hfits
    simp [turn, Call.beginList, hbuffer, Call.endsWithBroker]
  | next listing =>
    have hpage : listing.needsPage = true := hneeds
    simp [turn, Call.beginNext, hpage, Call.endsWithBroker]
  | collect listing =>
    have hpage := Bool.and_eq_true_iff.1 hneeds
    obtain ⟨shown, failure, hshown⟩ :
        ∃ shown failure, Listing.revealAll listing.scope listing.buffer = (shown, failure) :=
      ⟨_, _, rfl⟩
    rw [hshown] at hpage
    have hnone : failure = none := by simpa using hpage.1
    subst hnone
    simp [turn, Call.continueDrain, hshown, hpage.2, Call.endsWithBroker]
  | commit batch =>
    have hfirst : batch.committed = false := by simpa [needsBroker] using hneeds
    refine .inr ⟨.committed { batch with committed := true } (.error .closed), ?_, rfl⟩
    simp [turn, Call.beginCommit, Batch.commit, hfirst, hstopped]
  | watchAll scope channel stems =>
    cases stems with
    | nil => cases hneeds
    | cons stem rest => exact .inl ⟨_, rfl, rfl⟩
  | _ => exact .inl ⟨_, rfl, rfl⟩

end KeyBroker
