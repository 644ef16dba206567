import KeyBroker.Proofs.System.Polls

/-!
# Dispatchers that are not polled

Nothing but its own polls brings a dispatcher on: through any other move it keeps its
subscription, its phase and its count of dropped events, and at most it is told to
stop. New dispatchers have done nothing yet.
-/

namespace KeyBroker

/-- The dispatcher is where the other one was. -/
structure Dispatcher.Resembles (d' d : Dispatcher) : Prop where
  subscription : d'.subscription = d.subscription
  phase : d'.phase = d.phase
  missed : d'.missed = d.missed

/-- The dispatcher of a new subscription has done nothing. -/
structure Dispatcher.Fresh (d : Dispatcher) (next : Nat) : Prop where
  number : next ≤ d.subscription.id
  phase : d.phase = .starting
  missed : d.missed = 0

/-- From one wiring to the next no dispatcher has been brought on. -/
structure Wiring.Retains (w w' : Wiring) : Prop where
  policy : w'.policy = w.policy
  next : w.nextSubscription ≤ w'.nextSubscription
  dispatchers : ∀ d' ∈ w'.dispatchers,
    (∃ d ∈ w.dispatchers, d'.Resembles d) ∨ d'.Fresh w.nextSubscription

namespace Wiring.Retains

variable {w w' w'' : Wiring}

/-- With the same dispatchers no dispatcher has been brought on. -/
theorem of_same (hpolicy : w'.policy = w.policy)
    (hnext : w'.nextSubscription = w.nextSubscription) (hsame : w'.dispatchers = w.dispatchers) :
    w.Retains w' where
  policy := hpolicy
  next := Nat.le_of_eq hnext.symm
  dispatchers d hd := .inl ⟨d, hsame ▸ hd, rfl, rfl, rfl⟩

/-- A wiring left alone has brought no dispatcher on. -/
theorem refl (w : Wiring) : w.Retains w := of_same rfl rfl rfl

/-- The same wiring has brought no dispatcher on. -/
theorem of_eq (h : w' = w) : w.Retains w' := h ▸ refl w

/-- Dispatchers that were not brought on in two parts were not brought on in both together. -/
theorem trans (h : w.Retains w') (h' : w'.Retains w'') : w.Retains w'' where
  policy := h'.policy.trans h.policy
  next := Nat.le_trans h.next h'.next
  dispatchers := by
    intro d'' hd''
    have hnext := h.next
    rcases h'.dispatchers d'' hd'' with ⟨d', hd', hlike⟩ | hfresh
    · rcases h.dispatchers d' hd' with ⟨d, hd, hbefore⟩ | hfresh
      · left
        refine ⟨d, hd, ?_, ?_, ?_⟩
        · rw [hlike.subscription, hbefore.subscription]
        · rw [hlike.phase, hbefore.phase]
        · rw [hlike.missed, hbefore.missed]
      · right
        constructor
        · rw [hlike.subscription]
          exact hfresh.number
        · rw [hlike.phase, hfresh.phase]
        · rw [hlike.missed, hfresh.missed]
    · right
      have hnumber := hfresh.number
      exact ⟨by omega, hfresh.phase, hfresh.missed⟩

/-- Unsubscribing tells a dispatcher to stop and brings none on. -/
theorem unsubscribe (w : Wiring) (id : Nat) : w.Retains (w.unsubscribe id) := by
  unfold Wiring.unsubscribe
  split
  · refine ⟨rfl, Nat.le_refl _, fun d' hd' => ?_⟩
    obtain ⟨d, hd, rfl⟩ := List.mem_map.1 hd'
    left
    refine ⟨d, hd, ?_⟩
    split <;> exact ⟨rfl, rfl, rfl⟩
  · exact refl w

/-- A registration adds a fresh dispatcher and brings no other on. -/
theorem register (w : Wiring) (scope localStem : Key) (channel feed : Nat) :
    w.Retains (w.register scope localStem channel feed) := by
  refine ⟨rfl, Nat.le_succ _, fun d' hd' => ?_⟩
  rcases List.mem_append.1 hd' with hold | hnew
  · exact .inl ⟨d', hold, rfl, rfl, rfl⟩
  · rw [List.mem_singleton.1 hnew]
    exact .inr ⟨Nat.le_refl _, rfl, rfl⟩

end Wiring.Retains

namespace System

open Wiring (Retains)

variable {s : System}

/-! ### Calls -/

/-- Stopping the broker brings no dispatcher on. -/
theorem retains_stop (s : System) : Retains s.wiring s.stop.wiring := by
  rw [wiring_stop]
  exact .of_same rfl rfl rfl

/-- Letting go of the broker brings no dispatcher on, even if that stops it. -/
theorem retains_release (s : System) : Retains s.wiring s.release.wiring := by
  simp only [release]
  split
  · exact retains_stop ({ s with holders := s.holders - 1 }.note .brokerDropped)
  · exact .refl _

/-- Unsubscribing several subscriptions brings no dispatcher on. -/
theorem retains_unsubscribeAll (s : System) (ids : List Nat) :
    Retains s.wiring (s.unsubscribeAll ids).wiring := by
  induction ids generalizing s with
  | nil => exact .refl _
  | cons id rest ih =>
    have hfirst := Retains.unsubscribe s.wiring id
    rw [← wiring_unsubscribe] at hfirst
    exact hfirst.trans (ih (s.unsubscribe id))

/-- A registration made for a call brings no dispatcher on. -/
theorem retains_register (s : System) (scope localStem : Key) (channel feed : Nat) :
    Retains s.wiring (s.register scope localStem channel feed).1.wiring := by
  rw [wiring_register]
  exact .register _ _ _ _ _

/-- The end of a call brings no dispatcher on, even if it gives subscriptions back. -/
theorem retains_finish (s : System) (c : InFlight) (answer : Answer) :
    Retains s.wiring (s.finish c answer).wiring := by
  have hnotes : Retains s.wiring (s.noteAll answer.notices).wiring :=
    .of_eq (wiring_noteAll s answer.notices)
  simp only [finish]
  split
  · exact hnotes.trans (retains_release { s.noteAll answer.notices with
      calls := (s.noteAll answer.notices).calls.filter fun other => other.id ≠ c.id
      finished := (s.noteAll answer.notices).finished ++ [(c.id, answer)] })
  · exact hnotes

/-- What a call does with its reply brings no dispatcher on. -/
theorem retains_answered (s : System) (call : Call) (reply : Except Error call.service.Reply) :
    Retains s.wiring (s.answered call reply).1.wiring := by
  cases call with
  | watch scope stem channel =>
    cases reply with
    | ok feed => exact retains_register s scope stem channel feed
    | error e => exact .refl _
  | watchAll scope channel held stem rest =>
    cases reply with
    | ok feed =>
      have hregister := retains_register s scope stem channel feed
      cases rest <;> exact hregister
    | error e => exact retains_unsubscribeAll s _
  | listAll listing => cases reply <;> exact .refl _
  | next listing => cases reply <;> exact .refl _
  | drain listing taken => cases reply <;> exact .refl _
  | _ => exact .refl _

/-- The reply to a call, with all that comes of it, brings no dispatcher on. -/
theorem retains_conclude (s : System) (c : InFlight) (reply : Except Error c.call.service.Reply) :
    Retains s.wiring (s.conclude c reply).wiring := by
  have hanswered := retains_answered s c.call reply
  simp only [conclude]
  cases (s.answered c.call reply).2 with
  | ask call => exact hanswered
  | done answer => exact hanswered.trans (retains_finish _ c answer)

/-- The outcome of a request, with all that comes of it, brings no dispatcher on. -/
theorem retains_settle (s : System) (c : InFlight) (started : Nat)
    (outcome : Outcome c.call.service.Reply) :
    Retains s.wiring (s.settle c started outcome).wiring := by
  cases outcome with
  | ok reply => exact retains_conclude (s.answeredWell c.call.service started) c (.ok reply)
  | failed error =>
    exact retains_conclude
      (((s.observe (.served c.call.service false)).note (c.call.service.failure error).2).observe
        (.lasted c.call.service (s.now - started))) c (.error (c.call.service.failure error).1)
  | aborted why =>
    exact retains_finish (s.observe (.lasted c.call.service (s.now - started))) c (.aborted why)

/-- A request to the store, with all that comes of it, brings no dispatcher on. -/
theorem retains_act (s : System) (c : InFlight) (started : Nat) :
    Retains s.wiring (s.act c started).wiring := by
  let served := s.store.serve s.instant c.call.request
  let next : System := { s with store := served.store }.wakeReaders served.reached
  have hnext : next.wiring = { s.wiring with store := served.store } := wiring_wakeReaders _ _
  have hsettle := retains_settle next c started served.outcome
  rw [hnext] at hsettle
  have hbefore : Retains s.wiring { s.wiring with store := served.store } := .of_same rfl rfl rfl
  exact hbefore.trans hsettle

/-- A poll of a call brings no dispatcher on. -/
theorem retains_pollCall (hgenuine : s.wiring.Genuine) (id : Nat) :
    Retains s.wiring (s.pollCall id).wiring := by
  cases hfind : s.calls.find? fun c => decide (c.id = id) with
  | none =>
    simp only [pollCall, hfind]
    exact .refl _
  | some c =>
    have hpolled := polled_pollCall hgenuine hfind
    generalize s.pollCall id = s' at hpolled
    cases hpolled with
    | idle _ => exact .refl _
    | waits script _ due _ => exact .of_same rfl rfl rfl
    | fails script _ journal error _ =>
      have hbefore : Retains s.wiring (System.wiring { s with script, journal }) :=
        .of_same rfl rfl rfl
      exact hbefore.trans (retains_conclude { s with script, journal } c (.error error))
    | acts script _ started _ =>
      have hbefore : Retains s.wiring (System.wiring { s with script }) := .of_same rfl rfl rfl
      exact hbefore.trans (retains_act { s with script } c started)

/-! ### Moves -/

/-- Every move but the poll of a dispatcher leaves the dispatchers where they were. -/
theorem retains_move (hgenuine : s.wiring.Genuine) {m : Move}
    (hother : ∀ id reportFirst, m ≠ .poll (.dispatcher id) reportFirst) :
    Retains s.wiring (s.move m).wiring := by
  cases m with
  | poll worker reportFirst =>
    cases worker with
    | call id => exact retains_pollCall hgenuine id
    | dispatcher id => exact absurd rfl (hother id reportFirst)
  | launch turn holdsBroker => exact .of_eq (wiring_launch s turn holdsBroker)
  | take call =>
    simp only [move, takeAnswer]
    -- whether there was an answer to take or not, the dispatchers are the same
    cases s.finished.find? _ <;> exact .refl _
  | close holdsBroker =>
    simp only [move, wiring_launch, beginClose]
    split
    · exact .refl _
    · exact retains_stop { s with closing := true }
  | release => exact retains_release s
  | note notices => exact .of_eq (wiring_noteAll s notices)
  | ask request =>
    simp only [move, wiring_serveDirectly]
    exact .of_same rfl rfl rfl
  | setAvailable available =>
    simp only [move, wiring_setAvailable]
    exact .of_same rfl rfl rfl
  | openChannel capacity held =>
    simp only [move, openChannel]
    split <;> exact .of_same rfl rfl rfl
  | receive n =>
    simp only [move, receive]
    split
    · simp only [wiring_wakeAll]
      exact .of_same rfl rfl rfl
    · exact .refl _
  | dropReceiver n =>
    simp only [move, dropReceiver, wiring_wakeAll]
    exact .of_same rfl rfl rfl
  | unsubscribe id =>
    simp only [move, wiring_unsubscribe]
    exact .unsubscribe s.wiring id
  | readFeed n =>
    simp only [move]
    split <;> exact .of_same rfl rfl rfl
  | leaveFeed n =>
    simp only [move]
    split <;> exact .of_same rfl rfl rfl
  | _ => exact .of_same rfl rfl rfl

end System

end KeyBroker
