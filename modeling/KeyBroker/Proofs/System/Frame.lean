import KeyBroker.Proofs.System.Calls

/-!
# What no poll changes

A poll leaves alone the settings of a system, its clock and, except for lines taken off it,
the script of its store; a system that has been stopped stays so.
-/

namespace KeyBroker

/-- What a system goes by. -/
structure Frame where
  settings : Settings
  now : Nat
  script : Script

/-- The frame of a system. -/
def System.frame (s : System) : Frame where
  settings := s.settings
  now := s.now
  script := s.script

namespace System

variable {s : System}

/-! ### The frame -/

/-- Waking a worker leaves the frame alone. -/
theorem frame_wake (s : System) (worker : Worker) : (s.wake worker).frame = s.frame := by
  unfold wake
  split <;> rfl

/-- Waking workers leaves the frame alone. -/
theorem frame_wakeAll (s : System) (workers : List Worker) :
    (s.wakeAll workers).frame = s.frame := by
  induction workers generalizing s with
  | nil => rfl
  | cons worker rest ih => rw [wakeAll, ih, frame_wake]

/-- Lines of the log leave the frame alone. -/
theorem frame_noteAll (s : System) (notices : List Notice) :
    (s.noteAll notices).frame = s.frame := by
  induction notices generalizing s with
  | nil => rfl
  | cons notice rest ih => exact ih (s.note notice)

/-- Observed facts leave the frame alone. -/
theorem frame_observeAll (s : System) (observations : List Observation) :
    (s.observeAll observations).frame = s.frame := by
  induction observations generalizing s with
  | nil => rfl
  | cons observation rest ih => exact ih (s.observe observation)

/-- Letting go of the broker leaves the frame alone. -/
theorem frame_release (s : System) : s.release.frame = s.frame := by
  simp only [release]
  split
  · unfold stop
    split
    · rfl
    · exact frame_wakeAll _ _
  · rfl

/-- Unsubscribing leaves the frame alone. -/
theorem frame_unsubscribe (s : System) (id : Nat) : (s.unsubscribe id).frame = s.frame := by
  unfold unsubscribe
  split
  · exact frame_wake _ _
  · rfl

/-- Unsubscribing several subscriptions leaves the frame alone. -/
theorem frame_unsubscribeAll (s : System) (ids : List Nat) :
    (s.unsubscribeAll ids).frame = s.frame := by
  induction ids generalizing s with
  | nil => rfl
  | cons id rest ih => rw [unsubscribeAll, ih, frame_unsubscribe]

/-- Launching a call leaves the frame alone. -/
theorem frame_launch (s : System) (turn : Turn) (holdsBroker : Bool) :
    (s.launch turn holdsBroker).1.frame = s.frame := by
  cases turn with
  | ask call => exact frame_wake _ _
  | done answer => exact frame_noteAll { s with nextCall := s.nextCall + 1 } answer.notices

/-- What a call does with its reply leaves the frame alone. -/
theorem frame_answered (s : System) (call : Call) (reply : Except Error call.service.Reply) :
    (s.answered call reply).1.frame = s.frame := by
  cases call with
  | watch scope stem channel =>
    cases reply with
    | ok feed => exact frame_wake _ _
    | error e => rfl
  | watchAll scope channel held stem rest =>
    cases reply with
    | ok feed => cases rest <;> exact frame_wake _ _
    | error e => exact frame_unsubscribeAll s _
  | listAll | next | drain => cases reply <;> rfl
  | _ => rfl

/-- The end of a call leaves the frame alone. -/
theorem frame_finish (s : System) (c : InFlight) (answer : Answer) :
    (s.finish c answer).frame = s.frame := by
  have hnotes := frame_noteAll s answer.notices
  simp only [finish]
  split
  · rw [frame_release]
    exact hnotes
  · exact hnotes

/-- The reply to a call leaves the frame alone. -/
theorem frame_conclude (s : System) (c : InFlight) (reply : Except Error c.call.service.Reply) :
    (s.conclude c reply).frame = s.frame := by
  have hanswered := frame_answered s c.call reply
  simp only [conclude]
  cases (s.answered c.call reply).2 with
  | ask call => exact hanswered
  | done answer => exact (frame_finish _ c answer).trans hanswered

/-- A request to the store, with all that comes of it, leaves the frame alone. -/
theorem frame_act (s : System) (c : InFlight) (started : Nat) :
    (s.act c started).frame = s.frame := by
  let served := s.store.serve (s.now * Duration.millisecond) c.call.request
  have hwoken : ({ s with store := served.store }.wakeReaders served.reached).frame = s.frame :=
    frame_wakeAll _ _
  refine Eq.trans ?_ hwoken
  simp only [act]
  generalize { s with store := served.store }.wakeReaders served.reached = next
  cases served.outcome with
  | ok reply => exact frame_conclude _ c _
  | failed error => exact frame_conclude _ c _
  | aborted why => exact frame_finish _ c _

/-- A poll of a dispatcher leaves the frame alone. -/
theorem frame_pollDispatcher (s : System) (id : Nat) (reportFirst : Bool) :
    (s.pollDispatcher id reportFirst).frame = s.frame := by
  cases hfind : s.dispatcher? id with
  | none => simp only [pollDispatcher, hfind]
  | some d =>
    by_cases hcredit : d.credit = 0
    · simp only [pollDispatcher, hfind, if_pos hcredit]
      rfl
    have hafter : (s.afterStep d (s.wiring.stepOf d reportFirst)).frame = s.frame := by
      simp only [afterStep, frame_wakeAll, frame_observeAll, frame_noteAll]
      rfl
    rw [pollDispatcher_of_credit hfind hcredit]
    simp only
    cases (s.wiring.stepOf d reportFirst).pace <;> exact hafter

/-- Receiving an item leaves the frame alone. -/
theorem frame_receive (s : System) (n : Nat) : (s.receive n).1.frame = s.frame := by
  simp only [receive]
  split
  · exact frame_wakeAll _ _
  · rfl

/-- Making a channel leaves the frame alone. -/
theorem frame_openChannel (s : System) (capacity : Nat) (held : Bool) :
    (s.move (.openChannel capacity held)).frame = s.frame := by
  simp only [move, openChannel]
  split <;> rfl

/-- Taking an answer away changes nothing else. -/
theorem move_take (s : System) (n : Nat) :
    (s.move (.take n)).frame = s.frame ∧ (s.move (.take n)).wiring = s.wiring ∧
      (s.move (.take n)).calls = s.calls := by
  simp only [move, takeAnswer]
  cases s.finished.find? _ <;> exact ⟨rfl, rfl, rfl⟩

end System

/-- What was stopped stays stopped. -/
theorem Wiring.Change.stopped {w w' : Wiring} {hs : List Happening} (h : Wiring.Change w hs w')
    (hstopped : w.stopped = true) : w'.stopped = true := by
  cases h with
  | stop => rfl
  | unsubscribe id =>
    unfold Wiring.unsubscribe
    split <;> exact hstopped
  | dispatch d reportFirst works =>
    simp only [Wiring.dispatch]
    split <;> exact hstopped
  | _ => exact hstopped

/-- No change of the wiring has a stopped broker run again. -/
theorem Wiring.Changes.stopped {w w' : Wiring} {hs : List Happening} (h : Wiring.Changes w hs w')
    (hstopped : w.stopped = true) : w'.stopped = true := by
  induction h with
  | nil => exact hstopped
  | cons first _ ih => exact ih (first.stopped hstopped)

end KeyBroker
