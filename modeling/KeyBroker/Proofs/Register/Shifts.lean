import KeyBroker.Proofs.Register.Episodes
import KeyBroker.Proofs.System.Calls

/-!
# How the register comes to change

The register changes in few ways: a subscription is entered, taken off, or found to have
ended by its dispatcher, and the broker is stopped. Each of them comes with the episode that
callers, senders and receivers see. Whatever else happens goes on around the register.
-/

namespace KeyBroker

namespace Channel

/-- Items are taken from the front of a channel, and `allowed` ones are added behind. -/
def Flows (allowed : Nat × Item → Prop) (c c' : Channel) : Prop :=
  ∃ kept added, kept <:+ c.items ∧ c'.items = kept ++ added ∧ ∀ e ∈ added, allowed e

variable {allowed : Nat × Item → Prop} {c c' c'' : Channel}

/-- A channel with the same items flows, with nothing taken and nothing added. -/
theorem Flows.of_same (h : c'.items = c.items) : Flows allowed c c' :=
  ⟨c.items, [], List.suffix_refl _, by rw [h, List.append_nil], nofun⟩

/-- What flows under a narrow rule flows under a wider one. -/
theorem Flows.mono {more : Nat × Item → Prop} (h : Flows allowed c c')
    (hmore : ∀ e, allowed e → more e) : Flows more c c' := by
  obtain ⟨kept, added, hkept, hitems, hadded⟩ := h
  exact ⟨kept, added, hkept, hitems, fun e he => hmore e (hadded e he)⟩

/-- What flows twice flows. -/
theorem Flows.trans (h : Flows allowed c c') (h' : Flows allowed c' c'') :
    Flows allowed c c'' := by
  obtain ⟨kept, added, hkept, hitems, hadded⟩ := h
  obtain ⟨still, more, ⟨taken, htaken⟩, hitems', hmore⟩ := h'
  rw [hitems] at htaken
  rcases List.append_eq_append_iff.1 htaken with ⟨left, hleft, hstill⟩ | ⟨left, hleft, hstill⟩
  · -- only items that were there before are taken
    refine ⟨left, added ++ more, ?_, ?_, ?_⟩
    · rw [hleft] at hkept
      exact (List.suffix_append taken left).trans hkept
    · rw [hitems', hstill, List.append_assoc]
    · intro e he
      exact (List.mem_append.1 he).elim (hadded e) (hmore e)
  · refine ⟨[], still ++ more, List.nil_suffix, ?_, ?_⟩
    · rw [hitems', List.nil_append]
    · intro e he
      rcases List.mem_append.1 he with he | he
      · exact hadded e (hstill ▸ List.mem_append_right left he)
      · exact hmore e he

end Channel

/-- The wiring of a system, the number of dispatchers that the journal counts, and whether
closing was asked for. -/
structure Books where
  wiring : Wiring
  running : Int
  closing : Bool

/-- The books of a system. -/
def System.books (s : System) : Books where
  wiring := s.wiring
  running := (s.journal.count .dispatchBegun : Int) - s.journal.count .dispatchEnded
  closing := s.closing

namespace Books

/-- By how much a step of a dispatcher changes the number of those that are counted. -/
def counted (step : Dispatch.Step) (phase : Phase) : Int :=
  (if phase = .starting then 1 else 0) - if step.pace = .over then 1 else 0

/-- The register and the dispatchers stay as they are; items may be taken from channels, and
others may send on them. -/
structure Beside (b b' : Books) : Prop where
  stopped : b'.wiring.stopped = b.wiring.stopped
  next : b'.wiring.nextSubscription = b.wiring.nextSubscription
  registered : b'.wiring.registered = b.wiring.registered
  dispatchers : b'.wiring.dispatchers = b.wiring.dispatchers
  running : b'.running = b.running
  closing : b'.closing = b.closing
  items : ∀ n, Channel.Flows (·.1 = outsider) (b.wiring.channel n) (b'.wiring.channel n)

/-- The books after a step of a dispatcher. -/
def dispatch (b : Books) (d : Dispatcher) (reportFirst : Bool) : Books where
  wiring := b.wiring.dispatch d reportFirst
  running := b.running + counted (b.wiring.stepOf d reportFirst) d.phase
  closing := b.closing

/-- One change of the books that no dispatcher makes, with the episodes that come with it. -/
inductive Shift : Books → List Episode → Books → Prop where
  | around {b b' : Books} (beside : b.Beside b') : Shift b [] b'
  | register (b : Books) (scope localStem : Key) (channel feed : Nat) :
    Shift b [.opened b.wiring.nextSubscription]
      { b with wiring := b.wiring.register scope localStem channel feed }
  | unsubscribe (b : Books) (id : Nat) :
    Shift b [.unsubscribed id] { b with wiring := b.wiring.unsubscribe id }
  /-- Closing stops the broker, and so does the last one who lets go of it. -/
  | stop (b : Books) (closing : Bool) (grows : b.closing = true → closing = true) :
    Shift b [.shutDown] { b with wiring := { b.wiring with stopped := true }, closing }

/-- Changes of the books in order, with all episodes that come with them. -/
inductive Shifts : Books → List Episode → Books → Prop where
  | nil (b : Books) : Shifts b [] b
  | cons {b b' b'' : Books} {es more : List Episode} (first : Shift b es b')
    (rest : Shifts b' more b'') : Shifts b (es ++ more) b''

/-- What one incident does to the books, with the episodes that come with it. -/
inductive Course : Books → List Episode → Books → Prop where
  | shifts {b b' : Books} {es : List Episode} (shifts : Shifts b es b') : Course b es b'
  | dispatch (b : Books) (d : Dispatcher) (reportFirst : Bool) (works : d ∈ b.wiring.dispatchers) :
    Course b (b.wiring.endings d reportFirst) (b.dispatch d reportFirst)
  | rest (b : Books) (d : Dispatcher) (works : d ∈ b.wiring.dispatchers) :
    Course b [] { b with wiring := b.wiring.withDispatcher d.refreshed }

variable {b b' b'' : Books} {es more : List Episode}

/-- One change of the books is changes in order. -/
theorem Shift.shifts (h : Shift b es b') : Shifts b es b' := by
  rw [← List.append_nil es]
  exact .cons h (.nil b')

/-- Changes in two parts are changes in order, with the episodes of both. -/
theorem Shifts.trans (h : Shifts b es b') (h' : Shifts b' more b'') :
    Shifts b (es ++ more) b'' := by
  induction h with
  | nil => exact h'
  | cons first _ ih =>
    rw [List.append_assoc]
    exact .cons first (ih h')

/-- Books that agree but for the store and the log lie beside each other. -/
theorem Beside.of_same (hwiring : b'.wiring.stopped = b.wiring.stopped ∧
      b'.wiring.nextSubscription = b.wiring.nextSubscription ∧
      b'.wiring.registered = b.wiring.registered ∧ b'.wiring.dispatchers = b.wiring.dispatchers ∧
      b'.wiring.channels = b.wiring.channels)
    (hrest : b'.running = b.running ∧ b'.closing = b.closing) : Beside b b' where
  stopped := hwiring.1
  next := hwiring.2.1
  registered := hwiring.2.2.1
  dispatchers := hwiring.2.2.2.1
  running := hrest.1
  closing := hrest.2
  items n := by
    refine .of_same ?_
    rw [Wiring.channel, hwiring.2.2.2.2, Wiring.channel]

/-- What is sent on a channel while no dispatcher makes a step comes from outside. -/
theorem Shift.flows (h : Shift b es b') (n : Nat) :
    Channel.Flows (·.1 = outsider) (b.wiring.channel n) (b'.wiring.channel n) := by
  cases h with
  | around beside => exact beside.items n
  | unsubscribe id =>
    refine .of_same ?_
    simp only [Wiring.unsubscribe]
    split <;> rfl
  | _ => exact .of_same rfl

/-- Changes of the books add to channels only what outsiders send. -/
theorem Shifts.flows (h : Shifts b es b') (n : Nat) :
    Channel.Flows (·.1 = outsider) (b.wiring.channel n) (b'.wiring.channel n) := by
  induction h with
  | nil => exact .of_same rfl
  | cons first _ ih => exact (first.flows n).trans ih

/-- One channel changes by items that are taken or that others send. -/
theorem Beside.onChannel (b : Books) (n : Nat) {f : Channel → Channel} {kept : List (Nat × Item)}
    {added : List (Nat × Item)} (hkept : kept <:+ (b.wiring.channel n).items)
    (hitems : (f (b.wiring.channel n)).items = kept ++ added)
    (hothers : ∀ e ∈ added, e.1 = outsider) :
    Beside b { b with wiring := b.wiring.onChannel n f } where
  stopped := rfl
  next := rfl
  registered := rfl
  dispatchers := rfl
  running := rfl
  closing := rfl
  items m := by
    rw [Wiring.channel_onChannel]
    split
    · next h =>
      obtain ⟨rfl, _⟩ := h
      exact ⟨kept, added, hkept, hitems, hothers⟩
    · exact ⟨_, [], List.suffix_refl _, (List.append_nil _).symm, nofun⟩

end Books

/-- The store never says that the broker is closed. -/
theorem Service.failure_ne_closed (service : Service) (error : StorageError) :
    (service.failure error).1 ≠ .closed := by
  cases service <;> cases error <;> exact nofun

namespace System

open Books (Beside Shift Shifts)

variable {s t : System} {c : InFlight}

/-! ### What leaves the books alone -/

/-- Waking workers does not ask for closing. -/
theorem closing_wakeAll (s : System) (workers : List Worker) :
    (s.wakeAll workers).closing = s.closing := by
  induction workers generalizing s with
  | nil => rfl
  | cons worker rest ih =>
    rw [wakeAll, ih, wake]
    split <;> rfl

/-- Lines of the log do not ask for closing. -/
theorem closing_noteAll (s : System) (notices : List Notice) :
    (s.noteAll notices).closing = s.closing := by
  induction notices generalizing s with
  | nil => rfl
  | cons notice rest ih => exact ih (s.note notice)

/-- A step of a dispatcher does not ask for closing. -/
theorem closing_afterStep (s : System) (d : Dispatcher) (step : Dispatch.Step) :
    (s.afterStep d step).closing = s.closing := by
  have hobserve (s : System) (observations : List Observation) :
      (s.observeAll observations).closing = s.closing := by
    induction observations generalizing s with
    | nil => rfl
    | cons observation rest ih => exact ih (s.observe observation)
  simp only [afterStep, closing_wakeAll, hobserve, closing_noteAll]
  rfl

/-- Waking workers leaves the books alone. -/
@[simp] theorem books_wakeAll (s : System) (workers : List Worker) :
    (s.wakeAll workers).books = s.books := by
  rw [books, wiring_wakeAll, journal_wakeAll, closing_wakeAll, books]

/-- Waking one worker leaves the books alone. -/
@[simp] theorem books_wake (s : System) (worker : Worker) : (s.wake worker).books = s.books :=
  books_wakeAll s [worker]

/-- Waking the readers of feeds leaves the books alone. -/
@[simp] theorem books_wakeReaders (s : System) (feeds : List Nat) :
    (s.wakeReaders feeds).books = s.books :=
  books_wakeAll s _

/-- Lines of the log leave the books alone. -/
@[simp] theorem books_noteAll (s : System) (notices : List Notice) :
    (s.noteAll notices).books = s.books := by
  rw [books, wiring_noteAll, count_noteAll, count_noteAll, closing_noteAll, books]

/-- A fact leaves the books alone, unless it counts dispatchers. -/
theorem books_observe (s : System) (observation : Observation)
    (hbegun : observation ≠ .dispatchBegun) (hended : observation ≠ .dispatchEnded) :
    (s.observe observation).books = s.books := by
  have hcount {fact : Observation} (hne : observation ≠ fact) :
      (s.observe observation).journal.count fact = s.journal.count fact := by
    simp [observe, Journal.observe, Journal.count, hne]
  rw [books, hcount hbegun, hcount hended]
  rfl

/-- Launching a call leaves the books alone. -/
@[simp] theorem books_launch (s : System) (turn : Turn) (holdsBroker : Bool) :
    (s.launch turn holdsBroker).1.books = s.books := by
  cases turn with
  | ask call => exact books_wake _ _
  | done answer => exact books_noteAll { s with nextCall := s.nextCall + 1 } answer.notices

/-! ### Stopping and unsubscribing -/

/-- Stopping the broker marks it as stopped in the books, and nothing else. -/
theorem books_stop (s : System) :
    s.stop.books = { s.books with wiring := { s.wiring with stopped := true } } := by
  unfold stop
  split
  · next h =>
    have hstopped : s.wiring.stopped = true := h
    rw [← hstopped]
    rfl
  · exact books_wakeAll _ _

/-- Stopping the broker is a change of the books that shuts it down. -/
theorem shifts_stop (s : System) : Shifts s.books [.shutDown] s.stop.books := by
  rw [books_stop]
  exact (Shift.stop s.books s.closing id).shifts

/-- Stopping changes nothing once the broker is stopped. -/
theorem shifts_stopped (hstopped : s.stopped = true) : Shifts s.books [.shutDown] s.books := by
  have hstop := (Shift.stop s.books s.closing id).shifts
  have hsame : { s.wiring with stopped := true } = s.wiring := by rw [← hstopped]; rfl
  have hbooks : s.books.wiring = s.wiring := rfl
  rwa [hbooks, hsame] at hstop

/-- The last one who lets go of the broker drops it. -/
theorem shifts_release (s : System) :
    Shifts s.books (if s.holders ≤ 1 then [.shutDown] else []) s.release.books := by
  by_cases hlast : s.holders ≤ 1
  · rw [if_pos hlast]
    have hzero : s.holders - 1 = 0 := by omega
    simp only [release]
    split
    · exact shifts_stop ({ s with holders := s.holders - 1 }.note .brokerDropped)
    · next hnot =>
      have hstopped : s.stopped = true := by simpa [hzero] using hnot
      exact shifts_stopped hstopped
  · rw [if_neg hlast]
    have hmore : s.holders - 1 ≠ 0 := by omega
    simp only [release, hmore, decide_false, Bool.false_and, Bool.false_eq_true, if_false]
    exact .nil _

/-- Unsubscribing is a change of the books by which a subscriber leaves. -/
theorem shifts_unsubscribe (s : System) (id : Nat) :
    Shifts s.books [.unsubscribed id] (s.unsubscribe id).books := by
  have hbooks : (s.unsubscribe id).books = { s.books with wiring := s.wiring.unsubscribe id } := by
    have hwiring := wiring_unsubscribe s id
    have hjournal : (s.unsubscribe id).journal = s.journal := by
      unfold unsubscribe
      split
      · exact journal_wakeAll _ [.dispatcher id]
      · rfl
    have hclosing : (s.unsubscribe id).closing = s.closing := by
      unfold unsubscribe
      split
      · exact closing_wakeAll _ [.dispatcher id]
      · rfl
    rw [books, hwiring, hjournal, hclosing]
    rfl
  rw [hbooks]
  exact (Shift.unsubscribe s.books id).shifts

/-- Unsubscribing several subscriptions is a change of the books for each of them. -/
theorem shifts_unsubscribeAll (s : System) (handles : List Handle) :
    Shifts s.books (handles.map fun handle => .unsubscribed handle.id)
      (s.unsubscribeAll (handles.map (·.id))).books := by
  induction handles generalizing s with
  | nil => exact .nil _
  | cons handle rest ih => exact (shifts_unsubscribe s handle.id).trans (ih _)

/-- A registration is a change of the books that opens the next subscription. -/
theorem shifts_register (s : System) (scope localStem : Key) (channel feed : Nat) :
    Shifts s.books [.opened s.nextSubscription]
      (s.register scope localStem channel feed).1.books := by
  have hbooks : (s.register scope localStem channel feed).1.books =
      { s.books with wiring := s.wiring.register scope localStem channel feed } := by
    rw [register, books_wake]
    rfl
  rw [hbooks]
  exact (Shift.register s.books scope localStem channel feed).shifts

/-! ### Calls -/

/-- Unsubscribing leaves the number of those who hold the broker as it is. -/
theorem holders_unsubscribeAll (s : System) (ids : List Nat) :
    (s.unsubscribeAll ids).holders = s.holders := by
  have hwake (s : System) (worker : Worker) : (s.wake worker).holders = s.holders := by
    unfold wake
    split <;> rfl
  induction ids generalizing s with
  | nil => rfl
  | cons id rest ih =>
    rw [unsubscribeAll, ih, unsubscribe]
    split
    · exact hwake _ _
    · rfl

/-- What a call does with its reply leaves the number of those who hold the broker as it is. -/
theorem holders_answered (s : System) (call : Call) (reply : Except Error call.service.Reply) :
    (s.answered call reply).1.holders = s.holders := by
  have hregister (scope localStem : Key) (channel feed : Nat) :
      (s.register scope localStem channel feed).1.holders = s.holders := by
    simp only [register, wake]
    split <;> rfl
  cases call with
  | watch scope stem channel =>
    cases reply with
    | ok feed => exact hregister scope stem channel feed
    | error e => rfl
  | watchAll scope channel held stem rest =>
    cases reply with
    | ok feed => cases rest <;> exact hregister scope stem channel feed
    | error e => exact holders_unsubscribeAll s _
  | listAll | next | drain => cases reply <;> rfl
  | _ => rfl

/-- A call that ends lets go of the broker if it held it. -/
theorem shifts_finish (s : System) (c : InFlight) (answer : Answer) :
    Shifts s.books (if c.holdsBroker && s.holders ≤ 1 then [.shutDown] else [])
      (s.finish c answer).books := by
  have hbooks := books_noteAll s answer.notices
  have hholders : (s.noteAll answer.notices).holders = s.holders := by
    generalize answer.notices = notices
    induction notices generalizing s with
    | nil => rfl
    | cons notice rest ih => exact ih (s.note notice) (books_noteAll _ _)
  simp only [finish]
  rw [← hbooks]
  cases c.holdsBroker with
  | true =>
    simp only [Bool.true_and, decide_eq_true_eq, if_true]
    rw [← hholders]
    exact shifts_release { s.noteAll answer.notices with
      calls := (s.noteAll answer.notices).calls.filter fun other => other.id ≠ c.id
      finished := (s.noteAll answer.notices).finished ++ [(c.id, answer)] }
  | false => exact .nil _

/-- A further turn changes the books only if the call has ended and was the last to hold the
broker. -/
theorem shifts_proceed (s : System) (c : InFlight) (turn : Turn) :
    Shifts s.books (if turn.isDone && c.holdsBroker && s.holders ≤ 1 then [.shutDown] else [])
      (s.proceed c turn).books := by
  cases turn with
  | ask call => exact .nil _
  | done answer => exact shifts_finish s c answer

/-- A turn without handles that gives none back brings nothing upon subscriptions. -/
theorem Turn.brings_of_handles {turn : Turn} {had : List Handle} (hhandles : turn.handles = [])
    (hback : turn.givesBack = false) : turn.brings had = [] := by
  simp [Turn.brings, hhandles, hback]

/-- Reading on in a listing brings nothing upon subscriptions. -/
theorem brings_continueDrain (listing : Listing) (taken : List KeyValue) (had : List Handle) :
    (Call.continueDrain listing taken).brings had = [] := by
  unfold Call.continueDrain
  split
  · exact Turn.brings_of_handles rfl rfl
  · simp only
    split <;> exact Turn.brings_of_handles rfl rfl

/-- An answer to a watch enters a subscription or takes some off. -/
theorem shifts_answered (s : System) (call : Call) (reply : Except Error call.service.Reply) :
    Shifts s.books ((s.answered call reply).2.brings (Turn.ask call).handles)
      (s.answered call reply).1.books := by
  have hnone {turn : Turn} (hbrings : turn.brings (Turn.ask call).handles = []) :
      Shifts s.books (turn.brings (Turn.ask call).handles) s.books := by
    rw [hbrings]
    exact .nil _
  cases call with
  | watch scope stem channel =>
    cases reply with
    | ok feed => exact shifts_register s scope stem channel feed
    | error e => exact .nil _
  | watchAll scope channel held stem rest =>
    cases reply with
    | ok feed =>
      have hregister := shifts_register s scope stem channel feed
      have hbrings (turn : Turn) (hhandles : turn.handles =
            held ++ [(s.register scope stem channel feed).2]) (hback : turn.givesBack = false) :
          turn.brings held = [.opened s.nextSubscription] := by
        simp [Turn.brings, hhandles, hback, register]
      rw [← hbrings (s.answered (.watchAll scope channel held stem rest) (.ok feed)).2
        (by cases rest <;> rfl) (by cases rest <;> rfl)] at hregister
      cases rest <;> exact hregister
    | error e =>
      have hbrings : (Turn.done (.watchingAll (.error e))).brings held =
          held.map fun handle => .unsubscribed handle.id := by
        simp [Turn.brings, Turn.handles, Turn.givesBack]
      have hunsubscribe := shifts_unsubscribeAll s held
      rwa [← hbrings] at hunsubscribe
  | listAll listing =>
    cases reply with
    | ok page => exact hnone (brings_continueDrain _ _ _)
    | error e => exact .nil _
  | drain listing taken =>
    cases reply with
    | ok page =>
      refine hnone ?_
      simp only [answered, Call.drainPage]
      split
      · exact Turn.brings_of_handles rfl rfl
      · exact brings_continueDrain _ _ _
    | error e => exact .nil _
  | next listing => cases reply <;> exact .nil _
  | _ => exact .nil _

/-- A reply changes the books by what its turn brings upon subscriptions, and then by the broker
being dropped if nobody else holds it. -/
theorem shifts_conclude (s : System) (c : InFlight) (reply : Except Error c.call.service.Reply) :
    Shifts s.books ((s.answered c.call reply).2.brings (Turn.ask c.call).handles ++
        if (s.answered c.call reply).2.isDone && c.holdsBroker && s.holders ≤ 1 then [.shutDown]
        else [])
      (s.conclude c reply).books := by
  have hproceed := shifts_proceed (s.answered c.call reply).1 c (s.answered c.call reply).2
  rw [holders_answered] at hproceed
  exact (shifts_answered s c.call reply).trans hproceed

/-! ### Polls of calls -/

/-- What a poll of a call does before the call goes on leaves the books and the desk alone. -/
structure Before (s t : System) : Prop where
  wiring : ∃ store script, t.wiring = { s.wiring with store, script }
  running : t.books.running = s.books.running
  calls : t.calls = s.calls
  finished : t.finished = s.finished
  nextCall : t.nextCall = s.nextCall
  holders : t.holders = s.holders
  closing : t.closing = s.closing

/-- What comes of a poll of the call `c` that does not leave it waiting, whatever the script
says. -/
inductive Responds (s : System) (c : InFlight) : System → Prop where
  | waits {t : System} (before : s.Before t) (due : Option Nat) : Responds s c (t.await c due)
  | concludes {t : System} (before : s.Before t) (reply : Except Error c.call.service.Reply)
    (honest : reply = .error .closed → s.stopped = true ∧ c.call.endsWithBroker = true) :
    Responds s c (t.conclude c reply)
  | aborts {t : System} (before : s.Before t) (why : Abort) :
    Responds s c (t.finish c (.aborted why))

/-- What leaves the books and the desk the same may come before the call goes on. -/
theorem Before.of_books (hbooks : t.books = s.books)
    (hdesk : t.calls = s.calls ∧ t.finished = s.finished ∧ t.nextCall = s.nextCall ∧
      t.holders = s.holders) : s.Before t where
  wiring := ⟨s.store, s.script, congrArg Books.wiring hbooks⟩
  running := congrArg Books.running hbooks
  calls := hdesk.1
  finished := hdesk.2.1
  nextCall := hdesk.2.2.1
  holders := hdesk.2.2.2
  closing := congrArg Books.closing hbooks

/-- Nothing may come before the call goes on. -/
theorem Before.refl (s : System) : s.Before s := .of_books rfl ⟨rfl, rfl, rfl, rfl⟩

/-- One thing after the other may come before the call goes on. -/
theorem Before.trans {u : System} (h : s.Before t) (h' : t.Before u) : s.Before u where
  wiring := by
    obtain ⟨store, script, hwiring⟩ := h.wiring
    obtain ⟨store', script', hwiring'⟩ := h'.wiring
    exact ⟨store', script', by rw [hwiring', hwiring]⟩
  running := h'.running.trans h.running
  calls := h'.calls.trans h.calls
  finished := h'.finished.trans h.finished
  nextCall := h'.nextCall.trans h.nextCall
  holders := h'.holders.trans h.holders
  closing := h'.closing.trans h.closing

/-- The store may act and the script go on before the call does. -/
theorem before_withStore (s : System) (store : Store) (script : Script) :
    s.Before { s with store, script } where
  wiring := ⟨store, script, rfl⟩
  running := rfl
  calls := rfl
  finished := rfl
  nextCall := rfl
  holders := rfl
  closing := rfl

/-- What comes before the call goes on leaves the register and the dispatchers as they are. -/
theorem Before.beside (h : s.Before t) : s.books.Beside t.books := by
  obtain ⟨store, script, hwiring⟩ := h.wiring
  have hbooks : t.books.wiring = { s.wiring with store, script } := hwiring
  refine .of_same ?_ ⟨h.running, h.closing⟩
  rw [hbooks]
  exact ⟨rfl, rfl, rfl, rfl, rfl⟩

/-- A request that has ended is counted. -/
theorem before_ended (s : System) (service : Service) (ok : Bool) (millis : Nat) :
    s.Before ((s.observe (.served service ok)).observe (.lasted service millis)) := by
  refine .of_books ?_ ⟨rfl, rfl, rfl, rfl⟩
  rw [books_observe _ (.lasted service millis) nofun nofun,
    books_observe _ (.served service ok) nofun nofun]

/-- How long a request took may be observed before the call goes on. -/
theorem before_lasted (s : System) (service : Service) (millis : Nat) :
    s.Before (s.observe (.lasted service millis)) :=
  .of_books (books_observe s (.lasted service millis) nofun nofun) ⟨rfl, rfl, rfl, rfl⟩

/-- A line of the log may be written before the call goes on. -/
theorem before_note (s : System) (notice : Notice) : s.Before (s.note notice) :=
  .of_books rfl ⟨rfl, rfl, rfl, rfl⟩

/-- A request that has failed is counted and put in the log. -/
theorem before_failed (s : System) (service : Service) (notice : Notice) (millis : Nat) :
    s.Before (((s.observe (.served service false)).note notice).observe (.lasted service millis)) :=
  -- notes and observations do not touch each other
  (before_ended s service false millis).trans
    (before_note ((s.observe (.served service false)).observe (.lasted service millis)) notice)

/-- The outcome of a request lets its call go on. -/
theorem responds_settle (h : s.Before t) (started : Nat) (outcome : Outcome c.call.service.Reply) :
    s.Responds c (t.settle c started outcome) := by
  cases outcome with
  | ok reply => exact .concludes (h.trans (before_ended t _ _ _)) (.ok reply) nofun
  | failed error =>
    exact .concludes (h.trans (before_failed t _ _ _)) _ fun hclosed =>
      absurd (Except.error.inj hclosed) (c.call.service.failure_ne_closed error)
  | aborted why => exact .aborts (h.trans (before_lasted t _ _)) why

/-- Readers of feeds may be woken before the call goes on. -/
theorem before_wakeReaders (s : System) (feeds : List Nat) : s.Before (s.wakeReaders feeds) := by
  have hdesk := desk_wakeReaders s feeds
  have hholders (s : System) (workers : List Worker) :
      (s.wakeAll workers).holders = s.holders := by
    induction workers generalizing s with
    | nil => rfl
    | cons worker rest ih =>
      rw [wakeAll, ih, wake]
      split <;> rfl
  exact .of_books (books_wakeReaders s feeds) ⟨congrArg Desk.calls hdesk,
    congrArg Desk.finished hdesk, congrArg Desk.nextCall hdesk, hholders s _⟩

/-- A request to the store is one of the responses to a poll. -/
theorem responds_act (h : s.Before t) (started : Nat) : s.Responds c (t.act c started) := by
  let served := t.store.serve (t.now * Duration.millisecond) c.call.request
  have hserved := (before_withStore t served.store t.script).trans
    (before_wakeReaders { t with store := served.store } served.reached)
  exact responds_settle (h.trans hserved) started served.outcome

/-- A stub may end before the call goes on. -/
theorem before_endStub (s : System) (name : String) : s.Before (s.endStub name) := by
  unfold endStub
  split
  · exact .refl s
  · next n _ =>
    have hended : s.Before
        { s with store := s.store.onFeed n (·.finish), stubs := s.stubs.remove name } :=
      (before_withStore s (s.store.onFeed n (·.finish)) s.script).trans
        (.of_books rfl ⟨rfl, rfl, rfl, rfl⟩)
    exact hended.trans (before_wakeReaders _ [n])

/-- A planned reply may be prepared before the call goes on. -/
theorem before_fulfil (s : System) (service : Service) (planned : service.Planned) :
    s.Before (s.fulfil service planned).1 := by
  cases service with
  | watch =>
    have hopened := (before_endStub s planned).trans
      (before_withStore _ (s.endStub planned).store.openFeed.1 (s.endStub planned).script)
    exact hopened.trans (.of_books rfl ⟨rfl, rfl, rfl, rfl⟩)
  | _ => exact .refl s

/-- Making a request is one of the responses to a poll, whatever the script says. -/
theorem responds_makeRequest (s : System) (c : InFlight) : s.Responds c (s.makeRequest c) := by
  simp only [makeRequest]
  cases hstop : s.stopped && c.call.endsWithBroker with
  | true => exact .concludes (.refl s) _ fun _ => by simpa using hstop
  | false =>
    generalize s.script.next c.call.service = taken
    obtain ⟨answer, script⟩ := taken
    have hscript : s.Before { s with script } := before_withStore s s.store script
    cases answer with
    | forward delay =>
      cases delay with
      | zero => exact responds_act hscript s.now
      | succ delay => exact .waits hscript _
    | hang => exact .waits hscript _
    | fail error => exact responds_settle hscript s.now (.failed error)
    | reply planned =>
      have hfulfil := before_fulfil { s with script } c.call.service planned
      exact responds_settle (hscript.trans hfulfil) _
        (.ok (fulfil { s with script } c.call.service planned).2)

/-- Looking for a reply leaves the system alone, or is one of the responses to a poll. -/
theorem responds_checkAnswer (s : System) (c : InFlight) (e : Exchange) :
    s.checkAnswer c e = s ∨ s.Responds c (s.checkAnswer c e) := by
  simp only [checkAnswer]
  cases hstop : s.stopped && c.call.endsWithBroker with
  | true => exact .inr (.concludes (before_lasted s _ _) _ fun _ => by simpa using hstop)
  | false =>
    simp only [Bool.false_eq_true, if_false]
    split
    · exact .inr (responds_act (.refl s) e.started)
    · split
      · exact .inr (.concludes (before_failed s _ _ _) _ fun h => by cases h)
      · exact .inl rfl

/-- A poll leaves a call waiting that has made its request, or something comes of it. -/
theorem responds_pollCall {id : Nat} (hfind : s.desk.call? id = some c) :
    s.pollCall id = s ∧ c.exchange ≠ none ∨ s.Responds c (s.pollCall id) := by
  have hcall : s.calls.find? (fun c => decide (c.id = id)) = some c := hfind
  simp only [pollCall, hcall]
  cases c.exchange with
  | none => exact .inr (responds_makeRequest s c)
  | some e => exact (responds_checkAnswer s c e).imp_left fun h => ⟨h, Option.some_ne_none e⟩

end System

end KeyBroker
