import KeyBroker.Proofs.Register.Shifts

/-!
# Incidents change the books

Every incident is a step of a dispatcher or a sequence of other changes of the books, and the
episodes that come with it are the ones that callers, senders and receivers see.
-/

namespace KeyBroker

/-! ### What a step of a dispatcher observes -/

/-- Whether a fact is about an event, delivered or dropped. -/
def Observation.isOfEvent : Observation → Bool
  | .delivered _ | .dropped _ => true
  | _ => false

namespace Dispatch

variable {d : Dispatch} {policy : SlowPolicy} {stop reportFirst : Bool}

/-- All that is observed while an event is offered is about the event. -/
theorem isOfEvent_offerEvent (event : Event) :
    ∀ o ∈ (d.offerEvent event).observations, o.isOfEvent = true := by
  unfold offerEvent
  simp only
  split <;> simp [drop, Observation.isOfEvent]

/-- All that is observed while a dispatcher reads is about an event. -/
theorem isOfEvent_readOne : ∀ o ∈ (d.readOne policy).observations, o.isOfEvent = true := by
  unfold readOne
  split
  · simp
  · simp [lose]
  · simp [lose]
  · next event feed _ =>
    simp only
    split
    · cases policy with
      | block => simp
      | dropAndSignal =>
        simp only [offer]
        split
        · exact isOfEvent_offerEvent event
        · split
          · exact isOfEvent_offerEvent event
          · simp [drop, Observation.isOfEvent]
          · simp
    · simp

/-- A step observes that its dispatcher begins, or facts about events. -/
theorem observations_step (d : Dispatch) (policy : SlowPolicy) (stop reportFirst : Bool) :
    (d.dispatcher.phase = .starting ∧
        (d.step policy stop reportFirst).observations = [.dispatchBegun]) ∨
      d.dispatcher.phase ≠ .starting ∧
        ∀ o ∈ (d.step policy stop reportFirst).observations, o.isOfEvent = true := by
  unfold step
  split
  · next h => exact .inl ⟨h, rfl⟩
  · next h =>
    refine .inr ⟨by simp [h], ?_⟩
    split
    · simp [giveUp]
    · exact isOfEvent_readOne
  · next event h =>
    refine .inr ⟨by simp [h], ?_⟩
    split
    · simp [giveUp]
    · simp only [sendEvent]
      split <;> simp [Observation.isOfEvent]
  · next reason h =>
    refine .inr ⟨by simp [h], ?_⟩
    have hreport : (d.sendReport reason).observations = [] := by
      simp only [sendReport]
      split <;> rfl
    split
    · simp [giveUp]
    · simp only
      split
      · simp [giveUp]
      · simp [hreport]

end Dispatch

namespace System

open Books (Beside Course Shift Shifts)

variable {s : System} {c : InFlight}

/-! ### Polls of calls -/

/-- What a poll does before the call goes on leaves the desk beside the store. -/
theorem Before.desk {t : System} (h : s.Before t) : t.desk = s.desk.beside t.store := by
  rw [System.desk, h.calls, h.finished, h.nextCall]
  rfl

/-- A call that waits for its reply goes behind all others, with its wait noted. -/
theorem desk_await (s : System) (c : InFlight) (due : Option Nat) :
    (s.await c due).desk = s.desk.wait
      { c with
        exchange := some
          { started := s.now, deadline := s.now + s.settings.requestTimeout, due } } :=
  rfl

/-- However a poll of a call is responded to, the desk stays booked. -/
theorem Responds.booked {s' : System} (h : s.Responds c s') (hbooked : s.desk.Booked)
    (hfound : s.desk.call? c.id = some c) : s'.desk.Booked := by
  cases h with
  | @waits t before due =>
    rw [desk_await, before.desk]
    exact (hbooked.beside t.store).wait hfound _
  | @concludes t before reply honest =>
    rw [desk_conclude, before.desk]
    exact (hbooked.beside t.store).proceed hfound _
  | @aborts t before why =>
    have hproceed := desk_proceed t c (.done (.aborted why))
    rw [before.desk] at hproceed
    have hfinish : (t.finish c (.aborted why)).desk = _ := hproceed
    rw [hfinish]
    exact (hbooked.beside t.store).proceed hfound _

/-- A call under way has its request to make. -/
theorem standing_ask (hfound : s.desk.call? c.id = some c) :
    s.desk.standing c.id = some (.ask c.call) := by
  rw [Desk.standing, hfound]

/-- A call that waits for its reply still stands where it was. -/
theorem Before.standing_await {t : System} (before : s.Before t)
    (hfound : s.desk.call? c.id = some c) (due : Option Nat) :
    (t.await c due).desk.standing c.id = some (.ask c.call) := by
  have hcall : (s.desk.beside t.store).call? c.id = some c := hfound
  rw [desk_await, before.desk, Desk.standing_wait hcall, Desk.standing, hcall]

/-- A reply leaves a call where its turn says. -/
theorem Before.standing_conclude {t : System} (before : s.Before t) (hbooked : s.desk.Booked)
    (hfound : s.desk.call? c.id = some c) (reply : Except Error c.call.service.Reply) :
    (t.conclude c reply).desk.standing c.id = some (t.answered c.call reply).2 := by
  rw [desk_conclude, before.desk, (hbooked.beside t.store).standing_proceed hfound, if_pos rfl]

/-- A call that stopped at a limit of the machine has that for an answer. -/
theorem Before.standing_aborted {t : System} (before : s.Before t) (hbooked : s.desk.Booked)
    (hfound : s.desk.call? c.id = some c) (why : Abort) :
    (t.finish c (.aborted why)).desk.standing c.id = some (.done (.aborted why)) := by
  have hfinish : (t.finish c (.aborted why)).desk =
      t.desk.proceed c (.done (.aborted why)) := desk_proceed t c (.done (.aborted why))
  rw [hfinish, before.desk, (hbooked.beside t.store).standing_proceed hfound, if_pos rfl]

/-- Where a call stands after a poll, and what that brings. -/
theorem shifts_pollCall (hbooked : s.desk.Booked) {id : Nat} (hfind : s.desk.call? id = some c) :
    Shifts s.books (s.answers c) (s.pollCall id).books := by
  have hid := Desk.id_of_call? hfind
  subst hid
  have hpoll := responds_pollCall hfind
  unfold answers turnOf
  generalize s.pollCall c.id = s' at hpoll
  have hsame : (Turn.ask c.call).brings (Turn.ask c.call).handles = [] := by
    simp [Turn.brings, Turn.givesBack]
  rcases hpoll with ⟨rfl, _⟩ | hresponds
  · simp only [standing_ask hfind, Option.elim_some, hsame, Turn.isDone]
    exact .nil _
  cases hresponds with
  | waits before due =>
    simp only [before.standing_await hfind, Option.elim_some, hsame, Turn.isDone]
    exact (Shift.around before.beside).shifts
  | @concludes t before reply honest =>
    have hconclude := shifts_conclude t c reply
    rw [before.holders] at hconclude
    simp only [before.standing_conclude hbooked hfind, Option.elim_some]
    exact (Shift.around before.beside).shifts.trans hconclude
  | @aborts t before why =>
    have hproceed := shifts_proceed t c (.done (.aborted why))
    rw [before.holders] at hproceed
    have hbrings : (Turn.done (.aborted why)).brings (Turn.ask c.call).handles = [] :=
      Turn.brings_of_handles rfl rfl
    simp only [before.standing_aborted hbooked hfind, Option.elim_some, hbrings, List.nil_append]
    exact (Shift.around before.beside).shifts.trans hproceed

/-! ### Polls of dispatchers -/

/-- Facts about events count nothing else. -/
theorem count_of_isOfEvent {observations : List Observation} {fact : Observation}
    (h : ∀ o ∈ observations, o.isOfEvent = true) (hfact : fact.isOfEvent = false) :
    observations.countP (· = fact) = 0 := by
  rw [List.countP_eq_zero]
  intro o ho heq
  have ho := h o ho
  rw [of_decide_eq_true heq, hfact] at ho
  cases ho

/-- A step counts its dispatcher once it begins. -/
theorem count_stepOf (w : Wiring) (d : Dispatcher) (reportFirst : Bool) :
    (w.stepOf d reportFirst).observations.countP (· = .dispatchBegun) =
        (if d.phase = .starting then 1 else 0) ∧
      (w.stepOf d reportFirst).observations.countP (· = .dispatchEnded) = 0 := by
  have hstep := (w.dispatchOf d).observations_step w.policy (w.stopped || d.cancelled) reportFirst
  rcases hstep with ⟨hphase, hobservations⟩ | ⟨hphase, hobservations⟩
  · have hstarting : d.phase = .starting := hphase
    have hone : (w.stepOf d reportFirst).observations = [.dispatchBegun] := hobservations
    simp [hstarting, hone]
  · have hother : d.phase ≠ .starting := hphase
    rw [if_neg hother]
    exact ⟨count_of_isOfEvent hobservations rfl, count_of_isOfEvent hobservations rfl⟩

/-- The journal counts the dispatchers that begin and end. -/
theorem books_pollDispatcher {id : Nat} {d : Dispatcher} (hfind : s.dispatcher? id = some d)
    (hcredit : d.credit ≠ 0) (reportFirst : Bool) :
    (s.pollDispatcher id reportFirst).books = s.books.dispatch d reportFirst := by
  have hwiring := wiring_pollDispatcher hfind reportFirst
  rw [if_neg hcredit] at hwiring
  obtain ⟨hbegun, hended⟩ := count_stepOf s.wiring d reportFirst
  have hafter := s.count_afterStep d (s.wiring.stepOf d reportFirst)
  have hbegunAfter := hafter .dispatchBegun
  have hendedAfter := hafter .dispatchEnded
  rw [hbegun] at hbegunAfter
  rw [hended] at hendedAfter
  -- those that run are those that began less those that ended, and the journal counts both
  have hrunning : (s.pollDispatcher id reportFirst).books.running =
      (s.books.dispatch d reportFirst).running := by
    have hcounts : (s.books.dispatch d reportFirst).running =
        (s.journal.count .dispatchBegun : Int) - s.journal.count .dispatchEnded +
          Books.counted (s.wiring.stepOf d reportFirst) d.phase := rfl
    rw [hcounts, pollDispatcher_of_credit hfind hcredit, books, Books.counted]
    simp only
    cases (s.wiring.stepOf d reportFirst).pace with
    -- the last step counts one more end, beside the beginning of a dispatcher that had not begun
    | «over» =>
      let stepped := s.afterStep d (s.wiring.stepOf d reportFirst)
      have hlast (fact : Observation) :
          (stepped.endDispatcher id d.subscription.feed).journal.count fact =
            stepped.journal.count fact + if decide (.dispatchEnded = fact) = true then 1 else 0 :=
        List.countP_cons
      simp only [stepped, hlast, hbegunAfter, hendedAfter]
      split
      · simp only [reduceCtorEq, decide_true, decide_false, Bool.false_eq_true, if_true, if_false]
        omega
      · simp only [reduceCtorEq, decide_true, decide_false, Bool.false_eq_true, if_true, if_false]
        omega
    | _ =>
      simp only [hbegunAfter, hendedAfter]
      split
      · simp only [reduceCtorEq, if_false]
        omega
      · simp only [reduceCtorEq, if_false]
        omega
  have hclosing : (s.pollDispatcher id reportFirst).closing = s.closing := by
    rw [← closing_afterStep s d (s.wiring.stepOf d reportFirst),
      pollDispatcher_of_credit hfind hcredit]
    simp only
    split <;> rfl
  have hbooks : (s.pollDispatcher id reportFirst).books =
      ⟨s.wiring.dispatch d reportFirst, (s.books.dispatch d reportFirst).running, s.closing⟩ := by
    rw [← hrunning, ← hwiring, ← hclosing]
    rfl
  exact hbooks

/-- A poll of a dispatcher does to the books what one incident may do, with the episodes that it
affects. -/
theorem course_pollDispatcher (s : System) (id : Nat) (reportFirst : Bool) :
    Course s.books (s.affects (.poll (.dispatcher id) reportFirst))
      (s.pollDispatcher id reportFirst).books := by
  simp only [affects]
  cases hfind : s.dispatcher? id with
  | none =>
    simp only [pollDispatcher, hfind]
    exact .shifts (.nil _)
  | some d =>
    have hmem : d ∈ s.books.wiring.dispatchers := List.mem_of_find?_eq_some hfind
    simp only [Option.elim_some]
    by_cases hcredit : d.credit = 0
    · have hrests : s.pollDispatcher id reportFirst = s.rest d := by
        simp only [pollDispatcher, hfind, if_pos hcredit]
      rw [if_pos hcredit, hrests]
      exact .rest s.books d hmem
    · rw [if_neg hcredit, books_pollDispatcher hfind hcredit]
      exact .dispatch s.books d reportFirst hmem

/-! ### Moves and incidents -/

/-- What others send on a channel comes from outside. -/
theorem beside_onChannel (s : System) (n : Nat) {f : Channel → Channel} {items : List Item}
    (hgains : Channel.Gains (s.channel n) (f (s.channel n)) outsider items) :
    Beside s.books (s.onChannel n f).books := by
  have hothers : ∀ e ∈ items.map (outsider, ·), e.1 = outsider := by
    intro e he
    obtain ⟨item, _, rfl⟩ := List.mem_map.1 he
    rfl
  exact Beside.onChannel s.books n (List.suffix_refl _) hgains.items_eq hothers

/-- Nothing is sent in a channel that only loses items. -/
theorem beside_of_suffix (s : System) (n : Nat) {f : Channel → Channel}
    (hkept : (f (s.channel n)).items <:+ (s.channel n).items) :
    Beside s.books (s.onChannel n f).books :=
  Beside.onChannel s.books n hkept (List.append_nil _).symm nofun

/-- Another store leaves the register and the dispatchers as they are. -/
theorem beside_withStore (s : System) (store : Store) : Beside s.books { s with store }.books :=
  .of_same ⟨rfl, rfl, rfl, rfl, rfl⟩ ⟨rfl, rfl⟩

/-- Another channel leaves the register and the dispatchers as they are. -/
theorem beside_openChannel (s : System) (capacity : Nat) (held : Bool) :
    Beside s.books
      (books { s with channels := s.channels ++ [{ capacity, held }] }) where
  stopped := rfl
  next := rfl
  registered := rfl
  dispatchers := rfl
  running := rfl
  closing := rfl
  items n := by
    refine ⟨_, [], List.suffix_refl _, ?_, nofun⟩
    have hchannel (w : Wiring) : w.channel n =
        (w.channels[n]?).getD { capacity := 0, received := false } := by
      rw [Wiring.channel, List.getD_eq_getElem?_getD]
    rw [List.append_nil, hchannel, hchannel]
    have hbefore : s.books.wiring.channels = s.channels := rfl
    have hafter :
        (books { s with channels := s.channels ++ [{ capacity, held }] }).wiring.channels =
          s.channels ++ [({ capacity, held } : Channel)] := rfl
    rw [hbefore, hafter]
    by_cases hlt : n < s.channels.length
    · rw [List.getElem?_append_left hlt]
    · rw [List.getElem?_append_right (Nat.le_of_not_lt hlt),
        List.getElem?_eq_none (Nat.le_of_not_lt hlt)]
      cases n - s.channels.length <;> rfl

/-- Closing is a change of the books that shuts the broker down, also when it was asked for
before. -/
theorem shifts_close (hclosing : s.closing = true → s.stopped = true) (holdsBroker : Bool) :
    Shifts s.books [.shutDown] (s.move (.close holdsBroker)).books := by
  simp only [move, books_launch, beginClose]
  split
  · next hclosed => exact shifts_stopped (hclosing hclosed)
  · rw [books_stop]
    exact (Shift.stop s.books true fun _ => rfl).shifts

/-- What a move does to the books. -/
theorem course_move (hbooked : s.desk.Booked) (hclosing : s.closing = true → s.stopped = true)
    (m : Move) : Course s.books (s.affects m) (s.move m).books := by
  have hsame {s' : System} (h : s'.books = s.books) : Course s.books [] s'.books := by
    rw [h]
    exact .shifts (.nil _)
  have haround {s' : System} (h : Beside s.books s'.books) : Course s.books [] s'.books :=
    .shifts (Shift.around h).shifts
  cases m with
  | poll worker reportFirst =>
    cases worker with
    | call id =>
      simp only [affects, move]
      cases hfind : s.desk.call? id with
      | none =>
        rw [pollCall_of_gone hfind]
        exact .shifts (.nil _)
      | some c => exact .shifts (shifts_pollCall hbooked hfind)
    | dispatcher id => exact course_pollDispatcher s id reportFirst
  | launch turn holdsBroker => exact hsame (books_launch s turn holdsBroker)
  | take call =>
    refine hsame ?_
    simp only [move, takeAnswer]
    cases s.finished.find? _ <;> rfl
  | close holdsBroker => exact .shifts (shifts_close hclosing holdsBroker)
  | release => exact .shifts (shifts_release s)
  | note notices => exact hsame (books_noteAll s notices)
  | ask request =>
    have hstore := beside_withStore s (s.store.serve (s.now * Duration.millisecond) request).store
    refine haround ?_
    simp only [move, serveDirectly, books_wakeReaders]
    exact hstore
  | compact revision => exact haround (beside_withStore s _)
  | setAvailable available =>
    refine haround ?_
    simp only [move, setAvailable]
    split
    · exact beside_withStore s _
    · rw [books_wakeReaders]
      exact beside_withStore s _
  | inject line genuine => exact haround (.of_same ⟨rfl, rfl, rfl, rfl, rfl⟩ ⟨rfl, rfl⟩)
  | openChannel capacity held =>
    simp only [move, openChannel]
    split
    · exact haround (beside_openChannel s capacity held)
    · exact .shifts (.nil _)
  | dropSender n =>
    exact haround (beside_of_suffix s n (List.suffix_refl _))
  | receive n =>
    simp only [move, receive, Channel.receive]
    cases hitems : (s.channel n).items with
    | nil => exact .shifts (.nil _)
    | cons oldest rest =>
      simp only [books_wakeAll]
      refine haround (beside_of_suffix s n ?_)
      -- the freed place is promised to the next in line, which adds no item
      have hpromise := Channel.gains_promise { s.channel n with items := rest } outsider
      rw [hpromise.items_eq, hitems]
      simp
  | dropReceiver n =>
    simp only [move, dropReceiver, books_wakeAll]
    exact haround (beside_of_suffix s n (List.nil_suffix))
  | unsubscribe id => exact .shifts (shifts_unsubscribe s id)
  | readFeed n =>
    simp only [move]
    split
    · exact .shifts (.nil _)
    · exact haround (beside_withStore s _)
  | leaveFeed n =>
    simp only [move]
    split
    · exact .shifts (.nil _)
    · exact haround (beside_withStore s _)
  | _ => exact .shifts (.nil _)

/-- What an incident does to the books. -/
theorem course_incur (hbooked : s.desk.Booked) (hclosing : s.closing = true → s.stopped = true)
    (i : Incident) : Course s.books (s.befalls i) (s.incur i).books := by
  have haround {s' : System} (h : Beside s.books s'.books) : Course s.books [] s'.books :=
    .shifts (Shift.around h).shifts
  cases i with
  | occur o =>
    cases o with
    | move m => exact course_move hbooked hclosing m
    | offer n item =>
      obtain ⟨items, hgains⟩ := (Channel.sends_trySend (s.channel n) outsider item).gains_left
      exact haround (beside_onChannel s n hgains)
    | send n item =>
      obtain ⟨items, hgains⟩ := (Channel.sends_send (s.channel n) outsider item).gains_left
      exact haround (beside_onChannel s n hgains)
    | giveUp n =>
      exact haround (beside_onChannel s n (Channel.gains_abandon (s.channel n) outsider))
    | signal n signal => exact haround (beside_withStore s _)
  | plan line => exact haround (.of_same ⟨rfl, rfl, rfl, rfl, rfl⟩ ⟨rfl, rfl⟩)
  | finish n => exact haround (beside_withStore s _)

end System

end KeyBroker
