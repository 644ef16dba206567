import KeyBroker.Proofs.System.Alike
import KeyBroker.Proofs.System.Calls
import KeyBroker.Proofs.System.Polls

/-!
# Runs with and without a call

What becomes of a request is up to the store behind the broker: it may look at the
request late, never, or fail it. To compare a run with the run in which one call is not
made, each move comes with the lines that the store follows in it, so that what happens
to the other calls does not depend on which lines the call would have used up. A poll
of a call whose requests open no watch then leaves nothing but what the store made of
its request, and a holder of the broker less once the call has ended.
-/

namespace KeyBroker

/-- A move together with the lines that the store follows in it. -/
structure Fated where
  script : Script
  genuine : ∀ line ∈ script, line.invents = false
  move : Move

namespace Fated

/-- A move in which the store passes every request on. -/
def plain (move : Move) : Fated where
  script := []
  genuine _ h := by cases h
  move

/-- Whether call `id` is polled. -/
def polls (st : Fated) (id : Nat) : Bool :=
  match st.move with
  | .poll (.call n) _ => decide (n = id)
  | _ => false

end Fated

namespace System

/-- The system in which the store follows the lines of a move. -/
def under (s : System) (st : Fated) : System := { s with script := st.script }

/-- The system after a move in which the store follows the lines given. -/
def fate (s : System) (st : Fated) : System := { (s.under st).move st.move with script := [] }

/-- The system after such moves in order. -/
def fates (s : System) (run : List Fated) : System := run.foldl fate s

/-- What such moves do that concerns subscribers. -/
def fatedHappenings (s : System) : List Fated → List Happening
  | [] => []
  | st :: run => (s.under st).happens st.move ++ (s.fate st).fatedHappenings run

/-- Moves in order come one after the other. -/
@[simp] theorem fates_cons (s : System) (st : Fated) (run : List Fated) :
    s.fates (st :: run) = (s.fate st).fates run := rfl

/-- Moves in two parts come one part after the other. -/
theorem fates_append (s : System) (run more : List Fated) :
    s.fates (run ++ more) = (s.fates run).fates more :=
  List.foldl_append

/-- What happens in moves in two parts is what happens in the one, then what happens in the other
after it. -/
theorem fatedHappenings_append (s : System) (run more : List Fated) :
    s.fatedHappenings (run ++ more) =
      s.fatedHappenings run ++ (s.fates run).fatedHappenings more := by
  induction run generalizing s with
  | nil => rfl
  | cons st run ih =>
    simp only [List.cons_append, fatedHappenings, ih, List.append_assoc]
    rfl

/-! ### The state of a run -/

/-- The store has no lines to follow, and the calls are booked. -/
structure InOrder (s : System) : Prop where
  script : s.script = []
  booked : s.desk.Booked

variable {id : Nat} {s t : System} {c : InFlight} {st : Fated}

/-- No line that a move has the store follow makes up a reply. -/
theorem genuine_under (s : System) (st : Fated) : (s.under st).wiring.Genuine := st.genuine

/-- A system in order is so after a move, with no line left to follow. -/
theorem InOrder.fate (h : s.InOrder) (st : Fated) : (s.fate st).InOrder where
  script := rfl
  booked := (deals_move (genuine_under s st) st.move).booked h.booked

/-- A system in order is so after moves in order. -/
theorem InOrder.fates (h : s.InOrder) (run : List Fated) : (s.fates run).InOrder := by
  induction run generalizing s with
  | nil => exact h
  | cons st run ih => exact ih (h.fate st)

/-- A new system is in order. -/
theorem inOrder_new (settings : Settings) : InOrder { settings } where
  script := rfl
  booked := booked_new settings

/-- Systems that hold the same still do with the same lines for their stores. -/
theorem Alike.under (h : Alike id s t) (st : Fated) : Alike id (s.under st) (t.under st) :=
  { h with script := rfl }

/-- A move that does not poll the call does the same in alike systems. -/
theorem Alike.fate (h : Alike id s t) (hother : st.polls id = false) :
    Alike id (s.fate st) (t.fate st) ∧
      (s.under st).happens st.move = (t.under st).happens st.move := by
  have hm : ∀ reportFirst, st.move ≠ .poll (.call id) reportFirst := by
    intro reportFirst hmove
    simp [Fated.polls, hmove] at hother
  have hmove := (h.under st).move hm
  exact ⟨{ hmove with script := rfl }, (h.under st).happens hm⟩

/-! ### A poll of the call -/

/-- A move that polls a call is a poll of it, and nothing else. -/
theorem move_of_polls (hpolls : st.polls id = true) :
    ∃ reportFirst, st.move = .poll (.call id) reportFirst := by
  unfold Fated.polls at hpolls
  split at hpolls
  · next n reportFirst hmove =>
    have hid : n = id := of_decide_eq_true hpolls
    exact ⟨reportFirst, by rw [hmove, hid]⟩
  · cases hpolls

/-- A move that polls a call leaves the system after the poll, with no line left. -/
theorem fate_of_polls (s : System) (hpolls : st.polls id = true) :
    s.fate st = { (s.under st).pollCall id with script := [] } := by
  obtain ⟨reportFirst, hmove⟩ := move_of_polls hpolls
  simp only [System.fate, hmove, System.move]

/-- In a poll of a call there happens what comes of its request, if the store carries it out. -/
theorem happens_of_polls (s : System) (hpolls : st.polls id = true) :
    (s.under st).happens st.move = (s.desk.call? id).elim [] fun c =>
      if (s.under st).actsOn c then s.comesOf c.call else [] := by
  obtain ⟨reportFirst, hmove⟩ := move_of_polls hpolls
  rw [hmove]
  rfl

/-- A call that opens no watch changes nothing by what it does with its reply. -/
theorem answered_of_ne_watch (s : System) {call : Call} (hwatch : call.service ≠ .watch)
    (reply : Except Error call.service.Reply) : (s.answered call reply).1 = s := by
  cases call with
  | watch | watchAll => exact absurd rfl hwatch
  | listAll | next | drain => cases reply <;> rfl
  | _ => rfl

/-- The reply to a call that opens no watch only brings it to its next turn. -/
theorem conclude_of_ne_watch (s : System) (c : InFlight) (hwatch : c.call.service ≠ .watch)
    (reply : Except Error c.call.service.Reply) :
    s.conclude c reply = s.proceed c (s.answered c.call reply).2 := by
  simp only [conclude, answered_of_ne_watch s hwatch]

/-- An outcome takes a call that opens no watch to its next turn, and leaves a trace in
the journal. -/
theorem settle_of_ne_watch (s : System) (c : InFlight) (hwatch : c.call.service ≠ .watch)
    (started : Nat) (outcome : Outcome c.call.service.Reply) :
    ∃ journal turn, s.settle c started outcome = System.proceed { s with journal } c turn ∧
      c.call.Resumes outcome turn := by
  cases outcome with
  | ok reply => exact ⟨_, _, conclude_of_ne_watch _ c hwatch _, .ok _ reply⟩
  | failed error => exact ⟨_, _, conclude_of_ne_watch _ c hwatch _, .failed _ error⟩
  | aborted why => exact ⟨_, _, rfl, .aborted why⟩

/-- The system once a call took a turn, for everybody else: the call lets go of the broker
when it has ended. -/
def leftBy (s : System) (c : InFlight) : Turn → System
  | .ask _ => s
  | .done _ => if c.holdsBroker then s.release else s

/-- Systems that hold the same still do once a call took a turn. -/
theorem Alike.leftBy (h : Alike id s t) (c : InFlight) (turn : Turn) :
    Alike id (s.leftBy c turn) (t.leftBy c turn) := by
  cases turn with
  | ask call => exact h
  | done answer =>
    simp only [System.leftBy]
    split
    · exact h.release
    · exact h

/-- Others do not see what turn a call takes. -/
theorem alike_proceed (s : System) (c : InFlight) (turn : Turn) :
    Alike c.id (s.proceed c turn) (s.leftBy c turn) := by
  cases turn with
  | ask call =>
    refine { Alike.refl c.id s with calls := ?_ }
    simp only [proceed, List.filter_map]
    have hsame : ((fun other : InFlight => decide (other.id ≠ c.id)) ∘ fun other =>
        if other.id = c.id then { c with call, exchange := none } else other) =
          fun other => decide (other.id ≠ c.id) := by
      funext other
      simp only [Function.comp]
      split
      · next heq => rw [heq]
      · rfl
    rw [hsame]
    refine (List.map_congr_left fun other hmem => ?_).trans (List.map_id _)
    have hne : other.id ≠ c.id := of_decide_eq_true (List.mem_filter.1 hmem).2
    rw [if_neg hne]
    rfl
  | done answer =>
    have hended : Alike c.id
        { s.noteAll answer.notices with
          calls := (s.noteAll answer.notices).calls.filter fun other => other.id ≠ c.id
          finished := (s.noteAll answer.notices).finished ++ [(c.id, answer)] } s := by
      have hnoted := @Alike.noteAll c.id s answer.notices
      refine { hnoted with calls := ?_, finished := ?_ }
      · simp only [List.filter_filter, Bool.and_self]
        exact hnoted.calls
      · simp only [List.filter_append]
        rw [hnoted.finished]
        simp
    simp only [proceed, finish, leftBy]
    split
    · exact hended.release
    · exact hended

/-- Others do not see a call wait. -/
theorem alike_await (s : System) (c : InFlight) (due : Option Nat) :
    Alike c.id (s.await c due) s := by
  refine { Alike.refl c.id s with calls := ?_ }
  simp only [await, List.filter_append, List.filter_filter, Bool.and_self]
  simp

/-- The system once the store has carried out the request of a call. -/
def carriedOut (s : System) (call : Call) : System :=
  { s with store := (s.store.serve s.instant call.request).store }

/-- What a poll of a call that opens no watch comes to: it takes a turn `turn`, which may be
the one that it stands at. -/
structure Advances (s : System) (c : InFlight) (s' : System) (turn : Turn) : Prop where
  stands : s'.desk.standing c.id = some turn
  resumes : s.actsOn c = true →
    c.call.Resumes (s.store.serve s.instant c.call.request).outcome turn
  quiet : s.actsOn c = false →
    turn = .ask c.call ∨ ∃ t e, turn = (System.answered t c.call (.error e)).2
  alike : Alike c.id { s' with script := [] }
    { (if s.actsOn c then s.carriedOut c.call else s).leftBy c turn with script := [] }

/-- Letting go of the broker has nothing to do with the script. -/
theorem alike_leftBy_script (s : System) (c : InFlight) (turn : Turn) (script : Script) :
    Alike id { leftBy { s with script } c turn with script := [] }
      { s.leftBy c turn with script := [] } := by
  cases turn with
  | ask call => exact Alike.refl id _
  | done answer =>
    simp only [leftBy]
    split
    · let released : System :=
        { s with
          script := []
          holders := s.holders - 1
          stopped := s.stopped || decide (s.holders - 1 = 0) }
      have hscript : Alike id { release { s with script } with script := [] } released :=
        { @Alike.release_eq id { s with script } with script := rfl }
      have hplain : Alike id { s.release with script := [] } released :=
        { @Alike.release_eq id s with script := rfl }
      exact hscript.trans hplain.symm
    · exact Alike.refl id _

/-- A poll of a call that opens no watch brings it to a turn, which may be the one that it stands
at. -/
theorem Polled.advances {s' : System} (h : s.Polled c s') (hbooked : s.desk.Booked)
    (hfound : s.desk.call? c.id = some c) (hwatch : c.call.service ≠ .watch) :
    ∃ turn, s.Advances c s' turn := by
  have hstanding : s.desk.standing c.id = some (.ask c.call) := by rw [Desk.standing, hfound]
  cases h with
  -- a poll in which the store does not act leaves the call waiting, or tells it a failure
  | idle quiet =>
    refine ⟨.ask c.call, hstanding, fun hacts => ?_, fun _ => .inl rfl, ?_⟩
    · simp [quiet] at hacts
    · rw [quiet]
      exact Alike.refl _ _
  | waits script fewer due quiet =>
    refine ⟨.ask c.call, ?_, fun hacts => ?_, fun _ => .inl rfl, ?_⟩
    · have hwait := Desk.standing_wait hfound (some
        { started := s.now, deadline := s.now + s.settings.requestTimeout, due }) c.id
      rw [← hstanding, ← hwait]
      rfl
    · simp [quiet] at hacts
    · rw [quiet]
      exact { alike_await { s with script } c due with script := rfl }
  | fails script fewer journal error quiet =>
    rw [conclude_of_ne_watch _ c hwatch]
    generalize hturn : (System.answered { s with script, journal } c.call (.error error)).2 = turn
    refine ⟨turn, ?_, fun hacts => ?_, fun _ => .inr ⟨_, error, hturn.symm⟩, ?_⟩
    · have hproceed := hbooked.standing_proceed hfound turn c.id
      rw [if_pos rfl] at hproceed
      rw [desk_proceed, ← hproceed]
      rfl
    · simp [quiet] at hacts
    · have hothers := alike_proceed { s with script, journal } c turn
      have hjournal : Alike c.id { s with script, journal } { s with script } :=
        { Alike.refl c.id { s with script } with }
      have hall : Alike c.id
          { System.proceed { s with script, journal } c turn with script := [] }
          { leftBy { s with script } c turn with script := [] } :=
        { hothers.trans (hjournal.leftBy c turn) with script := rfl }
      rw [quiet]
      exact hall.trans (alike_leftBy_script s c turn script)
  -- a poll in which the store acts: the turn is the one that follows on the outcome
  | acts script fewer started acts =>
    let served := s.store.serve s.instant c.call.request
    let next : System :=
      System.wakeReaders { s with script, store := served.store } served.reached
    have hact : System.act { s with script } c started = next.settle c started served.outcome := rfl
    obtain ⟨journal, turn, hsettle, hresumes⟩ :=
      settle_of_ne_watch next c hwatch started served.outcome
    have hdesk : next.desk = s.desk.beside served.store := desk_wakeReaders _ _
    rw [hact, hsettle]
    refine ⟨turn, ?_, fun _ => hresumes, fun hquiet => ?_, ?_⟩
    · have hproceed := (hbooked.beside served.store).standing_proceed hfound turn c.id
      rw [if_pos rfl, ← hdesk] at hproceed
      rw [desk_proceed]
      exact hproceed
    · simp [acts] at hquiet
    -- for everybody else only the request and the end of the call can be seen
    · have hothers := alike_proceed { next with journal } c turn
      have hnext : Alike c.id { next with journal } { s with script, store := served.store } :=
        { @Alike.wakeReaders c.id
            ({ s with script, store := served.store } : System) served.reached with }
      have hall : Alike c.id { System.proceed { next with journal } c turn with script := [] }
          { leftBy { s.carriedOut c.call with script } c turn with script := [] } :=
        { hothers.trans (hnext.leftBy c turn) with script := rfl }
      rw [acts]
      exact hall.trans (alike_leftBy_script (s.carriedOut c.call) c turn script)

/-- A further request of a call comes from a reply to the one before. -/
theorem Advances.ask {s' : System} {next : Call} (h : s.Advances c s' (.ask next)) :
    next = c.call ∨ ∃ u reply, (System.answered u c.call reply).2 = .ask next := by
  cases hacts : s.actsOn c with
  | false =>
    rcases h.quiet hacts with hsame | ⟨u, e, hturn⟩
    · exact .inl (Turn.ask.inj hsame)
    · exact .inr ⟨u, .error e, hturn.symm⟩
  | true =>
    have hresumes := h.resumes hacts
    generalize (s.store.serve s.instant c.call.request).outcome = outcome at hresumes
    generalize hturn : Turn.ask next = turn at hresumes
    cases hresumes with
    | ok u reply => exact .inr ⟨u, _, rfl⟩
    | failed u error => exact .inr ⟨u, _, rfl⟩
    | aborted why => cases hturn

end System

end KeyBroker
