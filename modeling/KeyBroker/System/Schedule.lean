import KeyBroker.System.Poll

/-!
# Scheduling

Ready workers are polled in the order in which they became ready. When nobody is
ready, those who rest go on, and when nobody rests, the system can only go on in
time: the clock jumps to the next
moment at which a waiting call is looked at. All waits of one moment end together
in the order in which they began, except that the call somebody stands waiting
for comes first.
-/

namespace KeyBroker.System

/-- How many polls, or jumps of the clock, a schedule makes before it gives up. No
run comes near it: a worker that is polled without need does not become ready
again. -/
def patience : Nat := 1000000000000

/-- Polls ready workers, at most `fuel` times. -/
def settleFor (s : System) : (fuel : Nat) → System
  | 0 => s
  | fuel + 1 =>
    match s.ready with
    | [] => if s.resting.isEmpty then s else s.endRest.settleFor fuel
    | worker :: rest => ({ s with ready := rest }.poll worker).settleFor fuel

/-- Polls ready workers until none is left and nobody rests. -/
def settled (s : System) : System := s.settleFor patience

/-- The next moment at which a waiting call is looked at. -/
def nextMoment? (s : System) : Option Nat :=
  (s.calls.filterMap fun c => c.exchange.map (·.wakeAt)).min?

/-- Moves the clock and wakes the calls whose moment has come, call `first` before
all others. -/
def jump (s : System) (moment : Nat) (first : Option Nat) : System :=
  let due := (s.calls.filter fun c => c.exchange.any (·.wakeAt ≤ moment)).map (·.id)
  let ahead := due.filter (some · = first)
  let behind := due.filter (some · ≠ first)
  { s with now := moment }.wakeAll ((ahead ++ behind).map .call)

/-- Lets `millis` pass, stopping at every moment at which a call is looked at. -/
def advanceFor (s : System) (target : Nat) : (fuel : Nat) → System
  | 0 => { s with now := target }
  | fuel + 1 =>
    match s.nextMoment? with
    | some moment =>
      if moment ≤ target then ((s.jump moment none).settled).advanceFor target fuel
      else { s with now := target }
    | none => { s with now := target }

/-- Lets `millis` pass. -/
def advance (s : System) (millis : Nat) : System :=
  s.advanceFor (s.now + millis) (millis + 1)

/-- The answer of a call that has ended, which is taken away. -/
def takeAnswer (s : System) (id : Nat) : Option (Answer × System) :=
  (s.finished.find? (·.1 = id)).map fun (_, answer) =>
    (answer, { s with finished := s.finished.filter (·.1 ≠ id) })

/-- Runs the system until call `id` has ended, moving the clock when nobody is
ready. -/
def untilAnswer (s : System) (id : Nat) : (fuel : Nat) → System × Option Answer
  | 0 => (s, none)
  | fuel + 1 =>
    match s.takeAnswer id with
    | some (answer, s) => (s, some answer)
    | none =>
      match s.ready with
      | worker :: rest => ({ s with ready := rest }.poll worker).untilAnswer id fuel
      | [] =>
        if s.resting.isEmpty then
          match s.nextMoment? with
          | some moment => (s.jump moment (some id)).untilAnswer id fuel
          | none => (s, none)
        else s.endRest.untilAnswer id fuel

/-- Begins a call and tells its number. -/
def launch (s : System) (turn : Turn) (holdsBroker : Bool) : System × Nat :=
  let id := s.nextCall
  let s := { s with nextCall := id + 1 }
  match turn with
  | .done answer =>
    ({ s.noteAll answer.notices with finished := s.finished ++ [(id, answer)] }, id)
  | .ask call =>
    let holders := if holdsBroker then s.holders + 1 else s.holders
    let begun : InFlight := { id := id, call := call, holdsBroker := holdsBroker }
    let s : System := { s with calls := s.calls ++ [begun], holders := holders }
    (s.wake (.call id), id)

/-- Makes a call and waits for its answer. -/
def run (s : System) (turn : Turn) : System × Option Answer :=
  let (s, id) := s.launch turn false
  s.untilAnswer id patience

/-- What closing begins with: the first time it stops the broker and asks the
store, later it has nothing to do. -/
def beginClose (s : System) : System × Turn :=
  if s.closing then (s, .done (.closed (.ok ())))
  else ({ s with closing := true }.stop, .ask .close)

/-- Cuts or restores the connection to the store. -/
def setAvailable (s : System) (available : Bool) : System :=
  let watchers := s.store.watchers
  let s := { s with store := s.store.setAvailable available }
  if available then s else s.wakeReaders (watchers.map (·.feed))

/-- Asks the store directly, past the broker and past any script. -/
def serveDirectly (s : System) {service : Service} (request : Request service) :
    System × Outcome service.Reply :=
  let served := s.store.serve (s.now * Duration.millisecond) request
  ({ s with store := served.store }.wakeReaders served.reached, served.outcome)

end KeyBroker.System
