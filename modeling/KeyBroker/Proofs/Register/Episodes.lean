import KeyBroker.Proofs.Delivery.Dropping
import KeyBroker.Proofs.System.Desk

/-!
# What befalls subscriptions

A subscription begins when the caller gets its handle. It ends when its subscriber
unsubscribes, when the broker is closed or dropped, when the loss of its stream has been
reported, or when there was an event to deliver and nobody to receive it. These are its
episodes. They are read off what callers, senders and receivers see, not off the register,
so that the register can be held against them.

The runs here leave nothing out: others send on the channels and feeds, streams end by
themselves, and the store may make up its replies.
-/

namespace KeyBroker

/-- Something that happens to a system whose store may be any other. -/
inductive Incident where
  | occur (occurrence : Occurrence)
  /-- The store is given a line that may make up a reply. -/
  | plan (line : ScriptLine)
  /-- The sending side of a feed goes away. -/
  | finish (feed : Nat)

/-- Something that befalls one subscription or all of them. -/
inductive Episode where
  /-- The caller got the handle of a subscription. -/
  | opened (id : Nat)
  | unsubscribed (id : Nat)
  /-- The broker was closed or dropped. -/
  | shutDown
  /-- The loss of its stream was reported, or there was nobody to report it to. -/
  | reported (id : Nat)
  /-- There was an event to deliver and nobody to receive it. -/
  | abandoned (id : Nat)
  deriving DecidableEq, Repr

namespace Episode

/-- Whether an episode ends this subscription and no other. -/
def ends (id : Nat) : Episode → Bool
  | .unsubscribed other | .reported other | .abandoned other => decide (other = id)
  | .opened _ | .shutDown => false

/-- The subscription that an episode opens. -/
def opened? : Episode → Option Nat
  | .opened id => some id
  | _ => none

/-- The subscriptions after an episode, if the broker is not shut down. -/
def book (open' : List Nat) : Episode → List Nat
  | .opened id => open' ++ [id]
  | episode => open'.filter fun id => !episode.ends id

/-- The subscriptions after episodes in order. -/
def bookAll (episodes : List Episode) : List Nat := episodes.foldl book []

/-- A subscription was opened, and nothing since has ended it by itself. -/
def Lives (episodes : List Episode) (id : Nat) : Prop :=
  ∃ before after, episodes = before ++ .opened id :: after ∧ ∀ e ∈ after, e.ends id = false

/-- The subscriptions after episodes in two parts are those after the second part, on top of the
first. -/
theorem bookAll_append (episodes more : List Episode) :
    bookAll (episodes ++ more) = more.foldl book (bookAll episodes) :=
  List.foldl_append

/-- A subscription is there after an episode if the episode opened it, or it was there and was not
ended. -/
theorem mem_book {open' : List Nat} {episode : Episode} {id : Nat} :
    id ∈ book open' episode ↔ episode = .opened id ∨ id ∈ open' ∧ episode.ends id = false := by
  cases episode with
  | opened other => simp [book, ends, or_comm, eq_comm]
  | _ => simp [book, ends]

/-- A subscription lives after episodes if the first opened it and no other ended it, or if it
lives by the others alone. -/
theorem lives_cons_iff {first : Episode} {rest : List Episode} {id : Nat} :
    Lives (first :: rest) id ↔
      (first = .opened id ∧ ∀ e ∈ rest, e.ends id = false) ∨ Lives rest id := by
  constructor
  · rintro ⟨before, after, heq, hafter⟩
    cases before with
    | nil =>
      obtain ⟨rfl, rfl⟩ := List.cons.inj heq
      exact .inl ⟨rfl, hafter⟩
    | cons head before =>
      obtain ⟨rfl, rfl⟩ := List.cons.inj heq
      exact .inr ⟨before, after, rfl, hafter⟩
  · rintro (⟨rfl, hafter⟩ | ⟨before, after, rfl, hafter⟩)
    · exact ⟨[], rest, rfl, hafter⟩
    · exact ⟨first :: before, after, rfl, hafter⟩

/-- A subscription is there after episodes if it was there before and none ended it, or if it
lives by them. -/
theorem mem_foldl_book {episodes : List Episode} {open' : List Nat} {id : Nat} :
    id ∈ episodes.foldl book open' ↔
      (id ∈ open' ∧ ∀ e ∈ episodes, e.ends id = false) ∨ Lives episodes id := by
  induction episodes generalizing open' with
  | nil => simp [Lives]
  | cons first rest ih =>
    rw [List.foldl_cons, ih, mem_book, lives_cons_iff, List.forall_mem_cons]
    constructor
    · rintro (⟨hopened | ⟨hmem, hfirst⟩, hrest⟩ | hlives)
      · exact .inr (.inl ⟨hopened, hrest⟩)
      · exact .inl ⟨hmem, hfirst, hrest⟩
      · exact .inr (.inr hlives)
    · rintro (⟨hmem, hfirst, hrest⟩ | ⟨hopened, hrest⟩ | hlives)
      · exact .inl ⟨.inr ⟨hmem, hfirst⟩, hrest⟩
      · exact .inl ⟨.inl hopened, hrest⟩
      · exact .inr hlives

/-- The book has the subscriptions that live. -/
theorem mem_bookAll_iff {episodes : List Episode} {id : Nat} :
    id ∈ bookAll episodes ↔ Lives episodes id := by
  simp [bookAll, mem_foldl_book]

end Episode

/-! ### The end of a dispatcher -/

namespace Dispatch

variable {d : Dispatch} {policy : SlowPolicy} {stop reportFirst : Bool}

/-- Whether the dispatcher has an event of its subscription to deliver. -/
def delivers (d : Dispatch) (policy : SlowPolicy) : Bool :=
  match d.dispatcher.phase with
  | .sending _ => true
  | .reading =>
    match policy, d.feed.queue with
    | .dropAndSignal, .ok event :: _ => d.dispatcher.subscription.stem.beginsWith event.key
    | _, _ => false
  | _ => false

/-- Whether a step sends the report of a lost stream. -/
def reportsIn (d : Dispatch) (step : Step) : Bool :=
  match step.after.channel.items.drop d.channel.items.length with
  | [(_, .error (.watchStreamBroken ..))] => true
  | _ => false

/-- What a step brings upon the subscription of the dispatcher. -/
def endings (d : Dispatch) (policy : SlowPolicy) (stop reportFirst : Bool) : List Episode :=
  let id := d.dispatcher.subscription.id
  let gone := !d.channel.received
  if d.dispatcher.phase.reports then
    if (reportFirst || !stop) && (gone || d.reportsIn (d.step policy stop reportFirst)) then
      [.reported id]
    else []
  else if !stop && gone && d.delivers policy then [.abandoned id]
  else []

end Dispatch

namespace Wiring

/-- What a step of a dispatcher brings upon its subscription. -/
def endings (w : Wiring) (d : Dispatcher) (reportFirst : Bool) : List Episode :=
  (w.dispatchOf d).endings w.policy (w.stopped || d.cancelled) reportFirst

end Wiring

/-! ### Runs -/

/-- The handles that a call has got. -/
def Turn.handles : Turn → List Handle
  | .ask (.watchAll _ _ held _ _) => held
  | .done (.watching (.ok handle)) => [handle]
  | .done (.watchingAll (.ok handles)) => handles
  | _ => []

/-- Whether a call for several handles has failed, and gives back those it had. -/
def Turn.givesBack : Turn → Bool
  | .done (.watchingAll (.error _)) => true
  | _ => false

/-- Whether a call has its answer. -/
def Turn.isDone : Turn → Bool
  | .done _ => true
  | .ask _ => false

/-- What a turn brings upon subscriptions, if its call had some handles before: those whose
handles are new are opened, and those are given up whose handles are given back. -/
def Turn.brings (had : List Handle) (turn : Turn) : List Episode :=
  (turn.handles.drop had.length).map (fun handle => .opened handle.id) ++
    if turn.givesBack then had.map fun handle => .unsubscribed handle.id else []

namespace System

/-- The system after an incident. -/
def incur (s : System) : Incident → System
  | .occur o => s.occur o
  | .plan line => { s with script := s.script ++ [line] }
  | .finish n => { s with store := s.store.onFeed n (·.finish) }

/-- The system after incidents in order. -/
def incurs (s : System) (run : List Incident) : System := run.foldl incur s

/-- Where a call that is under way stands after it is polled. -/
def turnOf (s : System) (c : InFlight) : Option Turn := (s.pollCall c.id).desk.standing c.id

/-- What a poll of a call brings upon subscriptions. A call that was the last to hold the
broker drops it when it ends. -/
def answers (s : System) (c : InFlight) : List Episode :=
  (s.turnOf c).elim [] fun turn =>
    turn.brings (Turn.ask c.call).handles ++
      if turn.isDone && c.holdsBroker && s.holders ≤ 1 then [.shutDown] else []

/-- What a move brings upon subscriptions. -/
def affects (s : System) : Move → List Episode
  | .poll (.call id) _ => (s.desk.call? id).elim [] s.answers
  | .poll (.dispatcher id) reportFirst =>
    (s.dispatcher? id).elim [] fun d =>
      if d.credit = 0 then [] else s.wiring.endings d reportFirst
  | .close _ => [.shutDown]
  | .release => if s.holders ≤ 1 then [.shutDown] else []
  | .unsubscribe id => [.unsubscribed id]
  | _ => []

/-- What an incident brings upon subscriptions. -/
def befalls (s : System) : Incident → List Episode
  | .occur (.move m) => s.affects m
  | _ => []

/-- What incidents in order bring upon subscriptions. -/
def episodes (s : System) : List Incident → List Episode
  | [] => []
  | i :: run => s.befalls i ++ (s.incur i).episodes run

/-- Incidents in order come one after the other. -/
@[simp] theorem incurs_cons (s : System) (i : Incident) (run : List Incident) :
    s.incurs (i :: run) = (s.incur i).incurs run := rfl

/-- No dispatcher has anything to do but wait. -/
def AtRest (s : System) : Prop :=
  ∀ d ∈ s.dispatchers, ∀ reportFirst, (s.wiring.stepOf d reportFirst).pace = .waiting

instance (s : System) : Decidable s.AtRest :=
  inferInstanceAs
    (Decidable (∀ d ∈ s.dispatchers, ∀ reportFirst,
      (s.wiring.stepOf d reportFirst).pace = .waiting))

end System

end KeyBroker
