import KeyBroker.Session.Step

/-!
# Objects of a session

Each kind of object has its own table of names. Giving a name to a new object
drops the object that had it.
-/

namespace KeyBroker.Session

/-- A listing that is stepped by hand. As a stream it is over at its end or its
first failure, and then has no listing. -/
structure Cursor where
  listing : Option Listing
  keysOnly : Bool
  streaming : Bool := false

/-- The receiving end of something. -/
inductive Inlet where
  | channel (channel : Nat)
  | subscription (channel : Nat) (handle : Handle)
  /-- A native watch that the session opened itself. -/
  | feed (feed : Nat)

/-- A call that runs on its own. -/
structure Task where
  call : Nat
  keysOnly : Bool := false
  /-- The name that the batch of a commit gets back. -/
  batch : Option String := none

/-- A session between two of its steps. -/
structure State where
  system : System
  /-- Whether the session still has the broker. -/
  hasBroker : Bool := true
  views : Names Key := []
  cursors : Names Cursor := []
  batches : Names Batch := []
  /-- Senders that keep a channel open. -/
  senders : Names Nat := []
  inlets : Names Inlet := []
  handles : Names Handle := []
  tasks : Names Task := []

namespace State

/-- The session with its system changed. -/
def withSystem (s : State) (system : System) : State := { s with system }

/-- The scope of the broker or of a view, if there is such a thing. -/
def scope? (s : State) : Option String → Option Key
  | none => if s.hasBroker then some [] else none
  | some name => s.views.find? name

/-- Drops the object behind an inlet. -/
def dropInlet (s : State) : Inlet → State
  | .channel n | .subscription n _ => s.withSystem (s.system.dropReceiver n)
  | .feed n => s.withSystem { s.system with store := s.system.store.onFeed n (·.leave) }

/-- Names an inlet. -/
def bindInlet (s : State) (name : String) (inlet : Inlet) : State :=
  let s := (s.inlets.find? name).elim s s.dropInlet
  { s with inlets := s.inlets.bind name inlet }

/-- Lets go of a sender that the session kept. -/
def dropSender (s : State) (name : String) : State :=
  match s.senders.find? name with
  | none => s
  | some n =>
    { s with
      system := s.system.onChannel n fun c => { c with held := false }
      senders := s.senders.remove name }

/-- A handle as it is shown. -/
def showHandle (s : State) (h : Handle) : Shown := .handle h (s.system.isActive h.id)

/-- The handle of a name, or of the subscription of that name. -/
def handle? (s : State) (name : String) : Option Handle :=
  match s.handles.find? name with
  | some h => some h
  | none =>
    match s.inlets.find? name with
    | some (.subscription _ h) => some h
    | _ => none

end State

end KeyBroker.Session
