import KeyBroker.Proofs.System.Calling

/-!
# Clients of a view

A client makes calls through one view of a broker, one after the other, and keeps the
listings and the batches that it begins. Between its calls anything may happen to the
broker that touches no key under the scope of the view: calls of others, subscriptions
and their dispatchers, requests to the store past the broker. What the client sees of its
answers does not include the revisions.
-/

namespace KeyBroker

/-- What a client does: a call through its view, or waiting until a moment. Listings and batches
go by their places among those that the client began. -/
inductive Doing where
  | put (key : Key) (value : Bytes) (ttl : Option Duration)
  | get (key : Key)
  | delete (key : Key)
  | deletePrefix (stem : Key)
  | list (stem : Key) (keysOnly : Bool)
  | next (listing : Nat)
  | begin
  /-- A put recorded in a batch, or without a value a deletion. -/
  | record (batch : Nat) (key : Key) (value : Option Bytes)
  | commit (batch : Nat)
  | pass (moment : Nat)

/-- Whether a call puts no value for a limited time. -/
def Doing.untimed : Doing → Bool
  | .put _ _ (some _) => false
  | _ => true

/-- What a client sees of an answer. -/
inductive Seen where
  | done
  | pair (pair : Option KeyValue)
  | pairs (taken : List KeyValue) (failure : Option Error)
  | flag (existed : Bool)
  | count (number : Nat)
  | failed (error : Error)
  | aborted (why : Abort)
  deriving DecidableEq

/-- What is seen of a result. -/
def Seen.of {α : Type} (show' : α → Seen) : Except Error α → Seen
  | .ok a => show' a
  | .error e => .failed e

namespace Answer

/-- What a client sees of an answer. -/
def seen : Answer → Seen
  | .written result => .of (fun _ => .done) result
  | .found result => .of (fun pair => .pair (pair.map (·.undated))) result
  | .deleted result => .of .flag result
  | .deletedPrefix result => .of .count result
  | .listing result => .of (fun _ => .done) result
  | .stepped _ result => .of (fun pair => .pair (pair.map (·.undated))) result
  | .drained taken failure => .pairs (taken.map (·.undated)) failure
  | .committed _ result => .of (fun _ => .done) result
  | .watching result => .of (fun _ => .done) result
  | .watchingAll result => .of (fun _ => .done) result
  | .closed result => .of (fun _ => .done) result
  | .aborted why => .aborted why

/-- The listing that comes with an answer. -/
def listing? : Answer → Option Listing
  | .listing (.ok kept) | .stepped kept _ => some kept
  | _ => none

/-- The batch that comes with an answer. -/
def batch? : Answer → Option Batch
  | .committed batch _ => some batch
  | _ => none

end Answer

/-- A broker with the listings and batches that a client of it has begun. -/
structure Client where
  system : System
  listings : List Listing := []
  batches : List Batch := []

/-- A step of a run: the client does something, or something else happens that touches no key
under the scope of its view. -/
inductive Step (scope : Key) where
  | own (doing : Doing)
  | other (m : Move) (spares : m.Spares scope)

/-- What the client does in a step. -/
def Step.doing? {scope : Key} : Step scope → Option Doing
  | .own doing => some doing
  | .other .. => none

/-- All that the client does in a run, and when. -/
def plan {scope : Key} (run : List (Step scope)) : List Doing := run.filterMap (·.doing?)

namespace Client

/-- The client of a new broker. -/
def new (settings : Settings) : Client := { system := { settings } }

variable {scope : Key}

/-- What a call through the view of `scope` begins with. Recording a write is no call. -/
def turn? (c : Client) (scope : Key) : Doing → Option Turn
  | .put key value ttl => some (Call.beginPut scope key value ttl)
  | .get key => some (.ask (.get scope key))
  | .delete key => some (Call.beginDelete scope key)
  | .deletePrefix stem => some (.ask (.deletePrefix scope stem))
  | .list stem keysOnly => some (Call.beginList c.system.settings scope stem keysOnly .list)
  | .next n => (c.listings[n]?).map Call.beginNext
  | .commit n => (c.batches[n]?).map fun batch => Call.beginCommit batch c.system.stopped
  | .begin | .record .. | .pass _ => none

/-- The moves of what the client does. -/
def moves (c : Client) (scope : Key) (doing : Doing) : List Move :=
  match c.turn? scope doing with
  | some turn => c.system.making turn
  | none =>
    match doing with
    | .pass moment => [.pass moment]
    | _ => []

/-- The answer to what the client does. -/
def answer? (c : Client) (scope : Key) (doing : Doing) : Option Answer :=
  (c.turn? scope doing).bind c.system.made?

/-- The client once it has kept what comes with an answer. -/
def keep (c : Client) (scope : Key) (answer? : Option Answer) : Doing → Client
  | .list .. => { c with listings := c.listings ++ (answer?.bind (·.listing?)).toList }
  | .next n =>
    match answer?.bind (·.listing?) with
    | some listing => { c with listings := c.listings.set n listing }
    | none => c
  | .begin => { c with batches := c.batches ++ [{ scope }] }
  | .record n key value =>
    let write := fun key => (value.map (Write.put key)).getD (.delete key)
    { c with batches := c.batches.modify n fun batch => batch.record key write }
  | .commit n =>
    match answer?.bind (·.batch?) with
    | some batch => { c with batches := c.batches.set n batch }
    | none => c
  | _ => c

/-- The client after it has done something. -/
def after (c : Client) (scope : Key) (doing : Doing) : Client :=
  keep { c with system := c.system.moves (c.moves scope doing) } scope (c.answer? scope doing) doing

/-- The client after a step. -/
def step (c : Client) : Step scope → Client
  | .own doing => c.after scope doing
  | .other m _ => { c with system := c.system.move m }

/-- The client after steps in order. -/
def steps (c : Client) (run : List (Step scope)) : Client := run.foldl step c

/-- What a step does that concerns subscribers. -/
def happens (c : Client) : Step scope → List Happening
  | .own doing => c.system.happenings (c.moves scope doing)
  | .other m _ => c.system.happens m

/-- What steps in order do that concerns subscribers. -/
def happenings (c : Client) : List (Step scope) → List Happening
  | [] => []
  | st :: run => c.happens st ++ (c.step st).happenings run

/-- What the client sees in steps in order. -/
def sees (c : Client) : List (Step scope) → List (Option Seen)
  | [] => []
  | .own doing :: run => (c.answer? scope doing).map (·.seen) :: (c.after scope doing).sees run
  | .other m spares :: run => (c.step (.other m spares)).sees run

end Client

end KeyBroker
