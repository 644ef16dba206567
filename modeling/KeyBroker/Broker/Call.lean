import KeyBroker.Broker.Batch
import KeyBroker.Broker.Listing
import KeyBroker.Settings.Basic

/-!
# Calls on the broker

A call on the broker is a short sequence of requests to the store, most often one.
`Call` is a call that has a request to make, and `Turn` says what a call does
next: make a request or answer. The functions that begin a call decide what needs
no request at all, such as a write to an empty key. Every call takes the scope of
the view it was made on, which is empty for the broker itself.
-/

namespace KeyBroker

/-- A subscriber's hold on its subscription. -/
structure Handle where
  id : Nat
  /-- The stem as the subscriber gave it. -/
  stem : Key
  deriving DecidableEq, Repr

/-- A call with a request to make. -/
inductive Call where
  | put (scope key : Key) (value : Bytes) (ttl : Option Duration)
  | get (scope key : Key)
  | delete (scope key : Key)
  | deletePrefix (scope stem : Key)
  /-- The first page of a listing. -/
  | list (listing : Listing)
  /-- The first page of a listing that is then read to its end. -/
  | listAll (listing : Listing)
  /-- The next page of a listing, for one pair. -/
  | next (listing : Listing)
  /-- The next page of a listing that is read to its end. -/
  | drain (listing : Listing) (taken : List KeyValue)
  | commit (batch : Batch) (writes : List Write)
  | watch (scope stem : Key) (channel : Nat)
  /-- A watch on `stem`, then on `rest`, all on one channel, after those `held`. -/
  | watchAll (scope : Key) (channel : Nat) (held : List Handle) (stem : Key) (rest : List Key)
  | close
  deriving DecidableEq, Repr

/-- The answer of a call. -/
inductive Answer where
  | written (result : Except Error Unit)
  | found (result : Except Error (Option KeyValue))
  | deleted (result : Except Error Bool)
  | deletedPrefix (result : Except Error Nat)
  | listing (result : Except Error Listing)
  /-- One step of a listing, with the listing after it. -/
  | stepped (listing : Listing) (result : Except Error (Option KeyValue))
  /-- Everything a listing still held, up to its first failure. -/
  | drained (taken : List KeyValue) (failure : Option Error)
  /-- A commit, with the batch after it. -/
  | committed (batch : Batch) (result : Except Error Unit)
  | watching (result : Except Error Handle)
  | watchingAll (result : Except Error (List Handle))
  | closed (result : Except Error Unit)
  | aborted (why : Abort)

/-- The error that an answer reports, if it reports one. -/
def Answer.failure? : Answer → Option Error
  | .written (.error e) | .found (.error e) | .deleted (.error e) | .deletedPrefix (.error e)
  | .listing (.error e) | .stepped _ (.error e) | .drained _ (some e) | .committed _ (.error e)
  | .watching (.error e) | .watchingAll (.error e) | .closed (.error e) => some e
  | _ => none

/-- What the log says about an answer: a key outside the scope is an error. -/
def Answer.notices (answer : Answer) : List Notice :=
  match answer.failure? with
  | some (.scopeViolation ..) => [.foreignKey]
  | _ => []

/-- What a call does next. -/
inductive Turn where
  | ask (call : Call)
  | done (answer : Answer)

namespace Call

/-- The service that a call's request goes to. -/
@[reducible]
def service : Call → Service
  | .put .. => .put
  | .get .. => .get
  | .delete .. | .deletePrefix .. => .delete
  | .list .. | .listAll .. | .next .. | .drain .. => .range
  | .commit .. => .txn
  | .watch .. | .watchAll .. => .watch
  | .close => .close

/-- The request that a call makes, with full keys. -/
def request : (call : Call) → Request call.service
  | .put scope key value ttl => .put (scope.qualify key) value ttl
  | .get scope key => .get (scope.qualify key)
  | .delete scope key => .delete (scope.qualify key) false
  | .deletePrefix scope stem => .delete (scope.qualify stem) true
  | .list listing | .listAll listing => .range (listing.query none)
  | .next listing | .drain listing _ => .range (listing.query (some listing.revision))
  | .commit _ writes => .txn writes
  | .watch scope stem _ => .watch (scope.qualify stem)
  | .watchAll scope _ _ stem _ => .watch (scope.qualify stem)
  | .close => .close

/-- The channel that a call keeps open while it is under way. -/
def channel? : Call → Option Nat
  | .watch _ _ channel | .watchAll _ channel .. => some channel
  | _ => none

/-- The refusal of a write to an empty key. -/
def emptyKey : Error := .invalidKey "key must not be empty"

/-- Begins a put. -/
def beginPut (scope key : Key) (value : Bytes) (ttl : Option Duration) : Turn :=
  if key.isEmpty then .done (.written (.error emptyKey)) else .ask (.put scope key value ttl)

/-- Begins the deletion of one key. -/
def beginDelete (scope key : Key) : Turn :=
  if key.isEmpty then .done (.deleted (.error emptyKey)) else .ask (.delete scope key)

/-- Begins a listing, which needs its page buffer before anything else. -/
def beginList (settings : Settings) (scope stem : Key) (keysOnly : Bool)
    (call : Listing → Call) : Turn :=
  if pageBufferFits settings.pageSize then
    .ask (call (.opening scope stem settings.pageSize keysOnly))
  else .done (.aborted .pageBuffer)

/-- Begins one step of a listing. -/
def beginNext (listing : Listing) : Turn :=
  if listing.needsPage then .ask (.next listing)
  else
    let (listing, result) := listing.take
    .done (.stepped listing result)

/-- Goes on reading a listing to its end: hands out its buffer, then asks for the
next page if there is one. -/
def continueDrain (listing : Listing) (taken : List KeyValue) : Turn :=
  match Listing.revealAll listing.scope listing.buffer with
  | (shown, some failure) => .done (.drained (taken ++ shown) (some failure))
  | (shown, none) =>
    let rest := { listing with buffer := [] }
    if listing.more then .ask (.drain rest (taken ++ shown))
    else .done (.drained (taken ++ shown) none)

/-- Begins a commit on a broker that is `stopped` or not. The recorded writes are
taken when the call is launched and not at its first poll; nobody can record more
in between, as the call has the batch to itself. -/
def beginCommit (batch : Batch) (stopped : Bool) : Turn :=
  match batch.commit stopped with
  | (batch, .settled result) => .done (.committed batch result)
  | (batch, .send writes) => .ask (.commit batch writes)

/-- Begins watches on several stems. -/
def beginWatchAll (scope : Key) (channel : Nat) : List Key → Turn
  | [] => .done (.watchingAll (.ok []))
  | stem :: rest => .ask (.watchAll scope channel [] stem rest)

/-- What a read of one page does for a listing that is read to its end. A page
without pairs ends it, even if the store says that there is more. -/
def drainPage (listing : Listing) (taken : List KeyValue) (page : Page) : Turn :=
  if page.pairs.isEmpty then .done (.drained taken none)
  else continueDrain (listing.absorb page) taken

end Call

end KeyBroker
