import KeyBroker.Duration
import KeyBroker.Key
import KeyBroker.Text.Quoted

/-!
# Errors

There are two layers. A `StorageError` is what the store says about one call; an
`Error` is what a caller of the broker sees. A failure of the store is wrapped
with the name of the call that met it, except that a refused argument and a
compacted revision get kinds of their own. An `Abort` is no answer at all: the
call stopped at a limit of the machine.
-/

namespace KeyBroker

/-- What the store reports about a single call. -/
inductive StorageError where
  /-- The store cannot be reached. -/
  | unavailable (reason : String)
  /-- The store did not answer within the time allowed. -/
  | timeout (allowed : Duration)
  /-- The connection to the store was closed. -/
  | closed
  /-- The revision asked for is older than the compaction point. -/
  | compacted (requested floor : Nat)
  /-- The store refused the request. -/
  | invalidArgument (reason : String)
  deriving DecidableEq, Repr

/-- The text of a store's report. -/
def StorageError.message : StorageError → String
  | .unavailable reason => "Backend unavailable: " ++ reason
  | .timeout allowed => "Backend request timed out after " ++ allowed.text
  | .closed => "Backend connection closed"
  | .compacted requested floor =>
    s!"Revision {requested} compacted (compacted revision: {floor})"
  | .invalidArgument reason => "Invalid argument: " ++ reason

/-- What a caller of the broker, of a view, of a transaction or of a
subscription is told. -/
inductive Error where
  /-- An empty or refused key on a write. -/
  | invalidKey (reason : String)
  /-- The store failed during the named call. -/
  | storeUnavailable (during : String) (cause : StorageError)
  /-- The broker is closed. -/
  | closed
  /-- The transaction was committed before. -/
  | alreadyCommitted
  /-- The native stream behind a subscription on `stem` ended. -/
  | watchStreamBroken (stem : Key) (reason : String)
  /-- Events were dropped for a slow subscriber. -/
  | watchLagged (missed : Nat)
  /-- A listing outlived the history that the store keeps. -/
  | snapshotCompacted (requested floor : Nat)
  /-- The store handed a view a key outside its scope. -/
  | scopeViolation (key scope : Key)
  /-- A setting is out of range. -/
  | invalidSettings (reason : String)
  deriving DecidableEq, Repr

namespace Error

/-- The text shown to the caller. -/
def message : Error → String
  | .invalidKey reason => "Invalid key: " ++ reason
  | .storeUnavailable during cause => s!"Store unavailable during {during}: " ++ cause.message
  | .closed => "Broker is closed"
  | .alreadyCommitted => "Transaction already committed"
  | .watchStreamBroken stem reason =>
    "Watch stream for prefix " ++ Text.quoted stem ++ " broken: " ++ reason
  | .watchLagged missed => s!"Watch subscriber lagged, {missed} event(s) dropped"
  | .snapshotCompacted requested floor =>
    s!"Snapshot revision {requested} has been compacted (compacted up to {floor})"
  | .scopeViolation key scope =>
    "Key " ++ Text.quoted key ++ " does not start with scope prefix " ++ Text.quoted scope
  | .invalidSettings reason => "Invalid config: " ++ reason

/-- Whether the same call may succeed later without a change by the caller. -/
def isRetryable : Error → Bool
  | .storeUnavailable .. | .watchStreamBroken .. => true
  | _ => false

/-- The store's report behind an error, if there is one. -/
def cause? : Error → Option StorageError
  | .storeUnavailable _ cause => some cause
  | _ => none

/-- Names the call that met a failure of the store. A refused argument and a
compacted revision keep their own kinds, which name no call. -/
def ofStorage (during : String) : StorageError → Error
  | .invalidArgument reason => .invalidKey reason
  | .compacted requested floor => .snapshotCompacted requested floor
  | cause => .storeUnavailable during cause

end Error

/-- A limit of the machine at which a call stops without an answer. -/
inductive Abort where
  /-- A deadline beyond the range of the clock. -/
  | deadline
  /-- A page buffer larger than memory can be asked for. -/
  | pageBuffer
  /-- A channel that holds nothing, or more items than a channel can count. -/
  | channelCapacity
  deriving DecidableEq, Repr

/-- How a call on the store ends. -/
inductive Outcome (α : Type) where
  | ok (value : α)
  | failed (error : StorageError)
  | aborted (why : Abort)
  deriving DecidableEq, Repr

end KeyBroker
