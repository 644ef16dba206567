import KeyBroker.Store.Request

/-!
# The journal

What the broker reports about itself: notices for its log, and observations from
which all measurements are counted. Both only ever grow, newest first.
-/

namespace KeyBroker

/-- A line of the log. -/
inductive Notice where
  | requestRejected
  | requestFailed
  | requestTimedOut
  | closeFailed
  | brokerDropped
  | writeIgnored
  | foreignKey
  | eventDropped
  | streamBroken
  /-- Subscriptions may hold this many undelivered events. -/
  | largeBuffer (size : Nat)
  deriving DecidableEq, Repr

/-- A line of the log as it is printed: its level and its text. -/
def Notice.line : Notice → String
  | .requestRejected => "WARN backend rejected request"
  | .requestFailed => "ERROR backend call failed"
  | .requestTimedOut => "ERROR backend call timed out"
  | .closeFailed => "ERROR backend close failed"
  | .brokerDropped => "WARN broker dropped without close(), cancelling outstanding work"
  | .writeIgnored => "WARN transaction already committed, operation ignored"
  | .foreignKey => "ERROR store returned a key outside the bound prefix"
  | .eventDropped => "WARN subscriber channel full, event dropped"
  | .streamBroken => "WARN watch stream broken"
  | .largeBuffer size =>
    s!"WARN watch.watcher_buffer_size ({size}) is very large. " ++
      "Each subscriber may hold that many undelivered events"

/-- A fact that measurements count. -/
inductive Observation where
  /-- A request to the store succeeded or failed. -/
  | served (service : Service) (ok : Bool)
  /-- A request ended, whatever its outcome, this many milliseconds after it began. -/
  | lasted (service : Service) (millis : Nat)
  /-- A dispatcher began to read its feed. -/
  | dispatchBegun
  | dispatchEnded
  | delivered (kind : EventKind)
  /-- An event of the subscription on the full stem `stem` was dropped. -/
  | dropped (stem : Key)
  deriving DecidableEq, Repr

/-- Everything reported so far, newest first. -/
structure Journal where
  notices : List Notice := []
  observations : List Observation := []

namespace Journal

/-- The journal with one more line of the log. -/
def note (journal : Journal) (notice : Notice) : Journal :=
  { journal with notices := notice :: journal.notices }

/-- The journal with one more fact to count. -/
def observe (journal : Journal) (observation : Observation) : Journal :=
  { journal with observations := observation :: journal.observations }

/-- How often a fact was observed. -/
def count (journal : Journal) (observation : Observation) : Nat :=
  journal.observations.countP (decide <| · = observation)

/-- The notices made since there were `before` of them, oldest first. -/
def noticesSince (journal : Journal) (before : Nat) : List Notice :=
  (journal.notices.take (journal.notices.length - before)).reverse

end Journal

end KeyBroker
