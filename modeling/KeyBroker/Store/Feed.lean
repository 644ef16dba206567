import KeyBroker.Ledger.Basic

/-!
# Feeds

A feed carries the events of one native watch from the store to its reader. It
has no bound: the sending side never waits. Either side may go away. Without a
reader nothing is kept; without a sender the reader gets what is left and then
learns that the feed has ended.
-/

namespace KeyBroker

/-- What travels on a feed. -/
abbrev Signal := Except StorageError Event

/-- The state of one feed. -/
structure Feed where
  /-- Signals sent and not yet read, oldest first. -/
  queue : List Signal := []
  /-- Whether more signals may be sent. -/
  fed : Bool := true
  /-- Whether somebody still reads. -/
  attended : Bool := true

namespace Feed

/-- The feed with one more signal, which is lost without a reader. -/
def push (feed : Feed) (signal : Signal) : Feed :=
  if feed.attended then { feed with queue := feed.queue ++ [signal] } else feed

/-- The feed after the sending side went away. -/
def finish (feed : Feed) : Feed := { feed with fed := false }

/-- The feed after its reader went away. -/
def leave (feed : Feed) : Feed := { feed with attended := false, queue := [] }

/-- What a reader finds. -/
inductive Reading where
  | signal (signal : Signal) (rest : Feed)
  | nothingYet
  | ended

/-- Takes the oldest signal. -/
def read (feed : Feed) : Reading :=
  match feed.queue with
  | signal :: rest => .signal signal { feed with queue := rest }
  | [] => if feed.fed then .nothingYet else .ended

end Feed

end KeyBroker
