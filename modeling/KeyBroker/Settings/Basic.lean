import KeyBroker.Journal

/-!
# Settings

The four numbers and choices that govern a broker, their defaults, and what is
accepted of them.
-/

namespace KeyBroker

/-- What happens to an event for a subscriber whose channel is full. -/
inductive SlowPolicy where
  /-- Wait for room. -/
  | block
  /-- Drop the event and tell the subscriber how many were dropped. -/
  | dropAndSignal
  deriving DecidableEq, Repr

/-- The word for a policy in a settings file. -/
def SlowPolicy.word : SlowPolicy → String
  | .block => "block"
  | .dropAndSignal => "drop_and_signal"

/-- The settings of a broker. -/
structure Settings where
  /-- Time allowed for a request to the store, in milliseconds. -/
  requestTimeout : Nat := 3000
  /-- Pairs per page of a listing. -/
  pageSize : Nat := 128
  /-- Room in the channel of a subscription. -/
  bufferSize : Nat := 10
  slowPolicy : SlowPolicy := .block
  deriving DecidableEq, Repr

namespace Settings

/-- Beyond this room for undelivered events the log carries a warning. -/
def largeBuffer : Nat := 1000

/-- Refuses numbers that are zero, in a fixed order, and answers what to put into
the log about accepted settings. -/
def validate (s : Settings) : Except Error (List Notice) :=
  if s.requestTimeout = 0 then
    .error (.invalidSettings "request_timeout_ms must be at least 1ms")
  else if s.pageSize = 0 then
    .error (.invalidSettings "list_page_size must be greater than 0")
  else if s.bufferSize = 0 then
    .error (.invalidSettings "watch.watcher_buffer_size must be greater than 0")
  else if largeBuffer < s.bufferSize then .ok [.largeBuffer s.bufferSize]
  else .ok []

/-- The time allowed for a request. -/
def timeout (s : Settings) : Duration := .ofMillis s.requestTimeout

/-- The settings in a description of the broker; the watch section is left out. -/
def describe (s : Settings) : String :=
  s!"BrokerConfig \x7b request_timeout_ms: {s.requestTimeout}, " ++
    s!"list_page_size: {s.pageSize}, .. \x7d"

end Settings

end KeyBroker
