import KeyBroker.Journal

/-!
# Measurements

The samples that a scrape of the broker shows, counted from the journal. Each is
named in the text exposition format: a metric, and its labels in braces with
backslashes, quotes and line breaks escaped. Samples that stand at zero are left
out.
-/

namespace KeyBroker.Metrics

/-- One character of a label's value. -/
def labelChar (c : Char) : String :=
  if c = '\\' then "\\\\"
  else if c = '\n' then "\\n"
  else if c.toNat = 34 then "\\\""
  else String.singleton c

/-- A label with its value. -/
def label (name value : String) : String :=
  name ++ "=\"" ++ String.join (value.toList.map labelChar) ++ "\""

/-- The name of a sample: the metric and its labels. -/
def sampleName (metric : String) (labels : List String) : String :=
  if labels.isEmpty then metric
  else metric ++ "\x7b" ++ String.intercalate "," labels ++ "\x7d"

/-- Number of finite latency buckets. -/
def bucketCount : Nat := 16

/-- The upper bound of latency bucket `n` in hundredths of a millisecond: the
bounds double from a twentieth of a millisecond on. -/
def bucketBound (n : Nat) : Nat := 5 * Nat.pow 2 n

/-- The bound of a bucket in milliseconds. -/
def bucketText (n : Nat) : String :=
  let bound := bucketBound n
  let digits := String.ofList (Duration.fractionDigits (bound % 100) 100)
  toString (bound / 100) ++ if digits.isEmpty then "" else "." ++ digits

/-- The latencies of a service, in milliseconds. -/
def latencies (observations : List Observation) (service : Service) : List Nat :=
  observations.filterMap fun o =>
    match o with
    | .lasted s millis => if s = service then some millis else none
    | _ => none

/-- Samples of one service: its outcomes, and how many of its requests ended
within each bound. -/
def serviceSamples (journal : Journal) (service : Service) : List (String × Int) :=
  let op := label "op" service.name
  let outcome := fun (ok : Bool) =>
    (sampleName "kv_broker_ops_total" [op, label "outcome" (if ok then "ok" else "err")],
      (journal.count (.served service ok) : Int))
  let times := latencies journal.observations service
  let within := fun (bound : String) (count : Nat) =>
    (sampleName "kv_broker_op_latency_ms_bucket" [op, label "le" bound], (count : Int))
  [outcome true, outcome false] ++
    (List.range bucketCount).map (fun n =>
      within (bucketText n) (times.countP (· * 100 ≤ bucketBound n))) ++
    [within "+Inf" times.length,
      (sampleName "kv_broker_op_latency_ms_count" [op], (times.length : Int))]

/-- The stems of dropped events, each once. -/
def droppedStems (observations : List Observation) : List Key :=
  (observations.filterMap fun o =>
    match o with
    | .dropped stem => some stem
    | _ => none).eraseDups

/-- Samples of the subscriptions. -/
def watchSamples (journal : Journal) : List (String × Int) :=
  [("kv_broker_active_watch_streams",
      (journal.count .dispatchBegun : Int) - (journal.count .dispatchEnded : Int))] ++
    [EventKind.put, EventKind.delete].map (fun kind =>
      (sampleName "kv_broker_watch_events_delivered_total" [label "event_type" kind.name],
        (journal.count (.delivered kind) : Int))) ++
    (droppedStems journal.observations).map fun stem =>
      (sampleName "kv_broker_watch_events_dropped_total" [label "prefix" (String.ofList stem)],
        (journal.count (.dropped stem) : Int))

/-- All samples that do not stand at zero. -/
def samples (journal : Journal) : List (String × Int) :=
  (Service.all.flatMap (serviceSamples journal) ++ watchSamples journal).filter (·.2 ≠ 0)

end KeyBroker.Metrics
