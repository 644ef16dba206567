import KeyBroker.System.Basic

/-!
# Descriptions

The texts by which a broker, a view and a transaction describe their state.
-/

namespace KeyBroker

/-- The name of a policy in a description. -/
def SlowPolicy.describe : SlowPolicy → String
  | .block => "Block"
  | .dropAndSignal => "DropAndSignal"

/-- The fields of a record under its name. -/
def describeRecord (name : String) (fields : List (String × String)) : String :=
  let texts := fields.map fun (field, text) => field ++ ": " ++ text
  name ++ " \x7b " ++ String.intercalate ", " texts ++ " \x7d"

namespace System

/-- The link to the store. -/
def describeLink (s : System) : String :=
  "StoreAdapter \x7b request_timeout: " ++ s.settings.timeout.text ++ ", closed: " ++
    toString s.stopped ++ ", .. \x7d"

/-- The broker's inner state, which its views share. -/
def describeInner (s : System) : String :=
  let registry := describeRecord "RegistryInner"
    [("watches", toString s.registered.length), ("next_id", toString s.nextSubscription),
      ("policy", s.settings.slowPolicy.describe)]
  describeRecord "BrokerInner"
    [("adapter", s.describeLink), ("watches", describeRecord "WatchRegistry" [("inner", registry)]),
      ("config", s.settings.describe)]

/-- The broker. -/
def describe (s : System) : String := describeRecord "Broker" [("inner", s.describeInner)]

/-- A view of scope `scope`. -/
def describeView (s : System) (scope : Key) : String :=
  describeRecord "PluginBroker" [("prefix", Text.quoted scope), ("inner", s.describeInner)]

end System

/-- A recorded write. -/
def Write.describe : Write → String
  | .put key value => describeRecord "Put" [("key", Text.quoted key), ("value", value.literal)]
  | .delete key => describeRecord "Delete" [("key", Text.quoted key)]

/-- A transaction on a broker. -/
def Batch.describe (b : Batch) (s : System) : String :=
  let spoiled :=
    match b.spoiled with
    | none => "None"
    | some reason => "Some(" ++ Text.quoted reason.toList ++ ")"
  describeRecord "Txn"
    [("adapter", s.describeLink), ("scope", Text.quoted b.scope),
      ("ops", "[" ++ String.intercalate ", " (b.writes.map Write.describe) ++ "]"),
      ("invalid_key", spoiled), ("committed", toString b.committed)]

end KeyBroker
