import KeyBroker.System.Schedule

/-!
# Sessions

A session drives one broker step by step and shows what each step comes to. The
objects that steps make are known by names the session gives them. This file has
the steps and what they show.
-/

namespace KeyBroker.Session

/-- A call on the broker, or on the view named `on`. -/
inductive Command where
  | put (on : Option String) (key : Key) (value : Bytes) (ttl : Option Duration)
  | get (on : Option String) (key : Key)
  | delete (on : Option String) (key : Key)
  | deletePrefix (on : Option String) (stem : Key)
  /-- A listing read to its end, for its pairs or only their keys. -/
  | listAll (on : Option String) (stem : Key) (keysOnly : Bool)
  | commit (batch : String)
  | close

/-- A step of a session. -/
inductive Step where
  | call (command : Command)
  /-- Leaves a call to run on its own. -/
  | spawn (name : String) (command : Command)
  | join (name : String)
  | view (name : String) (on : Option String) (stem : Key)
  | list (name : String) (on : Option String) (stem : Key) (keysOnly : Bool)
  | next (name : String)
  | snapshot (name : String)
  | collect (name : String)
  | intoStream (name : String)
  | txn (name : String) (on : Option String)
  | txnPut (name : String) (key : Key) (value : Bytes)
  | txnDelete (name : String) (key : Key)
  | txnInfo (name : String)
  | channel (name : String) (capacity : Nat)
  | dropSender (name : String)
  | watch (name channel : String) (on : Option String) (stem : Key)
  | watchAll (name channel : String) (on : Option String) (stems : List Key)
  | subscribe (name : String) (on : Option String) (stem : Key)
  | intoParts (name : String)
  | subscriptionStream (name : String)
  | receive (name : String)
  | drain (name : String)
  | dropReceiver (name : String)
  | handle (name : String)
  | unsubscribe (name : String)
  | isClosed
  | settings
  | dropBroker
  | describeBroker
  | describeView (name : String)
  | describeBatch (name : String)
  | advance (millis : Nat)
  | metrics
  | storePut (key : Key) (value : Bytes) (ttl : Option Duration)
  | storeGet (key : Key)
  | storeDelete (key : Key) (under : Bool)
  | storeRange (query : RangeQuery)
  | storeTxn (writes : List Write)
  | storeWatch (name : String) (stem : Key)
  | storeClose
  | compact (revision : Nat)
  | available (value : Bool)
  /-- Adds a line to the store's script. -/
  | inject (line : ScriptLine)
  | emit (stub : String) (signal : Signal)
  | endStub (stub : String)
  /-- A step that makes no sense. -/
  | unknown

/-- What a subscriber or a reader of a feed gets. -/
inductive Received where
  | event (event : Event)
  | error (error : Error)
  | storageError (error : StorageError)
  | empty
  | closed

/-- Whether nothing more is to be had at present. -/
def Received.isLast : Received → Bool
  | .empty | .closed => true
  | _ => false

/-- What a step shows. -/
inductive Shown where
  | ok
  | flag (value : Bool)
  | number (value : Nat)
  | nothing
  | key (key : Key)
  | text (text : String)
  | pair (pair : KeyValue)
  | pairs (pairs : List KeyValue)
  | keys (keys : List Key)
  /-- What a stream still yielded, as pairs or as keys, and the error it ended with. -/
  | rest (pairs : List KeyValue) (keysOnly : Bool) (failure : Option Error)
  | deletion (deletion : Deletion)
  | page (page : Page)
  | snapshot (revision : Nat)
  | batch (size : Nat) (committed : Bool)
  | handle (handle : Handle) (active : Bool)
  | handles (handles : List (Handle × Bool))
  | received (received : Received)
  | drained (all : List Received)
  | settings (settings : Settings)
  | samples (samples : List (String × Int))
  | error (error : Error)
  | storageError (error : StorageError)
  | aborted
  | pending
  | malformed

/-- A step with what can be seen of the broker and the store after it. -/
structure Record where
  shown : Shown
  /-- Revision of the store. -/
  revision : Nat
  /-- Native watches of the store. -/
  watches : Nat
  /-- Registered subscriptions, unless the broker was dropped. -/
  active : Option Nat
  /-- Milliseconds since the start. -/
  now : Nat
  /-- Lines logged during the step. -/
  notices : List Notice

/-- All that a session shows. -/
structure Transcript where
  /-- Lines logged when the broker was made. -/
  created : List Notice
  records : List Record

end KeyBroker.Session
