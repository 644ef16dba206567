import KeyBroker.Ledger.Commit
import KeyBroker.Ledger.Read

/-!
# What the store is asked

The store offers seven services. A request belongs to one of them, and the
service fixes the type of the reply, so a reply can never be of the wrong kind.
-/

namespace KeyBroker

/-- The services of the store. -/
inductive Service where
  | put
  | get
  | delete
  | range
  | txn
  | watch
  | close
  deriving DecidableEq, Repr

namespace Service

/-- The name of a service in errors and measurements; a range serves a listing. -/
def name : Service → String
  | .put => "put"
  | .get => "get"
  | .delete => "delete"
  | .range => "list"
  | .txn => "txn"
  | .watch => "watch"
  | .close => "close"

/-- All services. -/
def all : List Service := [.put, .get, .delete, .range, .txn, .watch, .close]

/-- What a service answers: a revision, a pair, a deletion, a page, the number of
an opened feed, or nothing. -/
@[reducible]
def Reply : Service → Type
  | .put => Nat
  | .get => Option KeyValue
  | .delete => Deletion
  | .range => Page
  | .txn => Nat
  | .watch => Nat
  | .close => Unit

end Service

/-- A request to the store. -/
inductive Request : Service → Type where
  | put (key : Key) (value : Bytes) (ttl : Option Duration) : Request .put
  | get (key : Key) : Request .get
  /-- Delete one key, or with `under` every key that begins with it. -/
  | delete (key : Key) (under : Bool) : Request .delete
  | range (query : RangeQuery) : Request .range
  | txn (writes : List Write) : Request .txn
  | watch (stem : Key) : Request .watch
  | close : Request .close

/-- Whether a request writes to an empty key, which the store refuses. -/
def Request.namesEmptyKey {service : Service} : Request service → Bool
  | .put key _ _ => key.isEmpty
  | .delete key under => !under && key.isEmpty
  | .txn writes => writes.any (·.key.isEmpty)
  | _ => false

end KeyBroker
