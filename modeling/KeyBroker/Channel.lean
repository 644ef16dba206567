import KeyBroker.Ledger.Basic

/-!
# Channels

A channel carries items to one receiver and holds at most `capacity` of them. A
sender that finds it full either gives up at once or waits in line. Room that
becomes free is promised to the first in line, who then sends when its turn
comes; nobody else can take that room.
-/

namespace KeyBroker

/-- What a subscriber receives. -/
abbrev Item := Except Error Event

/-- The state of one channel. Every item carries the number of its sender. -/
structure Channel where
  capacity : Nat
  /-- Items sent and not yet received, oldest first. -/
  items : List (Nat × Item) := []
  /-- Senders in line. -/
  waiting : List Nat := []
  /-- Senders that were promised room. -/
  promised : List Nat := []
  /-- Whether there still is a receiver. -/
  received : Bool := true
  /-- Whether somebody outside the broker keeps the channel open. -/
  held : Bool := false

namespace Channel

/-- The largest capacity that a channel can count. -/
def capacityLimit : Nat := wordLimit / 8 - 1

/-- A channel of that capacity can be made. -/
def capacityAllowed (capacity : Nat) : Bool := 0 < capacity && capacity ≤ capacityLimit

/-- Room that is neither taken nor promised. -/
def room (c : Channel) : Nat := c.capacity - (c.items.length + c.promised.length)

/-- What came of sending an item. -/
inductive Sending where
  | sent (channel : Channel)
  /-- There is no room; a waiting sender now stands in line. -/
  | full (channel : Channel)
  /-- There is no receiver. -/
  | closed

/-- Sends if there is room. -/
def trySend (c : Channel) (sender : Nat) (item : Item) : Sending :=
  if !c.received then .closed
  else if 0 < c.room then .sent { c with items := c.items ++ [(sender, item)] }
  else .full c

/-- Sends into room promised or free, or else gets or stays in line. -/
def send (c : Channel) (sender : Nat) (item : Item) : Sending :=
  if !c.received then .closed
  else if sender ∈ c.promised then
    .sent { c with items := c.items ++ [(sender, item)], promised := c.promised.erase sender }
  else if sender ∈ c.waiting then .full c
  else
    match c.trySend sender item with
    | .full c => .full { c with waiting := c.waiting ++ [sender] }
    | outcome => outcome

/-- Promises one freed place to the first in line, and tells who that is. -/
def promise (c : Channel) : Channel × Option Nat :=
  match c.waiting with
  | [] => (c, none)
  | first :: rest => ({ c with waiting := rest, promised := c.promised ++ [first] }, some first)

/-- The channel after a waiting sender gave up; room promised to it goes to the
next in line. -/
def abandon (c : Channel) (sender : Nat) : Channel × Option Nat :=
  if sender ∈ c.promised then { c with promised := c.promised.erase sender }.promise
  else ({ c with waiting := c.waiting.erase sender }, none)

/-- Takes the oldest item; its place goes to the first in line. -/
def receive (c : Channel) : Option (Item × Channel × Option Nat) :=
  match c.items with
  | [] => none
  | (_, item) :: rest =>
    let (c, next) := { c with items := rest }.promise
    some (item, c, next)

/-- Senders that stand in line or were promised room. -/
def pending (c : Channel) : List Nat := c.promised ++ c.waiting

/-- The channel after its receiver went away. Nobody stands in line any more. -/
def close (c : Channel) : Channel :=
  { c with received := false, items := [], waiting := [], promised := [] }

end Channel

end KeyBroker
