import KeyBroker.Settings.Node

/-!
# Places in a settings tree

A source may name a setting inside a section in one word, with a point before
each further name and an index in brackets for an item of a list:
`watch.watcher_buffer_size`, `watch[0]`. What stands in the way of such a place is
replaced by a table or a list. A word that is not a place is a name as it stands.
Names are taken in lower case. An index that no list can have leads nowhere, and
nothing can be put there.
-/

namespace KeyBroker.Settings

/-- A place in a settings tree. -/
inductive Place where
  | entry (name : Name)
  | child (parent : Place) (name : Name)
  | item (parent : Place) (index : Int)
  deriving Repr

namespace Place

/-- Characters of a name in a place; a blank is one. -/
def isNameChar (c : Char) : Bool := c.isAlphanum || c == ' ' || c == '_' || c == '-'

/-- What follows a place in a text. -/
inductive Suffix where
  | name (name : Name)
  | index (index : Int)

/-- An index between brackets, with blanks around it. -/
def index? (text : List Char) : Option Int :=
  let isBlank (c : Char) : Bool := c == ' ' || c == '\t'
  let text := (text.dropWhile isBlank).reverse.dropWhile isBlank |>.reverse
  if text.head? = some '+' then none else Text.integer? text

/-- The first suffix of a text, and the rest of the text. -/
def suffix? : List Char → Option (Suffix × List Char)
  | '.' :: rest =>
    let name := rest.takeWhile isNameChar
    if name.isEmpty then none else some (.name name, rest.dropWhile isNameChar)
  | '[' :: rest =>
    match rest.dropWhile (· != ']') with
    | ']' :: after => (index? (rest.takeWhile (· != ']'))).map fun index => (.index index, after)
    | _ => none
  | _ => none

/-- The place that suffixes lead to from a place, if the text is made of them. -/
def follow? : Nat → Place → List Char → Option Place
  | _, place, [] => some place
  | 0, _, _ => none
  | fuel + 1, place, text =>
    match suffix? text with
    | some (.name name, rest) => follow? fuel (.child place (Text.lower name)) rest
    | some (.index index, rest) => follow? fuel (.item place index) rest
    | none => none

/-- The place that a word names. -/
def ofName (word : Name) : Place :=
  let name := word.takeWhile isNameChar
  let place :=
    if name.isEmpty then none
    else follow? word.length (.entry (Text.lower name)) (word.dropWhile isNameChar)
  place.getD (.entry word)

/-- The items of a list; anything else has none. -/
def items : Node → List Node
  | .list items _ => items
  | _ => []

/-- The origin that stays when items are put into the node. -/
def listOrigin : Node → Option String
  | .list _ origin => origin
  | _ => none

/-- The length up to which an index may make a list grow. The bound is arbitrary: it
stands for the memory that the items of a longer list would not fit into. -/
def longest : Nat := 16777216

/-- The position that an index means in a list of some length, where a negative
index counts from the end. -/
def position? (index : Int) (length : Nat) : Option Nat :=
  let position := if 0 ≤ index then index else length + index
  if 0 ≤ position ∧ position < longest then some position.toNat else none

/-- Changes the item at an index. The list is filled up to it. -/
def alterItem? (index : Int) (f : Node → Option Node) (node : Node) : Option Node := do
  let present := items node
  let position ← position? index present.length
  let changed ← f (present.getD position .missing)
  let filling := List.replicate (position - present.length) Node.missing
  let items := present.take position ++ filling ++ changed :: present.drop (position + 1)
  some (.list items (listOrigin node))

/-- Changes the entry with a name. -/
def alterNamed? (name : Name) (f : Node → Option Node) (node : Node) : Option Node :=
  (f ((Node.find? name node.entries).getD .missing)).map (node.withEntry name)

/-- Changes the node at a place, making the tables and lists that lead to it. -/
def alter? : Place → (Node → Option Node) → Node → Option Node
  | entry name, f => alterNamed? name f
  | child parent name, f => alter? parent (alterNamed? name f)
  | item parent index, f => alter? parent (alterItem? index f)

/-- Lays a node over what is at a place. -/
def put? (root node : Node) : Place → Option Node
  | entry name => some (root.put name node)
  | child parent name => alter? parent (fun there => some (there.put name node)) root
  | item parent index => alter? parent (alterItem? index fun _ => some node) root

/-- Lays the entries of a source over a tree, each at the place that it names. -/
def putAll? (root : Node) (entries : List (Name × Node)) : Option Node :=
  entries.foldlM (fun tree (word, node) => put? tree node (ofName word)) root

end Place

end KeyBroker.Settings
