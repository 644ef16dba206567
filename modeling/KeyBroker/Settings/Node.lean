import KeyBroker.Binary64

/-!
# The settings tree

Every source of settings is a tree of named values. A layer is laid over a tree
name by name and regardless of case: a table is merged into the table that is
there, anything else takes the place of what is there. An entry that the layer does
not mention stays as it is.
-/

namespace KeyBroker.Settings

/-- A name in a settings tree. -/
abbrev Name := List Char

/-- A value without parts. -/
inductive Scalar where
  | boolean (value : Bool)
  | integer (value : Int)
  | float (value : Binary64)
  | text (value : List Char)
  deriving DecidableEq, Repr

/-- A tree of settings. The origin of a part names the source it was read from; a
part that was made to hold others has none. -/
inductive Node where
  /-- A place without a value. -/
  | missing
  | scalar (value : Scalar) (origin : Option String)
  | list (items : List Node) (origin : Option String)
  | table (entries : List (Name × Node)) (origin : Option String)

instance : Inhabited Node := ⟨.missing⟩

namespace Node

/-- A table with nothing in it, made to hold others. -/
def blank : Node := .table [] none

/-- The entries of a table; anything else has none. -/
def entries : Node → List (Name × Node)
  | .table entries _ => entries
  | _ => []

/-- The origin that stays when entries are put into the node. -/
def tableOrigin : Node → Option String
  | .table _ origin => origin
  | _ => none

/-- The entry with a name, spelled exactly so. -/
def find? (name : Name) : List (Name × Node) → Option Node
  | [] => none
  | (n, node) :: rest => if n = name then some node else find? name rest

/-- Replaces the entry with a name, or adds one at the end. -/
def store (name : Name) (node : Node) : List (Name × Node) → List (Name × Node)
  | [] => [(name, node)]
  | (n, old) :: rest =>
    if n = name then (n, node) :: rest else (n, old) :: store name node rest

/-- The node with an entry replaced or added. What is not a table becomes one. -/
def withEntry (node : Node) (name : Name) (child : Node) : Node :=
  .table (store name child node.entries) node.tableOrigin

mutual

/-- Lays a node over the entry with a name. -/
def put (name : Name) (target : Node) : Node → Node
  | .table entries _ =>
    let present := (find? (Text.lower name) target.entries).getD blank
    target.withEntry (Text.lower name) (overlay present entries)
  | .missing => target.withEntry (Text.lower name) .missing
  | .scalar value origin => target.withEntry (Text.lower name) (.scalar value origin)
  | .list items origin => target.withEntry (Text.lower name) (.list items origin)

/-- Lays named nodes over a node, one after another. -/
def overlay (target : Node) : List (Name × Node) → Node
  | [] => target
  | (name, node) :: rest => overlay (put name target node) rest

end

/-- What was put under a name is found there. -/
theorem find?_store_self (name : Name) (node : Node) (entries : List (Name × Node)) :
    find? name (store name node entries) = some node := by
  induction entries with
  | nil => simp [store, find?]
  | cons head rest ih =>
    obtain ⟨n, old⟩ := head
    simp only [store]
    split <;> simp_all [find?]

/-- Putting an entry leaves what is found under other names. -/
theorem find?_store_of_ne {name other : Name} (h : name ≠ other) (node : Node)
    (entries : List (Name × Node)) :
    find? other (store name node entries) = find? other entries := by
  induction entries with
  | nil => simp [store, find?, h]
  | cons head rest ih =>
    obtain ⟨n, old⟩ := head
    simp only [store]
    split
    · rename_i same
      simp [find?, same, h]
    · simp [find?, ih]

end Node

end KeyBroker.Settings
