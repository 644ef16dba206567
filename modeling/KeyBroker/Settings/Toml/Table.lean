import KeyBroker.Settings.Node
import KeyBroker.Settings.Toml.Moment

/-!
# Tables under construction

A TOML document names its tables in any order, and a table may be made by a
header, by the header of a table inside it, or by a dotted key. How it was made
decides what may still be added to it: nothing is defined twice, and a dotted key
opens only tables that dotted keys have made. The entries of a table are in the order
in which they were defined, and a table whose first entry has a certain name stands
for a moment.
-/

namespace KeyBroker.Settings.Toml

/-- How a table came to be. -/
inductive Making where
  /-- By a header of its own, or as the table that is the whole document. -/
  | header
  /-- By the header of a table inside it. -/
  | implied
  /-- By a dotted key. -/
  | dotted
  deriving DecidableEq, Repr

mutual

/-- A value of a document. -/
inductive Value where
  | scalar (value : Scalar)
  | moment (text : List Char)
  | list (items : List Value)
  /-- A table on one line. -/
  | table (table : Table)

/-- What stands at a name of a table. -/
inductive Item where
  | value (value : Value)
  | table (table : Table)
  /-- A list of tables, each with a header of its own; the last is still open. -/
  | tables (closed : List Table) (last : Table)

/-- A table under construction. -/
inductive Table where
  | mk (making : Making) (entries : List (Name × Item))

end

namespace Table

/-- How the table came to be. -/
def making : Table → Making
  | mk making _ => making

/-- What stands in the table. -/
def entries : Table → List (Name × Item)
  | mk _ entries => entries

/-- A table with nothing in it. -/
def empty (making : Making) : Table := mk making []

/-- What stands at a name. -/
def find? (table : Table) (name : Name) : Option Item :=
  (table.entries.find? (·.1 = name)).map (·.2)

/-- Entries with that of a name replaced, or added at the end. -/
def replace (name : Name) (item : Item) : List (Name × Item) → List (Name × Item)
  | [] => [(name, item)]
  | (n, old) :: rest =>
    if n = name then (n, item) :: rest else (n, old) :: replace name item rest

/-- The table with a name defined anew in its place. -/
def set (table : Table) (name : Name) (item : Item) : Table :=
  mk table.making (replace name item table.entries)

/-- The table with a name defined at its end. -/
def append (table : Table) (name : Name) (item : Item) : Table :=
  mk table.making (table.entries.filter (·.1 ≠ name) ++ [(name, item)])

/-- Changes the table that a path leads to. The path leads into the last of a list
of tables. A table that is not there is made; `dotted` tells that the path is that
of a dotted key. -/
def within? (dotted : Bool) (f : Table → Option Table) : List Name → Table → Option Table
  | [], table => f table
  | name :: path, table =>
    match table.find? name with
    | none => do
      let inner ← within? dotted f path (empty (if dotted then .dotted else .implied))
      some (table.set name (.table inner))
    | some (.table inner) =>
      if dotted ∧ inner.making = .header then none
      else do
        let inner ← within? dotted f path inner
        some (table.set name (.table inner))
    | some (.tables closed last) => do
      let last ← within? dotted f path last
      some (table.set name (.tables closed last))
    | some (.value _) => none

/-- Defines a value at a dotted key, given as the path before its last name and that
name. A table opened by the path has to be one that a dotted key made. -/
def define? (path : List Name) (name : Name) (value : Value) : Table → Option Table :=
  within? true (fun table =>
    if decide (table.making = .dotted) = path.isEmpty ∨ (table.find? name).isSome then none
    else some (table.set name (.value value))) path

/-- Opens the table of a header. If the header of a table inside it has made it, it
counts as defined now. -/
def open? (path : List Name) (name : Name) : Table → Option Table :=
  within? false (fun table =>
    match table.find? name with
    | none => some (table.set name (.table (empty .header)))
    | some (.table (mk .implied entries)) => some (table.append name (.table (mk .header entries)))
    | some _ => none) path

/-- Opens one more table of the list that a header names. -/
def openNext? (path : List Name) (name : Name) : Table → Option Table :=
  within? false (fun table =>
    match table.find? name with
    | none => some (table.set name (.tables [] (empty .header)))
    | some (.tables closed last) =>
      some (table.set name (.tables (closed ++ [last]) (empty .header)))
    | some _ => none) path

end Table

/-- The name of the only entry of a table that stands for a moment. Entries that
follow it do not matter. -/
def momentName : Name := "$__toml_private_datetime".toList

/-- The moment that an entry with that name is about: it has to be a string. -/
def Item.moment? : Item → Option (List Char)
  | .value (.scalar (.text text)) => Toml.moment? .inString text
  | _ => none

mutual

/-- The finished node of a value. -/
def Value.node? (origin : Option String) : Value → Option Node
  | .scalar value => some (.scalar value origin)
  | .moment text => some (.scalar (.text text) origin)
  | .list items => (valueNodes? origin items).map (.list · origin)
  | .table table => table.node? origin

/-- The finished node of what stands at a name. -/
def Item.node? (origin : Option String) : Item → Option Node
  | .value value => value.node? origin
  | .table table => table.node? origin
  | .tables closed last => do
    let closed ← tableNodes? origin closed
    let last ← last.node? origin
    some (.list (closed ++ [last]) origin)

/-- The finished node of a table. -/
def Table.node? (origin : Option String) : Table → Option Node
  | .mk _ [] => some (.table [] origin)
  | .mk _ ((name, item) :: rest) =>
    if name = momentName then item.moment?.map fun text => .scalar (.text text) origin
    else do
      let node ← item.node? origin
      let others ← namedNodes? origin rest
      some (.table ((name, node) :: others) origin)

/-- The finished nodes of values. -/
def valueNodes? (origin : Option String) : List Value → Option (List Node)
  | [] => some []
  | value :: rest => do
    let node ← value.node? origin
    let others ← valueNodes? origin rest
    some (node :: others)

/-- The finished nodes of tables. -/
def tableNodes? (origin : Option String) : List Table → Option (List Node)
  | [] => some []
  | table :: rest => do
    let node ← table.node? origin
    let others ← tableNodes? origin rest
    some (node :: others)

/-- The finished nodes of named items. -/
def namedNodes? (origin : Option String) : List (Name × Item) → Option (List (Name × Node))
  | [] => some []
  | (name, item) :: rest => do
    let node ← item.node? origin
    let others ← namedNodes? origin rest
    some ((name, node) :: others)

end

end KeyBroker.Settings.Toml
