import KeyBroker.Settings.Node

/-!
# Settings in the environment

A variable whose name begins with a fixed word sets what the rest of its name
names, where a pair of underscores leads into a section. Its text is a truth
value, a whole number, a float, or else the text itself; an empty text sets
nothing.
-/

namespace KeyBroker.Settings

/-- A variable of the environment. -/
structure Variable where
  name : List Char
  text : List Char
  deriving DecidableEq, Repr

namespace Variable

/-- What the name of a variable begins with, in any case, if it sets something. -/
def mark : String := "kvbroker__"

/-- The variable with the path of a settings file. -/
def filePath : String := "CONFIG_PATH"

/-- What the environment is called as the origin of a setting. -/
def origin : String := "the environment"

/-- Puts a point in place of each pair of underscores. -/
def pointed : List Char → List Char
  | '_' :: '_' :: rest => '.' :: pointed rest
  | c :: rest => c :: pointed rest
  | [] => []

/-- What a variable sets, named as in a layer. -/
def target? (v : Variable) : Option Name :=
  (mark.toList.isPrefixOf? (Text.lower v.name)).map pointed

/-- What the text of a variable stands for. -/
def value (v : Variable) : Scalar :=
  if Text.isWord "true" v.text then .boolean true
  else if Text.isWord "false" v.text then .boolean false
  else
    match Text.integer? v.text, Binary64.read? v.text with
    | some n, _ => .integer n
    | none, some x => .float x
    | none, none => .text v.text

/-- The entry that a variable adds to the layer of the environment. -/
def entry? (v : Variable) : Option (Name × Node) :=
  if v.text.isEmpty then none
  else v.target?.map fun name => (name, .scalar v.value (some origin))

/-- The layer of the environment. -/
def layer (environment : List Variable) : List (Name × Node) := environment.filterMap entry?

end Variable

end KeyBroker.Settings
