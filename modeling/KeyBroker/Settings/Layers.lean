import KeyBroker.Settings.Environment
import KeyBroker.Settings.Files
import KeyBroker.Settings.Place
import KeyBroker.Settings.Reading

/-!
# Layers of settings

Settings are put together from three layers: the settings to start from, a file,
and the environment. A later layer wins over an earlier one, setting by setting,
and only the value that wins is looked at.
-/

namespace KeyBroker.Settings

/-- Where settings come from. -/
structure Surroundings where
  /-- Of variables that set the same thing, the last wins. -/
  environment : List Variable := []
  files : List TextFile := []
  deriving Repr

namespace Surroundings

/-- The path of the settings file that the environment names. -/
def filePath? (around : Surroundings) : Option (List Char) :=
  (around.environment.find? (·.name = Variable.filePath.toList)).map (·.text)

end Surroundings

/-- The tree of layers, the first at the bottom, unless an entry is to be put where
no list can have an item. The entries of a layer are laid in the order in which the
layer has them. The order is a choice: a reader of files that keeps no order may lay
them in any, and of entries that lead through one place the last then need not be
the last in the file. -/
def stack (layers : List (List (Name × Node))) : Except Fault Node :=
  match layers.foldlM Place.putAll? .blank with
  | some tree => .ok tree
  | none => .error .noSuchItem

/-- Settings to start from with a file, if any, and the environment laid over them. -/
def layered (start : Settings) (around : Surroundings) (path : Option (List Char)) :
    Except Fault Settings := do
  let bottom ← start.entries
  let file ← match path with
    | some path => TextFile.layer around.files path
    | none => .ok []
  let tree ← stack [bottom, file, Variable.layer around.environment]
  ofTree tree

/-- The settings that the surroundings give: the defaults, the file that the
environment names, and the environment. They are not validated. -/
def load (around : Surroundings) : Except Fault Settings :=
  layered {} around around.filePath?

/-- The settings with a file and the environment laid over them. They are not
validated. -/
def override (s : Settings) (around : Surroundings) (path : List Char) : Except Fault Settings :=
  s.layered around (some path)

end KeyBroker.Settings
