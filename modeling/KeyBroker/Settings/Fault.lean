import KeyBroker.Settings.Node
import KeyBroker.Text.Quoted

/-!
# Faults of settings

What can be wrong with settings before they are settings: a value of the wrong
type, a word that means nothing, an item that no list can have, or a file that is
not there or cannot be read.
-/

namespace KeyBroker.Settings

/-- What stands where something else was expected. -/
inductive Shape where
  | scalar (value : Scalar)
  | list
  | table
  | nothing
  deriving DecidableEq, Repr

/-- The shape of a node. -/
def Node.shape : Node → Shape
  | .missing => .nothing
  | .scalar value _ => .scalar value
  | .list .. => .list
  | .table .. => .table

/-- The source that a node was read from. -/
def Node.origin? : Node → Option String
  | .missing => none
  | .scalar _ origin | .list _ origin | .table _ origin => origin

/-- A shape in a message; `width` stands before the word for a whole number. -/
def Shape.text (width : String) : Shape → String
  | .scalar (.boolean b) => s!"boolean `{b}`"
  | .scalar (.integer n) => s!"{width}integer `{n}`"
  | .scalar (.float x) => s!"floating point `{x.text}`"
  | .scalar (.text t) => "string " ++ Text.quoted t
  | .list => "sequence"
  | .table => "map"
  | .nothing => "unit value"

/-- Why settings cannot be read. -/
inductive Fault where
  /-- No number, or a negative one, at a key. -/
  | notANumber (key : String) (found : Shape) (origin : Option String)
  /-- No section where the watch section belongs. -/
  | notASection (found : Shape)
  /-- A word that names no policy. -/
  | unknownPolicy (word : String)
  /-- A policy that is not given by a word. -/
  | notAPolicy
  /-- A number that settings may have but a layer may not. -/
  | tooLarge (number : Nat)
  /-- An index that no list can have. -/
  | noSuchItem
  | missingFile (path : String)
  | unknownFormat (path : String)
  | unreadable (path : String)
  deriving DecidableEq, Repr

/-- The greatest number that a layer can hold. -/
def greatest : Nat := signedLimit - 1

/-- The number that was expected in place of what was found. -/
def expectedNumber : Shape → String
  | .scalar (.integer _) => "an unsigned 64 bit or less integer"
  | _ => "an integer"

/-- The text of a fault. What is wrong inside a file is not told. -/
def Fault.message : Fault → String
  | .notANumber key found origin =>
    let place := match origin with
      | some origin => " in " ++ origin
      | none => ""
    "invalid type: " ++ found.text "64-bit " ++ ", expected " ++ expectedNumber found ++
      " for key `" ++ key ++ "`" ++ place
  | .notASection found => "invalid type: " ++ found.text "" ++ ", expected struct WatchConfig"
  | .unknownPolicy word => "enum SlowSubscriberPolicy does not have variant constructor " ++ word
  | .notAPolicy =>
    "value of enum SlowSubscriberPolicy should be represented by either string or table with " ++
      "exactly one key"
  | .tooLarge number => s!"value {number} is greater than the max {greatest}"
  | .noSuchItem => "index out of reach"
  | .missingFile path => s!"configuration file \"{path}\" not found"
  | .unknownFormat path => s!"configuration file \"{path}\" is not of a registered file format"
  | .unreadable path => s!"configuration file \"{path}\" is malformed"

end KeyBroker.Settings
