import KeyBroker.Settings.Fault
import KeyBroker.Settings.Toml.Document

/-!
# Settings in files

A settings file is named by a path below the current directory. If there is no
such file, the path with the extension of the one known format is tried.
-/

namespace KeyBroker.Settings

/-- A file below the current directory. -/
structure TextFile where
  path : List Char
  text : List Char
  deriving DecidableEq, Repr

namespace TextFile

/-- Splits a text at slashes. -/
def segments : List Char → List (List Char)
  | [] => [[]]
  | c :: rest =>
    let others := segments rest
    if c = '/' then [] :: others else (c :: others.headD []) :: others.tail

/-- The steps of a path, without those that stay in place. -/
def steps (path : List Char) : List (List Char) :=
  (segments path).filter fun step => !step.isEmpty && step != ['.']

/-- The extension of the known format. -/
def tomlExtension : List Char := "toml".toList

/-- The part of a file's name after its last point, unless the point comes first. -/
def extension (name : List Char) : List Char :=
  let tail := name.reverse.takeWhile (· != '.')
  if tail.length + 1 < name.length then tail.reverse else []

/-- The text of the file that steps lead to. -/
def textAt? (files : List TextFile) (wanted : List (List Char)) : Option (List Char) :=
  (files.find? fun file => steps file.path == wanted && !wanted.isEmpty).map (·.text)

/-- The steps with the extension of the known format added to the last, which has to
be a name and not the way up. -/
def extended (steps : List (List Char)) : List (List Char) :=
  match steps.getLast? with
  | some last => if last = ['.', '.'] then [] else steps.dropLast ++ [last ++ '.' :: tomlExtension]
  | none => []

/-- Steps as a path. -/
def joined (steps : List (List Char)) : String :=
  "/".intercalate (steps.map String.ofList)

/-- Whether a path can only be that of a directory, or lies elsewhere. -/
def isNoFile (path : List Char) : Bool :=
  let last := (segments path).getLast?.getD []
  last.isEmpty || last == ['.']

/-- The entries of a file's text; its path is their origin. -/
def read (steps : List (List Char)) (text : List Char) : Except Fault (List (Name × Node)) :=
  match Toml.read? (some (joined steps)) text with
  | some entries => .ok entries
  | none => .error (.unreadable (joined steps))

/-- The layer of the file that a path names. -/
def layer (files : List TextFile) (path : List Char) : Except Fault (List (Name × Node)) :=
  let missing := Fault.missingFile (String.ofList path)
  if path.head? = some '/' then .error missing
  else
    let steps := steps path
    match if isNoFile path then none else textAt? files steps with
    | some text =>
      if extension (steps.getLast?.getD []) = tomlExtension then read steps text
      else .error (.unknownFormat (String.ofList path))
    | none =>
      match textAt? files (extended steps) with
      | some text => read (extended steps) text
      | none => .error missing

end TextFile

end KeyBroker.Settings
