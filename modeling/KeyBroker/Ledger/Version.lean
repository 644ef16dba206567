import KeyBroker.Bytes

/-!
# Versions of one key

A key's history is the list of its versions, oldest first. What the key held at
a revision is the newest version at or below it. Writing twice at one revision
keeps the later version only, and compaction drops what no reader at or above
the compaction point can see.
-/

namespace KeyBroker

/-- What a key became at one revision. -/
structure Version where
  revision : Nat
  /-- The value put, or `none` for a deletion. -/
  value : Option Bytes
  /-- The instant from which the value counts as expired. -/
  deadline : Option Nat := none
  deriving DecidableEq, Repr

/-- The history of one key, oldest version first. -/
abbrev Versions := List Version

namespace Versions

/-- The newest version at or below `revision`. -/
def visible? (revision : Nat) (versions : Versions) : Option Version :=
  versions.reverse.find? (·.revision ≤ revision)

/-- The value at `revision` with the revision that put it, if the key was live. -/
def live? (revision : Nat) (versions : Versions) : Option (Nat × Bytes) :=
  (visible? revision versions).bind fun v => v.value.map (v.revision, ·)

/-- The value of the newest version, whatever its revision. -/
def lastValue (versions : Versions) : Option Bytes :=
  versions.getLast?.bind (·.value)

/-- Adds a version. A version of the same revision as the newest one replaces it,
so the last write of a commit wins. -/
def record (version : Version) (versions : Versions) : Versions :=
  match versions.getLast? with
  | some last =>
    if last.revision = version.revision then versions.dropLast ++ [version]
    else versions ++ [version]
  | none => [version]

/-- Whether the newest version is a value whose deadline has come. -/
def isExpired (now : Nat) (versions : Versions) : Bool :=
  match versions.getLast? with
  | some last => last.value.isSome && last.deadline.any (· ≤ now)
  | none => false

/-- The versions from the newest one at or below `revision` on. -/
def since (revision : Nat) : Versions → Versions
  | [] => []
  | v :: rest => if rest.any (·.revision ≤ revision) then since revision rest else v :: rest

/-- What is kept of a history compacted at `revision`: the version visible there,
unless it is a deletion, and everything newer. -/
def compact (revision : Nat) (versions : Versions) : Versions :=
  match since revision versions with
  | v :: rest => if v.revision ≤ revision ∧ v.value = none then rest else v :: rest
  | [] => []

end Versions

end KeyBroker
