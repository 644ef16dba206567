import KeyBroker.Settings.Toml.Moment
import KeyBroker.Settings.Toml.Number
import KeyBroker.Settings.Toml.Table
import KeyBroker.Settings.Toml.Text

/-!
# TOML documents

A document is a sequence of lines: a header opens a table, and a key with a value
defines an entry of the table that is open. `Toml.read?` answers the tree that a
document describes, or nothing if any part of it is malformed. Readers of nested
values take fuel, of which the length of the text is enough.
-/

namespace KeyBroker.Settings.Toml

/-- Keys of this many names are refused, and so are lists and tables nested to this
depth. -/
def depthLimit : Nat := 80

/-! ## Keys -/

/-- A character of a name without quotes. -/
def isBareChar (c : Char) : Bool := c.isAlphanum || c == '_' || c == '-'

/-- Reads one name of a key. -/
def name? (text : List Char) : Option (Name × List Char) :=
  match quotedName? text with
  | some read => some read
  | none =>
    let name := text.takeWhile isBareChar
    if name.isEmpty then none else some (name, text.dropWhile isBareChar)

/-- Reads a key: names with points between them, and blanks around each. -/
def keyNames? : Nat → List Char → Option (List Name × List Char)
  | 0, _ => none
  | fuel + 1, text => do
    let (name, rest) ← name? (skipBlanks text)
    match skipBlanks rest with
    | '.' :: rest => do
      let (names, rest) ← keyNames? fuel rest
      some (name :: names, rest)
    | rest => some ([name], rest)

/-- Reads a key; answers the names that lead to its last name, and that name. -/
def key? (text : List Char) : Option (List Name × Name × List Char) := do
  let (names, rest) ← keyNames? (depthLimit - 1) text
  let last ← names.getLast?
  some (names.dropLast, last, rest)

/-! ## Values -/

/-- A character of a value that is neither quoted nor nested. -/
def isWordChar (c : Char) : Bool :=
  c.isAlphanum || c == '+' || c == '-' || c == '_' || c == '.' || c == ':'

/-- Splits off a word. A date and a time with a blank between them are one word. -/
def splitWord (text : List Char) : List Char × List Char :=
  let word := text.takeWhile isWordChar
  match text.dropWhile isWordChar with
  | ' ' :: rest =>
    let next := rest.takeWhile isWordChar
    if (date? word).any (·.2.isEmpty) ∧ (fixed? 2 next).any (·.2.head? = some ':') then
      (word ++ ' ' :: next, rest.dropWhile isWordChar)
    else (word, ' ' :: rest)
  | rest => (word, rest)

/-- The value of a word. -/
def wordValue? (word : List Char) : Option Value :=
  if word = "true".toList then some (.scalar (.boolean true))
  else if word = "false".toList then some (.scalar (.boolean false))
  else
    match integer? word, float? word, moment? .plain word with
    | some n, _, _ => some (.scalar (.integer n))
    | none, some x, _ => some (.scalar (.float x))
    | none, none, some text => some (.moment text)
    | none, none, none => none

mutual

/-- Reads a value inside `depth` others. -/
def value? : Nat → Nat → List Char → Option (Value × List Char)
  | 0, _, _ => none
  | fuel + 1, depth, text =>
    match text with
    | '[' :: rest =>
      if depthLimit ≤ depth + 1 then none
      else (items? fuel (depth + 1) rest).map fun (items, rest) => (.list items, rest)
    | '{' :: rest =>
      if depthLimit ≤ depth + 1 then none
      else do
        let rest := skipBlanks rest
        let (table, rest) ←
          if rest.head? = some '}' then some (Table.empty .header, rest.drop 1)
          else pairs? fuel (depth + 1) (.empty .header) rest
        some (.table table, rest)
    | text =>
      match quotedText? text with
      | some (body, rest) => some (.scalar (.text body), rest)
      | none =>
        let (word, rest) := splitWord text
        (wordValue? word).map (·, rest)

/-- Reads the items of a list up to its closing bracket. A comma may stand after the
last. -/
def items? : Nat → Nat → List Char → Option (List Value × List Char)
  | 0, _, _ => none
  | fuel + 1, depth, text => do
    match ← skipGaps? false text with
    | ']' :: rest => some ([], rest)
    | text => do
      let (item, rest) ← value? fuel depth text
      match ← skipGaps? false rest with
      | ',' :: rest => do
        let (items, rest) ← items? fuel depth rest
        some (item :: items, rest)
      | ']' :: rest => some ([item], rest)
      | _ => none

/-- Reads the entries of a table on one line up to its closing brace. -/
def pairs? : Nat → Nat → Table → List Char → Option (Table × List Char)
  | 0, _, _, _ => none
  | fuel + 1, depth, table, text => do
    let (path, name, rest) ← key? text
    let (value, rest) ← value? fuel depth (skipBlanks (← after? '=' rest))
    let table ← table.define? path name value
    match skipBlanks rest with
    | ',' :: rest => pairs? fuel depth table rest
    | '}' :: rest => some (table, rest)
    | _ => none

end

/-! ## Lines -/

/-- A document being read: its tables, and where the open one is. -/
structure Draft where
  root : Table := .empty .header
  /-- The path to the open table. -/
  current : List Name := []

/-- The rest of a text that begins with the given characters. -/
def afterAll? (front text : List Char) : Option (List Char) := front.isPrefixOf? text

/-- Reads a header from its brackets on. -/
def header? (draft : Draft) (text : List Char) : Option (Draft × List Char) :=
  match text with
  | '[' :: '[' :: rest => do
    let (path, name, rest) ← key? rest
    let root ← draft.root.openNext? path name
    some ({ root, current := path ++ [name] }, ← lineEnd? (← afterAll? [']', ']'] rest))
  | '[' :: rest => do
    let (path, name, rest) ← key? rest
    let root ← draft.root.open? path name
    some ({ root, current := path ++ [name] }, ← lineEnd? (← after? ']' rest))
  | _ => none

/-- Reads a key with its value. -/
def definition? (draft : Draft) (text : List Char) :
    Option (Draft × List Char) := do
  let (path, name, rest) ← key? text
  let start := skipBlanks (← after? '=' rest)
  let (value, rest) ← value? (2 * text.length) 0 start
  let root ← draft.root.within? false (Table.define? path name value) draft.current
  some ({ draft with root }, ← lineEnd? rest)

/-- Reads the lines of a document. -/
def lines? : Nat → Draft → List Char → Option Draft
  | 0, _, _ => none
  | fuel + 1, draft, text =>
    match skipBlanks text with
    | [] => some draft
    | '[' :: rest => (header? draft ('[' :: rest)).bind fun (draft, rest) =>
        lines? fuel draft rest
    | text =>
      match lineEnd? text with
      | some rest => lines? fuel draft rest
      | none => (definition? draft text).bind fun (draft, rest) =>
          lines? fuel draft rest

/-- The entries of the tree that a document describes. A byte order mark may stand
in front. -/
def read? (origin : Option String) (document : List Char) : Option (List (Name × Node)) := do
  let text := match document with
    | c :: rest => if c.toNat = 0xFEFF then rest else document
    | [] => []
  let draft ← lines? (text.length + 1) {} text
  match ← draft.root.node? origin with
  | .table entries _ => some entries
  | _ => none

end KeyBroker.Settings.Toml
