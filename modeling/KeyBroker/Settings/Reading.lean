import KeyBroker.Settings.Basic
import KeyBroker.Settings.Fault

/-!
# Settings and settings trees

Settings are read from a tree with a default for every setting that the tree does
not have, and written as a tree to be laid under others. Reading is lenient: a
number may be given as a float, a word or a truth value. Reading what was written
gives the settings back, `Settings.ofTree_entries`.
-/

namespace KeyBroker.Settings

/-- The name of the time allowed for a request. -/
def requestTimeoutName : String := "request_timeout_ms"

/-- The name of the page size. -/
def pageSizeName : String := "list_page_size"

/-- The name of the watch section. -/
def watchName : String := "watch"

/-- The name of the room in a channel, inside the watch section. -/
def bufferSizeName : String := "watcher_buffer_size"

/-- The name of the policy, inside the watch section. -/
def slowPolicyName : String := "slow_subscriber_policy"

/-- The number that a text stands for. -/
def numberOfText? (text : List Char) : Option Nat :=
  if ["true", "on", "yes"].any (Text.isWord · text) then some 1
  else if ["false", "off", "no"].any (Text.isWord · text) then some 0
  else Text.word? text

/-- The number that a node stands for. -/
def number? : Node → Option Nat
  | .scalar (.boolean b) _ => some b.toNat
  | .scalar (.integer n) _ => if 0 ≤ n then some n.toNat else none
  | .scalar (.float x) _ => some x.toWord
  | .scalar (.text t) _ => numberOfText? t
  | _ => none

/-- The number that the node at a key stands for. -/
def number (key : String) (node : Node) : Except Fault Nat :=
  match number? node with
  | some n => .ok n
  | none => .error (.notANumber key node.shape node.origin?)

/-- The policy with a name, in any case. -/
def policyNamed (word : List Char) : Except Fault SlowPolicy :=
  match [SlowPolicy.block, .dropAndSignal].find? fun p => Text.isWord p.word word with
  | some policy => .ok policy
  | none => .error (.unknownPolicy (String.ofList word))

/-- The policy that a node names: a word, or a table with that word alone. -/
def policy : Node → Except Fault SlowPolicy
  | .scalar (.text word) _ => policyNamed word
  | .table [(word, _)] _ => policyNamed word
  | _ => .error .notAPolicy

/-- Reads a node that may be absent, in which case the setting has its default. -/
def orDefault {α : Type} (fallback : α) (read : Node → Except Fault α) :
    Option Node → Except Fault α
  | some node => read node
  | none => .ok fallback

/-- The settings in a tree whose watch section, if it has one, is made of two nodes
at two keys. -/
def assemble (entries : List (Name × Node)) (bufferKey : String) (buffer slow : Option Node) :
    Except Fault Settings := do
  let defaults : Settings := {}
  let find (name : String) := Node.find? name.toList entries
  let requestTimeout ←
    orDefault defaults.requestTimeout (number requestTimeoutName) (find requestTimeoutName)
  let pageSize ← orDefault defaults.pageSize (number pageSizeName) (find pageSizeName)
  let bufferSize ← orDefault defaults.bufferSize (number bufferKey) buffer
  let slowPolicy ← orDefault defaults.slowPolicy policy slow
  .ok { requestTimeout, pageSize, bufferSize, slowPolicy }

/-- Reads settings from a tree. The watch section is a table, or a list of its
settings in order. -/
def ofTree (tree : Node) : Except Fault Settings :=
  match Node.find? watchName.toList tree.entries with
  | none => assemble tree.entries "" none none
  | some (.table watch _) =>
    assemble tree.entries (watchName ++ "." ++ bufferSizeName)
      (Node.find? bufferSizeName.toList watch) (Node.find? slowPolicyName.toList watch)
  | some (.list watch _) => assemble tree.entries (watchName ++ "[0]") watch[0]? watch[1]?
  | some node => .error (.notASection node.shape)

/-- A number as a node. -/
def ofNumber (n : Nat) : Except Fault Node :=
  if n ≤ greatest then .ok (.scalar (.integer n) none) else .error (.tooLarge n)

/-- Settings as the entries of a tree. A number beyond the greatest of a layer
cannot be written. -/
def entries (s : Settings) : Except Fault (List (Name × Node)) := do
  let requestTimeout ← ofNumber s.requestTimeout
  let pageSize ← ofNumber s.pageSize
  let bufferSize ← ofNumber s.bufferSize
  let slowPolicy := Node.scalar (.text s.slowPolicy.word.toList) none
  let watch := Node.table
    [(bufferSizeName.toList, bufferSize), (slowPolicyName.toList, slowPolicy)] none
  .ok [(requestTimeoutName.toList, requestTimeout), (pageSizeName.toList, pageSize),
    (watchName.toList, watch)]

/-- Of two readings in order that end well, both have ended well. -/
theorem bind_eq_ok {ε α β : Type} {first : Except ε α} {next : α → Except ε β} {b : β}
    (h : first >>= next = .ok b) : ∃ a, first = .ok a ∧ next a = .ok b := by
  cases first with
  | error e => simp [bind, Except.bind] at h
  | ok a => exact ⟨a, rfl, h⟩

/-- A number can be written exactly up to the greatest of a layer, and is written as itself. -/
theorem ofNumber_eq_ok_iff {n : Nat} {node : Node} :
    ofNumber n = .ok node ↔ n ≤ greatest ∧ node = .scalar (.integer n) none := by
  unfold ofNumber
  split
  · simp_all [eq_comm]
  · simp_all [Nat.not_le_of_lt]

/-- The word of a policy is read as the policy. -/
theorem policy_word (p : SlowPolicy) (origin : Option String) :
    policy (.scalar (.text p.word.toList) origin) = .ok p := by
  cases p <;> rfl

/-- Settings survive being written to a tree and read again. -/
theorem ofTree_entries {s : Settings} {all : List (Name × Node)} (h : s.entries = .ok all)
    (origin : Option String) : ofTree (.table all origin) = .ok s := by
  obtain ⟨_, requestTimeout, h⟩ := bind_eq_ok h
  obtain ⟨_, pageSize, h⟩ := bind_eq_ok h
  obtain ⟨_, bufferSize, h⟩ := bind_eq_ok h
  obtain ⟨-, rfl⟩ := ofNumber_eq_ok_iff.1 requestTimeout
  obtain ⟨-, rfl⟩ := ofNumber_eq_ok_iff.1 pageSize
  obtain ⟨-, rfl⟩ := ofNumber_eq_ok_iff.1 bufferSize
  obtain rfl := Except.ok.inj h
  simp [ofTree, assemble, Node.find?, Node.entries, orDefault, number, number?, policy_word,
    requestTimeoutName, pageSizeName, watchName, bufferSizeName, slowPolicyName, bind, Except.bind]

end KeyBroker.Settings
