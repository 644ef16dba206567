import KeyBroker.Proofs.Layers.Laying
import KeyBroker.Settings.Layers

/-!
# What a layer has

A file or the environment has some of the settings, each once, and a tree holds all of them. What
a tree holds after a layer is laid is what the layer has, else what it held; and what a tree holds
is what is read from it. Whether a file has some settings can be decided.
-/

namespace KeyBroker.Settings

/-- Some of the settings. -/
structure Portion where
  requestTimeout : Option Nat := none
  pageSize : Option Nat := none
  bufferSize : Option Nat := none
  slowPolicy : Option SlowPolicy := none
  deriving DecidableEq, Repr

/-- The settings of a portion, and others where it has none. -/
def Portion.upon (d : Portion) (s : Settings) : Settings where
  requestTimeout := d.requestTimeout.getD s.requestTimeout
  pageSize := d.pageSize.getD s.pageSize
  bufferSize := d.bufferSize.getD s.bufferSize
  slowPolicy := d.slowPolicy.getD s.slowPolicy

/-- There is one node, which means the value, or there is neither node nor value. -/
def Means {α : Type} (means : Node → α → Prop) (nodes : List Node) : Option α → Prop
  | none => nodes = []
  | some value => ∃ node, nodes = [node] ∧ means node value

instance {α : Type} (means : Node → α → Prop) [∀ node value, Decidable (means node value)]
    (nodes : List Node) (given : Option α) : Decidable (Means means nodes given) :=
  match given, nodes with
  | none, [] => .isTrue rfl
  | none, _ :: _ => .isFalse <| by
    intro h
    cases h
  | some value, [node] => decidable_of_iff (means node value) <| by
    constructor
    · exact fun h => ⟨node, rfl, h⟩
    · rintro ⟨_, hnodes, h⟩
      cases hnodes
      exact h
  | some _, [] | some _, _ :: _ :: _ => .isFalse <| by
    rintro ⟨_, hnodes, -⟩
    cases hnodes

/-- A node is a number that a layer can hold. -/
def IsNumber (node : Node) (n : Nat) : Prop := number? node = some n ∧ n ≤ greatest

instance (node : Node) (n : Nat) : Decidable (IsNumber node n) :=
  inferInstanceAs (Decidable (_ ∧ _))

/-- The word that a node is, or that a table holds alone. -/
def Node.word? : Node → Option (List Char)
  | .scalar (.text word) _ => some word
  | .table [(word, _)] _ => some word
  | _ => none

/-- A node has the word for a policy, in any case. -/
def IsPolicy (node : Node) (p : SlowPolicy) : Prop :=
  ∃ word ∈ node.word?, Text.isWord p.word word = true

instance (node : Node) (p : SlowPolicy) : Decidable (IsPolicy node p) :=
  inferInstanceAs (Decidable (∃ word ∈ node.word?, _))

/-- A layer has these settings, each once, and no others. -/
structure Has (layer : List (Name × Node)) (d : Portion) : Prop where
  requestTimeout : Means IsNumber (definitions .requestTimeout layer) d.requestTimeout
  pageSize : Means IsNumber (definitions .pageSize layer) d.pageSize
  bufferSize : Means IsNumber (definitions .bufferSize layer) d.bufferSize
  slowPolicy : Means IsPolicy (definitions .slowPolicy layer) d.slowPolicy

instance (layer : List (Name × Node)) (d : Portion) : Decidable (Has layer d) :=
  decidable_of_iff
    (Means IsNumber (definitions .requestTimeout layer) d.requestTimeout ∧
      Means IsNumber (definitions .pageSize layer) d.pageSize ∧
      Means IsNumber (definitions .bufferSize layer) d.bufferSize ∧
      Means IsPolicy (definitions .slowPolicy layer) d.slowPolicy)
    ⟨fun h => ⟨h.1, h.2.1, h.2.2.1, h.2.2.2⟩,
      fun h => ⟨h.requestTimeout, h.pageSize, h.bufferSize, h.slowPolicy⟩⟩

/-- The layer of a file that has these settings. It may have anything elsewhere that can be laid
over an empty tree in the order of the file. -/
structure IsFile (layer : List (Name × Node)) (d : Portion) : Prop where
  has : Has layer d
  suits : ∀ e ∈ layer, Suits e.1 e.2
  laid : (Place.putAll? .blank layer).isSome = true

instance (layer : List (Name × Node)) (d : Portion) : Decidable (IsFile layer d) :=
  decidable_of_iff
    (Has layer d ∧ (∀ e ∈ layer, Suits e.1 e.2) ∧ (Place.putAll? .blank layer).isSome = true)
    ⟨fun h => ⟨h.1, h.2.1, h.2.2⟩, fun h => ⟨h.has, h.suits, h.laid⟩⟩

/-- The layer of an environment that has these settings, and nothing elsewhere. -/
structure IsEnvironment (layer : List (Name × Node)) (d : Portion) : Prop where
  has : Has layer d
  settings : ∀ e ∈ layer, ∃ setting : Setting, (Place.ofName e.1).way = setting.way

instance (layer : List (Name × Node)) (d : Portion) : Decidable (IsEnvironment layer d) :=
  decidable_of_iff
    (Has layer d ∧ ∀ e ∈ layer, ∃ setting : Setting, (Place.ofName e.1).way = setting.way)
    ⟨fun h => ⟨h.1, h.2⟩, fun h => ⟨h.has, h.settings⟩⟩

namespace Surroundings

/-- There is a file at a path that has these settings. -/
def HasFile (around : Surroundings) (path : List Char) (d : Portion) : Prop :=
  ∃ layer, TextFile.layer around.files path = .ok layer ∧ IsFile layer d

instance (around : Surroundings) (path : List Char) (d : Portion) :
    Decidable (around.HasFile path d) :=
  match h : TextFile.layer around.files path with
  | .ok layer => decidable_of_iff (IsFile layer d) <| by
    constructor
    · exact fun hfile => ⟨layer, h, hfile⟩
    · rintro ⟨_, hlayer, hfile⟩
      rw [h] at hlayer
      exact Except.ok.inj hlayer ▸ hfile
  | .error _ => .isFalse <| by
    rintro ⟨_, hlayer, -⟩
    rw [h] at hlayer
    cases hlayer

/-- The environment has these settings. -/
def HasEnvironment (around : Surroundings) (d : Portion) : Prop :=
  IsEnvironment (Variable.layer around.environment) d

instance (around : Surroundings) (d : Portion) : Decidable (around.HasEnvironment d) :=
  inferInstanceAs (Decidable (IsEnvironment _ d))

end Surroundings

/-- All numbers are such that a layer can hold them. -/
structure Writable (s : Settings) : Prop where
  requestTimeout : s.requestTimeout ≤ greatest
  pageSize : s.pageSize ≤ greatest
  bufferSize : s.bufferSize ≤ greatest

instance (s : Settings) : Decidable s.Writable :=
  decidable_of_iff
    (s.requestTimeout ≤ greatest ∧ s.pageSize ≤ greatest ∧ s.bufferSize ≤ greatest)
    ⟨fun h => ⟨h.1, h.2.1, h.2.2⟩, fun h => ⟨h.requestTimeout, h.pageSize, h.bufferSize⟩⟩

/-- A tree has these settings and a watch section that is a table. -/
structure Node.Holds (tree : Node) (s : Settings) : Prop where
  sectioned : tree.Sectioned
  requestTimeout : ∃ node, tree.look .requestTimeout = some node ∧ IsNumber node s.requestTimeout
  pageSize : ∃ node, tree.look .pageSize = some node ∧ IsNumber node s.pageSize
  bufferSize : ∃ node, tree.look .bufferSize = some node ∧ IsNumber node s.bufferSize
  slowPolicy : ∃ node, tree.look .slowPolicy = some node ∧ IsPolicy node s.slowPolicy

variable {s : Settings} {layer : List (Name × Node)} {tree after : Node} {d : Portion}

/-! ### Laying and reading -/

/-- Laying a node with a meaning, if there is one, over a node leaves a node that means the new
value, or else the old one. -/
theorem Means.pile {α : Type} {means : Node → α → Prop} {nodes : List Node} {given : Option α}
    (h : Means means nodes given) {before : Option Node} {old : α}
    (hbefore : ∃ node, before = some node ∧ means node old)
    (hupon : ∀ node ∈ nodes, ∀ value, means node value → means (node.upon before) value) :
    ∃ node, Node.pile before nodes = some node ∧ means node (given.getD old) := by
  cases given with
  | none =>
    obtain rfl : nodes = [] := h
    exact hbefore
  | some value =>
    obtain ⟨node, rfl, hmeans⟩ := h
    exact ⟨node.upon before, rfl, hupon node List.mem_cons_self value hmeans⟩

/-- A number laid over anything is that number. -/
theorem IsNumber.upon {node : Node} {n : Nat} (h : IsNumber node n) (present : Option Node) :
    IsNumber (node.upon present) n := by
  cases node with
  | table entries origin => cases h.1
  | _ => exact h

/-- A table that has a policy keeps it on what has no entries. -/
theorem IsPolicy.upon {node : Node} {p : SlowPolicy} (h : IsPolicy node p) {present : Option Node}
    (hflat : node.entries = [] ∨ ∀ there ∈ present, there.entries = []) :
    IsPolicy (node.upon present) p := by
  cases node with
  | table entries origin =>
    obtain ⟨word, hword, hp⟩ := h
    match entries, hword with
    | [(word, child)], rfl =>
      have hbare : (present.getD .blank).entries = [] := by
        cases present with
        | none => rfl
        | some there => exact (hflat.resolve_left (List.cons_ne_nil _ _)) there rfl
      have hupon : Node.upon (.table [(word, child)] origin) present =
          .table [(Text.lower word, child.upon none)] (present.getD .blank).tableOrigin := by
        rw [Node.upon, Node.overlay, Node.overlay, Node.put_eq, hbare, Node.withEntry, hbare]
        rfl
      rw [hupon]
      refine ⟨Text.lower word, rfl, ?_⟩
      rwa [Text.isWord, Text.lower_lower]
  | _ => exact h

/-- A tree that a layer is laid over has the settings of the layer, and else its own. -/
theorem Node.Holds.putAll (h : tree.Holds s) (hsuits : ∀ e ∈ layer, Suits e.1 e.2)
    (hhas : Has layer d)
    (hflat : ∀ node ∈ definitions .slowPolicy layer,
      node.entries = [] ∨ ∀ there ∈ tree.look .slowPolicy, there.entries = [])
    (hput : Place.putAll? tree layer = some after) : after.Holds (d.upon s) where
  sectioned := Node.sectioned_putAll hsuits hput h.sectioned
  requestTimeout := by
    rw [Node.look_putAll hsuits hput]
    exact hhas.requestTimeout.pile h.requestTimeout fun _ _ _ hnumber => hnumber.upon _
  pageSize := by
    rw [Node.look_putAll hsuits hput]
    exact hhas.pageSize.pile h.pageSize fun _ _ _ hnumber => hnumber.upon _
  bufferSize := by
    rw [Node.look_putAll hsuits hput]
    exact hhas.bufferSize.pile h.bufferSize fun _ _ _ hnumber => hnumber.upon _
  slowPolicy := by
    rw [Node.look_putAll hsuits hput]
    exact hhas.slowPolicy.pile h.slowPolicy fun node hnode _ hpolicy =>
      hpolicy.upon (hflat node hnode)

/-- The settings that a tree holds can be written as a layer. -/
theorem Node.Holds.writable (h : tree.Holds s) : s.Writable where
  requestTimeout := by
    obtain ⟨_, -, hnumber⟩ := h.requestTimeout
    exact hnumber.2
  pageSize := by
    obtain ⟨_, -, hnumber⟩ := h.pageSize
    exact hnumber.2
  bufferSize := by
    obtain ⟨_, -, hnumber⟩ := h.bufferSize
    exact hnumber.2

/-- A word for a policy names that policy, in any case. -/
theorem policyNamed_of_isWord {p : SlowPolicy} {word : List Char}
    (h : Text.isWord p.word word = true) : policyNamed word = .ok p := by
  have hapart : Text.lower SlowPolicy.dropAndSignal.word.toList ≠
      Text.lower SlowPolicy.block.word.toList := by
    decide +kernel
  cases p with
  | block => simp only [policyNamed, List.find?_cons, h]
  | dropAndSignal =>
    have hlower : Text.lower word = Text.lower SlowPolicy.dropAndSignal.word.toList :=
      beq_iff_eq.1 h
    have hblock : Text.isWord SlowPolicy.block.word word = false := by
      rw [Text.isWord, hlower]
      exact beq_false_of_ne hapart
    simp only [policyNamed, List.find?_cons, hblock, h]

/-- A node with the word for a policy is read as that policy. -/
theorem IsPolicy.policy {node : Node} {p : SlowPolicy} (h : IsPolicy node p) :
    Settings.policy node = .ok p := by
  obtain ⟨word, hword, hp⟩ := h
  have hpolicy : Settings.policy node = policyNamed word := by
    revert hword
    fun_cases Node.word? node with
    | case1 | case2 => exact fun hword => Option.some.inj hword ▸ rfl
    | case3 => exact fun hword => absurd hword (Option.not_mem_none word)
  rw [hpolicy, policyNamed_of_isWord hp]

/-- A node that is a number is read as that number. -/
theorem number_of_isNumber {node : Node} {n : Nat} (h : IsNumber node n) (key : String) :
    number key node = .ok n := by
  rw [number, h.1]

/-- What a tree holds is read from it. -/
theorem ofTree_of_holds (h : tree.Holds s) : ofTree tree = .ok s := by
  obtain ⟨timeout, htimeout, histimeout⟩ := h.requestTimeout
  obtain ⟨page, hpage, hispage⟩ := h.pageSize
  obtain ⟨buffer, hbuffer, hisbuffer⟩ := h.bufferSize
  obtain ⟨slow, hslow, hisslow⟩ := h.slowPolicy
  simp only [Node.look, Node.sectionEntries] at htimeout hpage hbuffer hslow
  cases hwatch : Node.find? watchName.toList tree.entries with
  | none =>
    rw [hwatch] at hbuffer
    cases hbuffer
  | some node =>
    obtain ⟨entries, origin, rfl⟩ := h.sectioned node hwatch
    rw [hwatch] at hbuffer hslow
    have hbuffer' : Node.find? bufferSizeName.toList entries = some buffer := hbuffer
    have hslow' : Node.find? slowPolicyName.toList entries = some slow := hslow
    simp only [ofTree, hwatch, assemble, htimeout, hpage, hbuffer', hslow', orDefault,
      number_of_isNumber histimeout, number_of_isNumber hispage, number_of_isNumber hisbuffer,
      hisslow.policy, bind, Except.bind]

end KeyBroker.Settings
