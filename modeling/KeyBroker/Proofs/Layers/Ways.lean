import KeyBroker.Settings.Place

/-!
# The way to a place

A word of a source leads from the top of a settings tree to a place, name by name and index by
index. What is put there depends on nothing but what the tree has at the top of this way, and
leaves everything else as it was.
-/

namespace KeyBroker.Settings

/-- One step on the way to a place. -/
inductive Step where
  | name (name : Name)
  | index (index : Int)
  deriving DecidableEq, Repr

/-- The way to a place: the name at the top of the tree, and the steps from there. -/
structure Way where
  top : Name
  rest : List Step
  deriving DecidableEq, Repr

namespace Way

/-- The way with one more step. -/
def further (way : Way) (step : Step) : Way := { way with rest := way.rest ++ [step] }

end Way

/-- The way to a place. -/
def Place.way : Place → Way
  | .entry name => ⟨Text.lower name, []⟩
  | .child parent name => parent.way.further (.name name)
  | .item parent index => parent.way.further (.index index)

/-- All names of a place are in lower case. -/
def Place.Lowered : Place → Prop
  | .entry name => Text.lower name = name
  | .child parent name => parent.Lowered ∧ Text.lower name = name
  | .item parent _ => parent.Lowered

namespace Node

/-- What becomes of a node that is laid over what is there. -/
def upon (node : Node) (present : Option Node) : Node :=
  match node with
  | .table entries _ => overlay (present.getD blank) entries
  | node => node

/-- Laying a node over the entry with a name puts what becomes of both at the name in lower case. -/
theorem put_eq (name : Name) (target node : Node) :
    target.put name node =
      target.withEntry (Text.lower name) (node.upon (find? (Text.lower name) target.entries)) := by
  cases node <;> rfl

/-- An entry is put among the entries of the node, whatever the node was before. -/
@[simp] theorem entries_withEntry (node : Node) (name : Name) (child : Node) :
    (node.withEntry name child).entries = store name child node.entries := rfl

/-- What comes of a node that is to be laid over what is there, at the end of some steps. -/
def graft (node : Node) : List Step → Option Node → Option Node
  | [], present => some (node.upon present)
  | .name name :: rest, present =>
    let there := present.getD .missing
    (graft node rest (find? name there.entries)).map (there.withEntry name)
  | .index index :: rest, present =>
    Place.alterItem? index
      (fun item => if rest = [] then some node else graft node rest (some item))
      (present.getD .missing)

/-- What comes of a node that is changed at the end of some steps. -/
def alterAt (f : Node → Option Node) : List Step → Node → Option Node
  | [], node => f node
  | .name name :: rest, node => Place.alterNamed? name (alterAt f rest) node
  | .index index :: rest, node => Place.alterItem? index (alterAt f rest) node

/-- A change at the end of a way in two parts is made by following one part after the other. -/
theorem alterAt_append (f : Node → Option Node) (steps more : List Step) :
    alterAt f (steps ++ more) = alterAt (alterAt f more) steps := by
  funext node
  induction steps generalizing node with
  | nil => rfl
  | cons step rest ih =>
    have hrest : alterAt f (rest ++ more) = alterAt (alterAt f more) rest := funext ih
    cases step <;> simp only [List.cons_append, alterAt, hrest]

end Node

open Node

namespace Place

/-- Changing the node at a place is changing what is at the end of its way. -/
theorem alter?_eq {place : Place} (h : place.Lowered) (f : Node → Option Node) :
    alter? place f = alterNamed? place.way.top (alterAt f place.way.rest) := by
  induction place generalizing f with
  | entry name =>
    have hname : Text.lower name = name := h
    simp only [alter?, way, hname]
    rfl
  | child parent name ih =>
    rw [alter?, ih h.1, way, Way.further, alterAt_append]
    rfl
  | item parent index ih =>
    rw [alter?, ih h, way, Way.further, alterAt_append]
    rfl

/-- Where steps lead further, it makes no difference whether there is nothing or a place without a
value. -/
theorem graft_missing (node : Node) (steps : List Step) (last : Step) (present : Option Node) :
    node.graft (steps ++ [last]) present =
      node.graft (steps ++ [last]) (some (present.getD .missing)) := by
  cases steps with
  | nil => cases last <;> rfl
  | cons first more => cases first <;> rfl

/-- A graft at the end of some steps is a change there. -/
theorem graft_concat (node : Node) (steps : List Step) (last : Step) (there : Node) :
    node.graft (steps ++ [last]) (some there) =
      alterAt (fun there => node.graft [last] (some there)) steps there := by
  induction steps generalizing there with
  | nil => rfl
  | cons step rest ih =>
    cases step with
    | name name =>
      rw [List.cons_append, graft, graft_missing, ih]
      rfl
    | index index =>
      rw [List.cons_append, graft, alterAt]
      have hmore : rest ++ [last] ≠ [] := List.append_ne_nil_of_right_ne_nil rest (by simp)
      simp only [if_neg hmore, Option.getD_some]
      exact congrArg (alterItem? index · there) (funext ih)

/-- A node that is put at the end of a way is grafted where the way begins. -/
theorem put?_eq {place : Place} (h : place.Lowered) (root node : Node) :
    put? root node place =
      (node.graft place.way.rest (find? place.way.top root.entries)).map
        (root.withEntry place.way.top) := by
  have hgraft {parent : Place} (hparent : parent.Lowered) (last : Step) :
      alter? parent (fun there => node.graft [last] (some there)) root =
        (node.graft (parent.way.rest ++ [last]) (find? parent.way.top root.entries)).map
          (root.withEntry parent.way.top) := by
    rw [alter?_eq hparent, alterNamed?, graft_missing, graft_concat]
  cases place with
  | entry name =>
    rw [put?, put_eq]
    rfl
  | child parent name =>
    have hname : Text.lower name = name := h.2
    have hlast : (fun there : Node => some (there.put name node)) =
        fun there => node.graft [.name name] (some there) := by
      funext there
      rw [put_eq, hname]
      rfl
    rw [put?, hlast]
    exact hgraft h.1 (.name name)
  | item parent index =>
    rw [put?]
    exact @hgraft parent h (.index index)

/-- Suffixes lead from a place in lower case to places in lower case. -/
theorem lowered_follow? (fuel : Nat) {place last : Place} {text : List Char} (h : place.Lowered)
    (hfollow : follow? fuel place text = some last) : last.Lowered := by
  -- on the fuel, as the text gets shorter by a whole suffix at a time
  induction fuel generalizing place text with
  | zero =>
    cases text with
    | nil =>
      obtain rfl := Option.some.inj hfollow
      exact h
    | cons c rest => cases hfollow
  | succ fuel ih =>
    cases text with
    | nil =>
      obtain rfl := Option.some.inj hfollow
      exact h
    | cons c rest =>
      simp only [follow?] at hfollow
      split at hfollow
      · next name _ _ =>
        have hchild : (child place (Text.lower name)).Lowered := ⟨h, Text.lower_lower name⟩
        exact ih hchild hfollow
      · next index _ _ =>
        have hitem : (item place index).Lowered := h
        exact ih hitem hfollow
      · cases hfollow

/-- What a word names is in lower case, or it is a name as it stands. -/
theorem lowered_ofName (word : Name) : (ofName word).Lowered ∨ ofName word = .entry word := by
  simp only [ofName]
  split
  · exact .inr rfl
  · cases hfollow : follow? word.length (.entry (Text.lower (word.takeWhile isNameChar)))
      (word.dropWhile isNameChar) with
    | none => exact .inr rfl
    | some place =>
      have hentry : (entry (Text.lower (word.takeWhile isNameChar))).Lowered := Text.lower_lower _
      exact .inl (lowered_follow? word.length hentry hfollow)

/-- A node that is put where a word leads is grafted at the top of the way there. -/
theorem put?_ofName (root node : Node) (word : Name) :
    put? root node (ofName word) =
      (node.graft (ofName word).way.rest (find? (ofName word).way.top root.entries)).map
        (root.withEntry (ofName word).way.top) := by
  rcases lowered_ofName word with hlowered | hentry
  · exact put?_eq hlowered root node
  · rw [hentry, put?, put_eq]
    rfl

end Place

end KeyBroker.Settings
