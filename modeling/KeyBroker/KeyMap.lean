import KeyBroker.Key

/-!
# Maps ordered by key

A finite map from keys, kept as its entries in ascending order of the keys. A
scan seeks to a position in that order and reads on from there, so the entries
under one stem are found together.
-/

namespace KeyBroker

namespace Key

/-- No key lies before itself. -/
theorem lt_irrefl (a : Key) : ¬ a < a := List.lt_irrefl a

/-- The order of keys is transitive. -/
theorem lt_trans {a b c : Key} (hab : a < b) (hbc : b < c) : a < c := List.lt_trans hab hbc

/-- Of two different keys one lies before the other. -/
theorem eq_of_not_lt {a b : Key} (hab : ¬ a < b) (hba : ¬ b < a) : a = b :=
  List.le_antisymm hba hab

end Key

/-- A finite map from keys, in ascending order. -/
structure KeyMap (α : Type) where
  entries : List (Key × α)
  ascending : entries.Pairwise (·.1 < ·.1)

namespace KeyMap

variable {α : Type}

/-- The map without entries. -/
def empty : KeyMap α := ⟨[], .nil⟩

instance : Inhabited (KeyMap α) := ⟨empty⟩

/-- The value of the first entry for `key`. -/
def lookup (key : Key) : List (Key × α) → Option α
  | [] => none
  | (k, a) :: rest => if k = key then some a else lookup key rest

/-- The value at a key. -/
def get? (m : KeyMap α) (key : Key) : Option α := lookup key m.entries

/-- Sets the entry for `key` to `f` of its present value, keeping the order. -/
def place (key : Key) (f : Option α → α) : List (Key × α) → List (Key × α)
  | [] => [(key, f none)]
  | (k, a) :: rest =>
    if key < k then (key, f none) :: (k, a) :: rest
    else if k < key then (k, a) :: place key f rest
    else (k, f (some a)) :: rest

/-- Whatever stands in a list after placing a key has that key, or a key that was there before. -/
theorem mem_place {key : Key} {f : Option α → α} {entries : List (Key × α)} {e : Key × α}
    (h : e ∈ place key f entries) : e.1 = key ∨ e ∈ entries ∨ ∃ a, (e.1, a) ∈ entries := by
  induction entries with
  | nil => simp_all [place]
  | cons head rest ih =>
    obtain ⟨k, a⟩ := head
    simp only [place] at h
    split at h
    · rcases List.mem_cons.1 h with rfl | h
      · exact .inl rfl
      · exact .inr (.inl h)
    · split at h
      · rcases List.mem_cons.1 h with rfl | h
        · exact .inr (.inl (by simp))
        · rcases ih h with h | h | ⟨b, h⟩
          · exact .inl h
          · exact .inr (.inl (by simp [h]))
          · exact .inr (.inr ⟨b, by simp [h]⟩)
      · rcases List.mem_cons.1 h with rfl | h
        · exact .inr (.inr ⟨a, by simp⟩)
        · exact .inr (.inl (by simp [h]))

/-- Placing a key keeps the keys in strictly ascending order. -/
theorem pairwise_place (key : Key) (f : Option α → α) {entries : List (Key × α)}
    (h : entries.Pairwise (·.1 < ·.1)) : (place key f entries).Pairwise (·.1 < ·.1) := by
  induction entries with
  | nil => simp [place]
  | cons head rest ih =>
    obtain ⟨k, a⟩ := head
    obtain ⟨hk, hrest⟩ := List.pairwise_cons.1 h
    simp only [place]
    split
    · next hlt =>
      refine List.pairwise_cons.2 ⟨fun e he => ?_, h⟩
      rcases List.mem_cons.1 he with rfl | he
      · exact hlt
      · exact Key.lt_trans hlt (hk e he)
    · split
      · next hlt =>
        refine List.pairwise_cons.2 ⟨fun e he => ?_, ih hrest⟩
        rcases mem_place he with h | h | ⟨b, h⟩
        · exact h ▸ hlt
        · exact hk e h
        · exact hk (e.1, b) h
      · exact List.pairwise_cons.2 ⟨fun e he => hk e he, hrest⟩

/-- Sets the value at `key` to `f` of the present one. -/
def alter (m : KeyMap α) (key : Key) (f : Option α → α) : KeyMap α :=
  ⟨place key f m.entries, pairwise_place key f m.ascending⟩

/-- Changes every value, dropping the keys for which `f` gives nothing. -/
def filterMap {β : Type} (f : α → Option β) (m : KeyMap α) : KeyMap β where
  entries := m.entries.filterMap fun (k, a) => (f a).map (k, ·)
  ascending := by
    refine List.Pairwise.filterMap _ ?_ m.ascending
    rintro ⟨k, a⟩ ⟨k', a'⟩ h b hb b' hb'
    simp only [Option.map_eq_some_iff] at hb hb'
    obtain ⟨_, _, rfl⟩ := hb
    obtain ⟨_, _, rfl⟩ := hb'
    exact h

/-- Where a scan begins. -/
inductive Position where
  /-- At the key, if it is there, else at the next one. -/
  | at (key : Key)
  /-- At the next key after this one. -/
  | after (key : Key)
  deriving DecidableEq, Repr

/-- Whether `key` lies before the position. -/
def Position.isPast (position : Position) (key : Key) : Bool :=
  match position with
  | .at start => key < start
  | .after start => !(start < key)

/-- The entries from `position` on, as long as their keys begin with `stem`. -/
def scan (m : KeyMap α) (position : Position) (stem : Key) : List (Key × α) :=
  (m.entries.dropWhile fun e => position.isPast e.1).takeWhile fun e => Key.beginsWith stem e.1

end KeyMap

end KeyBroker
