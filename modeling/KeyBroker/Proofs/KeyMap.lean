import KeyBroker.KeyMap

/-!
# Maps by their values

A map is determined by its values, `KeyMap.ext_get?`. This file gives the value
that each operation leaves at a key, adds the operations on which the history of
a store is built, and shows that a scan under a stem misses nothing: the keys
that begin with one stem stand together in the order of the keys.
-/

namespace KeyBroker

namespace Key

/-- A stem comes before every key that begins with it. -/
theorem not_lt_of_prefix {stem key : Key} (h : stem <+: key) : ¬ key < stem := by
  induction stem generalizing key with
  | nil => exact List.not_lt_nil key
  | cons c stem ih =>
    obtain ⟨rest, rfl⟩ := h
    intro hlt
    rw [List.cons_append, List.cons_lt_cons_iff] at hlt
    rcases hlt with hlt | ⟨_, hlt⟩
    · exact Std.Irrefl.irrefl (r := (· < · : Char → Char → Prop)) c hlt
    · exact ih (List.prefix_append stem rest) hlt

/-- The keys that begin with a stem stand together: one that lies between the stem
and such a key begins with the stem as well. -/
theorem prefix_of_between {stem a b : Key} (hb : stem <+: b) (hstem : ¬ a < stem) (hab : a < b) :
    stem <+: a := by
  induction stem generalizing a b with
  | nil => exact List.nil_prefix
  | cons c stem ih =>
    obtain ⟨rest, rfl⟩ := hb
    cases a with
    | nil => exact absurd (List.nil_lt_cons c stem) hstem
    | cons d a =>
      rw [List.cons_append, List.cons_lt_cons_iff] at hab
      rw [List.cons_lt_cons_iff] at hstem
      have hdc : d = c := by
        rcases hab with hdc | ⟨hdc, _⟩
        · exact absurd (.inl hdc) hstem
        · exact hdc
      subst hdc
      have hrest : a < stem ++ rest := by
        rcases hab with hdd | ⟨_, hrest⟩
        · exact absurd hdd (Std.Irrefl.irrefl (r := (· < · : Char → Char → Prop)) d)
        · exact hrest
      have hlow : ¬ a < stem := fun h => hstem (.inr ⟨rfl, h⟩)
      exact List.cons_prefix_cons.2 ⟨rfl, ih (List.prefix_append stem rest) hlow hrest⟩

end Key

namespace KeyMap

variable {α β : Type}

/-! ### Values -/

/-- What a lookup finds is an entry. -/
theorem mem_of_lookup {key : Key} {a : α} {entries : List (Key × α)}
    (h : lookup key entries = some a) : (key, a) ∈ entries := by
  induction entries with
  | nil => cases h
  | cons head rest ih =>
    obtain ⟨k, b⟩ := head
    by_cases hk : k = key
    · have hab : b = a := by simpa only [lookup, if_pos hk, Option.some.injEq] using h
      subst hk hab
      exact List.mem_cons_self
    · have hrest : lookup key rest = some a := by simpa only [lookup, if_neg hk] using h
      exact List.mem_cons_of_mem _ (ih hrest)

/-- With keys in ascending order a lookup finds every entry. -/
theorem lookup_of_mem {key : Key} {a : α} {entries : List (Key × α)}
    (hasc : entries.Pairwise (·.1 < ·.1)) (h : (key, a) ∈ entries) :
    lookup key entries = some a := by
  induction entries with
  | nil => cases h
  | cons head rest ih =>
    obtain ⟨hhead, hrest⟩ := List.pairwise_cons.1 hasc
    rcases List.mem_cons.1 h with rfl | h
    · simp only [lookup, if_true]
    · have hne : head.1 ≠ key := fun heq => Key.lt_irrefl key (by simpa only [heq] using hhead _ h)
      simp only [lookup, if_neg hne, ih hrest h]

/-- The entries are the pairs of a key with its value. -/
theorem mem_entries_iff {m : KeyMap α} {key : Key} {a : α} :
    (key, a) ∈ m.entries ↔ m.get? key = some a :=
  ⟨lookup_of_mem m.ascending, mem_of_lookup⟩

/-- Maps with the same value at every key are the same map. -/
theorem ext_get? {m m' : KeyMap α} (h : ∀ key, m.get? key = m'.get? key) : m = m' := by
  have hmem : ∀ e, e ∈ m.entries ↔ e ∈ m'.entries := by
    rintro ⟨key, a⟩
    rw [mem_entries_iff, mem_entries_iff, h key]
  have hnodup (n : KeyMap α) : n.entries.Nodup := by
    refine List.Pairwise.imp ?_ n.ascending
    rintro a b hab rfl
    exact Key.lt_irrefl a.1 hab
  have hperm := (List.perm_ext_iff_of_nodup (hnodup m) (hnodup m')).2 hmem
  have heq : m.entries = m'.entries := by
    refine hperm.eq_of_pairwise ?_ m.ascending m'.ascending
    intro a b _ _ hab hba
    exact absurd (Key.lt_trans hab hba) (Key.lt_irrefl a.1)
  cases m
  cases m'
  simpa only [mk.injEq] using heq

/-- The empty map has nothing at any key. -/
@[simp] theorem get?_empty (key : Key) : (empty : KeyMap α).get? key = none := rfl

/-- Placing a key changes what is found at that key and nowhere else. -/
theorem lookup_place (key k : Key) (f : Option α → α) (entries : List (Key × α))
    (hasc : entries.Pairwise (·.1 < ·.1)) :
    lookup k (place key f entries) =
      if k = key then some (f (lookup key entries)) else lookup k entries := by
  induction entries with
  | nil =>
    by_cases hk : k = key
    · simp [place, lookup, hk]
    · simp [place, lookup, hk, Ne.symm hk]
  | cons head rest ih =>
    obtain ⟨d, a⟩ := head
    obtain ⟨hhead, hrest⟩ := List.pairwise_cons.1 hasc
    by_cases hlt : key < d
    · have hd : d ≠ key := fun h => Key.lt_irrefl key (by simpa only [h] using hlt)
      have hnone : lookup key rest = none := by
        cases hl : lookup key rest with
        | none => rfl
        | some b =>
          have hdk := hhead _ (mem_of_lookup hl)
          exact absurd (Key.lt_trans hlt hdk) (Key.lt_irrefl key)
      by_cases hk : k = key
      · simp [place, lookup, hlt, hk, hd, hnone]
      · simp [place, lookup, hlt, hk, Ne.symm hk]
    · by_cases hgt : d < key
      · have hd : d ≠ key := fun h => Key.lt_irrefl key (by simpa only [h] using hgt)
        by_cases hdk : d = k
        · subst hdk
          simp [place, lookup, hlt, hgt, hd]
        · simp [place, lookup, hlt, hgt, hd, hdk, ih hrest]
      · have hd : d = key := Key.eq_of_not_lt hgt hlt
        subst hd
        have hplace : place d f ((d, a) :: rest) = (d, f (some a)) :: rest := by
          rw [place, if_neg hlt, if_neg hgt]
        by_cases hk : k = d
        · simp [hplace, lookup, hk]
        · simp [hplace, lookup, hk, Ne.symm hk]

/-- Altering a map at a key changes what it has there and nowhere else. -/
theorem get?_alter (m : KeyMap α) (key k : Key) (f : Option α → α) :
    (m.alter key f).get? k = if k = key then some (f (m.get? key)) else m.get? k :=
  lookup_place key k f m.entries m.ascending

/-- Changing every value changes the value at each key. -/
theorem get?_filterMap (f : α → Option β) (m : KeyMap α) (key : Key) :
    (m.filterMap f).get? key = (m.get? key).bind f := by
  apply Option.ext
  intro b
  rw [← mem_entries_iff]
  simp only [filterMap, List.mem_filterMap, Option.map_eq_some_iff, Prod.mk.injEq,
    Option.bind_eq_some_iff]
  constructor
  · rintro ⟨⟨k, a⟩, hmem, c, hc, rfl, rfl⟩
    exact ⟨a, mem_entries_iff.1 hmem, hc⟩
  · rintro ⟨a, hget, hb⟩
    exact ⟨(key, a), mem_entries_iff.2 hget, b, hb, rfl, rfl⟩

/-! ### Setting, removing and restricting -/

/-- The map with the value at a key set. -/
def insert (m : KeyMap α) (key : Key) (a : α) : KeyMap α := m.alter key fun _ => a

/-- The map with the keys that pass the test. -/
def restrict (m : KeyMap α) (keep : Key → Bool) : KeyMap α where
  entries := m.entries.filter fun e => keep e.1
  ascending := m.ascending.filter _

/-- The map without a key. -/
def erase (m : KeyMap α) (key : Key) : KeyMap α := m.restrict fun k => decide (k ≠ key)

/-- An insertion sets the value at the key and nowhere else. -/
theorem get?_insert (m : KeyMap α) (key k : Key) (a : α) :
    (m.insert key a).get? k = if k = key then some a else m.get? k :=
  get?_alter m key k _

/-- A restricted map has what the map has at the keys that pass the test. -/
theorem get?_restrict (m : KeyMap α) (keep : Key → Bool) (key : Key) :
    (m.restrict keep).get? key = if keep key then m.get? key else none := by
  apply Option.ext
  intro a
  rw [← mem_entries_iff]
  by_cases hkeep : keep key
  · simp [restrict, hkeep, mem_entries_iff]
  · simp [restrict, hkeep]

/-- A map without a key has nothing there, and elsewhere what it had. -/
theorem get?_erase (m : KeyMap α) (key k : Key) :
    (m.erase key).get? k = if k = key then none else m.get? k := by
  by_cases hk : k = key <;> simp [erase, get?_restrict, hk]

/-- Setting a key and restricting commute, unless the key is dropped. -/
theorem restrict_insert (m : KeyMap α) (keep : Key → Bool) (key : Key) (a : α) :
    (m.insert key a).restrict keep =
      if keep key then (m.restrict keep).insert key a else m.restrict keep := by
  apply ext_get?
  intro k
  have hk : k = key → keep k = keep key := fun heq => heq ▸ rfl
  split <;> by_cases heq : k = key <;> simp_all [get?_restrict, get?_insert]

/-- Removing a key and restricting commute. -/
theorem restrict_erase (m : KeyMap α) (keep : Key → Bool) (key : Key) :
    (m.erase key).restrict keep =
      if keep key then (m.restrict keep).erase key else m.restrict keep := by
  apply ext_get?
  intro k
  have hk : k = key → keep k = keep key := fun heq => heq ▸ rfl
  split <;> by_cases heq : k = key <;> simp_all [get?_restrict, get?_erase]

/-! ### Scans -/

/-- Among ascending keys not before the stem, those under it come first. -/
theorem takeWhile_beginsWith {stem : Key} {entries : List (Key × α)}
    (hasc : entries.Pairwise (·.1 < ·.1)) (hstem : ∀ e ∈ entries, ¬ e.1 < stem) :
    (entries.takeWhile fun e => Key.beginsWith stem e.1) =
      entries.filter fun e => Key.beginsWith stem e.1 := by
  induction entries with
  | nil => rfl
  | cons head rest ih =>
    obtain ⟨hhead, hrest⟩ := List.pairwise_cons.1 hasc
    cases hbegin : Key.beginsWith stem head.1 with
    | true =>
      simp [hbegin, ih hrest fun e he => hstem e (List.mem_cons_of_mem _ he)]
    | false =>
      have hnone : ∀ e ∈ rest, ¬ Key.beginsWith stem e.1 = true := by
        intro e he hbe
        have hpre := Key.prefix_of_between (Key.beginsWith_iff.1 hbe)
          (hstem head List.mem_cons_self) (hhead e he)
        rw [Key.beginsWith_iff.2 hpre] at hbegin
        cases hbegin
      simp only [List.takeWhile_cons, List.filter_cons, hbegin, Bool.false_eq_true, if_false,
        List.filter_eq_nil_iff.2 hnone]

/-- Among ascending keys, those that a position passes over come first. -/
theorem dropWhile_isPast (position : Position) {entries : List (Key × α)}
    (hasc : entries.Pairwise (·.1 < ·.1))
    (hup : ∀ a b, position.isPast a = false → a < b → position.isPast b = false) :
    (entries.dropWhile fun e => position.isPast e.1) =
      entries.filter fun e => !position.isPast e.1 := by
  induction entries with
  | nil => rfl
  | cons head rest ih =>
    obtain ⟨hhead, hrest⟩ := List.pairwise_cons.1 hasc
    cases hpast : position.isPast head.1 with
    | true => simpa [hpast] using ih hrest
    | false =>
      have hlater : ∀ e ∈ rest, (!position.isPast e.1) = true := by
        intro e he
        simp [hup _ _ hpast (hhead e he)]
      simp only [List.dropWhile_cons, List.filter_cons, hpast, Bool.not_false, if_true,
        Bool.false_eq_true, if_false, List.filter_eq_self.2 hlater]

/-- A key behind one that does not lie before a position does not lie before it either. -/
theorem isPast_up (position : Position) {a b : Key} (ha : position.isPast a = false)
    (hab : a < b) : position.isPast b = false := by
  cases position with
  | «at» start =>
    have hstart : ¬ a < start := by simpa [Position.isPast] using ha
    have hb : ¬ b < start := fun h => hstart (Key.lt_trans hab h)
    simpa [Position.isPast] using hb
  | after start =>
    have hstart : start < a := by simpa [Position.isPast] using ha
    simpa [Position.isPast] using Key.lt_trans hstart hab

/-- A scan from a position not before its stem finds every entry under the stem
that the position does not pass over. -/
theorem scan_eq_filter (m : KeyMap α) (position : Position) (stem : Key)
    (hstart : ∀ key, position.isPast key = false → ¬ key < stem) :
    m.scan position stem =
      m.entries.filter fun e => Key.beginsWith stem e.1 && !position.isPast e.1 := by
  rw [scan, dropWhile_isPast position m.ascending fun a b => isPast_up position,
    takeWhile_beginsWith (m.ascending.filter _) ?_, List.filter_filter]
  intro e he
  have hpast := (List.mem_filter.1 he).2
  exact hstart e.1 (by simpa using hpast)

/-- A scan that begins at its stem finds every entry under it. -/
theorem scan_at (m : KeyMap α) (stem : Key) :
    m.scan (.at stem) stem = m.entries.filter fun e => Key.beginsWith stem e.1 := by
  rw [scan_eq_filter m _ _ fun key h => by simpa [Position.isPast] using h]
  refine List.filter_congr fun e _ => ?_
  cases hstem : Key.beginsWith stem e.1 with
  | false => rfl
  | true => simp [Position.isPast, Key.not_lt_of_prefix (Key.beginsWith_iff.1 hstem)]

end KeyMap

end KeyBroker
