import KeyBroker.Proofs.Ledger.Touching
import KeyBroker.Proofs.Listing.Pages

/-!
# A map inside another

A view puts its scope in front of all keys. So what it sees is a map of its own that lies
inside the whole one: the entries of one are those of the other under the scope, in the
same order, since a common beginning does not change how keys compare. This file relates
two maps in this way, whatever the revisions of their values, and what is read off them.
-/

namespace KeyBroker

namespace Key

/-- Keys under one scope stand in the order of their local keys. -/
theorem qualify_lt_qualify {scope a b : Key} : scope.qualify a < scope.qualify b ↔ a < b := by
  induction scope with
  | nil => exact Iff.rfl
  | cons c scope ih =>
    have hirrefl := Std.Irrefl.irrefl (r := (· < · : Char → Char → Prop)) c
    simp only [qualify, List.cons_append, List.cons_lt_cons_iff] at ih ⊢
    simp only [hirrefl, false_or, true_and, ih]

/-- Different local keys have different full keys. -/
theorem qualify_injective {scope a b : Key} (h : scope.qualify a = scope.qualify b) : a = b :=
  List.append_cancel_left h

/-- Full keys are the same exactly if their local keys are. -/
theorem qualify_inj {scope a b : Key} : scope.qualify a = scope.qualify b ↔ a = b :=
  ⟨qualify_injective, congrArg _⟩

/-- A full key begins with its scope. -/
theorem beginsWith_qualify (scope key : Key) : scope.beginsWith (scope.qualify key) = true :=
  beginsWith_iff.2 (List.prefix_append scope key)

/-- A key that is not empty has no empty full key. -/
theorem isEmpty_qualify (scope : Key) {key : Key} (h : key.isEmpty = false) :
    (scope.qualify key).isEmpty = false := by
  rw [List.isEmpty_eq_false_iff] at h ⊢
  exact List.append_ne_nil_of_right_ne_nil _ h

/-- A key under a scope is the scope with a key behind it. -/
theorem exists_qualify {scope key : Key} (h : scope.beginsWith key = true) :
    ∃ rest, key = scope.qualify rest := by
  obtain ⟨rest, hrest⟩ := beginsWith_iff.1 h
  exact ⟨rest, hrest.symm⟩

/-- What begins with a stem under the scope lies under the scope. -/
theorem beginsWith_of_qualify {scope stem key : Key}
    (h : (scope.qualify stem).beginsWith key = true) : scope.beginsWith key = true :=
  beginsWith_iff.2 ((List.prefix_append scope stem).trans (beginsWith_iff.1 h))

/-- A key begins with a stem under the scope exactly if it does without the scope. -/
@[simp] theorem beginsWith_qualify_qualify (scope stem key : Key) :
    (scope.qualify stem).beginsWith (scope.qualify key) = stem.beginsWith key := by
  rw [Bool.eq_iff_iff, beginsWith_iff, beginsWith_iff]
  exact List.prefix_append_right_inj scope

end Key

/-! ### Inside a scope, and without revisions -/

/-- A pair with the scope in front of its key. -/
def KeyValue.inside (scope : Key) (pair : KeyValue) : KeyValue :=
  { pair with key := scope.qualify pair.key }

/-- A pair without its revision. -/
def KeyValue.undated (pair : KeyValue) : KeyValue := { pair with revision := 0 }

/-- A query with the scope in front of its keys. -/
def RangeQuery.inside (scope : Key) (query : RangeQuery) : RangeQuery :=
  { query with
    stem := scope.qualify query.stem
    startAfter := query.startAfter.map scope.qualify }

/-- Pairs are, but for revisions, others with the scope in front of their keys. -/
def KeyValue.Mirrored (scope : Key) (pairs pairs' : List KeyValue) : Prop :=
  pairs.map (·.undated) = pairs'.map fun pair => (pair.inside scope).undated

/-- Two pages are alike but for revisions and the scope in front of the keys of the first. -/
structure Page.Mirrors (scope : Key) (page page' : Page) : Prop where
  pairs : KeyValue.Mirrored scope page.pairs page'.pairs
  more : page.more = page'.more

namespace KeyMap

variable {α : Type}

/-- The map with the scope in front of all keys. -/
def inside (scope : Key) (m : KeyMap α) : KeyMap α where
  entries := m.entries.map fun e => (scope.qualify e.1, e.2)
  ascending := List.pairwise_map.2 (m.ascending.imp Key.qualify_lt_qualify.2)

/-- A map with the scope in front of all keys has under it what the map has. -/
theorem get?_inside (scope : Key) (m : KeyMap α) (key : Key) :
    (m.inside scope).get? (scope.qualify key) = m.get? key := by
  apply Option.ext
  intro a
  rw [← mem_entries_iff, ← mem_entries_iff, inside, List.mem_map]
  constructor
  · rintro ⟨⟨k, b⟩, hmem, heq⟩
    obtain ⟨hkey, rfl⟩ := Prod.mk.inj heq
    exact Key.qualify_injective hkey ▸ hmem
  · exact fun hmem => ⟨(key, a), hmem, rfl⟩

/-- Nothing of it lies outside the scope. -/
theorem get?_inside_of_not {scope key : Key} (h : scope.beginsWith key = false) (m : KeyMap α) :
    (m.inside scope).get? key = none := by
  rw [Option.eq_none_iff_forall_ne_some]
  intro a hget
  obtain ⟨e, _, heq⟩ := List.mem_map.1 (mem_entries_iff.2 hget)
  rw [← (Prod.mk.inj heq).1, Key.beginsWith_qualify] at h
  cases h

end KeyMap

namespace Snapshot

variable {scope : Key} {m m' : Snapshot}

/-- Under the scope the first snapshot holds the values that the second holds. -/
def Mirrors (scope : Key) (m m' : Snapshot) : Prop :=
  ∀ key, (m.get? (scope.qualify key)).map (·.2) = (m'.get? key).map (·.2)

/-- The values of a snapshot. -/
def plain (m : Snapshot) : KeyMap Bytes := m.filterMap fun found => some found.2

/-- The values of a snapshot have its keys. -/
theorem entries_plain (m : Snapshot) : m.plain.entries = m.entries.map fun e => (e.1, e.2.2) :=
  congrFun List.filterMap_eq_map m.entries

/-- The entries under the scope are those of the other snapshot, in the same order. -/
theorem Mirrors.entries (h : Mirrors scope m m') :
    (m.entries.filter fun e => scope.beginsWith e.1).map (fun e => (e.1, e.2.2)) =
      m'.entries.map fun e => (scope.qualify e.1, e.2.2) := by
  have hsame : plain (m.restrict scope.beginsWith) = m'.plain.inside scope := by
    apply KeyMap.ext_get?
    intro key
    rw [plain, KeyMap.get?_filterMap, KeyMap.get?_restrict]
    cases hkey : scope.beginsWith key with
    | false =>
      rw [KeyMap.get?_inside_of_not hkey]
      rfl
    | true =>
      obtain ⟨rest, rfl⟩ := Key.exists_qualify hkey
      have hrest := h rest
      rw [KeyMap.get?_inside, plain, KeyMap.get?_filterMap, if_pos rfl]
      simpa only [Option.map_eq_bind, Function.comp_def] using hrest
  have hinside : (m'.plain.inside scope).entries =
      m'.plain.entries.map fun e => (scope.qualify e.1, e.2) := rfl
  have hentries := congrArg KeyMap.entries hsame
  rw [hinside, entries_plain, entries_plain, List.map_map] at hentries
  exact hentries

/-- What a test of keys under the scope finds is what it finds in the other snapshot. -/
theorem Mirrors.filter (h : Mirrors scope m m') {test test' : Key → Bool}
    (hunder : ∀ key, test key = true → scope.beginsWith key = true)
    (htest : ∀ key, test (scope.qualify key) = test' key) :
    ((m.entries.filter fun e => test e.1).map fun e => (e.1, e.2.2)) =
      (m'.entries.filter fun e => test' e.1).map fun e => (scope.qualify e.1, e.2.2) := by
  have hall := congrArg (List.filter fun e => test e.1) h.entries
  rw [List.filter_map, List.filter_map, List.filter_filter] at hall
  have hleft : (m.entries.filter fun e => test e.1 && scope.beginsWith e.1) =
      m.entries.filter fun e => test e.1 := by
    refine List.filter_congr fun e _ => ?_
    cases htrue : test e.1 with
    | false => rfl
    | true => exact hunder _ htrue
  have hright : ((fun e : Key × Bytes => test e.1) ∘
      fun e : Key × Nat × Bytes => (scope.qualify e.1, e.2.2)) = fun e => test' e.1 :=
    funext fun e => htest e.1
  rw [hright] at hall
  rw [← hall, ← hleft]
  rfl

/-- The live keys under a stem are those of the other snapshot with the scope in front. -/
theorem Mirrors.keysUnder (h : Mirrors scope m m') (stem : Key) :
    m.keysUnder (scope.qualify stem) = (m'.keysUnder stem).map scope.qualify := by
  have hkeys := congrArg (List.map Prod.fst)
    (h.filter (fun _ => Key.beginsWith_of_qualify) (Key.beginsWith_qualify_qualify scope stem))
  rw [List.map_map, List.map_map] at hkeys
  rw [Snapshot.keysUnder, Snapshot.keysUnder, List.filter_map, List.filter_map, List.map_map]
  exact hkeys

/-- A query finds the same pairs in both snapshots. -/
theorem Mirrors.pairs (h : Mirrors scope m m') (query : RangeQuery) :
    KeyValue.Mirrored scope (m.pairs (query.inside scope)) (m'.pairs query) := by
  let test (query : RangeQuery) (key : Key) : Bool :=
    query.stem.beginsWith key && query.startAfter.all (· < key)
  have htest (key : Key) : test (query.inside scope) (scope.qualify key) = test query key := by
    simp only [test, RangeQuery.inside, Key.beginsWith_qualify_qualify]
    cases query.startAfter with
    | none => rfl
    | some start => simp only [Option.map_some, Option.all_some, Key.qualify_lt_qualify]
  have hunder (key : Key) (hkey : test (query.inside scope) key = true) :
      scope.beginsWith key = true :=
    Key.beginsWith_of_qualify (Bool.and_eq_true_iff.1 hkey).1
  have hfound := congrArg
    (List.map fun e : Key × Bytes => (shown query (e.1, 0, e.2)).undated) (h.filter hunder htest)
  rw [List.map_map, List.map_map] at hfound
  rw [KeyValue.Mirrored, Snapshot.pairs, Snapshot.pairs, List.map_map, List.map_map]
  exact hfound

/-- A query gets the same page of both snapshots. -/
theorem Mirrors.page (h : Mirrors scope m m') (revision revision' : Nat) (query : RangeQuery) :
    Page.Mirrors scope (m.page revision (query.inside scope)) (m'.page revision' query) := by
  have hpairs := h.pairs query
  have hlength : (m.pairs (query.inside scope)).length = (m'.pairs query).length := by
    have hlengths := congrArg List.length hpairs
    rwa [List.length_map, List.length_map] at hlengths
  have hlimit : (query.inside scope).limit = query.limit := rfl
  unfold Snapshot.page
  rw [hlimit]
  split
  · exact ⟨hpairs, rfl⟩
  · have htake := congrArg (List.take query.limit) hpairs
    rw [← List.map_take, ← List.map_take] at htake
    refine ⟨htake, ?_⟩
    simp only [hlength]

end Snapshot

end KeyBroker
