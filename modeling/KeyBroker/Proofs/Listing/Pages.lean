import KeyBroker.Broker.Listing
import KeyBroker.Proofs.Snapshot

/-!
# The pages of a listing

What a listing has still to yield of a snapshot is its buffer and then the pairs
after the last key it was given. A page moves pairs from the second part to the
first, and a step hands out the oldest pair, so no pair is skipped or repeated
whatever the size of the pages.
-/

namespace KeyBroker

/-! ### Taking off the scope -/

/-- A key under a scope is shown without it. -/
theorem Key.reveal_of_prefix {scope key : Key} (h : scope <+: key) :
    Key.reveal scope key = .ok (key.drop scope.length) := by
  obtain ⟨rest, rfl⟩ := h
  rw [List.drop_left]
  unfold Key.reveal
  split
  · next hempty => rw [List.isEmpty_iff.1 hempty, List.nil_append]
  · have hrelative : relative? scope (scope ++ rest) = some rest := relative?_qualify scope rest
    rw [hrelative]

/-- A pair as a view of `scope` shows it. -/
def KeyValue.within (scope : Key) (pair : KeyValue) : KeyValue :=
  { pair with key := pair.key.drop scope.length }

/-- A view shows a pair under its scope with the scope taken off. -/
theorem KeyValue.reveal_of_prefix {scope : Key} {pair : KeyValue} (h : scope <+: pair.key) :
    pair.reveal scope = .ok (pair.within scope) := by
  rw [reveal, Key.reveal_of_prefix h]
  rfl

/-- A pair that cannot be shown is outside the scope. -/
theorem KeyValue.foreign_of_reveal {scope : Key} {pair : KeyValue} {e : Error}
    (h : pair.reveal scope = .error e) : e = .scopeViolation pair.key scope := by
  unfold reveal Key.reveal at h
  split at h
  · cases h
  · split at h
    · cases h
    · cases h
      rfl

/-- A pair without its value. -/
def KeyValue.blank (pair : KeyValue) : KeyValue := { pair with value := [] }

/-! ### The pairs after a page -/

namespace Snapshot

/-- The pairs that a listing of `stem` through a view of `scope` yields: those of the keys
that begin with both, in ascending order and with the scope taken off. -/
def listed (m : Snapshot) (scope stem : Key) : List KeyValue :=
  (m.entries.filter fun e => (scope ++ stem).isPrefixOf e.1).map fun (key, revision, value) =>
    { key := key.drop scope.length, value, revision }

/-- The entries that a query asks for. -/
def found (m : Snapshot) (query : RangeQuery) : List (Key × Nat × Bytes) :=
  m.entries.filter fun e => query.stem.beginsWith e.1 && query.startAfter.all (· < e.1)

/-- The pairs of a query are the entries found, each as the query shows it. -/
theorem pairs_eq (m : Snapshot) (query : RangeQuery) :
    m.pairs query = (m.found query).map (shown query) := rfl

/-- Past the last of the first entries come all others. -/
theorem filter_past_eq_drop {entries : List (Key × Nat × Bytes)} {n : Nat}
    {last : Key × Nat × Bytes}
    (hasc : entries.Pairwise (·.1 < ·.1)) (hlast : (entries.take n).getLast? = some last) :
    (entries.filter fun e => decide (last.1 < e.1)) = entries.drop n := by
  obtain ⟨init, hinit⟩ := List.getLast?_eq_some_iff.1 hlast
  have hsplit : entries = (init ++ [last]) ++ entries.drop n := by
    rw [← hinit, List.take_append_drop]
  rw [hsplit] at hasc
  obtain ⟨hfirst, _, hcross⟩ := List.pairwise_append.1 hasc
  have hnone : (init ++ [last]).filter (fun e => decide (last.1 < e.1)) = [] := by
    rw [List.filter_eq_nil_iff]
    intro e he hlt
    have hlt : last.1 < e.1 := of_decide_eq_true hlt
    rcases List.mem_append.1 he with he | he
    · have hbefore : e.1 < last.1 :=
        (List.pairwise_append.1 hfirst).2.2 e he last List.mem_cons_self
      exact Key.lt_irrefl _ (Key.lt_trans hlt hbefore)
    · rw [List.mem_singleton.1 he] at hlt
      exact Key.lt_irrefl _ hlt
  have hall : (entries.drop n).filter (fun e => decide (last.1 < e.1)) = entries.drop n := by
    rw [List.filter_eq_self]
    intro e he
    exact decide_eq_true (hcross last (List.mem_append_right _ List.mem_cons_self) e he)
  conv => lhs; rw [hsplit]
  rw [List.filter_append, hnone, hall, List.nil_append]

/-- The entries of a query stand in ascending order of their keys. -/
theorem found_ascending (m : Snapshot) (query : RangeQuery) :
    (m.found query).Pairwise (·.1 < ·.1) := m.ascending.filter _

/-- What is found after the last key of a page is what the page left out. -/
theorem found_after {m : Snapshot} {query : RangeQuery} {n : Nat} {last : Key × Nat × Bytes}
    (hlast : ((m.found query).take n).getLast? = some last) :
    m.found { query with startAfter := some last.1 } = (m.found query).drop n := by
  rw [← filter_past_eq_drop (m.found_ascending query) hlast, found, found, List.filter_filter]
  have hmem : last ∈ m.found query := List.mem_of_mem_take (List.mem_of_getLast? hlast)
  have hafter : query.startAfter.all (· < last.1) = true := by
    have hboth := (List.mem_filter.1 hmem).2
    exact (Bool.and_eq_true_iff.1 hboth).2
  refine List.filter_congr fun e _ => ?_
  have himp : last.1 < e.1 → query.startAfter.all (· < e.1) = true := by
    intro hlt
    cases hstart : query.startAfter with
    | none => rfl
    | some start =>
      rw [hstart] at hafter
      have hstart : start < last.1 := by simpa using hafter
      simpa using Key.lt_trans hstart hlt
  by_cases hlt : last.1 < e.1
  · simp [hlt, himp hlt]
  · simp [hlt]

/-- The page of a limited query. -/
theorem page_of_limit (m : Snapshot) (revision : Nat) (query : RangeQuery) (h : 0 < query.limit) :
    m.page revision query =
      { pairs := (m.pairs query).take query.limit
        more := query.limit < (m.pairs query).length, revision } := by
  have hlimit : query.limit ≠ 0 := Nat.ne_of_gt h
  rw [page, if_neg hlimit]

end Snapshot

/-! ### What a listing has still to yield -/

namespace Listing

variable {l : Listing} {m : Snapshot}

/-- What a listing has still to yield of a snapshot. -/
def remaining (l : Listing) (m : Snapshot) : List KeyValue :=
  (l.buffer ++ m.pairs (l.query none)).map (·.within l.scope)

/-- A listing that was given pages of the snapshot `m` only. -/
structure Reads (l : Listing) (m : Snapshot) : Prop where
  pageSize : 0 < l.pageSize
  scope : l.scope <+: l.stem
  under : ∀ pair ∈ l.buffer, l.stem <+: pair.key
  ended : l.more = false → m.pairs (l.query none) = []

/-- A listing that reads `m` gets a page of it. -/
theorem Reads.page_eq (h : l.Reads m) (revision : Nat) (pinned : Option Nat) :
    m.page revision (l.query pinned) =
      { pairs := (m.pairs (l.query none)).take l.pageSize
        more := l.pageSize < (m.pairs (l.query none)).length, revision } :=
  Snapshot.page_of_limit m revision (l.query pinned) h.pageSize

/-- After a page the rest begins where the page ended. -/
theorem Reads.pairs_absorb (h : l.Reads m) (revision : Nat) (pinned : Option Nat) :
    m.pairs ((l.absorb (m.page revision (l.query pinned))).query none) =
      (m.pairs (l.query none)).drop l.pageSize := by
  have hpage := h.page_eq revision pinned
  have hpairs : (m.page revision (l.query pinned)).pairs =
      ((m.found (l.query none)).take l.pageSize).map (Snapshot.shown (l.query none)) := by
    rw [hpage, List.map_take]
    rfl
  have hlast : (m.page revision (l.query pinned)).pairs.getLast?.map (·.key) =
      ((m.found (l.query none)).take l.pageSize).getLast?.map (·.1) := by
    rw [hpairs, List.getLast?_map, Option.map_map]
    rfl
  have hquery : (l.absorb (m.page revision (l.query pinned))).query none =
      { l.query none with
        startAfter :=
          (((m.found (l.query none)).take l.pageSize).getLast?.map (·.1)).or l.lastKey } := by
    rw [← hlast]
    rfl
  rw [hquery]
  cases hend : ((m.found (l.query none)).take l.pageSize).getLast? with
  | none =>
    have hsize := h.pageSize
    have hnone : m.found (l.query none) = [] := by
      have hempty := List.getLast?_eq_none_iff.1 hend
      rcases List.take_eq_nil_iff.1 hempty with hzero | hnil
      · omega
      · exact hnil
    have hrest : m.pairs (l.query none) = [] := by rw [Snapshot.pairs_eq, hnone, List.map_nil]
    rw [hrest, List.drop_nil]
    exact hrest
  | some last =>
    have hafter := Snapshot.found_after hend
    rw [Snapshot.pairs_eq, Snapshot.pairs_eq, ← List.map_drop, ← hafter]
    rfl

/-- A page changes nothing of what is still to come. -/
theorem Reads.remaining_absorb (h : l.Reads m) (revision : Nat) (pinned : Option Nat) :
    (l.absorb (m.page revision (l.query pinned))).remaining m = l.remaining m := by
  have hpage := h.page_eq revision pinned
  have hpairs : (m.page revision (l.query pinned)).pairs =
      (m.pairs (l.query none)).take l.pageSize := by rw [hpage]
  rw [remaining, h.pairs_absorb revision pinned, remaining]
  simp only [absorb, hpairs, List.append_assoc, List.take_append_drop]

/-- One more page of the snapshot leaves a listing that was given pages of it only. -/
theorem Reads.absorb (h : l.Reads m) (revision : Nat) (pinned : Option Nat) :
    (l.absorb (m.page revision (l.query pinned))).Reads m where
  pageSize := h.pageSize
  scope := h.scope
  under pair hmem := by
    rcases List.mem_append.1 hmem with hmem | hmem
    · exact h.under pair hmem
    · rw [h.page_eq revision pinned] at hmem
      obtain ⟨e, he, rfl⟩ := List.mem_map.1 (List.mem_of_mem_take hmem)
      have hboth := (List.mem_filter.1 he).2
      exact Key.beginsWith_iff.1 (Bool.and_eq_true_iff.1 hboth).1
  ended hmore := by
    rw [h.pairs_absorb revision pinned]
    have hlength : ¬ l.pageSize < (m.pairs (l.query none)).length := by
      have hmore : (m.page revision (l.query pinned)).more = false := hmore
      rw [h.page_eq revision pinned] at hmore
      exact of_decide_eq_false hmore
    exact List.drop_eq_nil_of_le (Nat.le_of_not_lt hlength)

/-! ### Beginning -/

/-- All that a listing yields. A listing of keys leaves the values out. -/
def whole (m : Snapshot) (scope stem : Key) (keysOnly : Bool) : List KeyValue :=
  if keysOnly then (m.listed scope stem).map (·.blank) else m.listed scope stem

/-- A listing yields the listed keys, whether it leaves the values out or not. -/
theorem keys_whole (m : Snapshot) (scope stem : Key) (keysOnly : Bool) :
    (whole m scope stem keysOnly).map (·.key) = (m.listed scope stem).map (·.key) := by
  unfold whole
  split
  · rw [List.map_map]
    rfl
  · rfl

/-- A listing before its first page was given pages of any snapshot only. -/
theorem reads_opening (m : Snapshot) (scope stem : Key) {pageSize : Nat} (hsize : 0 < pageSize)
    (keysOnly : Bool) : (opening scope stem pageSize keysOnly).Reads m where
  pageSize := hsize
  scope := List.prefix_append scope stem
  under _ hmem := by cases hmem
  ended hmore := by cases hmore

/-- A listing before its first page has still everything to yield. -/
theorem remaining_opening (m : Snapshot) (scope stem : Key) (pageSize : Nat) (keysOnly : Bool) :
    (opening scope stem pageSize keysOnly).remaining m = whole m scope stem keysOnly := by
  have hfound : m.found ((opening scope stem pageSize keysOnly).query none) =
      m.entries.filter fun e => (scope ++ stem).isPrefixOf e.1 := by
    refine List.filter_congr fun e _ => ?_
    exact Bool.and_true _
  rw [remaining, Snapshot.pairs_eq, hfound]
  unfold whole Snapshot.listed
  cases keysOnly
  · exact List.map_map
  · simp only [if_true, List.map_map]
    exact List.map_map

/-! ### Handing out -/

/-- A listing fails to hand out the pair that it holds only if that is outside the scope. -/
theorem foreign_of_take {e : Error} (h : l.take.2 = .error e) :
    ∃ key, e = .scopeViolation key l.scope := by
  unfold Listing.take at h
  split at h
  · cases h
  · next pair rest _ =>
    cases hreveal : pair.reveal l.scope with
    | error e' =>
      rw [hreveal] at h
      cases h
      exact ⟨pair.key, KeyValue.foreign_of_reveal hreveal⟩
    | ok shown =>
      rw [hreveal] at h
      cases h

/-- A listing that needs no page hands out the next of the pairs to come. -/
theorem Reads.take (h : l.Reads m) (hheld : l.buffer = [] → l.remaining m = []) :
    l.take.2 = .ok (l.remaining m).head? ∧ l.take.1.remaining m = (l.remaining m).tail ∧
      l.take.1.Reads m := by
  cases hbuffer : l.buffer with
  | nil =>
    have hnone := hheld hbuffer
    have htake : l.take = (l, .ok none) := by rw [Listing.take, hbuffer]
    rw [htake, hnone]
    exact ⟨rfl, rfl, h⟩
  | cons pair rest =>
    have hprefix : l.scope <+: pair.key :=
      h.scope.trans (h.under pair (by rw [hbuffer]; exact List.mem_cons_self))
    have htake : l.take = ({ l with buffer := rest }, .ok (some (pair.within l.scope))) := by
      rw [Listing.take, hbuffer]
      simp only [KeyValue.reveal_of_prefix hprefix]
      rfl
    have hremaining : l.remaining m =
        pair.within l.scope :: remaining { l with buffer := rest } m := by
      rw [remaining, hbuffer]
      rfl
    rw [htake, hremaining]
    refine ⟨rfl, rfl, { h with under := fun pair hmem => h.under pair ?_ }⟩
    rw [hbuffer]
    exact List.mem_cons_of_mem _ hmem

/-- A listing that needs no page holds the next pair or has come to its end. -/
theorem Reads.held (h : l.Reads m) (hpage : l.needsPage = false) :
    l.buffer = [] → l.remaining m = [] := by
  intro hbuffer
  have hmore : l.more = false := by simpa [needsPage, hbuffer] using hpage
  rw [remaining, hbuffer, h.ended hmore]
  rfl

/-- A listing that needed a page holds the next pair once it has the page. -/
theorem Reads.held_absorb (h : l.Reads m) (revision : Nat) (pinned : Option Nat) :
    (l.absorb (m.page revision (l.query pinned))).buffer = [] →
      (l.absorb (m.page revision (l.query pinned))).remaining m = [] := by
  intro hbuffer
  have hboth : l.buffer = [] ∧ (m.page revision (l.query pinned)).pairs = [] :=
    List.append_eq_nil_iff.1 hbuffer
  have hsize := h.pageSize
  rw [h.page_eq revision pinned] at hboth
  have hrest : m.pairs (l.query none) = [] := by
    rcases List.take_eq_nil_iff.1 hboth.2 with hzero | hnil
    · omega
    · exact hnil
  rw [h.remaining_absorb, remaining, hboth.1, hrest]
  rfl

/-- Everything in the buffer can be shown. -/
theorem Reads.revealAll (h : l.Reads m) :
    Listing.revealAll l.scope l.buffer = (l.buffer.map (·.within l.scope), none) := by
  have hunder : ∀ pair ∈ l.buffer, l.scope <+: pair.key :=
    fun pair hmem => h.scope.trans (h.under pair hmem)
  generalize l.buffer = buffer at hunder
  induction buffer with
  | nil => rfl
  | cons pair rest ih =>
    have hrest := ih fun pair hmem => hunder pair (List.mem_cons_of_mem _ hmem)
    have hpair := KeyValue.reveal_of_prefix (hunder pair List.mem_cons_self)
    simp only [Listing.revealAll, hpair, hrest, List.map_cons]

end Listing

end KeyBroker
