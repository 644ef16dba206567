import KeyBroker.Ledger.Commit
import KeyBroker.Ledger.Read
import KeyBroker.Proofs.KeyMap

/-!
# Snapshots

A snapshot is what all keys held at one revision. It knows nothing of versions,
deadlines or compaction, and so says what a ledger means: writes change it one
after the other, events can be replayed on it, and a range is a part of it. A
replay checks each event against the snapshot it meets and fails where the two
disagree.
-/

namespace KeyBroker

/-- Each live key with the revision that put it and its value. -/
abbrev Snapshot := KeyMap (Nat × Bytes)

namespace Snapshot

/-! ### Writes -/

/-- The snapshot after a single write made at `revision`. -/
def write (revision : Nat) (m : Snapshot) : Write → Snapshot
  | .put key value => m.insert key (revision, value)
  | .delete key => m.erase key

/-- The snapshot after writes made in order at one revision. -/
def writeAll (revision : Nat) (m : Snapshot) (writes : List Write) : Snapshot :=
  writes.foldl (write revision) m

/-- The live keys that begin with `stem`, in ascending order. -/
def keysUnder (m : Snapshot) (stem : Key) : List Key :=
  (m.entries.map (·.1)).filter stem.beginsWith

/-! ### Events -/

/-- The snapshot after an event. The event must name the value that the key holds,
and a deletion must find its key. -/
def replayOne (m : Snapshot) (event : Event) : Option Snapshot :=
  if event.previous = (m.get? event.key).map (·.2) then
    match event.kind with
    | .put => some (m.insert event.key (event.revision, event.value))
    | .delete => if (m.get? event.key).isSome then some (m.erase event.key) else none
  else none

/-- The snapshot after events in order. -/
def replay (m : Snapshot) : List Event → Option Snapshot
  | [] => some m
  | event :: rest => (m.replayOne event).bind (·.replay rest)

/-- Without events a snapshot stays as it is. -/
@[simp] theorem replay_nil (m : Snapshot) : m.replay [] = some m := rfl

/-- Events in two parts are replayed one part after the other. -/
theorem replay_append (m : Snapshot) (events more : List Event) :
    m.replay (events ++ more) = (m.replay events).bind (·.replay more) := by
  induction events generalizing m with
  | nil => rfl
  | cons event rest ih =>
    simp only [List.cons_append, replay]
    cases m.replayOne event with
    | none => rfl
    | some next => exact ih next

/-- An event replays when it names the value that its key holds, and then as the write
that it tells of. -/
theorem replayOne_eq_some_iff {m m' : Snapshot} {event : Event} :
    m.replayOne event = some m' ↔
      event.previous = (m.get? event.key).map (·.2) ∧
        match event.kind with
        | .put => m.insert event.key (event.revision, event.value) = m'
        | .delete => (m.get? event.key).isSome ∧ m.erase event.key = m' := by
  unfold replayOne
  cases event.kind <;> simp

/-- An event that replays does so on the part of the snapshot with the keys that pass a
test, or leaves that part alone. -/
theorem replayOne_restrict {m m' : Snapshot} {event : Event} (keep : Key → Bool)
    (h : m.replayOne event = some m') :
    if keep event.key then replayOne (m.restrict keep) event = some (m'.restrict keep)
    else m'.restrict keep = m.restrict keep := by
  obtain ⟨hprevious, hafter⟩ := replayOne_eq_some_iff.1 h
  split
  · next hkeep =>
    have hget : (m.restrict keep).get? event.key = m.get? event.key := by
      rw [KeyMap.get?_restrict, if_pos hkeep]
    rw [replayOne_eq_some_iff, hget]
    refine ⟨hprevious, ?_⟩
    cases hkind : event.kind with
    | put =>
      simp only [hkind] at hafter ⊢
      rw [← hafter, KeyMap.restrict_insert, if_pos hkeep]
    | delete =>
      simp only [hkind] at hafter ⊢
      rw [← hafter.2, KeyMap.restrict_erase, if_pos hkeep]
      exact ⟨hafter.1, rfl⟩
  · next hkeep =>
    cases hkind : event.kind with
    | put =>
      simp only [hkind] at hafter
      rw [← hafter, KeyMap.restrict_insert, if_neg hkeep]
    | delete =>
      simp only [hkind] at hafter
      rw [← hafter.2, KeyMap.restrict_erase, if_neg hkeep]

/-- The events of the keys that pass a test replay on the part of the snapshot with
those keys. -/
theorem replay_restrict {m m' : Snapshot} {events : List Event} (keep : Key → Bool)
    (h : m.replay events = some m') :
    replay (m.restrict keep) (events.filter fun e => keep e.key) = some (m'.restrict keep) := by
  induction events generalizing m with
  | nil => exact congrArg (·.map (·.restrict keep)) h
  | cons event rest ih =>
    obtain ⟨next, hnext, hrest⟩ := Option.bind_eq_some_iff.1 h
    have hlater := ih hrest
    have hone := replayOne_restrict keep hnext
    by_cases hkeep : keep event.key = true
    · rw [if_pos hkeep] at hone
      rw [List.filter_cons, if_pos hkeep, replay, hone]
      exact hlater
    · rw [if_neg hkeep] at hone
      rw [List.filter_cons, if_neg hkeep, ← hone]
      exact hlater

/-! ### Ranges -/

/-- A pair as a query shows it. -/
def shown (query : RangeQuery) (entry : Key × Nat × Bytes) : KeyValue where
  key := entry.1
  value := if query.keysOnly then [] else entry.2.2
  revision := entry.2.1

/-- All pairs that a query asks for, in ascending order of their keys. -/
def pairs (m : Snapshot) (query : RangeQuery) : List KeyValue :=
  (m.entries.filter fun e => query.stem.beginsWith e.1 && query.startAfter.all (· < e.1)).map
    (shown query)

/-- The page that a query gets of the snapshot of `revision`. -/
def page (m : Snapshot) (revision : Nat) (query : RangeQuery) : Page :=
  let found := m.pairs query
  if query.limit = 0 then { pairs := found, more := false, revision }
  else { pairs := found.take query.limit, more := query.limit < found.length, revision }

/-- A page bears the revision of its snapshot. -/
@[simp] theorem revision_page (m : Snapshot) (revision : Nat) (query : RangeQuery) :
    (m.page revision query).revision = revision := by
  unfold page
  split <;> rfl

end Snapshot

end KeyBroker
