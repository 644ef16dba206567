import KeyBroker.Proofs.Ledger.Meaning

/-!
# Writing at one revision

A commit begins a revision and then amends the ledger, write after write. An
amendment changes the latest snapshot as its writes say and no earlier one, and
its events replay the change. Two writes of one key at one revision leave one
version but two events; the replay sees both.
-/

namespace KeyBroker.Ledger

/-- The ledger `l'` comes from `l` by the given writes at the present revision, and
`events` tell of them. -/
structure Amends (l l' : Ledger) (writes : List Write) (events : List Event) : Prop where
  revision : l'.revision = l.revision
  compacted : l'.compacted = l.compacted
  bounded : l'.Bounded
  past : ∀ revision < l.revision, l'.snapshot revision = l.snapshot revision
  latest : l'.latest = l.latest.writeAll l.revision writes
  dated : ∀ event ∈ events, event.revision = l.revision
  replay : l.latest.replay events = some l'.latest

/-- Nothing amended, nothing told. -/
theorem Amends.refl {l : Ledger} (h : l.Bounded) : Amends l l [] [] where
  revision := rfl
  compacted := rfl
  bounded := h
  past _ _ := rfl
  latest := rfl
  dated _ hmem := by cases hmem
  replay := rfl

/-- Amendments one after the other are one amendment with all their writes and events. -/
theorem Amends.trans {l m n : Ledger} {writes more : List Write} {events later : List Event}
    (hlm : Amends l m writes events) (hmn : Amends m n more later) :
    Amends l n (writes ++ more) (events ++ later) where
  revision := hmn.revision.trans hlm.revision
  compacted := hmn.compacted.trans hlm.compacted
  bounded := hmn.bounded
  past revision h := by
    rw [hmn.past revision (by rw [hlm.revision]; exact h), hlm.past revision h]
  latest := by
    rw [hmn.latest, hlm.revision, hlm.latest, Snapshot.writeAll, Snapshot.writeAll,
      Snapshot.writeAll, List.foldl_append]
  dated event hmem := by
    rcases List.mem_append.1 hmem with h | h
    · exact hlm.dated event h
    · exact (hmn.dated event h).trans hlm.revision
  replay := by
    rw [Snapshot.replay_append, hlm.replay, Option.bind_some, hmn.replay]

/-- A put amends the ledger by itself, whatever the deadline of its value. -/
theorem amends_write {l : Ledger} (h : l.Bounded) (key : Key) (value : Bytes)
    (deadline : Option Nat) :
    Amends l (l.write key value deadline).1 [.put key value] [(l.write key value deadline).2] where
  revision := rfl
  compacted := rfl
  bounded := h.record key (some value) deadline
  past _ hlt := snapshot_record_of_lt l key (some value) deadline hlt
  latest := latest_record_some l key value deadline
  dated event hmem := by
    rw [List.mem_singleton] at hmem
    rw [hmem]
    rfl
  replay := by
    have hprevious := h.lastValue_eq key
    simp only [write, Snapshot.replay, Snapshot.replayOne, hprevious, if_true,
      Option.bind_some, latest_record_some]

/-- A deletion amends the ledger by itself; without the key it changes nothing and
has no event. -/
theorem amends_erase {l : Ledger} (h : l.Bounded) (key : Key) :
    Amends l (l.erase key).1 [.delete key] (l.erase key).2 := by
  cases hlive : l.latest? key with
  | none =>
    have herase : l.erase key = (l, []) := by simp only [erase, hlive]
    have hsame : l.latest.erase key = l.latest := by
      apply KeyMap.ext_get?
      intro k
      rw [KeyMap.get?_erase]
      split
      · next hk => rw [hk, ← latest?_eq, hlive]
      · rfl
    rw [herase]
    exact { Amends.refl h with latest := hsame.symm }
  | some found =>
    have hprevious := h.lastValue_eq key
    have hfound : l.latest.get? key = some found := by rw [← latest?_eq, hlive]
    have herase : l.erase key = (l.record key none none,
        [{ kind := .delete, key, value := [], previous := (l.versions key).lastValue,
           revision := l.revision }]) := by
      simp only [erase, hlive]
    rw [herase]
    exact {
      revision := rfl
      compacted := rfl
      bounded := h.record key none none
      past := fun _ hlt => snapshot_record_of_lt l key none none hlt
      latest := latest_record_none l key
      dated := fun event hmem => by
        rw [List.mem_singleton] at hmem
        rw [hmem]
      replay := by
        simp only [Snapshot.replay, Snapshot.replayOne, hprevious, hfound, if_true,
          Option.isSome_some, Option.bind_some, latest_record_none] }

/-- The writes of a transaction amend the ledger in their order. -/
theorem amends_apply {l : Ledger} (h : l.Bounded) (writes : List Write) :
    Amends l (l.apply writes).1 writes (l.apply writes).2 := by
  induction writes generalizing l with
  | nil => exact Amends.refl h
  | cons first rest ih =>
    cases first with
    | put key value =>
      have hfirst := amends_write h key value none
      exact hfirst.trans (ih hfirst.bounded)
    | delete key =>
      have hfirst := amends_erase h key
      exact hfirst.trans (ih hfirst.bounded)

/-- Deleting keys one after the other is a transaction of deletions. -/
theorem eraseAll_eq_apply (l : Ledger) (keys : List Key) :
    l.eraseAll keys = l.apply (keys.map .delete) := by
  induction keys generalizing l with
  | nil => rfl
  | cons key rest ih => simp only [eraseAll, List.map_cons, apply, ih]

/-- Deleting keys amends the ledger by their deletions. -/
theorem amends_eraseAll {l : Ledger} (h : l.Bounded) (keys : List Key) :
    Amends l (l.eraseAll keys).1 (keys.map .delete) (l.eraseAll keys).2 := by
  rw [eraseAll_eq_apply]
  exact amends_apply h _

end KeyBroker.Ledger
