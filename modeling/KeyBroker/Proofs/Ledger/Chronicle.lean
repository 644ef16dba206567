import KeyBroker.Proofs.Ledger.Amendment

/-!
# Chronicles

The history of a ledger has one snapshot for each of its revisions. A chronicle
ties a ledger to its history and to the events of all its commits: the ledger
still tells every snapshot from its compaction point on, and from any snapshot the
later events replay the way to the present. Commits extend a chronicle and
compaction leaves it as it is, so every ledger has one.
-/

namespace KeyBroker

/-- The snapshots of all revisions, oldest first. -/
abbrev History := List Snapshot

namespace History

/-- What the last revision left. -/
def latest (history : History) : Snapshot := history.getLast?.getD .empty

/-- The history with one more revision, at which the writes were made in order. No
writes need no revision. -/
def commit (history : History) (writes : List Write) : History :=
  if writes.isEmpty then history
  else history ++ [history.latest.writeAll history.length writes]

/-- The history up to a revision. -/
def upTo (history : History) (revision : Nat) : History := history.take (revision + 1)

/-- A commit of nothing adds no revision to the history. -/
theorem commit_nil (history : History) : history.commit [] = history := rfl

/-- A commit of some writes adds one revision, with the writes made on the latest snapshot. -/
theorem commit_of_ne_nil (history : History) {writes : List Write} (h : writes ≠ []) :
    history.commit writes = history ++ [history.latest.writeAll history.length writes] := by
  cases writes with
  | nil => exact absurd rfl h
  | cons => rfl

/-- A commit changes nothing of the history before it. -/
theorem prefix_commit (history : History) (writes : List Write) :
    history <+: history.commit writes := by
  cases writes with
  | nil => exact List.prefix_refl history
  | cons => exact List.prefix_append _ _

end History

namespace Ledger

/-- The history and the events of a ledger. -/
structure Chronicle (l : Ledger) (history : History) (events : List Event) : Prop where
  length : history.length = l.revision + 1
  start : history[0]? = some .empty
  bounded : l.Bounded
  floor : l.compacted ≤ l.revision
  /-- Every snapshot from the compaction point on can still be read. -/
  reads : ∀ revision, l.compacted ≤ revision → revision ≤ l.revision →
    history[revision]? = some (l.snapshot revision)
  ordered : events.Pairwise (·.revision ≤ ·.revision)
  dated : ∀ event ∈ events, event.revision ≤ l.revision
  /-- From any snapshot the later events lead to the present. -/
  replays : ∀ (revision : Nat) (snapshot : Snapshot), history[revision]? = some snapshot →
    snapshot.replay (events.filter fun e => revision < e.revision) = some l.latest

namespace Chronicle

variable {l l' : Ledger} {history : History} {events more : List Event} {writes : List Write}

/-- A new ledger has one snapshot, without keys. -/
theorem new : Chronicle {} [.empty] [] where
  length := rfl
  start := rfl
  bounded _ _ hv := by cases hv
  floor := Nat.le_refl 0
  reads revision _ hle := by
    have hzero : revision = 0 := Nat.le_zero.1 hle
    rw [hzero]
    rfl
  ordered := .nil
  dated _ hmem := by cases hmem
  replays revision snapshot hget := by
    have hsnapshot : snapshot = .empty := by
      cases revision with
      | zero => simpa using hget.symm
      | succ revision => simp at hget
    rw [hsnapshot]
    rfl

/-- What the last revision of the history left is what the ledger holds now. -/
theorem latest_eq (h : Chronicle l history events) : history.latest = l.latest := by
  have hread := h.reads l.revision h.floor (Nat.le_refl _)
  have hlast : l.revision = history.length - 1 := by have := h.length; omega
  rw [History.latest, List.getLast?_eq_getElem?, ← hlast, hread]
  rfl

/-- What can be read of a ledger stands in every history that goes on from its own. -/
theorem reads_of_prefix (h : Chronicle l history events) {later : History}
    (hlater : history <+: later) {revision : Nat} (hlow : l.compacted ≤ revision)
    (hhigh : revision ≤ l.revision) : later[revision]? = some (l.snapshot revision) := by
  obtain ⟨rest, rfl⟩ := hlater
  have hlength := h.length
  rw [List.getElem?_append_left (by omega), h.reads revision hlow hhigh]

/-- The events of a new revision come after all others. -/
theorem ordered_extend (h : Chronicle l history events)
    (hmore : ∀ event ∈ more, event.revision = l.revision + 1) :
    (events ++ more).Pairwise (·.revision ≤ ·.revision) := by
  refine List.pairwise_append.2 ⟨h.ordered, ?_, ?_⟩
  · refine List.Pairwise.imp_of_mem ?_ (List.pairwise_of_forall (R := fun _ _ => True)
      fun _ _ => trivial)
    intro a b ha hb _
    have hfirst := hmore a ha
    have hsecond := hmore b hb
    omega
  · intro a ha b hb
    have hold := h.dated a ha
    have hnew := hmore b hb
    omega

/-- Replays go on through the events of a new revision; from the new snapshot on there is
nothing to replay. -/
theorem replays_extend (h : Chronicle l history events) {latest : Snapshot}
    (hmore : ∀ event ∈ more, event.revision = l.revision + 1)
    (hreplay : l.latest.replay more = some latest) {revision : Nat} {snapshot : Snapshot}
    (hget : (history ++ [latest])[revision]? = some snapshot) :
    snapshot.replay ((events ++ more).filter fun e => revision < e.revision) = some latest := by
  have hlength := h.length
  by_cases hold : revision < history.length
  · rw [List.getElem?_append_left hold] at hget
    have hall : more.filter (fun e => decide (revision < e.revision)) = more := by
      refine List.filter_eq_self.2 fun event hmem => ?_
      rw [decide_eq_true_eq, hmore event hmem]
      omega
    rw [List.filter_append, hall, Snapshot.replay_append, h.replays revision snapshot hget,
      Option.bind_some, hreplay]
  · have hnew : revision = history.length := by
      have hbound := (List.getElem?_eq_some_iff.1 hget).1
      simp only [List.length_append, List.length_singleton] at hbound
      omega
    have hnone : (events ++ more).filter (fun e => decide (revision < e.revision)) = [] := by
      refine List.filter_eq_nil_iff.2 fun event hmem => ?_
      rw [decide_eq_true_eq]
      rcases List.mem_append.1 hmem with hmem | hmem
      · have hdated := h.dated event hmem
        omega
      · have hdated := hmore event hmem
        omega
    rw [hnew, List.getElem?_concat_length] at hget
    rw [hnone, Snapshot.replay_nil, Option.some.inj hget]

/-- A begun revision and what was written at it go to the end of the chronicle. -/
theorem extend (h : Chronicle l history events) (hamends : Amends l.begin l' writes more) :
    Chronicle l' (history ++ [l.latest.writeAll (l.revision + 1) writes]) (events ++ more) := by
  have hrevision : l'.revision = l.revision + 1 := hamends.revision
  have hcompacted : l'.compacted = l.compacted := hamends.compacted
  have hdated : ∀ event ∈ more, event.revision = l.revision + 1 := hamends.dated
  have hlength := h.length
  have hfloor := h.floor
  have hlatest : l.latest.writeAll (l.revision + 1) writes = l'.latest := by
    rw [hamends.latest, h.bounded.latest_begin]
    rfl
  have hreplay : l.latest.replay more = some l'.latest := by
    rw [← hamends.replay, h.bounded.latest_begin]
  rw [hlatest]
  exact {
    length := by simp [hlength, hrevision]
    start := by rw [List.getElem?_append_left (by omega), h.start]
    bounded := hamends.bounded
    floor := by omega
    reads := by
      intro revision hlow hhigh
      by_cases hnew : revision = l.revision + 1
      · rw [hnew, ← hlength, List.getElem?_concat_length, latest, hrevision, hlength]
      · have hold : revision ≤ l.revision := by omega
        rw [List.getElem?_append_left (by omega), h.reads revision (by omega) hold,
          hamends.past revision (Nat.lt_succ_of_le hold), snapshot_begin]
    ordered := h.ordered_extend hdated
    dated := by
      intro event hmem
      rcases List.mem_append.1 hmem with hmem | hmem
      · have hold := h.dated event hmem
        omega
      · have hnew := hdated event hmem
        omega
    replays := fun _ _ hget => h.replays_extend hdated hreplay hget }

/-- A commit of at least one write extends the chronicle by one revision. -/
theorem commit (h : Chronicle l history events) (hwrites : writes ≠ [])
    (hamends : Amends l.begin l' writes more) :
    Chronicle l' (history.commit writes) (events ++ more) := by
  rw [History.commit_of_ne_nil history hwrites, h.latest_eq, h.length]
  exact h.extend hamends

/-- Compaction changes neither the history nor the events. -/
theorem compact (h : Chronicle l history events) (revision : Nat) :
    Chronicle (l.compact revision) history events where
  length := h.length
  start := h.start
  bounded := h.bounded.compact revision
  floor := Nat.max_le.2 ⟨h.floor, Nat.min_le_right _ _⟩
  reads at' hlow hhigh := by
    have hboth := Nat.max_le.1 hlow
    rw [h.reads at' hboth.1 hhigh, snapshot_compact l hboth.2]
  ordered := h.ordered
  dated := h.dated
  replays at' snapshot hget := by rw [latest_compact, h.replays at' snapshot hget]

/-- Expired keys are deleted in one commit. -/
theorem expire (h : Chronicle l history events) (now : Nat) :
    Chronicle (l.expire now).1 (history.commit ((l.expired now).map .delete))
      (events ++ (l.expire now).2) := by
  cases hexpired : l.expired now with
  | nil => simpa [Ledger.expire, hexpired, History.commit_nil] using h
  | cons key rest =>
    have hexpire : l.expire now = l.begin.eraseAll (key :: rest) := by
      simp only [Ledger.expire, hexpired]
    rw [hexpire]
    exact h.commit (by simp) (amends_eraseAll h.bounded.begin _)

end Chronicle

end Ledger

end KeyBroker
