import KeyBroker.Proofs.Ledger.Amendment

/-!
# Later ledgers

Time only adds to a ledger. Revisions and the compaction point grow, what a later
ledger still tells of an earlier revision has not changed, and the events in
between are all of later revisions.
-/

namespace KeyBroker.Ledger

/-- The ledger `l'` is `l` after commits with these events and after compactions. -/
structure Later (l l' : Ledger) (events : List Event) : Prop where
  revision : l.revision ≤ l'.revision
  compacted : l.compacted ≤ l'.compacted
  floor : l'.compacted ≤ l'.revision
  bounded : l'.Bounded
  past : ∀ revision, l'.compacted ≤ revision → revision ≤ l.revision →
    l'.snapshot revision = l.snapshot revision
  dated : ∀ event ∈ events, l.revision < event.revision

namespace Later

variable {l l' l'' : Ledger} {events more : List Event} {writes : List Write}

/-- A ledger is later than itself, with no events between. -/
theorem refl (hfloor : l.compacted ≤ l.revision) (hbounded : l.Bounded) : Later l l [] where
  revision := Nat.le_refl _
  compacted := Nat.le_refl _
  floor := hfloor
  bounded := hbounded
  past _ _ _ := rfl
  dated _ hmem := by cases hmem

/-- A ledger later than a later one is later, with the events of both parts. -/
theorem trans (h : Later l l' events) (h' : Later l' l'' more) :
    Later l l'' (events ++ more) := by
  have hrevision := h.revision
  have hrevision' := h'.revision
  have hcompacted := h.compacted
  have hcompacted' := h'.compacted
  exact {
    revision := by omega
    compacted := by omega
    floor := h'.floor
    bounded := h'.bounded
    past := by
      intro revision hlow hhigh
      rw [h'.past revision hlow (by omega), h.past revision (by omega) hhigh]
    dated := by
      intro event hmem
      rcases List.mem_append.1 hmem with hmem | hmem
      · exact h.dated event hmem
      · have hlater := h'.dated event hmem
        omega }

/-- A begun revision with its writes makes a later ledger. -/
theorem commit (h : Later l l' events) (hamends : Amends l'.begin l'' writes more) :
    Later l l'' (events ++ more) := by
  have hrevision : l''.revision = l'.revision + 1 := hamends.revision
  have hcompacted : l''.compacted = l'.compacted := hamends.compacted
  have hfloor := h.floor
  refine h.trans {
    revision := by omega
    compacted := by omega
    floor := by omega
    bounded := hamends.bounded
    past := ?_
    dated := ?_ }
  · intro revision _ hhigh
    rw [hamends.past revision (Nat.lt_succ_of_le hhigh), snapshot_begin]
  · intro event hmem
    have hnew : event.revision = l'.revision + 1 := hamends.dated event hmem
    omega

/-- A compaction makes the ledger later, without an event. -/
theorem compact (h : Later l l' events) (revision : Nat) :
    Later l (l'.compact revision) events := by
  rw [← List.append_nil events]
  exact h.trans {
    revision := Nat.le_refl _
    compacted := Nat.le_max_left _ _
    floor := Nat.max_le.2 ⟨h.floor, Nat.min_le_right _ _⟩
    bounded := h.bounded.compact revision
    past at' hlow _ := snapshot_compact l' (Nat.max_le.1 hlow).2
    dated _ hmem := by cases hmem }

/-- Letting expired keys go makes the ledger later, with the events of their deletions. -/
theorem expire (h : Later l l' events) (now : Nat) :
    Later l (l'.expire now).1 (events ++ (l'.expire now).2) := by
  cases hexpired : l'.expired now with
  | nil => simpa [Ledger.expire, hexpired] using h
  | cons key rest =>
    have hexpire : l'.expire now = l'.begin.eraseAll (key :: rest) := by
      simp only [Ledger.expire, hexpired]
    rw [hexpire]
    exact h.commit (amends_eraseAll h.bounded.begin _)

/-- The deletion of keys makes the ledger later, with its events. -/
theorem deleteKeys (h : Later l l' (events ++ more)) (targets : List Key) :
    Later l (l'.deleteKeys more targets).ledger
      (events ++ (l'.deleteKeys more targets).events) := by
  cases targets with
  | nil => exact h
  | cons key rest =>
    simp only [Ledger.deleteKeys, ← List.append_assoc]
    exact h.commit (amends_eraseAll h.bounded.begin _)

/-- A transaction makes the ledger later, with its events. -/
theorem txn (h : Later l l' events) (now : Nat) (writes : List Write) :
    Later l (l'.txn now writes).ledger (events ++ (l'.txn now writes).events) := by
  have hswept := h.expire now
  cases writes with
  | nil => exact hswept
  | cons first rest =>
    simp only [Ledger.txn, ← List.append_assoc]
    exact hswept.commit (amends_apply hswept.bounded.begin _)

/-- A put makes the ledger later, with its events. -/
theorem put (h : Later l l' events) (now : Nat) (key : Key) (value : Bytes)
    (ttl : Option Duration) :
    Later l (l'.put now key value ttl).ledger (events ++ (l'.put now key value ttl).events) := by
  have hswept := h.expire now
  have hcommit (deadline : Option Nat) :=
    hswept.commit (amends_write hswept.bounded.begin key value deadline)
  cases ttl with
  | none =>
    simp only [Ledger.put, ← List.append_assoc]
    exact hcommit none
  | some ttl =>
    cases hdeadline : deadlineAfter now ttl with
    | none =>
      simp only [Ledger.put, hdeadline]
      simpa using hswept.commit (Amends.refl hswept.bounded.begin)
    | some deadline =>
      simp only [Ledger.put, hdeadline, ← List.append_assoc]
      exact hcommit (some deadline)

end Later

end KeyBroker.Ledger
