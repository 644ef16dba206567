import KeyBroker.Proofs.Snapshot

/-!
# The snapshots of a ledger

A ledger keeps a snapshot of every revision from its compaction point on:
`Ledger.snapshot` reads it off the versions. A version written at the present
revision changes no earlier snapshot, and compaction changes none at or above its
point. A range answers with a page of the snapshot it is pinned at.
-/

namespace KeyBroker

namespace Versions

/-- A version at the end is the one seen if it is old enough; otherwise it does not matter. -/
theorem visible?_append (revision : Nat) (versions : Versions) (v : Version) :
    visible? revision (versions ++ [v]) =
      if v.revision ≤ revision then some v else visible? revision versions := by
  by_cases h : v.revision ≤ revision <;> simp [visible?, h]

/-- A version at the front is seen only if no later one is old enough. -/
theorem visible?_cons (revision : Nat) (v : Version) (rest : Versions) :
    visible? revision (v :: rest) =
      (visible? revision rest).or (if v.revision ≤ revision then some v else none) := by
  simp only [visible?, List.reverse_cons, List.find?_append]
  by_cases h : v.revision ≤ revision <;> simp [h]

/-- A version newer than a revision does not matter for what was live there. -/
theorem live?_append_of_lt {revision : Nat} {v : Version} (h : revision < v.revision)
    (versions : Versions) : live? revision (versions ++ [v]) = live? revision versions := by
  rw [live?, live?, visible?_append, if_neg (by omega)]

/-- A version at the end that is old enough decides what was live. -/
theorem live?_append_of_le {revision : Nat} {v : Version} (h : v.revision ≤ revision)
    (versions : Versions) :
    live? revision (versions ++ [v]) = v.value.map (v.revision, ·) := by
  rw [live?, visible?_append, if_pos h, Option.bind_some]

/-- Recording a version either appends it or puts it in the place of one of the same
revision. -/
theorem record_eq (version : Version) (versions : Versions) :
    record version versions = versions ++ [version] ∨
      ∃ init last, versions = init ++ [last] ∧ last.revision = version.revision ∧
        record version versions = init ++ [version] := by
  rcases List.eq_nil_or_concat versions with rfl | ⟨init, last, rfl⟩
  · exact .inl rfl
  · simp only [List.concat_eq_append]
    by_cases h : last.revision = version.revision
    · exact .inr ⟨init, last, rfl, h, by simp [record, h]⟩
    · exact .inl (by simp [record, h])

/-- A version changes nothing that was visible before its revision. -/
theorem live?_record_of_lt {revision : Nat} {version : Version} (h : revision < version.revision)
    (versions : Versions) : live? revision (record version versions) = live? revision versions := by
  rcases record_eq version versions with heq | ⟨init, last, rfl, hlast, heq⟩
  · rw [heq, live?_append_of_lt h]
  · rw [heq, live?_append_of_lt h, live?_append_of_lt (by omega)]

/-- From its revision on, a recorded version is what the key holds. -/
theorem live?_record_of_le {revision : Nat} {version : Version} (h : version.revision ≤ revision)
    (versions : Versions) :
    live? revision (record version versions) = version.value.map (version.revision, ·) := by
  rcases record_eq version versions with heq | ⟨init, last, _, _, heq⟩ <;>
    rw [heq, live?_append_of_le h]

/-- After recording a version a history has that version and some of those before. -/
theorem mem_record {version v : Version} {versions : Versions} (h : v ∈ record version versions) :
    v = version ∨ v ∈ versions := by
  rcases record_eq version versions with heq | ⟨init, last, rfl, _, heq⟩ <;>
    rw [heq, List.mem_append, List.mem_singleton] at h
  · exact h.symm
  · rcases h with h | h
    · exact .inr (List.mem_append_left _ h)
    · exact .inl h

/-- With no version beyond `revision`, the newest version is the visible one. -/
theorem visible?_of_bounded {revision : Nat} {versions : Versions}
    (h : ∀ v ∈ versions, v.revision ≤ revision) :
    visible? revision versions = versions.getLast? := by
  rcases List.eq_nil_or_concat versions with rfl | ⟨init, last, rfl⟩
  · rfl
  · simp only [List.concat_eq_append] at h ⊢
    have hlast := h last (by simp)
    rw [visible?_append, if_pos hlast, List.getLast?_append, List.getLast?_singleton,
      Option.some_or]

/-- The last value is the one live at any revision that no version is newer than. -/
theorem lastValue_of_bounded {revision : Nat} {versions : Versions}
    (h : ∀ v ∈ versions, v.revision ≤ revision) :
    lastValue versions = (live? revision versions).map (·.2) := by
  rw [lastValue, live?, visible?_of_bounded h]
  cases versions.getLast? with
  | none => rfl
  | some last => cases hvalue : last.value <;> simp [hvalue]

/-- What was live stays so at later revisions when there are no newer versions. -/
theorem live?_of_bounded {revision later : Nat} {versions : Versions} (hlater : revision ≤ later)
    (h : ∀ v ∈ versions, v.revision ≤ revision) :
    live? later versions = live? revision versions := by
  have hbound : ∀ v ∈ versions, v.revision ≤ later := fun v hv => Nat.le_trans (h v hv) hlater
  rw [live?, live?, visible?_of_bounded h, visible?_of_bounded hbound]

/-- Some version is seen if there is one that is old enough. -/
theorem visible?_isSome_of_any {revision point : Nat} (hpoint : point ≤ revision)
    {versions : Versions} (h : versions.any (·.revision ≤ point) = true) :
    (visible? revision versions).isSome := by
  obtain ⟨v, hv, hle⟩ := List.any_eq_true.1 h
  rw [visible?, List.find?_isSome]
  exact ⟨v, List.mem_reverse.2 hv, by simp at hle ⊢; omega⟩

/-- Dropping the versions behind the one visible at `point` changes no later reading. -/
theorem visible?_since {revision point : Nat} (hpoint : point ≤ revision) (versions : Versions) :
    visible? revision (since point versions) = visible? revision versions := by
  induction versions with
  | nil => rfl
  | cons v rest ih =>
    simp only [since]
    split
    · next hany =>
      obtain ⟨w, hw⟩ := Option.isSome_iff_exists.1 (visible?_isSome_of_any hpoint hany)
      rw [ih, visible?_cons, hw, Option.some_or]
    · rfl

/-- Compaction changes no reading at or above its point. -/
theorem live?_compact {revision point : Nat} (hpoint : point ≤ revision) (versions : Versions) :
    live? revision (compact point versions) = live? revision versions := by
  have hsince : live? revision versions = live? revision (since point versions) := by
    rw [live?, live?, visible?_since hpoint]
  rw [hsince, compact]
  cases hkept : since point versions with
  | nil => rfl
  | cons v rest =>
    simp only
    split
    · next hdeleted =>
      -- a deletion at the front reads like no version at all
      have hle : v.revision ≤ revision := by omega
      rw [live?, live?, visible?_cons, if_pos hle]
      cases visible? revision rest with
      | none => simp [hdeleted.2]
      | some w => rfl
    · rfl

/-- What is left of a history from a revision on was in it before. -/
theorem mem_of_mem_since {point : Nat} {v : Version} {versions : Versions}
    (h : v ∈ since point versions) : v ∈ versions := by
  induction versions with
  | nil => exact h
  | cons w rest ih =>
    simp only [since] at h
    split at h
    · exact List.mem_cons_of_mem _ (ih h)
    · exact h

/-- What is left of a compacted history was in it before. -/
theorem mem_of_mem_compact {point : Nat} {v : Version} {versions : Versions}
    (h : v ∈ compact point versions) : v ∈ versions := by
  have hsince : v ∈ since point versions := by
    rw [compact] at h
    cases hkept : since point versions with
    | nil => simp [hkept] at h
    | cons w rest =>
      simp only [hkept] at h
      split at h
      · exact List.mem_cons_of_mem _ h
      · exact h
  exact mem_of_mem_since hsince

end Versions

namespace Ledger

/-- What all keys held at a revision, as far as the versions still tell. -/
def snapshot (l : Ledger) (revision : Nat) : Snapshot := l.keys.filterMap (Versions.live? revision)

/-- What all keys hold now. -/
def latest (l : Ledger) : Snapshot := l.snapshot l.revision

/-- No version is newer than the ledger. -/
def Bounded (l : Ledger) : Prop := ∀ key, ∀ v ∈ l.versions key, v.revision ≤ l.revision

/-- A snapshot has of each key what was live at its revision. -/
theorem get?_snapshot (l : Ledger) (revision : Nat) (key : Key) :
    (l.snapshot revision).get? key = (l.versions key).live? revision := by
  rw [snapshot, KeyMap.get?_filterMap, versions]
  cases l.keys.get? key <;> rfl

/-- The latest value of a key is what the latest snapshot has of it. -/
theorem latest?_eq (l : Ledger) (key : Key) : l.latest? key = l.latest.get? key :=
  (get?_snapshot l l.revision key).symm

/-! ### Recording a version -/

/-- Recording a version changes the history of its key and no other. -/
theorem versions_record (l : Ledger) (key k : Key) (value : Option Bytes) (deadline : Option Nat) :
    (l.record key value deadline).versions k =
      if k = key then (l.versions key).record { revision := l.revision, value, deadline }
      else l.versions k := by
  simp only [versions, record, KeyMap.get?_alter]
  split <;> rfl

/-- A version written at the present revision changes no earlier snapshot. -/
theorem snapshot_record_of_lt (l : Ledger) (key : Key) (value : Option Bytes)
    (deadline : Option Nat) {revision : Nat} (h : revision < l.revision) :
    (l.record key value deadline).snapshot revision = l.snapshot revision := by
  apply KeyMap.ext_get?
  intro k
  rw [get?_snapshot, get?_snapshot, versions_record]
  split
  · next hk =>
    rw [hk]
    exact Versions.live?_record_of_lt h _
  · rfl

/-- Recording a version changes what its key holds now, and no other. -/
theorem get?_latest_record (l : Ledger) (key k : Key) (value : Option Bytes)
    (deadline : Option Nat) :
    (l.record key value deadline).latest.get? k =
      if k = key then value.map (l.revision, ·) else l.latest.get? k := by
  rw [latest, latest, get?_snapshot, get?_snapshot, versions_record]
  split
  · exact @Versions.live?_record_of_le _ { revision := l.revision, value, deadline }
      (Nat.le_refl _) _
  · rfl

/-- A recorded value is held from then on. -/
theorem latest_record_some (l : Ledger) (key : Key) (value : Bytes) (deadline : Option Nat) :
    (l.record key (some value) deadline).latest = l.latest.insert key (l.revision, value) := by
  apply KeyMap.ext_get?
  intro k
  rw [get?_latest_record, KeyMap.get?_insert]
  rfl

/-- A recorded deletion clears its key. -/
theorem latest_record_none (l : Ledger) (key : Key) :
    (l.record key none none).latest = l.latest.erase key := by
  apply KeyMap.ext_get?
  intro k
  rw [get?_latest_record, KeyMap.get?_erase]
  rfl

/-- Recording a version at the present revision keeps the ledger bounded. -/
theorem Bounded.record {l : Ledger} (h : l.Bounded) (key : Key) (value : Option Bytes)
    (deadline : Option Nat) : (l.record key value deadline).Bounded := by
  intro k v hv
  rw [versions_record] at hv
  split at hv
  · rcases Versions.mem_record hv with rfl | hv
    · exact Nat.le_refl _
    · exact h key v hv
  · exact h k v hv

/-- The value that a write reports as the previous one is the value the key held. -/
theorem Bounded.lastValue_eq {l : Ledger} (h : l.Bounded) (key : Key) :
    (l.versions key).lastValue = (l.latest.get? key).map (·.2) := by
  rw [latest, get?_snapshot]
  exact Versions.lastValue_of_bounded (h key)

/-! ### Beginning a revision -/

/-- Beginning a revision changes no snapshot. -/
theorem snapshot_begin (l : Ledger) (revision : Nat) :
    l.begin.snapshot revision = l.snapshot revision := rfl

/-- Beginning a revision keeps the ledger bounded. -/
theorem Bounded.begin {l : Ledger} (h : l.Bounded) : l.begin.Bounded :=
  fun key v hv => Nat.le_succ_of_le (h key v hv)

/-- A revision begins with everything as it was. -/
theorem Bounded.latest_begin {l : Ledger} (h : l.Bounded) : l.begin.latest = l.latest := by
  apply KeyMap.ext_get?
  intro key
  rw [latest, latest, get?_snapshot, get?_snapshot]
  exact Versions.live?_of_bounded (Nat.le_succ _) (h key)

/-! ### Compaction -/

/-- A compaction compacts every history at the point it asks for, or at the latest revision if
that is earlier. -/
theorem versions_compact (l : Ledger) (revision : Nat) (key : Key) :
    (l.compact revision).versions key =
      (l.versions key).compact (min revision l.revision) := by
  simp only [versions, compact, KeyMap.get?_filterMap]
  cases l.keys.get? key with
  | none => rfl
  | some versions =>
    simp only [Option.bind_some, Option.getD_some]
    cases versions.compact (min revision l.revision) <;> simp

/-- Compaction changes no snapshot at or above its point. -/
theorem snapshot_compact (l : Ledger) {revision at' : Nat} (h : min revision l.revision ≤ at') :
    (l.compact revision).snapshot at' = l.snapshot at' := by
  apply KeyMap.ext_get?
  intro key
  rw [get?_snapshot, get?_snapshot, versions_compact]
  exact Versions.live?_compact h _

/-- A compaction changes nothing of what keys hold now. -/
theorem latest_compact (l : Ledger) (revision : Nat) : (l.compact revision).latest = l.latest :=
  snapshot_compact l (Nat.min_le_right _ _)

/-- A compaction keeps the ledger bounded. -/
theorem Bounded.compact {l : Ledger} (h : l.Bounded) (revision : Nat) :
    (l.compact revision).Bounded := by
  intro key v hv
  rw [versions_compact] at hv
  exact h key v (Versions.mem_of_mem_compact hv)

/-! ### Reading -/

/-- No key from the position of a query on lies before its stem. -/
theorem position_not_lt (query : RangeQuery) {key : Key}
    (h : query.position.isPast key = false) : ¬ key < query.stem := by
  unfold RangeQuery.position at h
  split at h
  · split at h
    · simpa [KeyMap.Position.isPast] using h
    · next after _ hafter =>
      have hkey : after < key := by simpa [KeyMap.Position.isPast] using h
      exact fun hlt => hafter (Key.lt_trans hkey hlt)
  · simpa [KeyMap.Position.isPast] using h

/-- Under the stem, the position of a query passes over exactly the keys that the
query does not want. A `startAfter` before the stem excludes nothing there. -/
theorem position_isPast (query : RangeQuery) {key : Key} (hstem : query.stem <+: key) :
    (!query.position.isPast key) = query.startAfter.all (· < key) := by
  have hlow : ¬ key < query.stem := Key.not_lt_of_prefix hstem
  unfold RangeQuery.position
  cases query.startAfter with
  | none => simp [KeyMap.Position.isPast, hlow]
  | some after =>
    simp only [Option.all_some]
    split
    · next hafter =>
      have hkey : after < key := by
        by_cases hkey : after < key
        · exact hkey
        · by_cases hlt : key < after
          · exact absurd (Key.lt_trans hlt hafter) hlow
          · exact absurd (Key.eq_of_not_lt hkey hlt ▸ hafter) hlow
      simp [KeyMap.Position.isPast, hlow, hkey]
    · simp [KeyMap.Position.isPast]

/-- A range finds the pairs of the snapshot that its query asks for. -/
theorem pairsAt_eq (l : Ledger) (revision : Nat) (query : RangeQuery) :
    l.pairsAt revision query = (l.snapshot revision).pairs query := by
  rw [pairsAt, KeyMap.scan_eq_filter _ _ _ fun key => position_not_lt query]
  simp only [Snapshot.pairs, snapshot, KeyMap.filterMap]
  induction l.keys.entries with
  | nil => rfl
  | cons e rest ih =>
    obtain ⟨key, versions⟩ := e
    cases hstem : query.stem.beginsWith key with
    | false => cases hlive : versions.live? revision <;> simp [hstem, hlive, ih]
    | true =>
      have hwant := position_isPast query (Key.beginsWith_iff.1 hstem)
      rw [List.filter_cons, hstem, Bool.true_and, hwant]
      cases hafter : query.startAfter.all (· < key) <;>
        cases hlive : versions.live? revision <;>
        simp [hstem, hafter, hlive, ih, Snapshot.shown]

/-- A range pinned between the compaction point and the present answers with a page
of the snapshot of its revision. -/
theorem page_eq (l : Ledger) (query : RangeQuery)
    (hlow : l.compacted ≤ query.revision.getD l.revision)
    (hhigh : query.revision.getD l.revision ≤ l.revision) :
    l.page query =
      .ok ((l.snapshot (query.revision.getD l.revision)).page
        (query.revision.getD l.revision) query) := by
  simp only [page, pairsAt_eq, if_neg (Nat.not_lt.2 hlow), if_neg (Nat.not_lt.2 hhigh),
    Snapshot.page]
  split <;> rfl

/-- A range that succeeds is a page of a snapshot that can still be read. -/
theorem page_of_ok {l : Ledger} {query : RangeQuery} {page : Page} (h : l.page query = .ok page) :
    page.revision = query.revision.getD l.revision ∧ l.compacted ≤ page.revision ∧
      page.revision ≤ l.revision ∧
      page = (l.snapshot page.revision).page page.revision query := by
  have hlow : l.compacted ≤ query.revision.getD l.revision := by
    refine Nat.le_of_not_lt fun hlt => ?_
    simp [Ledger.page, hlt] at h
  have hhigh : query.revision.getD l.revision ≤ l.revision := by
    refine Nat.le_of_not_lt fun hlt => ?_
    simp [Ledger.page, Nat.not_lt.2 hlow, hlt] at h
  rw [page_eq l query hlow hhigh, Outcome.ok.injEq] at h
  have hrevision : page.revision = query.revision.getD l.revision := by
    rw [← h, Snapshot.revision_page]
  rw [hrevision]
  exact ⟨rfl, hlow, hhigh, h.symm⟩

/-- The live keys under a stem are those of the latest snapshot. -/
theorem liveUnder_eq (l : Ledger) (stem : Key) : l.liveUnder stem = l.latest.keysUnder stem := by
  rw [liveUnder, KeyMap.scan_at]
  simp only [Snapshot.keysUnder, latest, snapshot, KeyMap.filterMap, List.filter_filter]
  induction l.keys.entries with
  | nil => rfl
  | cons e rest ih =>
    obtain ⟨key, versions⟩ := e
    simp only [List.filter_cons, List.filterMap_cons]
    cases hstem : stem.beginsWith key <;> cases versions.live? l.revision <;>
      simp [hstem, ih]

end Ledger

end KeyBroker
