import KeyBroker.Proofs.Ledger.Amendment

/-!
# What compaction leaves alone

Compaction keeps every snapshot from its point on, and of every key the newest
version that is a value, with its deadline. Nothing else of a ledger is looked at
later, except by a read behind the point: expiry asks for the newest values, a write
reports the newest value as the previous one, and all other answers are read off a
snapshot. So two ledgers of which one has been compacted stay as close as they were
through every commit, with the same events and the same answers.
-/

namespace KeyBroker

namespace Versions

/-- The newest version, if it is a value. -/
def newest (versions : Versions) : Option Version := versions.getLast?.filter (·.value.isSome)

/-- The last value of a key is that of its newest version, if that is a value. -/
theorem lastValue_eq_newest (versions : Versions) :
    lastValue versions = (newest versions).bind (·.value) := by
  rw [lastValue, newest]
  cases versions.getLast? with
  | none => rfl
  | some last => cases hvalue : last.value <;> simp [Option.filter, hvalue]

/-- Whether a key is expired shows in its newest version. -/
theorem isExpired_eq_newest (now : Nat) (versions : Versions) :
    isExpired now versions = (newest versions).any fun v => v.deadline.any (· ≤ now) := by
  rw [isExpired, newest]
  cases versions.getLast? with
  | none => rfl
  | some last => cases hvalue : last.value <;> simp [Option.filter, hvalue]

/-- A recorded version is the newest one. -/
theorem newest_record (version : Version) (versions : Versions) :
    newest (record version versions) = (some version).filter (·.value.isSome) := by
  rcases record_eq version versions with heq | ⟨init, last, _, _, heq⟩ <;>
    rw [heq, newest, List.getLast?_concat]

/-- Forgetting versions from the front leaves the newest as it is. -/
theorem getLast?_since (point : Nat) (versions : Versions) :
    (since point versions).getLast? = versions.getLast? := by
  induction versions with
  | nil => rfl
  | cons v rest ih =>
    simp only [since]
    split
    · next hany =>
      have hne : rest ≠ [] := by
        rintro rfl
        cases hany
      rw [ih, List.getLast?_cons_of_ne_nil hne]
    · rfl

/-- Compaction keeps the newest version, unless that is a deletion. -/
theorem newest_compact (point : Nat) (versions : Versions) :
    newest (compact point versions) = newest versions := by
  rw [newest, newest, ← getLast?_since point versions, compact]
  cases since point versions with
  | nil => rfl
  | cons v rest =>
    simp only
    split
    · next hdeleted =>
      cases rest with
      | nil => simp [Option.filter, hdeleted.2]
      | cons w rest => rw [List.getLast?_cons_cons]
    · rfl

end Versions

namespace Ledger

/-! ### The newest values -/

/-- The newest version of every key whose newest version is a value. -/
def values (l : Ledger) : KeyMap Version := l.keys.filterMap Versions.newest

/-- The values of a ledger have the newest version of each key. -/
theorem get?_values (l : Ledger) (key : Key) :
    l.values.get? key = (l.versions key).newest := by
  rw [values, KeyMap.get?_filterMap, versions]
  cases l.keys.get? key <;> rfl

/-- Which keys have expired is told by their newest values. -/
theorem expired_eq (l : Ledger) (now : Nat) :
    l.expired now =
      (l.values.entries.filter fun e => e.2.deadline.any (· ≤ now)).map (·.1) := by
  simp only [expired, values, KeyMap.filterMap]
  induction l.keys.entries with
  | nil => rfl
  | cons e rest ih =>
    obtain ⟨key, versions⟩ := e
    simp only [List.filter_cons, List.filterMap_cons, Versions.isExpired_eq_newest] at ih ⊢
    cases hnewest : versions.newest with
    | none => simpa [hnewest] using ih
    | some v => cases hdue : v.deadline.any (· ≤ now) <;> simp [hdue, ih]

/-- A recorded version takes the place of the newest one of its key, or clears it if it is a
deletion. -/
theorem values_record (l : Ledger) (key k : Key) (value : Option Bytes) (deadline : Option Nat) :
    (l.record key value deadline).values.get? k =
      if k = key then
        (some { revision := l.revision, value, deadline : Version }).filter (·.value.isSome)
      else l.values.get? k := by
  rw [get?_values, get?_values, versions_record]
  split
  · exact Versions.newest_record _ _
  · rfl

/-! ### Ledgers that differ by a compaction -/

/-- The ledger `l'` is `l`, or what `l` would be now if it had been compacted at `point`
some time ago. -/
structure Thinned (point : Nat) (l l' : Ledger) : Prop where
  revision : l'.revision = l.revision
  compacted : l'.compacted = max l.compacted point
  floor : l'.compacted ≤ l'.revision
  snapshot : ∀ revision, l'.compacted ≤ revision → l'.snapshot revision = l.snapshot revision
  values : l'.values = l.values

/-- A change of a ledger and the same change of the compacted one: the events and the
answers agree. -/
structure Change.Thinned {α : Type} (point : Nat) (c c' : Change α) : Prop where
  ledger : c.ledger.Thinned point c'.ledger
  events : c'.events = c.events
  result : c'.result = c.result

/-- A compaction leaves the newest values as they are. -/
theorem values_compact (l : Ledger) (revision : Nat) : (l.compact revision).values = l.values := by
  apply KeyMap.ext_get?
  intro key
  rw [get?_values, get?_values, versions_compact, Versions.newest_compact]

/-- A compacted ledger differs from the ledger by the compaction, at the point to which
the compaction could go. -/
theorem thinned_compact {l : Ledger} (hfloor : l.compacted ≤ l.revision) (revision : Nat) :
    Thinned (min revision l.revision) l (l.compact revision) where
  revision := rfl
  compacted := rfl
  floor := Nat.max_le.2 ⟨hfloor, Nat.min_le_right _ _⟩
  snapshot at' hlow := by
    have hpoint : min revision l.revision ≤ at' := (Nat.max_le.1 hlow).2
    exact snapshot_compact l hpoint
  values := values_compact l revision

namespace Thinned

variable {point : Nat} {l l' : Ledger}

/-! ### What the newest values and the snapshots tell -/

/-- A compacted ledger holds now what the ledger holds. -/
theorem latest (h : Thinned point l l') : l'.latest = l.latest := by
  rw [Ledger.latest, Ledger.latest, h.snapshot l'.revision h.floor, h.revision]

/-- A compacted ledger has the same latest value of each key. -/
theorem latest? (h : Thinned point l l') (key : Key) : l'.latest? key = l.latest? key := by
  rw [latest?_eq, latest?_eq, h.latest]

/-- A compacted ledger has the same last value of each key. -/
theorem lastValue (h : Thinned point l l') (key : Key) :
    (l'.versions key).lastValue = (l.versions key).lastValue := by
  rw [Versions.lastValue_eq_newest, Versions.lastValue_eq_newest, ← get?_values, ← get?_values,
    h.values]

/-- The same keys are expired in a compacted ledger. -/
theorem expired (h : Thinned point l l') (now : Nat) : l'.expired now = l.expired now := by
  rw [expired_eq, expired_eq, h.values]

/-- The same keys are live under a stem in a compacted ledger. -/
theorem liveUnder (h : Thinned point l l') (stem : Key) : l'.liveUnder stem = l.liveUnder stem := by
  rw [liveUnder_eq, liveUnder_eq, h.latest]

/-! ### Commits -/

/-- Beginning a revision keeps a ledger and the compacted one together. -/
theorem begin (h : Thinned point l l') : Thinned point l.begin l'.begin where
  revision := congrArg (· + 1) h.revision
  compacted := h.compacted
  floor := Nat.le_succ_of_le h.floor
  snapshot revision hlow := by
    rw [snapshot_begin, snapshot_begin, h.snapshot revision hlow]
  values := h.values

/-- A version recorded in both ledgers is seen alike from its revision on, and nothing is
seen of it before. -/
theorem record (h : Thinned point l l') (key : Key) (value : Option Bytes)
    (deadline : Option Nat) :
    Thinned point (l.record key value deadline) (l'.record key value deadline) where
  revision := h.revision
  compacted := h.compacted
  floor := h.floor
  snapshot revision hlow := by
    apply KeyMap.ext_get?
    intro k
    have hbefore : ((l'.versions k).live? revision) = (l.versions k).live? revision := by
      rw [← get?_snapshot, ← get?_snapshot, h.snapshot revision hlow]
    rw [get?_snapshot, get?_snapshot, versions_record, versions_record]
    by_cases hk : k = key
    · subst hk
      rw [if_pos rfl, if_pos rfl]
      by_cases hpast : revision < l.revision
      · rw [Versions.live?_record_of_lt (by simpa only [h.revision] using hpast),
          Versions.live?_record_of_lt (by simpa only using hpast), hbefore]
      · have hseen : l.revision ≤ revision := Nat.le_of_not_lt hpast
        rw [Versions.live?_record_of_le (by simpa only [h.revision] using hseen),
          Versions.live?_record_of_le (by simpa only using hseen), h.revision]
    · rw [if_neg hk, if_neg hk, hbefore]
  values := by
    apply KeyMap.ext_get?
    intro k
    rw [values_record, values_record, h.revision, h.values]

/-- A put makes the same of a ledger and of the compacted one, with the same event. -/
theorem write (h : Thinned point l l') (key : Key) (value : Bytes) (deadline : Option Nat) :
    Thinned point (l.write key value deadline).1 (l'.write key value deadline).1 ∧
      (l'.write key value deadline).2 = (l.write key value deadline).2 := by
  constructor
  · exact h.record key (some value) deadline
  · simp only [Ledger.write, h.lastValue, h.revision]

/-- A deletion makes the same of a ledger and of the compacted one, with the same events. -/
theorem erase (h : Thinned point l l') (key : Key) :
    Thinned point (l.erase key).1 (l'.erase key).1 ∧ (l'.erase key).2 = (l.erase key).2 := by
  have hlive := h.latest? key
  cases hfound : l.latest? key with
  | none =>
    rw [hfound] at hlive
    constructor
    · simpa only [Ledger.erase, hfound, hlive] using h
    · simp only [Ledger.erase, hfound, hlive]
  | some found =>
    rw [hfound] at hlive
    constructor
    · simpa only [Ledger.erase, hfound, hlive] using h.record key none none
    · simp only [Ledger.erase, hfound, hlive, h.lastValue, h.revision]

/-- Writes of a transaction make the same of a ledger and of the compacted one, with the same
events. -/
theorem apply (h : Thinned point l l') (writes : List Write) :
    Thinned point (l.apply writes).1 (l'.apply writes).1 ∧
      (l'.apply writes).2 = (l.apply writes).2 := by
  induction writes generalizing l l' with
  | nil => exact ⟨h, rfl⟩
  | cons first rest ih =>
    cases first with
    | put key value =>
      obtain ⟨hfirst, hevent⟩ := h.write key value none
      obtain ⟨hrest, hmore⟩ := ih hfirst
      refine ⟨hrest, ?_⟩
      simp only [Ledger.apply, hevent, hmore]
    | delete key =>
      obtain ⟨hfirst, hevents⟩ := h.erase key
      obtain ⟨hrest, hmore⟩ := ih hfirst
      refine ⟨hrest, ?_⟩
      simp only [Ledger.apply, hevents, hmore]

/-- Deleting keys makes the same of a ledger and of the compacted one, with the same events. -/
theorem eraseAll (h : Thinned point l l') (keys : List Key) :
    Thinned point (l.eraseAll keys).1 (l'.eraseAll keys).1 ∧
      (l'.eraseAll keys).2 = (l.eraseAll keys).2 := by
  rw [eraseAll_eq_apply, eraseAll_eq_apply]
  exact h.apply _

/-- The same keys expire. -/
theorem expire (h : Thinned point l l') (now : Nat) :
    Thinned point (l.expire now).1 (l'.expire now).1 ∧
      (l'.expire now).2 = (l.expire now).2 := by
  simp only [Ledger.expire, h.expired now]
  cases l.expired now with
  | nil => exact ⟨h, rfl⟩
  | cons key rest => exact h.begin.eraseAll (key :: rest)

/-- Committing the deletion of keys comes to the same on the compacted ledger. -/
theorem deleteKeys (h : Thinned point l l') (expiries : List Event) (targets : List Key) :
    Change.Thinned point (l.deleteKeys expiries targets) (l'.deleteKeys expiries targets) := by
  cases targets with
  | nil =>
    refine ⟨h, rfl, ?_⟩
    simp only [Ledger.deleteKeys, h.revision]
  | cons key rest =>
    obtain ⟨hlast, hevents⟩ := h.begin.eraseAll (key :: rest)
    refine ⟨hlast, ?_, ?_⟩
    · simp only [Ledger.deleteKeys, hevents]
    · simp only [Ledger.deleteKeys, hlast.revision]

/-- Committing a put comes to the same on the compacted ledger. -/
theorem put (h : Thinned point l l') (now : Nat) (key : Key) (value : Bytes)
    (ttl : Option Duration) :
    Change.Thinned point (l.put now key value ttl) (l'.put now key value ttl) := by
  obtain ⟨hswept, hexpiries⟩ := h.expire now
  have hcommit (deadline : Option Nat) := hswept.begin.write key value deadline
  cases ttl with
  | none =>
    obtain ⟨hwritten, hevent⟩ := hcommit none
    refine ⟨hwritten, ?_, ?_⟩
    · simp only [Ledger.put, hexpiries, hevent]
    · simp only [Ledger.put, hwritten.revision]
  | some ttl =>
    cases hdeadline : deadlineAfter now ttl with
    | none =>
      simp only [Ledger.put, hdeadline]
      exact ⟨hswept.begin, hexpiries, rfl⟩
    | some deadline =>
      obtain ⟨hwritten, hevent⟩ := hcommit (some deadline)
      simp only [Ledger.put, hdeadline]
      refine ⟨hwritten, ?_, ?_⟩
      · simp only [hexpiries, hevent]
      · simp only [hwritten.revision]

/-- Committing a deletion comes to the same on the compacted ledger. -/
theorem delete (h : Thinned point l l') (now : Nat) (key : Key) :
    Change.Thinned point (l.delete now key) (l'.delete now key) := by
  obtain ⟨hswept, hexpiries⟩ := h.expire now
  simp only [Ledger.delete, hexpiries, hswept.latest? key]
  exact hswept.deleteKeys _ _

/-- Committing the deletion of all keys under a stem comes to the same on the compacted ledger. -/
theorem deletePrefix (h : Thinned point l l') (now : Nat) (stem : Key) :
    Change.Thinned point (l.deletePrefix now stem) (l'.deletePrefix now stem) := by
  obtain ⟨hswept, hexpiries⟩ := h.expire now
  simp only [Ledger.deletePrefix, hexpiries, hswept.liveUnder stem]
  exact hswept.deleteKeys _ _

/-- Committing a transaction comes to the same on the compacted ledger. -/
theorem txn (h : Thinned point l l') (now : Nat) (writes : List Write) :
    Change.Thinned point (l.txn now writes) (l'.txn now writes) := by
  obtain ⟨hswept, hexpiries⟩ := h.expire now
  cases writes with
  | nil => exact ⟨hswept, hexpiries, hswept.revision⟩
  | cons first rest =>
    obtain ⟨hlast, hevents⟩ := hswept.begin.apply (first :: rest)
    refine ⟨hlast, ?_, hlast.revision⟩
    simp only [Ledger.txn, hexpiries, hevents]

/-! ### Reads -/

/-- Reading a key comes to the same on the compacted ledger. -/
theorem get (h : Thinned point l l') (now : Nat) (key : Key) :
    Change.Thinned point (l.get now key) (l'.get now key) := by
  obtain ⟨hswept, hexpiries⟩ := h.expire now
  refine ⟨hswept, hexpiries, ?_⟩
  simp only [Ledger.get, hswept.latest? key]

/-- A range pinned at the compaction point or above gets the same answer, and one pinned
below it is refused for the compaction or gets the same answer. -/
theorem page (h : Thinned point l l') (query : RangeQuery) :
    l'.page query = l.page query ∨
      ∃ revision, query.revision = some revision ∧ revision < point ∧
        l'.page query = .failed (.compacted revision l'.compacted) := by
  have hrevision := h.revision
  have hcompacted := h.compacted
  have hfloor := h.floor
  by_cases hlow : l'.compacted ≤ query.revision.getD l'.revision
  · left
    have hfound := h.snapshot _ hlow
    rw [hrevision] at hlow hfound
    have hplain : ¬ query.revision.getD l.revision < l.compacted := by omega
    simp only [Ledger.page, pairsAt_eq, hrevision, hfound, if_neg hplain,
      if_neg (Nat.not_lt.2 hlow)]
  · -- only a revision that the query names can lie behind the point
    cases hpinned : query.revision with
    | none =>
      rw [hpinned] at hlow
      exact absurd hfloor hlow
    | some revision =>
      rw [hpinned, Option.getD_some] at hlow
      have hbehind : revision < l'.compacted := Nat.lt_of_not_le hlow
      have hrefused : l'.page query = .failed (.compacted revision l'.compacted) := by
        simp only [Ledger.page, hpinned, Option.getD_some, if_pos hbehind]
      by_cases hpoint : revision < point
      · exact .inr ⟨revision, rfl, hpoint, hrefused⟩
      · have hsame : l'.compacted = l.compacted := by omega
        left
        rw [hrefused, hsame]
        rw [hsame] at hbehind
        simp only [Ledger.page, hpinned, Option.getD_some, if_pos hbehind]

/-- A further compaction finds the same point. -/
theorem compact (h : Thinned point l l') (revision : Nat) :
    Thinned point (l.compact revision) (l'.compact revision) := by
  have hrevision := h.revision
  have hcompacted := h.compacted
  have hfloor := h.floor
  refine ⟨hrevision, ?_, ?_, ?_, ?_⟩
  · show max l'.compacted (min revision l'.revision) =
      max (max l.compacted (min revision l.revision)) point
    omega
  · show max l'.compacted (min revision l'.revision) ≤ l'.revision
    omega
  · intro at' hlow
    obtain ⟨hlow, hpoint⟩ := Nat.max_le.1 hlow
    rw [snapshot_compact l' hpoint, snapshot_compact l (by omega), h.snapshot at' hlow]
  · rw [values_compact, values_compact, h.values]

end Thinned

end Ledger

end KeyBroker
