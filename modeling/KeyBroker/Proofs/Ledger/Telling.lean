import KeyBroker.Proofs.Ledger.Holding
import KeyBroker.Proofs.Store.Revisions

/-!
# What events tell

The events of a commit follow from its writes and from what the keys held before it. A put
tells what it replaced, a deletion what it took away, and a deletion of nothing is not told
at all. Nothing but the revision of the commit has to be known for it.
-/

namespace KeyBroker

namespace Snapshot

variable {m : Snapshot} {revision : Nat}

/-- The events of writes made in order at one revision. -/
def tell (revision : Nat) (m : Snapshot) : List Write → List Event
  | [] => []
  | .put key value :: rest =>
    { kind := .put, key, value, previous := (m.get? key).map (·.2), revision } ::
      tell revision (m.write revision (.put key value)) rest
  | .delete key :: rest =>
    (if (m.get? key).isSome then
      [{ kind := .delete, key, value := [], previous := (m.get? key).map (·.2), revision }]
    else []) ++ tell revision (m.write revision (.delete key)) rest

/-- The event of a deletion of a live key. -/
def farewell (revision : Nat) (m : Snapshot) (key : Key) : Event :=
  { kind := .delete, key, value := [], previous := (m.get? key).map (·.2), revision }

/-- Deletions of different live keys do not get in each other's way. -/
theorem tell_delete {keys : List Key} (hdistinct : keys.Nodup)
    (hlive : ∀ key ∈ keys, (m.get? key).isSome = true) :
    m.tell revision (keys.map .delete) = keys.map (m.farewell revision) := by
  induction keys generalizing m with
  | nil => rfl
  | cons key rest ih =>
    obtain ⟨hnew, hrest⟩ := List.nodup_cons.1 hdistinct
    have hkept : ∀ k ∈ rest, (m.erase key).get? k = m.get? k := by
      intro k hk
      have hne : k ≠ key := fun heq => hnew (heq ▸ hk)
      rw [KeyMap.get?_erase, if_neg hne]
    have hlater : tell revision (m.erase key) (rest.map .delete) =
        rest.map (farewell revision (m.erase key)) :=
      ih hrest fun k hk => by
        rw [hkept k hk]
        exact hlive k (List.mem_cons_of_mem _ hk)
    rw [List.map_cons, tell, if_pos (hlive key List.mem_cons_self), write, hlater, List.map_cons,
      List.singleton_append]
    congr 1
    refine List.map_congr_left fun k hk => ?_
    rw [farewell, farewell, hkept k hk]

end Snapshot

namespace Ledger

variable {l : Ledger} {now : Nat}

/-! ### Commits -/

/-- The event of a put tells of it, with the value that it replaces. -/
theorem Bounded.event_write (h : l.Bounded) (key : Key) (value : Bytes) (deadline : Option Nat) :
    [(l.write key value deadline).2] = l.latest.tell l.revision [.put key value] := by
  simp only [write, Snapshot.tell, h.lastValue_eq]

/-- The events of a deletion tell of it, if the key was live. -/
theorem Bounded.events_erase (h : l.Bounded) (key : Key) :
    (l.erase key).2 = l.latest.tell l.revision [.delete key] := by
  rw [erase, Snapshot.tell, ← h.lastValue_eq, ← Ledger.latest?_eq, Snapshot.tell,
    List.append_nil]
  cases l.latest? key <;> rfl

/-- The events of a transaction are those that its writes tell of what was there. -/
theorem Bounded.events_apply (h : l.Bounded) (writes : List Write) :
    (l.apply writes).2 = l.latest.tell l.revision writes := by
  induction writes generalizing l with
  | nil => rfl
  | cons first rest ih =>
    cases first with
    | put key value =>
      have hfirst := amends_write h key value none
      have hrest := ih hfirst.bounded
      rw [hfirst.latest, hfirst.revision] at hrest
      simp only [apply, hrest]
      rw [← List.singleton_append, h.event_write]
      rfl
    | delete key =>
      have hfirst := amends_erase h key
      have hrest := ih hfirst.bounded
      rw [hfirst.latest, hfirst.revision] at hrest
      simp only [apply, hrest, h.events_erase, Snapshot.tell, List.append_nil]
      rfl

/-- The events of deletions tell of them in order. -/
theorem Bounded.events_eraseAll (h : l.Bounded) (keys : List Key) :
    (l.eraseAll keys).2 = l.latest.tell l.revision (keys.map .delete) := by
  rw [eraseAll_eq_apply, h.events_apply]

/-- No key is expired twice. -/
theorem nodup_expired (l : Ledger) (now : Nat) : (l.expired now).Nodup := by
  rw [expired, List.Nodup, List.pairwise_map]
  refine (l.keys.ascending.filter _).imp ?_
  intro a b hlt heq
  exact Key.lt_irrefl b.1 (heq ▸ hlt)

/-- An expired key is still live until it is let go. -/
theorem Bounded.live_of_expired (h : l.Bounded) {key : Key} (hkey : key ∈ l.expired now) :
    (l.latest.get? key).isSome = true := by
  obtain ⟨v, hget, -⟩ := mem_expired_iff.1 hkey
  have hvalue := value_isSome_of_values hget
  rw [← Ledger.latest?_eq, h.latest?_eq, hget, Option.bind_some, Option.isSome_map]
  exact hvalue

/-- A sweep tells of every key whose time is over, and of no other. -/
theorem Bounded.events_expire (h : l.Bounded) (now : Nat) :
    (l.expire now).2 = (l.expired now).map (l.latest.farewell (l.revision + 1)) := by
  have hdistinct := l.nodup_expired now
  have hlive (key : Key) (hkey : key ∈ l.expired now) := h.live_of_expired hkey
  unfold Ledger.expire
  cases hexpired : l.expired now with
  | nil => rfl
  | cons key rest =>
    rw [hexpired] at hdistinct hlive
    rw [h.begin.events_eraseAll, h.latest_begin]
    exact Snapshot.tell_delete hdistinct hlive

/-! ### Requests -/

/-- The ledger `l'` comes from `l` by one commit of the writes, or by none if there are no
writes, and `events` tell of it. -/
structure Commits (l l' : Ledger) (writes : List Write) (events : List Event) : Prop where
  revision : l'.revision = l.revision + if writes.isEmpty then 0 else 1
  latest : l'.latest = l.latest.writeAll l'.revision writes
  events : events = l.latest.tell l'.revision writes

/-- Without writes there is no commit. -/
theorem Commits.nothing (l : Ledger) : l.Commits l [] [] := ⟨rfl, rfl, rfl⟩

/-- A revision begun and amended by some writes, with the events that tell of them, is a commit of
those writes. -/
theorem Bounded.commits (h : l.Bounded) {l' : Ledger} {writes : List Write} {events : List Event}
    (hamends : Amends l.begin l' writes events) (hwrites : writes ≠ [])
    (hevents : events = l.begin.latest.tell l.begin.revision writes) :
    l.Commits l' writes events where
  revision := by
    rw [hamends.revision, List.isEmpty_eq_false_iff.2 hwrites]
    rfl
  latest := by rw [hamends.latest, hamends.revision, h.latest_begin]
  events := by rw [hevents, hamends.revision, h.latest_begin]

/-- Deleting keys is one commit of their deletions, whose events come behind those of expired
keys. -/
theorem Bounded.commits_deleteKeys (h : l.Bounded) (expiries : List Event) (targets : List Key) :
    ∃ own, (l.deleteKeys expiries targets).events = expiries ++ own ∧
      l.Commits (l.deleteKeys expiries targets).ledger (targets.map .delete) own := by
  cases targets with
  | nil => exact ⟨[], (List.append_nil _).symm, .nothing l⟩
  | cons key rest =>
    have hevents := h.begin.events_eraseAll (key :: rest)
    exact ⟨_, rfl, h.commits (amends_eraseAll h.begin (key :: rest)) (by simp) hevents⟩

/-- A transaction commits its writes once the sweep is done. -/
theorem Bounded.commits_txn (h : l.Bounded) (now : Nat) (writes : List Write) :
    ∃ own, (l.txn now writes).events = (l.expire now).2 ++ own ∧
      (l.expire now).1.Commits (l.txn now writes).ledger writes own := by
  have hswept := h.expire now
  cases writes with
  | nil => exact ⟨[], (List.append_nil _).symm, .nothing _⟩
  | cons first rest =>
    exact ⟨_, rfl, hswept.commits (amends_apply hswept.begin _) (by simp)
      (hswept.begin.events_apply _)⟩

/-- So does a put whose deadline lies within the range of the clock. -/
theorem Bounded.commits_put (h : l.Bounded) {now : Nat} (key : Key) (value : Bytes)
    {ttl : Option Duration} (hclock : (Request.put key value ttl).WithinClock now) :
    ∃ own, (l.put now key value ttl).events = (l.expire now).2 ++ own ∧
      (∃ revision, (l.put now key value ttl).result = .ok revision) ∧
      (l.expire now).1.Commits (l.put now key value ttl).ledger [.put key value] own := by
  have hswept := h.expire now
  have hcommits (deadline : Option Nat) :=
    hswept.commits (amends_write hswept.begin key value deadline) (by simp)
      (hswept.begin.event_write key value deadline)
  cases ttl with
  | none => exact ⟨_, rfl, ⟨_, rfl⟩, hcommits none⟩
  | some ttl =>
    obtain ⟨deadline, hdeadline⟩ := Option.ne_none_iff_exists'.1 hclock
    simp only [put, hdeadline]
    exact ⟨_, rfl, ⟨_, rfl⟩, hcommits (some deadline)⟩

end Ledger

end KeyBroker
