import KeyBroker.Proofs.Ledger.Telling

/-!
# Deposits

What was put last under a key, and until when it counts, follows from the requests that
succeeded: a put replaces it, a deletion takes it away, and nothing else touches it, not even
the end of its time. At an instant only the deposits are there whose time is not over. A
ledger lets go of the others when it is next swept. Until then it lags behind, but only in
deposits whose time was over before.
-/

namespace KeyBroker

/-- A value that was put, with the revision of the put and the instant at which its time is
over. -/
structure Deposit where
  revision : Nat
  value : Bytes
  deadline : Option Nat
  deriving DecidableEq, Repr

/-- Whether the time of a deposit is over. -/
def Deposit.due (now : Nat) (d : Deposit) : Bool := d.deadline.any (· ≤ now)

/-- What is over stays over. -/
theorem Deposit.due_later (d : Deposit) {now later : Nat} (hle : now ≤ later)
    (h : d.due now = true) : d.due later = true := by
  obtain ⟨deadline, hdeadline, hpast⟩ := (Option.any_eq_true _ _).1 h
  have hlater : deadline ≤ later := Nat.le_trans (of_decide_eq_true hpast) hle
  simp [due, hdeadline, hlater]

/-- The last deposit under each key that was not deleted since. -/
abbrev Deposits := KeyMap Deposit

namespace Deposits

/-- The deposits whose time is not over. -/
def lasting (now : Nat) (deposits : Deposits) : Deposits :=
  deposits.filterMap fun d => if d.due now then none else some d

/-- Deposits without their deadlines. -/
def shown (deposits : Deposits) : Snapshot := deposits.filterMap fun d => some (d.revision, d.value)

/-- What is there at an instant. -/
def visible (now : Nat) (deposits : Deposits) : Snapshot := (deposits.lasting now).shown

/-- The deposits after a write without a deadline. -/
def write (revision : Nat) (deposits : Deposits) : Write → Deposits
  | .put key value => deposits.insert key { revision, value, deadline := none }
  | .delete key => deposits.erase key

/-- The deposits after a request made at `now`, by its outcome. -/
def served (now : Nat) (deposits : Deposits) : {service : Service} → Request service →
    Outcome service.Reply → Deposits
  | _, .put key value ttl, .ok revision =>
    deposits.insert key { revision, value, deadline := ttl.bind (deadlineAfter now) }
  | _, .delete key false, .ok _ => deposits.erase key
  | _, .delete stem true, .ok _ => deposits.restrict fun key => !stem.beginsWith key
  | _, .txn writes, .ok revision => writes.foldl (write revision) deposits
  | _, _, _ => deposits

/-- A failed request changes no deposits. -/
theorem served_failed (now : Nat) (deposits : Deposits) {service : Service}
    (request : Request service) (error : StorageError) :
    deposits.served now request (.failed error) = deposits := by
  cases request with
  | delete key under => cases under <;> rfl
  | _ => rfl

/-- A lasting deposit is a deposit that is not due. -/
theorem get?_lasting (now : Nat) (deposits : Deposits) (key : Key) :
    (deposits.lasting now).get? key =
      (deposits.get? key).bind fun d => if d.due now then none else some d :=
  KeyMap.get?_filterMap _ _ _

/-- What is shown of a deposit is its revision and its value. -/
theorem get?_shown (deposits : Deposits) (key : Key) :
    deposits.shown.get? key = (deposits.get? key).map fun d => (d.revision, d.value) := by
  rw [shown, KeyMap.get?_filterMap]
  cases deposits.get? key <;> rfl

end Deposits

/-- The deposit that a version is, unless it is a deletion. -/
def Version.deposit (v : Version) : Option Deposit :=
  v.value.map fun value => { revision := v.revision, value, deadline := v.deadline }

namespace Ledger

variable {l : Ledger} {deposits : Deposits} {now last : Nat}

/-- The deposits that a ledger has not let go. -/
def kept (l : Ledger) : Deposits := l.values.filterMap Version.deposit

/-- The deposit that a ledger keeps under a key is the newest version of the key, if that is a
value. -/
theorem get?_kept (l : Ledger) (key : Key) :
    l.kept.get? key = (l.values.get? key).bind Version.deposit :=
  KeyMap.get?_filterMap _ _ _

/-- A put makes the ledger keep the new deposit in place of the old one. -/
theorem kept_write (l : Ledger) (key : Key) (value : Bytes) (deadline : Option Nat) :
    (l.write key value deadline).1.kept =
      l.kept.insert key { revision := l.revision, value, deadline } := by
  apply KeyMap.ext_get?
  intro k
  rw [get?_kept, values_write, KeyMap.get?_insert, get?_kept]
  split <;> rfl

/-- A deletion makes the ledger let the deposit of the key go. -/
theorem Bounded.kept_erase (h : l.Bounded) (key : Key) :
    (l.erase key).1.kept = l.kept.erase key := by
  apply KeyMap.ext_get?
  intro k
  rw [get?_kept, h.values_erase, KeyMap.get?_erase, get?_kept]
  split <;> rfl

/-- Deleting keys makes the ledger let go of exactly the deposits under them. -/
theorem Bounded.get?_kept_eraseAll (h : l.Bounded) (keys : List Key) (k : Key) :
    (l.eraseAll keys).1.kept.get? k = if k ∈ keys then none else l.kept.get? k := by
  rw [get?_kept, h.values_eraseAll, get?_kept]
  split <;> rfl

/-- A compaction touches no deposit. -/
theorem kept_compact (l : Ledger) (revision : Nat) :
    (l.compact revision).kept = l.kept := by
  rw [kept, kept, values_compact]

/-- The latest snapshot is what a ledger has not let go. -/
theorem Bounded.latest_eq_shown (h : l.Bounded) : l.latest = l.kept.shown := by
  apply KeyMap.ext_get?
  intro key
  rw [← Ledger.latest?_eq, h.latest?_eq, Deposits.get?_shown, get?_kept]
  cases l.values.get? key with
  | none => rfl
  | some v => cases hvalue : v.value <;> simp [Version.deposit, hvalue]

/-- The keys that expire are those whose deposit is due. -/
theorem mem_expired_iff_due {key : Key} :
    key ∈ l.expired now ↔ ∃ d, l.kept.get? key = some d ∧ d.due now = true := by
  rw [mem_expired_iff]
  constructor
  · rintro ⟨v, hget, hdue⟩
    obtain ⟨value, hvalue⟩ := Option.isSome_iff_exists.1 (value_isSome_of_values hget)
    refine ⟨{ revision := v.revision, value, deadline := v.deadline }, ?_, hdue⟩
    rw [get?_kept, hget, Option.bind_some, Version.deposit, hvalue]
    rfl
  · rintro ⟨d, hget, hdue⟩
    rw [get?_kept, Option.bind_eq_some_iff] at hget
    obtain ⟨v, hv, hdeposit⟩ := hget
    obtain ⟨value, -, rfl⟩ := Option.map_eq_some_iff.1 hdeposit
    exact ⟨v, hv, hdue⟩

/-- A sweep lets go of the deposits that are due. -/
theorem Bounded.kept_expire (h : l.Bounded) (now : Nat) :
    (l.expire now).1.kept = l.kept.lasting now := by
  apply KeyMap.ext_get?
  intro key
  have hvalues : (l.expire now).1.kept.get? key =
      if key ∈ l.expired now then none else l.kept.get? key := by
    rw [get?_kept, h.values_expire, get?_kept]
    split <;> rfl
  rw [hvalues, Deposits.get?_lasting]
  split
  · next hmem =>
    obtain ⟨d, hget, hdue⟩ := mem_expired_iff_due.1 hmem
    simp [hget, hdue]
  · next hmem =>
    cases hget : l.kept.get? key with
    | none => rfl
    | some d =>
      have hlasts : ¬ d.due now = true :=
        fun hdue => hmem (mem_expired_iff_due.2 ⟨d, hget, hdue⟩)
      simp [hlasts]

/-- A deposit is seen at every revision from that of its put on. -/
theorem get?_snapshot_of_kept {key : Key} {d : Deposit} {revision : Nat}
    (hget : l.kept.get? key = some d) (hle : d.revision ≤ revision) :
    (l.snapshot revision).get? key = some (d.revision, d.value) := by
  rw [get?_kept, Option.bind_eq_some_iff] at hget
  obtain ⟨v, hv, hdeposit⟩ := hget
  obtain ⟨value, hvalue, rfl⟩ := Option.map_eq_some_iff.1 hdeposit
  rw [get?_values, Versions.newest, Option.filter_eq_some_iff] at hv
  obtain ⟨init, hversions⟩ := List.getLast?_eq_some_iff.1 hv.1
  rw [get?_snapshot, hversions, Versions.live?_append_of_le hle, hvalue]
  rfl

/-- So a deposit that the ledger still has is what is found under its key. -/
theorem Bounded.get?_latest_of_kept (h : l.Bounded) {key : Key} {d : Deposit}
    (hget : l.kept.get? key = some d) : l.latest.get? key = some (d.revision, d.value) := by
  rw [h.latest_eq_shown, Deposits.get?_shown, hget]
  rfl

/-- No deposit is newer than the ledger that keeps it. -/
theorem Bounded.revision_of_kept (h : l.Bounded) {key : Key} {d : Deposit}
    (hget : l.kept.get? key = some d) : d.revision ≤ l.revision := by
  rw [get?_kept, Option.bind_eq_some_iff] at hget
  obtain ⟨v, hv, hdeposit⟩ := hget
  obtain ⟨value, -, rfl⟩ := Option.map_eq_some_iff.1 hdeposit
  rw [get?_values, Versions.newest, Option.filter_eq_some_iff] at hv
  exact h key v (List.mem_of_getLast? hv.1)

/-! ### Lagging behind -/

/-- The ledger has the last deposits, but for some that were due by the instant `last`. -/
def Tracks (l : Ledger) (last : Nat) (deposits : Deposits) : Prop :=
  ∀ key, l.kept.get? key = deposits.get? key ∨
    l.kept.get? key = none ∧ (deposits.get? key).any (·.due last) = true

namespace Tracks

/-- The empty ledger tracks no deposits. -/
theorem new : Tracks {} 0 .empty := fun _ => .inl rfl

/-- Beginning a revision changes nothing of what is tracked. -/
theorem begin (h : l.Tracks last deposits) : l.begin.Tracks last deposits := h

/-- What the ledger has is the last deposit. -/
theorem get? (h : l.Tracks last deposits) {key : Key} {d : Deposit}
    (hget : l.kept.get? key = some d) : deposits.get? key = some d := by
  rcases h key with hsame | ⟨hnone, -⟩
  · rw [← hsame, hget]
  · rw [hnone] at hget
    cases hget

/-- A key that expires has its last deposit, which is due. -/
theorem of_expired (h : l.Tracks last deposits) {key : Key} (hkey : key ∈ l.expired now) :
    ∃ d, deposits.get? key = some d ∧ l.kept.get? key = some d ∧ d.due now = true := by
  obtain ⟨d, hget, hdue⟩ := mem_expired_iff_due.1 hkey
  exact ⟨d, h.get? hget, hget, hdue⟩

/-- The keys that expire are those which still have their last deposit, and whose deposit is
due. -/
theorem mem_expired_iff (h : l.Tracks last deposits) (hbounded : l.Bounded) {key : Key} :
    key ∈ l.expired now ↔ ∃ d, deposits.get? key = some d ∧ d.due now = true ∧
      l.latest.get? key = some (d.revision, d.value) := by
  constructor
  · intro hkey
    obtain ⟨d, hlast, hget, hdue⟩ := h.of_expired hkey
    exact ⟨d, hlast, hdue, hbounded.get?_latest_of_kept hget⟩
  · rintro ⟨d, hlast, hdue, hfound⟩
    rw [hbounded.latest_eq_shown, Deposits.get?_shown, Option.map_eq_some_iff] at hfound
    obtain ⟨kept, hget, -⟩ := hfound
    obtain rfl : d = kept := Option.some.inj (hlast.symm.trans (h.get? hget))
    exact mem_expired_iff_due.2 ⟨d, hget, hdue⟩

/-- The sweep tells of the deposits that it takes. -/
theorem events_expire (h : l.Tracks last deposits) (hbounded : l.Bounded) :
    (l.expire now).2 = (l.expired now).map (deposits.shown.farewell (l.revision + 1)) := by
  rw [hbounded.events_expire]
  refine List.map_congr_left fun key hkey => ?_
  obtain ⟨d, hlast, hget, -⟩ := h.of_expired hkey
  simp only [Snapshot.farewell, hbounded.latest_eq_shown, Deposits.get?_shown, hget, hlast]

/-- Once it is swept, a ledger has the lasting deposits and nothing else. -/
theorem swept (h : l.Tracks last deposits) (hbounded : l.Bounded) (hle : last ≤ now) :
    (l.expire now).1.kept = deposits.lasting now := by
  rw [hbounded.kept_expire]
  apply KeyMap.ext_get?
  intro key
  rw [Deposits.get?_lasting, Deposits.get?_lasting]
  rcases h key with hsame | ⟨hnone, hdue⟩
  · rw [hsame]
  · obtain ⟨d, hget, hover⟩ := (Option.any_eq_true _ _).1 hdue
    simp [hnone, hget, d.due_later hle hover]

/-- Letting expired keys go at an instant loses only deposits that are due by then. -/
theorem expire (h : l.Tracks last deposits) (hbounded : l.Bounded) (hle : last ≤ now) :
    (l.expire now).1.Tracks now deposits := by
  intro key
  rw [h.swept hbounded hle, Deposits.get?_lasting]
  cases deposits.get? key with
  | none => exact .inl rfl
  | some d => cases hdue : d.due now <;> simp [hdue]

/-- A put is tracked as the deposit made. -/
theorem write (h : l.Tracks last deposits) (key : Key) (value : Bytes) (deadline : Option Nat) :
    (l.write key value deadline).1.Tracks last
      (deposits.insert key { revision := l.revision, value, deadline }) := by
  intro k
  rw [kept_write, KeyMap.get?_insert, KeyMap.get?_insert]
  split
  · exact .inl rfl
  · exact h k

/-- A deletion is tracked as a deposit gone. -/
theorem erase (h : l.Tracks last deposits) (hbounded : l.Bounded) (key : Key) :
    (l.erase key).1.Tracks last (deposits.erase key) := by
  intro k
  rw [hbounded.kept_erase, KeyMap.get?_erase, KeyMap.get?_erase]
  split
  · exact .inl rfl
  · exact h k

/-- The writes of a transaction put and take their deposits in their order. -/
theorem apply (h : l.Tracks last deposits) (hbounded : l.Bounded) (writes : List Write) :
    (l.apply writes).1.Tracks last (writes.foldl (Deposits.write l.revision) deposits) := by
  induction writes generalizing l deposits with
  | nil => exact h
  | cons first rest ih =>
    cases first with
    | put key value => exact ih (h.write key value none) (hbounded.record key (some value) none)
    | delete key =>
      have hfirst := amends_erase hbounded key
      have hrest := ih (h.erase hbounded key) hfirst.bounded
      rw [hfirst.revision] at hrest
      exact hrest

/-- Deleting those of some keys that are live takes the deposits of all of them. -/
theorem deleteKeys (h : l.Tracks last deposits) (hbounded : l.Bounded) (expiries : List Event)
    {targets : List Key} {keep : Key → Bool}
    (htargets : ∀ key, key ∈ targets ↔ keep key = false ∧ (l.latest? key).isSome = true) :
    (l.deleteKeys expiries targets).ledger.Tracks last (deposits.restrict keep) := by
  intro key
  have hafter : (l.deleteKeys expiries targets).ledger.kept.get? key =
      if key ∈ targets then none else l.kept.get? key := by
    cases targets with
    | nil => rfl
    | cons first rest => exact hbounded.begin.get?_kept_eraseAll (first :: rest) key
  have hlive : (l.latest? key).isSome = (l.kept.get? key).isSome := by
    rw [latest?_eq, hbounded.latest_eq_shown, Deposits.get?_shown, Option.isSome_map]
  rw [hafter, KeyMap.get?_restrict]
  cases hkeep : keep key with
  | true =>
    have hspared : key ∉ targets := by simp [htargets, hkeep]
    simpa [hspared] using h key
  | false =>
    left
    split
    · rfl
    · next hspared =>
      rw [htargets, hkeep, hlive] at hspared
      simpa using hspared

/-- A compaction changes nothing of what is tracked. -/
theorem compact (h : l.Tracks last deposits) (revision : Nat) :
    (l.compact revision).Tracks last deposits := by
  intro key
  rw [kept_compact]
  exact h key

/-- What was tracked by an instant is tracked by any later one. -/
theorem later (h : l.Tracks last deposits) (hle : last ≤ now) : l.Tracks now deposits := by
  intro key
  refine (h key).imp_right fun ⟨hnone, hdue⟩ => ⟨hnone, ?_⟩
  obtain ⟨d, hget, hover⟩ := (Option.any_eq_true _ _).1 hdue
  exact (Option.any_eq_true _ _).2 ⟨d, hget, d.due_later hle hover⟩

/-! ### Requests -/

/-- After a put the ledger tracks the deposits that its outcome tells of. -/
theorem put (h : l.Tracks last deposits) (hbounded : l.Bounded) (hle : last ≤ now) (key : Key)
    (value : Bytes) (ttl : Option Duration) :
    (l.put now key value ttl).ledger.Tracks now
      (deposits.served now (.put key value ttl) (l.put now key value ttl).result) := by
  have hswept := h.expire hbounded hle
  cases ttl with
  | none => exact hswept.begin.write key value none
  | some ttl =>
    cases hdeadline : deadlineAfter now ttl with
    | none => simpa [Ledger.put, hdeadline, Deposits.served] using hswept.begin
    | some deadline =>
      have hwritten := hswept.begin.write key value (some deadline)
      simp only [Ledger.put, hdeadline, Deposits.served, Option.bind_some]
      exact hwritten

/-- After the deletion of a key the ledger tracks the deposits without that key. -/
theorem delete (h : l.Tracks last deposits) (hbounded : l.Bounded) (hle : last ≤ now)
    (key : Key) : (l.delete now key).ledger.Tracks now (deposits.erase key) := by
  have htargets (k : Key) :
      k ∈ (if ((l.expire now).1.latest? key).isSome then [key] else []) ↔
        decide (k ≠ key) = false ∧ ((l.expire now).1.latest? k).isSome = true := by
    by_cases hk : k = key
    · subst hk
      cases ((l.expire now).1.latest? k).isSome <;> simp
    · cases ((l.expire now).1.latest? key).isSome <;> simp [hk]
  exact (h.expire hbounded hle).deleteKeys (hbounded.expire now) _ htargets

/-- After the deletion of all keys under a stem the ledger tracks the deposits without
those keys. -/
theorem deletePrefix (h : l.Tracks last deposits) (hbounded : l.Bounded) (hle : last ≤ now)
    (stem : Key) :
    (l.deletePrefix now stem).ledger.Tracks now
      (deposits.restrict fun key => !stem.beginsWith key) := by
  have htargets (k : Key) : k ∈ (l.expire now).1.liveUnder stem ↔
      (!stem.beginsWith k) = false ∧ ((l.expire now).1.latest? k).isSome = true := by
    rw [mem_liveUnder, Bool.not_eq_false']
  exact (h.expire hbounded hle).deleteKeys (hbounded.expire now) _ htargets

/-- After a transaction the ledger tracks the deposits that its writes leave. -/
theorem txn (h : l.Tracks last deposits) (hbounded : l.Bounded) (hle : last ≤ now)
    (writes : List Write) :
    (l.txn now writes).ledger.Tracks now
      (writes.foldl (Deposits.write (l.txn now writes).result) deposits) := by
  have hswept := h.expire hbounded hle
  cases writes with
  | nil => exact hswept
  | cons first rest =>
    have hlast := hswept.begin.apply (hbounded.expire now).begin (first :: rest)
    have hresult : (l.txn now (first :: rest)).result = (l.expire now).1.begin.revision :=
      revision_apply _ _
    rw [hresult]
    exact hlast

end Tracks

end Ledger

end KeyBroker
