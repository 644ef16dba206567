import KeyBroker.Proofs.Ledger.Chronicle
import KeyBroker.Proofs.Store.Act

/-!
# What a request writes

The outcome of a request tells what it committed: a put its value, a transaction
all its writes, a deletion the keys it found live. Before that the expired keys
go, in a commit of their own. The chronicle of the ledger grows by just these
commits.
-/

namespace KeyBroker

namespace Request

variable {service : Service}

/-- Whether expired keys are let go before the request is carried out. -/
def sweeps : Request service → Bool
  | .watch _ | .close => false
  | _ => true

/-- Whether the deadline that the request sets lies within the range of the clock. -/
def WithinClock (now : Nat) : Request service → Prop
  | .put _ _ (some ttl) => deadlineAfter now ttl ≠ none
  | _ => True

/-- The writes that a request has committed, by the snapshot that it met without
expired keys and by its outcome. -/
def writes (met : Snapshot) : {service : Service} → Request service → Outcome service.Reply →
    List Write
  | _, .put key value _, .ok _ => [.put key value]
  | _, .delete key under, .ok deletion =>
    if deletion.deleted = 0 then []
    else (if under then met.keysUnder key else [key]).map .delete
  | _, .txn writes, .ok _ => writes
  | _, _, _ => []

/-- The revision in the answer to a commit. -/
def revision? : {service : Service} → Request service → Outcome service.Reply → Option Nat
  | _, .put .., .ok revision => some revision
  | _, .delete .., .ok deletion => some deletion.revision
  | _, .txn .., .ok revision => some revision
  | _, _, _ => none

/-- A failed request has committed nothing. -/
theorem writes_failed (met : Snapshot) (request : Request service) (error : StorageError) :
    request.writes met (.failed error) = [] := by
  cases request <;> rfl

end Request

namespace Ledger

/-! ### The revision in an answer -/

/-- A put answers the revision of its commit. -/
theorem revision_put {l : Ledger} {now : Nat} {key : Key} {value : Bytes} {ttl : Option Duration}
    {revision : Nat}
    (h : (Request.put key value ttl).revision? (l.put now key value ttl).result = some revision) :
    revision = (l.put now key value ttl).ledger.revision := by
  unfold put at h ⊢
  cases ttl with
  | none => exact (Option.some.inj h).symm
  | some ttl =>
    cases hdeadline : deadlineAfter now ttl with
    | none => simp [hdeadline, Request.revision?] at h
    | some deadline => simpa [hdeadline, Request.revision?] using h.symm

/-- A deletion answers the revision after it. -/
theorem revision_deleteKeys (l : Ledger) (expiries : List Event) (targets : List Key) :
    (l.deleteKeys expiries targets).result.revision =
      (l.deleteKeys expiries targets).ledger.revision := by
  cases targets <;> rfl

/-- A transaction answers the revision after it. -/
theorem revision_txn (l : Ledger) (now : Nat) (writes : List Write) :
    (l.txn now writes).result = (l.txn now writes).ledger.revision := by
  cases writes <;> rfl

end Ledger

namespace Ledger.Chronicle

/-! ### The commits of a request -/

variable {l : Ledger} {history : History} {events expiries : List Event}

/-- The keys that expire are live until then. -/
theorem expired_live (h : Chronicle l history events) {now : Nat} {key : Key}
    (hkey : key ∈ l.expired now) : (history.latest.get? key).isSome := by
  obtain ⟨⟨k, versions⟩, hentry, rfl⟩ := List.mem_map.1 hkey
  obtain ⟨hmem, hexpired⟩ := List.mem_filter.1 hentry
  have hversions : l.versions k = versions := by
    rw [Ledger.versions, KeyMap.mem_entries_iff.1 hmem]
    rfl
  have hbounded := h.bounded k
  rw [hversions] at hbounded
  rw [h.latest_eq, latest, get?_snapshot, hversions, Versions.live?,
    Versions.visible?_of_bounded hbounded]
  cases hlast : versions.getLast? with
  | none => simp [Versions.isExpired, hlast] at hexpired
  | some last =>
    simp only [Versions.isExpired, hlast, Bool.and_eq_true] at hexpired
    simpa using hexpired.1

/-- Deleting keys is one commit of their deletions, or none without keys. -/
theorem deleteKeys (h : Chronicle l history (events ++ expiries)) (targets : List Key) :
    Chronicle (l.deleteKeys expiries targets).ledger (history.commit (targets.map .delete))
      (events ++ (l.deleteKeys expiries targets).events) := by
  cases targets with
  | nil => exact h
  | cons key rest =>
    simp only [Ledger.deleteKeys, ← List.append_assoc]
    exact h.commit (by simp) (amends_eraseAll h.bounded.begin _)

/-- A deletion answers how many keys it has deleted. -/
theorem deleted_deleteKeys (l : Ledger) (expiries : List Event) (targets : List Key) :
    (l.deleteKeys expiries targets).result.deleted = targets.length := by
  cases targets <;> rfl

/-- The deletion of one key commits nothing if the key is not live. -/
theorem delete (h : Chronicle l history events) (now : Nat) (key : Key) :
    let swept := history.commit ((l.expired now).map .delete)
    let change := l.delete now key
    Chronicle change.ledger
      (swept.commit ((Request.delete key false).writes swept.latest (.ok change.result)))
      (events ++ change.events) := by
  intro swept change
  have hswept := h.expire now
  have hchange := hswept.deleteKeys (if ((l.expire now).1.latest? key).isSome then [key] else [])
  have hdeleted : change.result.deleted = _ := deleted_deleteKeys (l.expire now).1 (l.expire now).2
    (if ((l.expire now).1.latest? key).isSome then [key] else [])
  have hwrites : (Request.delete key false).writes swept.latest (.ok change.result) =
      (if ((l.expire now).1.latest? key).isSome then [key] else []).map .delete := by
    simp only [Request.writes, hdeleted]
    split <;> simp
  rw [hwrites]
  exact hchange

/-- The deletion of a stem commits the deletions of the live keys under it. -/
theorem deletePrefix (h : Chronicle l history events) (now : Nat) (stem : Key) :
    let swept := history.commit ((l.expired now).map .delete)
    let change := l.deletePrefix now stem
    Chronicle change.ledger
      (swept.commit ((Request.delete stem true).writes swept.latest (.ok change.result)))
      (events ++ change.events) := by
  intro swept change
  have hswept := h.expire now
  have hchange := hswept.deleteKeys ((l.expire now).1.liveUnder stem)
  have hdeleted : change.result.deleted = _ :=
    deleted_deleteKeys (l.expire now).1 (l.expire now).2 ((l.expire now).1.liveUnder stem)
  have htargets : (l.expire now).1.liveUnder stem = swept.latest.keysUnder stem := by
    rw [liveUnder_eq, hswept.latest_eq]
  have hwrites : (Request.delete stem true).writes swept.latest (.ok change.result) =
      ((l.expire now).1.liveUnder stem).map .delete := by
    simp only [Request.writes, hdeleted, htargets, if_true]
    split
    · next hzero => rw [List.length_eq_zero_iff.1 hzero, List.map_nil]
    · rfl
  rw [hwrites]
  exact hchange

/-- A transaction is one commit of its writes, or none without writes. -/
theorem txn (h : Chronicle l history events) (now : Nat) (writes : List Write) :
    Chronicle (l.txn now writes).ledger
      ((history.commit ((l.expired now).map .delete)).commit writes)
      (events ++ (l.txn now writes).events) := by
  have hswept := h.expire now
  cases writes with
  | nil => exact hswept
  | cons first rest =>
    simp only [Ledger.txn, ← List.append_assoc]
    exact hswept.commit (by simp) (amends_apply hswept.bounded.begin _)

/-- A put is one commit of its value, unless its deadline lies beyond the clock. -/
theorem put (h : Chronicle l history events) {now : Nat} (key : Key) (value : Bytes)
    {ttl : Option Duration} (hclock : (Request.put key value ttl).WithinClock now) :
    let change := l.put now key value ttl
    (∃ revision, change.result = .ok revision) ∧
      Chronicle change.ledger
        ((history.commit ((l.expired now).map .delete)).commit [.put key value])
        (events ++ change.events) := by
  have hswept := h.expire now
  have hcommit (deadline : Option Nat) :=
    hswept.commit (by simp) (amends_write hswept.bounded.begin key value deadline)
  cases ttl with
  | none =>
    simp only [Ledger.put, ← List.append_assoc]
    exact ⟨⟨_, rfl⟩, hcommit none⟩
  | some ttl =>
    obtain ⟨deadline, hdeadline⟩ := Option.ne_none_iff_exists'.1 hclock
    simp only [Ledger.put, hdeadline, ← List.append_assoc]
    exact ⟨⟨_, rfl⟩, hcommit (some deadline)⟩

/-- A put whose deadline lies beyond the clock still takes a revision, at which
nothing is written. -/
theorem put_beyond (h : Chronicle l history events) {now : Nat} (key : Key) (value : Bytes)
    {ttl : Duration} (hclock : deadlineAfter now ttl = none) :
    let change := l.put now key value (some ttl)
    let swept := history.commit ((l.expired now).map .delete)
    Chronicle change.ledger (swept ++ [swept.latest]) (events ++ change.events) := by
  intro change swept
  have hswept := h.expire now
  have hbegun := hswept.extend (Amends.refl hswept.bounded.begin)
  simp only [change, Ledger.put, hclock]
  simpa [Snapshot.writeAll, swept, hswept.latest_eq] using hbegun

end Ledger.Chronicle

end KeyBroker
