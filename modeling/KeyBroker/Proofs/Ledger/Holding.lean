import KeyBroker.Proofs.Ledger.Compaction
import KeyBroker.Proofs.Store.Act

/-!
# What keys hold at an instant

A key holds its newest value until that is deleted or its time is over. Sweeping the keys
whose time is over changes nothing of this, and since every call sweeps first, what keys
hold at an instant is all that the calls made then go by: it tells what each of them
answers and what keys hold after it.
-/

namespace KeyBroker

/-- A value with the instant at which its time is over, if it ever is. -/
structure Holding where
  value : Bytes
  deadline : Option Nat
  deriving DecidableEq, Repr

/-- What all keys hold. -/
abbrev Holdings := Key → Option Holding

/-- What is held at `now`, unless its time is over. -/
def Holding.lasts (now : Nat) (h : Holding) : Option Holding :=
  if h.deadline.any (· ≤ now) then none else some h

/-- What a version that is a value makes a key hold. -/
def Version.holding (now : Nat) (v : Version) : Option Holding :=
  v.value.bind fun value => Holding.lasts now { value, deadline := v.deadline }

/-- What keys hold at an instant. -/
def Ledger.holdings (l : Ledger) (now : Nat) : Holdings :=
  fun key => (l.values.get? key).bind (Version.holding now)

namespace Holdings

/-- What keys hold after a write without a deadline. -/
def write (held : Holdings) : Write → Holdings
  | .put key value => fun k => if k = key then some { value, deadline := none } else held k
  | .delete key => fun k => if k = key then none else held k

/-- What keys hold after writes in order. -/
def writeAll (held : Holdings) (writes : List Write) : Holdings := writes.foldl write held

/-- Deletions take away what the deleted keys hold. -/
theorem writeAll_delete (held : Holdings) (keys : List Key) (k : Key) :
    held.writeAll (keys.map .delete) k = if k ∈ keys then none else held k := by
  induction keys generalizing held with
  | nil => simp [writeAll]
  | cons key rest ih =>
    have hrest := ih (held.write (.delete key))
    simp only [List.map_cons, writeAll, List.foldl_cons] at hrest ⊢
    rw [hrest]
    by_cases hmem : k ∈ rest
    · simp [hmem]
    · by_cases hk : k = key <;> simp [write, hmem, hk]

end Holdings

/-- What a request made at `now` makes of what keys hold. -/
def Request.effect (now : Nat) {service : Service} (request : Request service) (held : Holdings) :
    Holdings :=
  match request with
  | .put key value none => held.write (.put key value)
  | .put key value (some ttl) =>
    match deadlineAfter now ttl with
    | some deadline => fun k =>
      if k = key then Holding.lasts now { value, deadline := some deadline } else held k
    | none => held
  | .delete key false => held.write (.delete key)
  | .delete stem true => fun k => if stem.beginsWith k then none else held k
  | .txn writes => held.writeAll writes
  | _ => held

namespace Ledger

variable {l : Ledger} {now later : Nat}

/-! ### Time -/

/-- What a version makes a key hold later is what it makes it hold now, unless its time is over by
then. -/
theorem holding_later (h : now ≤ later) (v : Version) :
    v.holding later = (v.holding now).bind (Holding.lasts later) := by
  unfold Version.holding Holding.lasts
  cases v.value with
  | none => rfl
  | some value =>
    cases v.deadline with
    | none => rfl
    | some deadline =>
      simp only [Option.bind_some, Option.any_some]
      by_cases hnow : deadline ≤ now
      · have hlater : deadline ≤ later := Nat.le_trans hnow h
        simp [hnow, hlater]
      · simp [hnow]

/-- Later a key holds what it holds now, or its time is over. -/
theorem holdings_later (h : now ≤ later) (l : Ledger) (key : Key) :
    l.holdings later key = (l.holdings now key).bind (Holding.lasts later) := by
  unfold holdings
  rw [Option.bind_assoc]
  congr 1
  funext v
  exact holding_later h v

/-! ### The newest values -/

/-- What is live now is the newest values. -/
theorem Bounded.latest?_eq (h : l.Bounded) (key : Key) :
    l.latest? key = (l.values.get? key).bind fun v => v.value.map (v.revision, ·) := by
  rw [latest?, Versions.live?, Versions.visible?_of_bounded (h key), get?_values, Versions.newest]
  cases (l.versions key).getLast? with
  | none => rfl
  | some last => cases hvalue : last.value <;> simp [Option.filter, hvalue]

/-- Only values are among the newest values, no deletions. -/
theorem value_isSome_of_values {key : Key} {v : Version} (h : l.values.get? key = some v) :
    v.value.isSome = true := by
  rw [get?_values, Versions.newest, Option.filter_eq_some_iff] at h
  exact h.2

/-- A deletion takes the newest value of its key away and no other. -/
theorem Bounded.values_erase (h : l.Bounded) (key k : Key) :
    (l.erase key).1.values.get? k = if k = key then none else l.values.get? k := by
  unfold erase
  cases hlive : l.latest? key with
  | some found =>
    simp only [values_record]
    split
    · simp [Option.filter]
    · rfl
  | none =>
    simp only
    split
    · next hk =>
      rw [hk]
      rw [h.latest?_eq] at hlive
      cases hv : l.values.get? key with
      | none => rfl
      | some v =>
        obtain ⟨value, hvalue⟩ := Option.isSome_iff_exists.1 (value_isSome_of_values hv)
        simp [hv, hvalue] at hlive
    · rfl

/-- A put makes its version the newest value of its key and touches no other. -/
theorem values_write (l : Ledger) (key k : Key) (value : Bytes) (deadline : Option Nat) :
    (l.write key value deadline).1.values.get? k =
      if k = key then some { revision := l.revision, value := some value, deadline }
      else l.values.get? k := by
  rw [write, values_record]
  split <;> simp [Option.filter]

/-- After a put its key holds the value as long as its time is not over, and all others what they
held. -/
theorem holdings_write (l : Ledger) (key : Key) (value : Bytes) (deadline : Option Nat) (k : Key) :
    (l.write key value deadline).1.holdings now k =
      if k = key then Holding.lasts now { value, deadline } else l.holdings now k := by
  rw [holdings, values_write]
  split <;> rfl

/-- Writes make the keys hold what they say. -/
theorem Bounded.holdings_apply (h : l.Bounded) (writes : List Write) :
    (l.apply writes).1.holdings now = (l.holdings now).writeAll writes := by
  induction writes generalizing l with
  | nil => rfl
  | cons first rest ih =>
    cases first with
    | put key value =>
      have hrest := ih (h.record key (some value) none)
      simp only [apply, Holdings.writeAll, List.foldl_cons] at hrest ⊢
      refine hrest.trans ?_
      congr 1
      funext k
      exact holdings_write l key value none k
    | delete key =>
      have hrest := ih (amends_erase h key).bounded
      simp only [apply, Holdings.writeAll, List.foldl_cons] at hrest ⊢
      rw [hrest]
      congr 1
      funext k
      simp only [holdings, h.values_erase, Holdings.write]
      split <;> rfl

/-- After the deletion of keys they hold nothing, and all others what they held. -/
theorem Bounded.holdings_eraseAll (h : l.Bounded) (keys : List Key) (k : Key) :
    (l.eraseAll keys).1.holdings now k = if k ∈ keys then none else l.holdings now k := by
  rw [eraseAll_eq_apply, h.holdings_apply, Holdings.writeAll_delete]

/-! ### Sweeping -/

/-- A key is expired if its newest value has a deadline that has come. -/
theorem mem_expired_iff {key : Key} :
    key ∈ l.expired now ↔
      ∃ v, l.values.get? key = some v ∧ v.deadline.any (· ≤ now) = true := by
  rw [expired_eq]
  simp only [List.mem_map, List.mem_filter]
  constructor
  · rintro ⟨⟨k, v⟩, ⟨hmem, hdue⟩, rfl⟩
    exact ⟨v, KeyMap.mem_entries_iff.1 hmem, hdue⟩
  · rintro ⟨v, hget, hdue⟩
    exact ⟨(key, v), ⟨KeyMap.mem_entries_iff.2 hget, hdue⟩, rfl⟩

/-- A key whose time is over holds nothing. -/
theorem holdings_of_expired {key : Key} (h : key ∈ l.expired now) : l.holdings now key = none := by
  obtain ⟨v, hget, hdue⟩ := mem_expired_iff.1 h
  rw [holdings, hget, Option.bind_some, Version.holding]
  cases v.value with
  | none => rfl
  | some value => simp [Holding.lasts, hdue]

/-- Letting expired keys go leaves no version newer than the ledger. -/
theorem Bounded.expire (h : l.Bounded) (now : Nat) : (l.expire now).1.Bounded := by
  unfold Ledger.expire
  split
  · exact h
  · exact (amends_eraseAll h.begin _).bounded

/-- Deleting keys takes their newest values away and no others. -/
theorem Bounded.values_eraseAll (h : l.Bounded) (keys : List Key) (k : Key) :
    (l.eraseAll keys).1.values.get? k = if k ∈ keys then none else l.values.get? k := by
  induction keys generalizing l with
  | nil => simp [eraseAll]
  | cons key rest ih =>
    have hrest := ih (amends_erase h key).bounded
    simp only [eraseAll]
    rw [hrest, h.values_erase]
    by_cases hk : k = key <;> by_cases hmem : k ∈ rest <;> simp [hk, hmem]

/-- A sweep takes the values whose time is over. -/
theorem Bounded.values_expire (h : l.Bounded) (now : Nat) (k : Key) :
    (l.expire now).1.values.get? k = if k ∈ l.expired now then none else l.values.get? k := by
  unfold Ledger.expire
  cases hexpired : l.expired now with
  | nil => simp
  | cons key rest => exact h.begin.values_eraseAll (key :: rest) k

/-- A sweep changes nothing of what keys hold. -/
theorem Bounded.holdings_expire (h : l.Bounded) (hle : now ≤ later) :
    (l.expire now).1.holdings later = l.holdings later := by
  funext k
  rw [holdings_later hle, holdings_later hle l]
  congr 1
  rw [holdings, h.values_expire]
  split
  · next hmem => rw [holdings_of_expired hmem]; rfl
  · rfl

/-- No key has a time that is over. -/
def Swept (l : Ledger) (now : Nat) : Prop := l.expired now = []

/-- Once expired keys were let go no key has a time that is over. -/
theorem Bounded.swept_expire (h : l.Bounded) (now : Nat) : (l.expire now).1.Swept now := by
  rw [Swept, List.eq_nil_iff_forall_not_mem]
  intro key hmem
  obtain ⟨v, hget, hdue⟩ := mem_expired_iff.1 hmem
  rw [h.values_expire] at hget
  split at hget
  · cases hget
  · next hnot => exact hnot (mem_expired_iff.2 ⟨v, hget, hdue⟩)

/-- In a swept ledger keys hold their newest values. -/
theorem Swept.holdings_eq (hswept : l.Swept now) (key : Key) :
    l.holdings now key = (l.values.get? key).bind fun v =>
      v.value.map fun value => { value, deadline := v.deadline } := by
  rw [holdings]
  cases hget : l.values.get? key with
  | none => rfl
  | some v =>
    have hlasts : v.deadline.any (· ≤ now) = false := by
      cases hdue : v.deadline.any (· ≤ now) with
      | false => rfl
      | true =>
        have hmem : key ∈ l.expired now := mem_expired_iff.2 ⟨v, hget, hdue⟩
        rw [hswept] at hmem
        cases hmem
    simp only [Option.bind_some, Version.holding, Holding.lasts, hlasts]
    cases v.value <;> rfl

/-- The latest value of a key in a swept ledger is the one that it holds. -/
theorem Swept.latest?_eq (hswept : l.Swept now) (hbounded : l.Bounded) (key : Key) :
    (l.latest? key).map (·.2) = (l.holdings now key).map (·.value) := by
  rw [hbounded.latest?_eq, hswept.holdings_eq]
  cases l.values.get? key with
  | none => rfl
  | some v => cases hvalue : v.value <;> simp [hvalue]

/-- When no time is over, a key has a latest value exactly if it holds one. -/
theorem Swept.isSome_latest? (hswept : l.Swept now) (hbounded : l.Bounded) (key : Key) :
    (l.latest? key).isSome = (l.holdings now key).isSome := by
  have hsame := congrArg Option.isSome (hswept.latest?_eq hbounded key)
  simpa only [Option.isSome_map] using hsame

/-! ### Requests -/

/-- Deleting the targets that are live deletes all of them. -/
theorem Bounded.holdings_deleteKeys (h : l.Bounded) (expiries : List Event) (targets : List Key)
    (k : Key) :
    (l.deleteKeys expiries targets).ledger.holdings now k =
      if k ∈ targets then none else l.holdings now k := by
  cases targets with
  | nil => simp [deleteKeys]
  | cons key rest => exact h.begin.holdings_eraseAll (key :: rest) k

/-- The live keys under a stem are those that begin with it and have a latest value. -/
theorem mem_liveUnder {stem key : Key} :
    key ∈ l.liveUnder stem ↔ stem.beginsWith key = true ∧ (l.latest? key).isSome = true := by
  rw [liveUnder_eq, Snapshot.keysUnder, List.mem_filter, latest?_eq, List.mem_map]
  constructor
  · rintro ⟨⟨⟨k, a⟩, hmem, rfl⟩, hstem⟩
    refine ⟨hstem, ?_⟩
    rw [KeyMap.mem_entries_iff.1 hmem]
    rfl
  · rintro ⟨hstem, hlive⟩
    obtain ⟨a, ha⟩ := Option.isSome_iff_exists.1 hlive
    exact ⟨⟨(key, a), KeyMap.mem_entries_iff.2 ha, rfl⟩, hstem⟩

/-- A put makes of what keys hold what its request is to make of it. -/
theorem Bounded.holdings_put (h : l.Bounded) (now : Nat) (key : Key) (value : Bytes)
    (ttl : Option Duration) :
    (l.put now key value ttl).ledger.holdings now =
      (Request.put key value ttl).effect now (l.holdings now) := by
  have hswept := h.holdings_expire (Nat.le_refl now)
  funext k
  rw [← hswept]
  cases ttl with
  | none => exact holdings_write _ key value none k
  | some ttl =>
    simp only [put, Request.effect]
    cases deadlineAfter now ttl with
    | none => rfl
    | some deadline => exact holdings_write _ key value (some deadline) k

/-- What keys hold after a request follows from what they held before it. -/
theorem Bounded.holdings_serve (h : l.Bounded) (now : Nat) {service : Service}
    (request : Request service) :
    (l.serve now request).1.holdings now = request.effect now (l.holdings now) := by
  have hswept := h.holdings_expire (Nat.le_refl now)
  have hbounded := h.expire now
  have hlive := (h.swept_expire now).isSome_latest? hbounded
  cases request with
  | put key value ttl => exact h.holdings_put now key value ttl
  | get key => exact hswept
  | range query => exact hswept
  | watch stem => rfl
  | close => rfl
  | txn writes =>
    simp only [serve, txn, Request.effect]
    rw [← hswept]
    cases writes with
    | nil => rfl
    | cons first rest => exact hbounded.begin.holdings_apply (first :: rest)
  | delete key under =>
    funext k
    cases under with
    | false =>
      simp only [serve, delete, Request.effect, Holdings.write]
      rw [hbounded.holdings_deleteKeys, ← hswept]
      -- deleting a key that is not live writes nothing, but then it held nothing either
      cases hkey : ((l.expire now).1.latest? key).isSome with
      | true => simp
      | false =>
        rw [hlive] at hkey
        by_cases hk : k = key
        · subst hk
          simpa using hkey
        · simp [hk]
    | true =>
      simp only [serve, deletePrefix, Request.effect]
      rw [hbounded.holdings_deleteKeys, ← hswept]
      cases hstem : key.beginsWith k with
      | false =>
        have hnot : k ∉ (l.expire now).1.liveUnder key := fun hmem => by
          simp [mem_liveUnder, hstem] at hmem
        simp [hnot]
      | true =>
        split
        · rfl
        · next hnot =>
          rw [mem_liveUnder, hstem, hlive] at hnot
          simpa using hnot

end Ledger

end KeyBroker
