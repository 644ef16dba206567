import KeyBroker.Proofs.View.Ledgers

/-!
# One commit instead of many

The writes of a transaction could as well be made by one call each. Then each takes a
revision of its own and leaves a version of its own, while in the transaction a later
write of a key takes the place of the earlier one. Yet what the next write meets is the
same: it looks only at what its key holds. So both ways come to the same values with the
same deadlines, and their events differ in nothing but the revisions.
-/

namespace KeyBroker

/-- Events are alike but for their revisions if nothing but the revisions differs. -/
theorem Event.mirrored_nil_iff {events events' : List Event} :
    Event.Mirrored [] events events' ↔ events.map (·.undated) = events'.map (·.undated) :=
  Iff.rfl

namespace Ledger

variable {l m : Ledger} {now : Nat} {writes : List Write}

/-! ### What is held whether or not its time is over -/

/-- The newest values with their deadlines. -/
def held (l : Ledger) : KeyMap Holding :=
  l.values.filterMap fun v => v.value.map fun value => { value, deadline := v.deadline }

/-- The deadlines of the keys that have one. -/
def deadlines (l : Ledger) : KeyMap Nat := l.held.filterMap (·.deadline)

/-- What a ledger holds under a key is its newest value with the deadline of that value. -/
theorem get?_held (l : Ledger) (key : Key) :
    l.held.get? key = (l.values.get? key).bind fun v =>
      v.value.map fun value => { value, deadline := v.deadline } :=
  KeyMap.get?_filterMap _ _ _

/-- A put makes the ledger hold the new value with its deadline. -/
theorem held_write (l : Ledger) (key : Key) (value : Bytes) (deadline : Option Nat) :
    (l.write key value deadline).1.held = l.held.insert key { value, deadline } := by
  apply KeyMap.ext_get?
  intro k
  rw [get?_held, values_write, KeyMap.get?_insert, get?_held]
  split <;> rfl

/-- A deletion makes the ledger hold nothing under its key. -/
theorem Bounded.held_erase (h : l.Bounded) (key : Key) :
    (l.erase key).1.held = l.held.erase key := by
  apply KeyMap.ext_get?
  intro k
  rw [get?_held, h.values_erase, KeyMap.get?_erase, get?_held]
  split <;> rfl

/-- The latest values are the values that are held. -/
theorem Bounded.plain_latest (h : l.Bounded) :
    l.latest.plain = l.held.filterMap fun holding => some holding.value := by
  apply KeyMap.ext_get?
  intro key
  rw [Snapshot.plain, KeyMap.get?_filterMap, KeyMap.get?_filterMap, ← Ledger.latest?_eq,
    h.latest?_eq, get?_held]
  cases l.values.get? key with
  | none => rfl
  | some v => cases hvalue : v.value <;> simp [hvalue]

/-- Ledgers that hold the same have the same latest values. -/
theorem latest_mirrors (hl : l.Bounded) (hm : m.Bounded) (h : l.held = m.held) :
    Snapshot.Mirrors [] l.latest m.latest := by
  intro key
  have hplain : l.latest.plain.get? key = m.latest.plain.get? key := by
    rw [hl.plain_latest, hm.plain_latest, h]
  rw [Snapshot.plain, Snapshot.plain, KeyMap.get?_filterMap, KeyMap.get?_filterMap] at hplain
  rw [Option.map_eq_bind, Option.map_eq_bind]
  exact hplain

/-- No time is over exactly if no held value has a deadline that has come. -/
theorem swept_iff_held : l.Swept now ↔
    ∀ key holding, l.held.get? key = some holding → holding.deadline.any (· ≤ now) = false := by
  constructor
  · intro hswept key holding hget
    rw [get?_held, Option.bind_eq_some_iff] at hget
    obtain ⟨v, hv, hholding⟩ := hget
    obtain ⟨value, _, rfl⟩ := Option.map_eq_some_iff.1 hholding
    rw [← Bool.not_eq_true]
    intro hdue
    have hmem : key ∈ l.expired now := mem_expired_iff.2 ⟨v, hv, hdue⟩
    rw [hswept] at hmem
    cases hmem
  · intro hheld
    rw [Swept, List.eq_nil_iff_forall_not_mem]
    intro key hmem
    obtain ⟨v, hv, hdue⟩ := mem_expired_iff.1 hmem
    obtain ⟨value, hvalue⟩ := Option.isSome_iff_exists.1 (value_isSome_of_values hv)
    have hget : l.held.get? key = some { value, deadline := v.deadline } := by
      rw [get?_held, hv, Option.bind_some, hvalue]
      rfl
    have hlasts := hheld key _ hget
    rw [hdue] at hlasts
    cases hlasts

/-! ### Writes at whatever revision -/

/-- Writes are applied one after the other. -/
theorem apply_cons (l : Ledger) (w : Write) (rest : List Write) :
    l.apply (w :: rest) = (((l.apply [w]).1.apply rest).1,
      (l.apply [w]).2 ++ ((l.apply [w]).1.apply rest).2) := by
  cases w <;> simp [apply]

/-- What is held after a write follows from what was held before it. -/
theorem held_apply_one (hl : l.Bounded) (hm : m.Bounded) (h : l.held = m.held) (w : Write) :
    (l.apply [w]).1.held = (m.apply [w]).1.held := by
  cases w with
  | put key value =>
    exact (held_write l key value none).trans (h ▸ (held_write m key value none).symm)
  | delete key => exact (hl.held_erase key).trans (h ▸ (hm.held_erase key).symm)

/-- A put without a deadline and a deletion leave no key whose time is over. -/
theorem Swept.apply_one (hswept : l.Swept now) (hbounded : l.Bounded) (w : Write) :
    (l.apply [w]).1.Swept now := by
  rw [swept_iff_held] at hswept ⊢
  intro key holding hget
  cases w with
  | put target value =>
    have hheld : (l.apply [.put target value]).1.held = _ := held_write l target value none
    rw [hheld, KeyMap.get?_insert] at hget
    split at hget
    · rw [← Option.some.inj hget]
      rfl
    · exact hswept key holding hget
  | delete target =>
    have hheld : (l.apply [.delete target]).1.held = _ := hbounded.held_erase target
    rw [hheld, KeyMap.get?_erase] at hget
    split at hget
    · cases hget
    · exact hswept key holding hget

/-- Ledgers that hold the same tell the same of writes. -/
theorem apply_undated (hl : l.Bounded) (hm : m.Bounded) (h : l.held = m.held)
    (writes : List Write) :
    (l.apply writes).2.map (·.undated) = (m.apply writes).2.map (·.undated) := by
  have hmirrored := apply_mirrored hl hm (latest_mirrors hl hm h) writes
  have hinside : writes.map (·.inside []) = writes := by
    refine (List.map_congr_left fun w _ => ?_).trans (List.map_id writes)
    cases w <;> rfl
  rw [hinside] at hmirrored
  exact Event.mirrored_nil_iff.1 hmirrored

/-! ### One call for each write -/

/-- The ledger after a write by a call of its own, and the events of its commits. -/
def single (l : Ledger) (now : Nat) : Write → Ledger × List Event
  | .put key value => l.serve now (.put key value none)
  | .delete key => l.serve now (.delete key false)

/-- The ledger after each write by a call of its own, all at one instant. -/
def singles (l : Ledger) (now : Nat) : List Write → Ledger × List Event
  | [] => (l, [])
  | w :: rest =>
    let (first, events) := l.single now w
    let (last, more) := first.singles now rest
    (last, events ++ more)

/-- When no time is over, letting expired keys go does nothing. -/
theorem Swept.expire_eq (h : l.Swept now) : l.expire now = (l, []) := by
  rw [Swept] at h
  simp only [expire, h]

/-- A call sweeps first. -/
theorem Bounded.single_eq (h : l.Bounded) (now : Nat) (w : Write) :
    l.single now w = (((l.expire now).1.single now w).1,
      (l.expire now).2 ++ ((l.expire now).1.single now w).2) := by
  have hswept := (h.swept_expire now).expire_eq
  cases w with
  | put key value => simp [single, serve, put, hswept]
  | delete key =>
    simp only [single, serve, delete, hswept]
    split <;> simp [deleteKeys]

/-- A call on a swept ledger makes its write there, at a new revision if it has anything to
write. -/
theorem Swept.single_eq (h : l.Swept now) (hbounded : l.Bounded) (w : Write) :
    ∃ begun : Ledger, begun.held = l.held ∧ begun.Bounded ∧ begun.Swept now ∧
      l.single now w = begun.apply [w] := by
  cases w with
  | put key value =>
    refine ⟨l.begin, rfl, hbounded.begin, h, ?_⟩
    simp [single, serve, put, h.expire_eq, apply]
  | delete key =>
    cases hlive : l.latest? key with
    | none =>
      refine ⟨l, rfl, hbounded, h, ?_⟩
      simp [single, serve, delete, h.expire_eq, hlive, deleteKeys, apply, erase]
    | some found =>
      refine ⟨l.begin, rfl, hbounded.begin, h, ?_⟩
      simp [single, serve, delete, h.expire_eq, hlive, deleteKeys, apply, eraseAll]

/-- Writes made at one revision and the same writes made one after the other come to the
same, if they begin with the same. -/
theorem held_singles (hl : l.Bounded) (hm : m.Bounded) (hswept : m.Swept now)
    (h : l.held = m.held) (writes : List Write) :
    (l.apply writes).1.held = (m.singles now writes).1.held ∧
      (l.apply writes).2.map (·.undated) = (m.singles now writes).2.map (·.undated) := by
  induction writes generalizing l m with
  | nil => exact ⟨h, rfl⟩
  | cons w rest ih =>
    obtain ⟨begun, hbegun, hbounded, hbegunSwept, hsingle⟩ := hswept.single_eq hm w
    have hsame : l.held = begun.held := h.trans hbegun.symm
    obtain ⟨hheld, hevents⟩ := ih (amends_apply hl [w]).bounded (amends_apply hbounded [w]).bounded
      (hbegunSwept.apply_one hbounded w) (held_apply_one hl hbounded hsame w)
    have hfirst := apply_undated hl hbounded hsame [w]
    rw [apply_cons]
    simp only [singles, hsingle, List.map_append, hfirst, hevents]
    exact ⟨hheld, trivial⟩

/-- A transaction begins a revision on the swept ledger and writes there. -/
theorem txn_eq (l : Ledger) (now : Nat) (hwrites : writes ≠ []) :
    (l.txn now writes).ledger = ((l.expire now).1.begin.apply writes).1 ∧
      (l.txn now writes).events =
        (l.expire now).2 ++ ((l.expire now).1.begin.apply writes).2 ∧
      (l.txn now writes).result = ((l.expire now).1.begin.apply writes).1.revision := by
  obtain ⟨first, rest, rfl⟩ := List.exists_cons_of_ne_nil hwrites
  exact ⟨rfl, rfl, rfl⟩

/-- A transaction comes to the same as its writes made one after the other, if there are
any. -/
theorem Bounded.held_txn (h : l.Bounded) (now : Nat) (hwrites : writes ≠ []) :
    (l.txn now writes).ledger.held = (l.singles now writes).1.held ∧
      (l.txn now writes).events.map (·.undated) =
        (l.singles now writes).2.map (·.undated) := by
  obtain ⟨hledger, hevents, _⟩ := txn_eq l now hwrites
  obtain ⟨first, rest, rfl⟩ := List.exists_cons_of_ne_nil hwrites
  have hbounded := h.expire now
  obtain ⟨hheld, hundated⟩ := held_singles hbounded.begin hbounded (h.swept_expire now) rfl
    (first :: rest)
  rw [hledger, hevents]
  simp only [singles, h.single_eq now first, List.map_append, List.append_assoc]
  simp only [singles, List.map_append] at hheld hundated
  exact ⟨hheld, by rw [hundated]⟩

/-! ### What a transaction leaves -/

/-- A range pinned at an earlier revision does not see what came later, unless the ledger has
been compacted in between. -/
theorem Later.page_eq {events : List Event} (h : l.Later m events)
    (hcompacted : m.compacted = l.compacted) {query : RangeQuery} {revision : Nat}
    (hpinned : query.revision = some revision) (hle : revision ≤ l.revision) :
    m.page query = l.page query := by
  have hrevision := h.revision
  by_cases hlow : revision < l.compacted
  · simp only [page, hpinned, Option.getD_some, hcompacted, if_pos hlow]
  · rw [Ledger.page_eq m query (by rw [hpinned, Option.getD_some]; omega)
        (by rw [hpinned, Option.getD_some]; omega),
      Ledger.page_eq l query (by rw [hpinned, Option.getD_some]; omega)
        (by rw [hpinned, Option.getD_some]; omega)]
    simp only [hpinned, Option.getD_some]
    rw [h.past revision (by omega) hle]

/-- What writes at one revision can add to the versions of a key: nothing, or one version of
that revision. -/
def Gains (l l' : Ledger) (key : Key) : Prop :=
  l'.versions key = l.versions key ∨
    ∃ v : Version, v.revision = l'.revision ∧ l'.versions key = l.versions key ++ [v]

/-- Recording one more version at the new revision leaves at most one version of that revision. -/
theorem gains_record (hbounded : l.Bounded) (hnew : m.revision = l.revision + 1)
    (h : ∀ k, l.Gains m k) (key : Key) (value : Option Bytes) (deadline : Option Nat) (k : Key) :
    l.Gains (m.record key value deadline) k := by
  unfold Gains
  rw [versions_record]
  split
  · next hk =>
    subst hk
    refine .inr ⟨{ revision := m.revision, value, deadline }, rfl, ?_⟩
    rcases h k with hsame | ⟨v, hv, hone⟩
    · -- all versions there are older, so the new one goes to the end
      rcases Versions.record_eq { revision := m.revision, value, deadline } (m.versions k) with
        heq | ⟨init, last, hlast, hrevision, _⟩
      · rw [heq, hsame]
      · have hold : last.revision ≤ l.revision :=
          hbounded k last (by rw [← hsame, hlast]; exact List.mem_concat_self)
        simp only at hrevision
        omega
    · have hv : v.revision = m.revision := hv
      rw [hone]
      simp [Versions.record, hv]
  · exact h k

/-- Writes at a new revision add at most one version to each key. -/
theorem gains_apply (hbounded : l.Bounded) (hnew : m.revision = l.revision + 1)
    (h : ∀ k, l.Gains m k) (writes : List Write) (k : Key) : l.Gains (m.apply writes).1 k := by
  induction writes generalizing m with
  | nil => exact h k
  | cons w rest ih =>
    cases w with
    | put key value => exact ih hnew (gains_record hbounded hnew h key (some value) none)
    | delete key =>
      cases hlive : m.latest? key with
      | none =>
        simp only [apply, erase, hlive]
        exact ih hnew h
      | some found =>
        simp only [apply, erase, hlive]
        exact ih hnew (gains_record hbounded hnew h key none none)

end Ledger

namespace Snapshot

/-- Writes of other keys leave what a snapshot has of a key. -/
theorem get?_writeAll_of_ne {writes : List Write} {key : Key} (h : ∀ w ∈ writes, w.key ≠ key)
    (revision : Nat) (m : Snapshot) : (m.writeAll revision writes).get? key = m.get? key := by
  induction writes generalizing m with
  | nil => rfl
  | cons first rest ih =>
    have hrest := ih (fun w hw => h w (List.mem_cons_of_mem _ hw)) (m.write revision first)
    have hne : key ≠ first.key := Ne.symm (h first List.mem_cons_self)
    refine hrest.trans ?_
    cases first with
    | put target value => exact (KeyMap.get?_insert _ _ _ _).trans (if_neg hne)
    | delete target => exact (KeyMap.get?_erase _ _ _).trans (if_neg hne)

/-- What writes leave of a key that they are about carries their revision. -/
theorem revision_of_writeAll {writes : List Write} {key : Key} {found : Nat × Bytes}
    (hkey : ∃ w ∈ writes, w.key = key) {revision : Nat} {m : Snapshot}
    (hget : (m.writeAll revision writes).get? key = some found) : found.1 = revision := by
  induction writes generalizing m with
  | nil => simp at hkey
  | cons first rest ih =>
    by_cases hrest : ∃ w ∈ rest, w.key = key
    · exact ih hrest hget
    · -- the first write is the last one of the key
      have hfirst : first.key = key := by
        obtain ⟨w, hw, hwkey⟩ := hkey
        rcases List.mem_cons.1 hw with rfl | hw
        · exact hwkey
        · exact absurd ⟨w, hw, hwkey⟩ hrest
      have hlater : ∀ w ∈ rest, w.key ≠ key := fun w hw heq => hrest ⟨w, hw, heq⟩
      have hone : (m.write revision first).get? key = some found :=
        (get?_writeAll_of_ne hlater revision _).symm.trans hget
      subst hfirst
      cases first with
      | put target value =>
        rw [Snapshot.write, KeyMap.get?_insert, Write.key, if_pos rfl] at hone
        rw [← Option.some.inj hone]
      | delete target =>
        rw [Snapshot.write, KeyMap.get?_erase, Write.key, if_pos rfl] at hone
        cases hone

end Snapshot

end KeyBroker
