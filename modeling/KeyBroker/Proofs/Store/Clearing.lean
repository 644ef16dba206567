import KeyBroker.Proofs.Store.Ranges

/-!
# Clearing a stem

Deleting all keys under a stem comes to the same as listing the stem and deleting what the
list has in one transaction: the same keys are found, though the one looks for live
versions itself and the other is told by the pages of a range. Without keys under the stem
nothing is committed at all.
-/

namespace KeyBroker

/-- What deletions leave of a snapshot. -/
theorem Snapshot.get?_writeAll_delete (revision : Nat) (m : Snapshot) (keys : List Key) (k : Key) :
    (m.writeAll revision (keys.map .delete)).get? k = if k ∈ keys then none else m.get? k := by
  induction keys generalizing m with
  | nil => simp [writeAll]
  | cons key rest ih =>
    refine (ih (m.erase key)).trans ?_
    rw [KeyMap.get?_erase]
    by_cases hmem : k ∈ rest
    · simp [hmem]
    · simp [hmem]

/-- The query for all keys under a stem. -/
def RangeQuery.keysUnder (stem : Key) : RangeQuery := { stem, keysOnly := true }

namespace Ledger

variable {l : Ledger}

/-- The keys listed under a stem are the live ones. -/
theorem keys_due (l : Ledger) (stem : Key) :
    (l.due (.keysUnder stem)).pairs.map (·.key) = l.liveUnder stem := by
  have hkey (pair : KeyValue) : ((RangeQuery.keysUnder stem).shows pair).key = pair.key := rfl
  have hall (pairs : List KeyValue) : (RangeQuery.keysUnder stem).allows pairs = pairs := rfl
  have hstart (key : Key) : (RangeQuery.keysUnder stem).startAfter.all (· < key) = true := rfl
  rw [due, hall, List.map_map, wanted, List.map_map, liveUnder_eq, Snapshot.keysUnder,
    List.filter_map, Snapshot.found]
  simp only [hstart, Bool.and_true]
  rfl

/-- Deleting keys in a commit of their own is a transaction of deletions. -/
theorem deleteKeys_eq (h : l.Bounded) (expiries : List Event) {targets : List Key}
    (htargets : targets ≠ []) :
    l.deleteKeys expiries targets =
      { ledger := (l.begin.apply (targets.map .delete)).1
        events := expiries ++ (l.begin.apply (targets.map .delete)).2
        result := { deleted := targets.length, revision := l.revision + 1 } } := by
  obtain ⟨first, rest, rfl⟩ := List.exists_cons_of_ne_nil htargets
  have hrevision : (l.begin.eraseAll (first :: rest)).1.revision = l.revision + 1 :=
    (amends_eraseAll h.begin (first :: rest)).revision
  simp only [deleteKeys, hrevision]
  rw [eraseAll_eq_apply]

/-- The empty key is never live. -/
theorem Intact.ne_nil_of_latest? (h : l.Intact) {key : Key} {found : Nat × Bytes}
    (hfound : l.latest? key = some found) : key ≠ [] := by
  rw [latest?, Ledger.versions] at hfound
  cases hget : l.keys.get? key with
  | none => simp [hget, Versions.live?, Versions.visible?] at hfound
  | some versions => exact h.named (key, versions) (KeyMap.mem_entries_iff.2 hget)

/-- The ledger `m` is `l` without the keys under a stem. -/
structure Cleared (l m : Ledger) (stem : Key) : Prop where
  later : ∃ events, l.Later m events
  compacted : m.compacted = l.compacted
  spares : ∀ key, ¬ stem <+: key → m.versions key = l.versions key
  gone : ∀ key, stem <+: key → m.latest? key = none

/-- Deleting the live keys under a stem clears it. -/
theorem cleared_deleteKeys (h : l.Bounded) (hfloor : l.compacted ≤ l.revision)
    (expiries : List Event) (stem : Key) :
    l.Cleared (l.deleteKeys expiries (l.liveUnder stem)).ledger stem := by
  have hreflexive : l.Later l [] := .refl hfloor h
  by_cases hnone : l.liveUnder stem = []
  · have hsame : (l.deleteKeys expiries (l.liveUnder stem)).ledger = l := by rw [hnone]; rfl
    rw [hsame]
    refine ⟨⟨_, hreflexive⟩, rfl, fun _ _ => rfl, fun key hstem => ?_⟩
    have hdead : key ∉ l.liveUnder stem := hnone ▸ List.not_mem_nil
    rw [mem_liveUnder, Key.beginsWith_iff] at hdead
    simpa [hstem] using hdead
  · rw [deleteKeys_eq h expiries hnone]
    have hamends := amends_apply h.begin ((l.liveUnder stem).map .delete)
    refine ⟨⟨_, hreflexive.commit hamends⟩, hamends.compacted, fun key hother => ?_,
      fun key hstem => ?_⟩
    · refine versions_apply_of_ne (fun w hw heq => ?_) l.begin
      obtain ⟨target, htarget, rfl⟩ := List.mem_map.1 hw
      have hunder := Key.beginsWith_iff.1 (mem_liveUnder.1 htarget).1
      exact hother (heq ▸ hunder)
    · rw [latest?_eq, hamends.latest, Snapshot.get?_writeAll_delete]
      split
      · rfl
      · next hdead =>
        rw [h.latest_begin, ← latest?_eq]
        rw [mem_liveUnder, Key.beginsWith_iff] at hdead
        simpa [hstem] using hdead

end Ledger

namespace Store

variable {s : Store} {l : Ledger} {now : Nat} {stem : Key}

/-- What clearing a stem at `now` comes to, if these are the keys that a listing finds
there. -/
structure Clears (s : Store) (now : Nat) (stem : Key) (keys : List Key) : Prop where
  /-- They are the keys of a listing without limit. -/
  listed : ∃ page, (s.serve now (.range (.keysUnder stem))).outcome = .ok page ∧
    page.pairs.map (·.key) = keys ∧ page.more = false
  /-- If there are keys, the store is left as by the listing and a transaction with one
  deletion for each of them, its feeds included. -/
  store : keys ≠ [] → (s.serve now (.delete stem true)).store =
    ((s.serve now (.range (.keysUnder stem))).store.serve now (.txn (keys.map .delete))).store
  /-- The events are those of both, in their order. -/
  events : keys ≠ [] → s.events now (.delete stem true) =
    s.events now (.range (.keysUnder stem)) ++
      (s.serve now (.range (.keysUnder stem))).store.events now (.txn (keys.map .delete))
  /-- The answer counts the keys, at the revision of the transaction. -/
  answer : keys ≠ [] → ∃ revision,
    ((s.serve now (.range (.keysUnder stem))).store.serve now
      (.txn (keys.map .delete))).outcome = .ok revision ∧
    (s.serve now (.delete stem true)).outcome = .ok { deleted := keys.length, revision } ∧
    revision = (s.ledger.expire now).1.revision + 1
  /-- Without keys, the call does no more than the listing: it lets go of the keys whose time
  is over, and answers with the revision that there is. -/
  idle : keys = [] →
    (s.serve now (.delete stem true)).store =
      (s.serve now (.range (.keysUnder stem))).store ∧
    (s.serve now (.delete stem true)).store.ledger = (s.ledger.expire now).1 ∧
    s.events now (.delete stem true) = (s.ledger.expire now).2 ∧
    (s.serve now (.delete stem true)).outcome =
      .ok { deleted := 0, revision := (s.ledger.expire now).1.revision }
  /-- Other keys keep the versions that the sweep left them. -/
  spares : ∀ key, ¬ stem <+: key →
    (s.serve now (.delete stem true)).store.ledger.versions key =
      (s.ledger.expire now).1.versions key
  /-- They keep all their versions if their time is not over. -/
  lasting : ∀ key, ¬ stem <+: key → key ∉ s.ledger.expired now →
    (s.serve now (.delete stem true)).store.ledger.versions key = s.ledger.versions key
  /-- No key under the stem is live any more. -/
  gone : ∀ key, stem <+: key →
    (s.serve now (.delete stem true)).store.ledger.latest? key = none
  /-- A range pinned below the revision of the deletions is answered, at any time, as if there
  had been only the sweep. -/
  past : ∀ later query at', query.revision = some at' →
    at' ≤ (s.ledger.expire now).1.revision →
    ((s.serve now (.delete stem true)).store.serve later (.range query)).outcome =
      ((s.serve now (.range (.keysUnder stem))).store.serve later (.range query)).outcome
  /-- At the same time, it is answered as it would have been without the call. -/
  present : ∀ query at', query.revision = some at' →
    at' ≤ (s.ledger.expire now).1.revision →
    ((s.serve now (.delete stem true)).store.serve now (.range query)).outcome =
      (s.serve now (.range query)).outcome
  /-- Pinned at a revision from before the call, this holds at any time. -/
  old : ∀ later query at', query.revision = some at' → at' ≤ s.ledger.revision →
    ((s.serve now (.delete stem true)).store.serve later (.range query)).outcome =
      (s.serve later (.range query)).outcome

/-- The keys under a stem are deleted in one commit behind the sweep. -/
theorem serve_clear (hreachable : s.refusal = none) (now : Nat) (stem : Key) :
    let swept := (s.ledger.expire now).1
    let change := swept.deleteKeys (s.ledger.expire now).2 (swept.liveUnder stem)
    (s.serve now (.delete stem true)).store =
        Store.emitAll { s with ledger := change.ledger } change.events ∧
      s.events now (.delete stem true) = change.events ∧
      (s.serve now (.delete stem true)).outcome = .ok change.result := by
  have hanswers := answers_of_refusal_none hreachable (.delete stem true) rfl
  rw [events, if_pos hanswers, serve_of_answers now hanswers fun h => by cases h]
  exact ⟨rfl, rfl, rfl⟩

/-- A range on a store that can be reached lets expired keys go, and does nothing else. -/
theorem serve_sweep (hreachable : s.refusal = none) (now : Nat) (query : RangeQuery) :
    (s.serve now (.range query)).store =
        Store.emitAll { s with ledger := (s.ledger.expire now).1 } (s.ledger.expire now).2 ∧
      s.events now (.range query) = (s.ledger.expire now).2 := by
  have hanswers := answers_of_refusal_none hreachable (.range query) rfl
  rw [events, if_pos hanswers, serve_of_answers now hanswers fun h => by cases h]
  exact ⟨rfl, rfl⟩

/-- A transaction on a store without anything to let go of is one commit. -/
theorem serve_txn_swept (hreachable : s.refusal = none) (hswept : s.ledger.Swept now)
    {writes : List Write} (hwrites : writes ≠ []) (hkeys : ∀ w ∈ writes, w.key ≠ []) :
    (s.serve now (.txn writes)).store =
        Store.emitAll { s with ledger := (s.ledger.begin.apply writes).1 }
          (s.ledger.begin.apply writes).2 ∧
      s.events now (.txn writes) = (s.ledger.begin.apply writes).2 ∧
      (s.serve now (.txn writes)).outcome = .ok (s.ledger.begin.apply writes).1.revision := by
  obtain ⟨hledger, houtcome, hevents⟩ := serve_txn hreachable now hkeys
  obtain ⟨hcommit, hown, hresult⟩ := Ledger.txn_eq s.ledger now hwrites
  simp only [hswept.expire_eq, List.nil_append] at hcommit hown hresult
  obtain ⟨ledger, hstore⟩ := serve_eq_emitAll s now (.txn writes) (by simp) (by simp)
  have hsame : ledger = (s.ledger.begin.apply writes).1 := by
    rw [← hcommit, ← hledger, hstore, ledger_emitAll]
  refine ⟨?_, hevents.trans hown, houtcome.trans (by rw [hresult])⟩
  rw [hstore, hsame, hevents, hown]

/-- A range pinned at the revision of an earlier ledger, or below, is answered from it, unless
there has been a compaction in between. -/
theorem outcome_of_later {events : List Event} (hlater : l.Later s.ledger events)
    (hcompacted : s.ledger.compacted = l.compacted) (hreachable : s.refusal = none)
    (later : Nat) {query : RangeQuery} {at' : Nat} (hpinned : query.revision = some at')
    (hle : at' ≤ l.revision) : (s.serve later (.range query)).outcome = l.page query := by
  rw [outcome_range hreachable]
  refine (hlater.expire later).page_eq ?_ hpinned hle
  rw [hlater.bounded.compacted_expire, hcompacted]

/-- If there are keys under the stem, the deletion agrees with the listing and the
transaction. -/
theorem clear_eq_txn (hreachable : s.refusal = none) (hbounded : s.ledger.Bounded)
    (hnamed : ∀ key ∈ (s.ledger.expire now).1.liveUnder stem, key ≠ [])
    (hkeys : (s.ledger.expire now).1.liveUnder stem ≠ []) :
    let keys := (s.ledger.expire now).1.liveUnder stem
    let listed := (s.serve now (.range (.keysUnder stem))).store
    (s.serve now (.delete stem true)).store = (listed.serve now (.txn (keys.map .delete))).store ∧
      s.events now (.delete stem true) =
        s.events now (.range (.keysUnder stem)) ++ listed.events now (.txn (keys.map .delete)) ∧
      (listed.serve now (.txn (keys.map .delete))).outcome =
        .ok ((s.ledger.expire now).1.revision + 1) ∧
      (s.serve now (.delete stem true)).outcome =
        .ok { deleted := keys.length, revision := (s.ledger.expire now).1.revision + 1 } := by
  intro keys listed
  have hswept := hbounded.expire now
  have hsweeps : s.Sweeps now (s.ledger.expire now).1 :=
    ⟨hreachable, rfl, hbounded.swept_expire now⟩
  have hlisted := hsweeps.range (.keysUnder stem)
  have hledger : listed.ledger = (s.ledger.expire now).1 := hsweeps.ledger_range (.keysUnder stem)
  obtain ⟨hstore, hevents, houtcome⟩ := serve_clear hreachable now stem
  obtain ⟨hsweep, hexpiries⟩ := serve_sweep hreachable now (.keysUnder stem)
  have hwrites : keys.map Write.delete ≠ [] := by simpa using hkeys
  obtain ⟨hcommit, hown, hanswer⟩ := serve_txn_swept hlisted.reachable (hledger ▸ hsweeps.swept)
    hwrites (by simpa [Write.key] using hnamed)
  rw [Ledger.deleteKeys_eq hswept _ hkeys] at hstore hevents houtcome
  rw [hledger] at hcommit hown hanswer
  refine ⟨?_, ?_, ?_, houtcome⟩
  · -- the events of the sweep are sent first either way
    rw [hstore, hcommit, hsweep]
    simp only [emitAll_append, emitAll_withLedger, keys]
  · rw [hevents, hexpiries, hown]
  · rw [hanswer, (Ledger.amends_apply hswept.begin _).revision]
    rfl

/-- The keys that are listed under a stem are those that are live after the sweep. -/
theorem Sweeps.lists_keys (h : s.Sweeps now l) (hfloor : l.compacted ≤ l.revision) (stem : Key) :
    ∃ page, (s.serve now (.range (.keysUnder stem))).outcome = .ok page ∧
      page.pairs.map (·.key) = l.liveUnder stem ∧ page.more = false := by
  have hpage := (h.outcome_range (.keysUnder stem)).trans
    (Ledger.page_of_readable hfloor (Nat.le_refl _))
  exact ⟨_, hpage, Ledger.keys_due _ stem, decide_eq_false (Nat.lt_irrefl _)⟩

/-- What the deletion leaves is what the sweep leaves, without the keys under the stem. -/
theorem cleared_serve (hreachable : s.refusal = none) (hswept : (s.ledger.expire now).1.Bounded)
    (hfloor : (s.ledger.expire now).1.compacted ≤ (s.ledger.expire now).1.revision) (stem : Key) :
    (s.ledger.expire now).1.Cleared (s.serve now (.delete stem true)).store.ledger stem := by
  obtain ⟨hstore, -, -⟩ := serve_clear hreachable now stem
  rw [hstore, ledger_emitAll]
  exact Ledger.cleared_deleteKeys hswept hfloor (s.ledger.expire now).2 stem

/-- Deleting a stem agrees with listing it and with deleting the listed keys in a
transaction. -/
theorem clears_as_listed (acts : List Act) (now : Nat) (stem : Key)
    (hreachable : (after {} acts).refusal = none) :
    ∃ keys, (after {} acts).Clears now stem keys := by
  have hlater := later_after (s := {}) Ledger.later_new acts
  have hintact := (Intact.empty.after acts).ledger.expire now
  generalize after {} acts = s at hreachable hlater hintact ⊢
  have hbounded := hlater.bounded
  have hswept := hbounded.expire now
  have hreflexive : s.ledger.Later s.ledger [] := .refl hlater.floor hbounded
  have hsweeps : s.Sweeps now (s.ledger.expire now).1 :=
    ⟨hreachable, rfl, hbounded.swept_expire now⟩
  have hlisted := hsweeps.range (.keysUnder stem)
  have hstill : (s.serve now (.delete stem true)).store.refusal = none :=
    (refusal_serve s now (.delete stem true) (by simp)).trans hreachable
  -- a listed key is not empty, so the transaction of deletions is not refused
  have hnamed : ∀ key ∈ (s.ledger.expire now).1.liveUnder stem, key ≠ [] := by
    intro key hkey
    obtain ⟨found, hfound⟩ := Option.isSome_iff_exists.1 (Ledger.mem_liveUnder.1 hkey).2
    exact hintact.ne_nil_of_latest? hfound
  have hagrees := clear_eq_txn hreachable hbounded hnamed
  obtain ⟨hstore, hevents, houtcome⟩ := serve_clear hreachable now stem
  obtain ⟨hsweep, hexpiries⟩ := serve_sweep hreachable now (.keysUnder stem)
  have hcleared := cleared_serve hreachable hswept hintact.floor stem
  have hsame : (s.ledger.expire now).1.compacted = s.ledger.compacted :=
    hbounded.compacted_expire now
  obtain ⟨events, hlast⟩ := hcleared.later
  refine ⟨(s.ledger.expire now).1.liveUnder stem, ?_⟩
  constructor
  case listed => exact hsweeps.lists_keys hintact.floor stem
  case store => exact fun hkeys => (hagrees hkeys).1
  case events => exact fun hkeys => (hagrees hkeys).2.1
  case answer =>
    intro hkeys
    obtain ⟨-, -, htxn, hdelete⟩ := hagrees hkeys
    exact ⟨_, htxn, hdelete, rfl⟩
  case idle =>
    intro hnone
    rw [hnone] at hstore hevents houtcome
    refine ⟨hstore.trans hsweep.symm, ?_, hevents, houtcome⟩
    rw [hstore, ledger_emitAll]
    rfl
  case spares => exact hcleared.spares
  case lasting =>
    intro key hother hlasts
    rw [hcleared.spares key hother, Ledger.versions_expire_of_not_expired hlasts]
  case gone => exact hcleared.gone
  -- reads of the past are answered alike, as both stores are later than the swept ledger
  case past =>
    intro later query at' hpinned hle
    have hlisting : (s.ledger.expire now).1.Later
        (s.serve now (.range (.keysUnder stem))).store.ledger [] := by
      rw [hsweeps.ledger_range]
      exact .refl hintact.floor hswept
    rw [outcome_of_later hlast hcleared.compacted hstill later hpinned hle,
      outcome_of_later hlisting (by rw [hsweeps.ledger_range]) hlisted.reachable later hpinned hle]
  case present =>
    intro query at' hpinned hle
    rw [outcome_of_later hlast hcleared.compacted hstill now hpinned hle,
      hsweeps.outcome_range]
  case old =>
    intro later query at' hpinned hle
    have hsince := later_serve hreflexive now (.delete stem true)
    rw [outcome_of_later hsince (hcleared.compacted.trans hsame) hstill later hpinned hle,
      outcome_of_later hreflexive rfl hreachable later hpinned hle]

/-- The stem holds a deleted key and one whose time is over, and its neighbours on both sides
live on. -/
theorem clears_as_listed_among :
    let acts : List Act := [.serve 0 (.watch ['a']), .serve 0 (.put ['a'] [1] none),
      .serve 0 (.put ['a', '/', 'x'] [2] none), .serve 0 (.put ['a', '/', 'y'] [3] (some ⟨5⟩)),
      .serve 0 (.put ['a', '/', 'z'] [4] none), .serve 0 (.put ['a', '0'] [5] none),
      .serve 1 (.delete ['a', '/', 'x'] false)]
    (after {} acts).refusal = none ∧
      ((after {} acts).serve 9 (.delete ['a', '/'] true)).outcome =
        .ok { deleted := 1, revision := 8 } ∧
      ∃ keys, (after {} acts).Clears 9 ['a', '/'] keys := by
  intro acts
  have hreachable : (after {} acts).refusal = none := by decide
  exact ⟨hreachable, by decide +kernel, clears_as_listed acts 9 ['a', '/'] hreachable⟩

end Store

end KeyBroker
