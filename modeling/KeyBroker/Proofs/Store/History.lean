import KeyBroker.Proofs.Store.Record

/-!
# The history of a store

A store is a versioned map. Every run from a new store has one history, with one
snapshot for each revision, and everything the run answers is read off it: a
single key from the newest snapshot of that time, a range from the snapshot of
the revision it is pinned at. The history grows by the commits of the requests
and of the expired keys before them, and by nothing else.
-/

namespace KeyBroker

open Ledger (Chronicle)

namespace Store

/-- The keys that expire when the store is asked a request. -/
def expiring (s : Store) (now : Nat) {service : Service} (request : Request service) : List Key :=
  if s.answers request && request.sweeps then s.ledger.expired now else []

/-- The deadlines of an act lie within the range of the clock. -/
def Act.WithinClock : Act → Prop
  | .serve now request => request.WithinClock now
  | _ => True

/-- The history after an act on a store: first the expired keys go, then the request
commits what it writes. -/
def Act.record (s : Store) (history : History) : Act → History
  | .serve now request =>
    let swept := history.commit ((s.expiring now request).map .delete)
    swept.commit (request.writes swept.latest (s.serve now request).outcome)
  | _ => history

/-- What an act on a store shows of a history, which may go on after it. -/
structure Recorded (history : History) (s : Store) (act : Act) : Prop where
  /-- Up to its present revision, the history is the one before the act with the
  commits of the act. -/
  grows : history.upTo (s.act act).ledger.revision =
    act.record s (history.upTo s.ledger.revision)
  /-- Only live keys expire. -/
  expires : ∀ now service (request : Request service), act = .serve now request →
    ∀ key ∈ s.expiring now request,
      ((history.upTo s.ledger.revision).latest.get? key).isSome
  /-- A commit answers with its own revision, the present one. -/
  dates : ∀ now service (request : Request service), act = .serve now request →
    ∀ revision, request.revision? (s.serve now request).outcome = some revision →
      revision = (s.act act).ledger.revision
  /-- A single key is read in the newest snapshot. -/
  gets : ∀ now key, act = .serve now (.get key) → s.refusal = none →
    ∃ latest, history[(s.act act).ledger.revision]? = some latest ∧
      (s.serve now (.get key)).outcome =
        .ok ((latest.get? key).map fun (revision, value) => { key, value, revision })
  /-- A range is read in the snapshot of its revision, as long as that lies between the
  compaction point and the present. -/
  ranges : ∀ now query, act = .serve now (.range query) → s.refusal = none →
    let revision := query.revision.getD (s.act act).ledger.revision
    (s.act act).ledger.compacted ≤ revision → revision ≤ (s.act act).ledger.revision →
      ∃ snapshot, history[revision]? = some snapshot ∧
        (s.serve now (.range query)).outcome = .ok (snapshot.page revision query)

/-! ### One act -/

variable {s : Store} {history later : History} {events : List Event} {act : Act}

/-- The keys that expire on a request that is carried out are the expired keys of the ledger. -/
theorem expiring_of_answers {now : Nat} {service : Service} {request : Request service}
    (hanswers : s.answers request = true) (hsweeps : request.sweeps = true) :
    s.expiring now request = s.ledger.expired now := by
  rw [expiring, hanswers, hsweeps]
  rfl

/-- A request extends the chronicle by the commits that the record names. -/
theorem chronicle_serve (h : Chronicle s.ledger history events) {now : Nat} {service : Service}
    {request : Request service} (hclock : request.WithinClock now) :
    Chronicle (s.serve now request).store.ledger (Act.record s history (.serve now request))
      (events ++ s.events now request) := by
  cases hanswers : s.answers request with
  | false =>
    obtain ⟨error, heq⟩ := serve_of_not_answers now hanswers
    simpa [Act.record, expiring, Store.events, hanswers, heq, History.commit_nil,
      Request.writes_failed] using h
  | true =>
    rw [ledger_serve, if_pos hanswers, Store.events, if_pos hanswers]
    by_cases hclose : service = .close
    · subst hclose
      cases request
      simpa [Act.record, expiring, Request.sweeps, Request.writes, Ledger.serve,
        History.commit_nil] using h
    have hserve := serve_of_answers now hanswers fun h => absurd h hclose
    rw [Act.record, hserve]
    cases request with
    | put key value ttl =>
      obtain ⟨⟨revision, hresult⟩, hput⟩ := h.put key value hclock
      have houtcome : (s.perform now (.put key value ttl)).outcome = .ok revision := hresult
      rw [expiring_of_answers hanswers rfl, houtcome]
      exact hput
    | get key =>
      rw [expiring_of_answers hanswers rfl]
      exact h.expire now
    | delete key under =>
      rw [expiring_of_answers hanswers rfl]
      cases under with
      | false => exact h.delete now key
      | true => exact h.deletePrefix now key
    | range query =>
      rw [expiring_of_answers hanswers rfl]
      exact h.expire now
    | txn writes =>
      rw [expiring_of_answers hanswers rfl]
      exact h.txn now writes
    | watch stem =>
      simpa [expiring, Request.sweeps, Request.writes, Ledger.serve, History.commit_nil] using h
    | close => exact absurd rfl hclose

/-- An act continues the chronicle of a store by what it records, with the events that it sends. -/
theorem chronicle_act (h : Chronicle s.ledger history events) (hclock : act.WithinClock) :
    Chronicle (s.act act).ledger (act.record s history) (events ++ s.sent act) := by
  cases act with
  | serve now request => exact chronicle_serve h hclock
  | compact revision => simpa [Act.record, sent, Store.act, compact] using h.compact revision
  | setAvailable available => simpa [Act.record, sent, Store.act] using h
  | read n => simpa [Act.record, sent, ledger_read] using h
  | leave n => simpa [Act.record, sent, Store.act] using h

/-- What an act records changes nothing of the history before it. -/
theorem prefix_record (s : Store) (history : History) (act : Act) :
    history <+: act.record s history := by
  cases act with
  | serve now request => exact (History.prefix_commit _ _).trans (History.prefix_commit _ _)
  | _ => exact List.prefix_refl history

/-- A store that can be reached carries out every request that names no empty key. -/
theorem answers_of_refusal_none (hrefusal : s.refusal = none) {service : Service}
    (request : Request service) (hkey : request.namesEmptyKey = false) :
    s.answers request = true := by
  simp [answers, hkey, hrefusal]

/-- The revision in an answer is the present one. -/
theorem revision_of_revision? (now : Nat) {service : Service} {request : Request service}
    {revision : Nat} (h : request.revision? (s.serve now request).outcome = some revision) :
    revision = (s.serve now request).store.ledger.revision := by
  cases hanswers : s.answers request with
  | false =>
    obtain ⟨error, heq⟩ := serve_of_not_answers now hanswers
    rw [heq] at h
    cases request <;> cases h
  | true =>
    by_cases hclose : service = .close
    · subst hclose
      cases request
      cases h
    rw [serve_of_answers now hanswers fun h => absurd h hclose] at h ⊢
    rw [ledger_perform]
    cases request with
    | put key value ttl => exact Ledger.revision_put h
    | delete key under =>
      cases under <;> exact (Option.some.inj h).symm.trans (Ledger.revision_deleteKeys _ _ _)
    | txn writes => exact (Option.some.inj h).symm.trans (Ledger.revision_txn _ _ _)
    | _ => cases h

/-- What an act commits and answers stands in every history that goes on from its
record. -/
theorem recorded_of_prefix (h : Chronicle s.ledger history events) (hclock : act.WithinClock)
    (hlater : act.record s history <+: later) : Recorded later s act := by
  have hnext := chronicle_act h hclock
  have hbefore : later.upTo s.ledger.revision = history := by
    rw [History.upTo, ← h.length]
    exact (List.prefix_iff_eq_take.1 ((prefix_record s history act).trans hlater)).symm
  have hread (revision : Nat) (hlow : (s.act act).ledger.compacted ≤ revision)
      (hhigh : revision ≤ (s.act act).ledger.revision) :
      later[revision]? = some ((s.act act).ledger.snapshot revision) :=
    hnext.reads_of_prefix hlater hlow hhigh
  exact {
    grows := by
      rw [hbefore, History.upTo, ← hnext.length]
      exact (List.prefix_iff_eq_take.1 hlater).symm
    expires := by
      rintro now service request rfl key hkey
      rw [hbefore]
      unfold expiring at hkey
      split at hkey
      · exact h.expired_live hkey
      · cases hkey
    dates := by
      rintro now service request rfl revision hrevision
      exact revision_of_revision? now hrevision
    gets := by
      rintro now key rfl hrefusal
      have hanswers := answers_of_refusal_none hrefusal (.get key) rfl
      have hserve := serve_of_answers now hanswers fun h => by cases h
      refine ⟨_, hread _ hnext.floor (Nat.le_refl _), ?_⟩
      simp only [Store.act, hserve, ledger_perform]
      simp [perform, adopt, Ledger.serve, Ledger.get, Ledger.latest?_eq, Ledger.latest]
    ranges := by
      rintro now query rfl hrefusal revision hlow hhigh
      have hanswers := answers_of_refusal_none hrefusal (.range query) rfl
      have hserve := serve_of_answers now hanswers fun h => by cases h
      have hledger : (s.act (.serve now (.range query))).ledger = (s.ledger.expire now).1 := by
        simp [Store.act, hserve, Ledger.serve, Ledger.range]
      have houtcome : (s.serve now (.range query)).outcome =
          (s.act (.serve now (.range query))).ledger.page query := by
        rw [hserve, hledger]
        rfl
      exact ⟨_, hread revision hlow hhigh, houtcome.trans (Ledger.page_eq _ query hlow hhigh)⟩ }

/-! ### A run -/

/-- A chronicle goes on through any run, and every act of the run is recorded in it. -/
theorem chronicle_after (acts : List Act) (hclock : ∀ act ∈ acts, act.WithinClock)
    (h : Chronicle s.ledger history events) :
    ∃ later more, history <+: later ∧ Chronicle (s.after acts).ledger later more ∧
      ∀ before act rest, acts = before ++ act :: rest → Recorded later (s.after before) act := by
  induction acts generalizing s history events with
  | nil =>
    refine ⟨history, events, List.prefix_refl history, h, ?_⟩
    intro before act rest heq
    simp at heq
  | cons first acts ih =>
    have hfirst : first.WithinClock := hclock first List.mem_cons_self
    obtain ⟨later, more, hprefix, hchronicle, hrecorded⟩ :=
      ih (fun act hmem => hclock act (List.mem_cons_of_mem _ hmem)) (chronicle_act h hfirst)
    -- what is recorded of an act stays recorded in every longer history
    have hnow := recorded_of_prefix h hfirst hprefix
    refine ⟨later, more, (prefix_record s history first).trans hprefix, hchronicle, ?_⟩
    intro before act rest heq
    cases before with
    | nil =>
      obtain ⟨rfl, rfl⟩ := List.cons.inj heq
      exact hnow
    | cons head before =>
      obtain ⟨rfl, hrest⟩ := List.cons.inj heq
      exact hrecorded before act rest hrest

/-- A store refines a versioned map. A run from a new store has one history, without
keys at first and with one snapshot for each revision, in which every act of the run
is recorded. -/
theorem exists_history (acts : List Act) (hclock : ∀ act ∈ acts, act.WithinClock) :
    ∃ history : History, history[0]? = some .empty ∧
      history.length = (after {} acts).ledger.revision + 1 ∧
      ∀ before act rest, acts = before ++ act :: rest →
        Recorded history (after {} before) act := by
  obtain ⟨history, _, _, hchronicle, hrecorded⟩ := chronicle_after (s := {}) acts hclock .new
  exact ⟨history, hchronicle.start, hchronicle.length, hrecorded⟩

/-- A key that has expired before it is read leaves three snapshots: of the new store,
of the put and of the expiry. -/
theorem exists_history_expiring :
    let acts : List Act :=
      [.serve 0 (.put ['k'] [1] (some ⟨5⟩)), .compact 1, .serve 9 (.get ['k'])]
    (∀ act ∈ acts, act.WithinClock) ∧
      ∃ history : History, history[0]? = some .empty ∧ history.length = 3 ∧
        ∀ before act rest, acts = before ++ act :: rest →
          Recorded history (after {} before) act := by
  have hclock : ∀ act ∈ ([.serve 0 (.put ['k'] [1] (some ⟨5⟩)), .compact 1,
      .serve 9 (.get ['k'])] : List Act), act.WithinClock := by
    simp [Act.WithinClock, Request.WithinClock, deadlineAfter, instantLimit]
    decide
  exact ⟨hclock, exists_history _ hclock⟩

end Store

end KeyBroker
