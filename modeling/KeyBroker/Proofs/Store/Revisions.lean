import KeyBroker.Proofs.Store.History

/-!
# What revisions are taken for

Each revision of a store was taken once: for the expired keys that a call let go, or
for the put, the deletion or the transaction that answered with it. A put whose
deadline lies beyond the range of the clock is the exception. It has begun its
revision when it finds that out, and is aborted with nothing written there.
-/

namespace KeyBroker

/-- What a revision was taken for. -/
inductive Taking where
  /-- The deletion of keys whose time was over. -/
  | expiry (keys : List Key)
  | put (key : Key) (value : Bytes)
  /-- A deletion that removed so many keys. -/
  | deletion (deleted : Nat)
  | txn (writes : List Write)
  /-- No commit at all. -/
  | waste
  deriving DecidableEq

/-- The revision that a request took for itself, by its outcome and by the revision
after it. -/
def Request.takes (present : Nat) : {service : Service} → Request service →
    Outcome service.Reply → List (Nat × Taking)
  | _, .put key value _, .ok revision => [(revision, .put key value)]
  | _, .put .., .aborted _ => [(present, .waste)]
  | _, .delete .., .ok deletion =>
    if deletion.deleted = 0 then [] else [(deletion.revision, .deletion deletion.deleted)]
  | _, .txn writes, .ok revision => if writes.isEmpty then [] else [(revision, .txn writes)]
  | _, _, _ => []

namespace Ledger

variable {l : Ledger} {now : Nat}

/-! ### How the counter moves -/

/-- Deletions are made at the present revision and take none. -/
theorem revision_eraseAll (l : Ledger) (keys : List Key) :
    (l.eraseAll keys).1.revision = l.revision := by
  induction keys generalizing l with
  | nil => rfl
  | cons key rest ih =>
    have hfirst : (l.erase key).1.revision = l.revision := by
      unfold erase
      split <;> rfl
    exact (ih _).trans hfirst

/-- The writes of a transaction are made at the present revision and take none. -/
theorem revision_apply (l : Ledger) (writes : List Write) :
    (l.apply writes).1.revision = l.revision := by
  induction writes generalizing l with
  | nil => rfl
  | cons first rest ih =>
    cases first with
    | put key value => exact ih _
    | delete key => exact (ih _).trans (revision_eraseAll l [key])

/-- A sweep takes one revision for all the keys that it finds, and none if it finds none. -/
theorem revision_expire (l : Ledger) (now : Nat) :
    (l.expire now).1.revision = l.revision + if (l.expired now).isEmpty then 0 else 1 := by
  unfold expire
  cases l.expired now with
  | nil => rfl
  | cons key rest => exact revision_eraseAll l.begin (key :: rest)

/-- A put takes a revision in any case, and answers with it unless the deadline lies
beyond the clock. -/
theorem put_takes (l : Ledger) (now : Nat) (key : Key) (value : Bytes) (ttl : Option Duration) :
    (l.put now key value ttl).ledger.revision = (l.expire now).1.revision + 1 ∧
      (l.put now key value ttl).result =
        if ttl.any fun t => (deadlineAfter now t).isNone then .aborted .deadline
        else .ok (l.put now key value ttl).ledger.revision := by
  unfold put
  cases ttl with
  | none => exact ⟨rfl, rfl⟩
  | some ttl => cases hdeadline : deadlineAfter now ttl <;> simp [hdeadline] <;> rfl

/-- A deletion takes a revision if it has targets, and counts them. -/
theorem deleteKeys_takes (l : Ledger) (expiries : List Event) (targets : List Key) :
    (l.deleteKeys expiries targets).ledger.revision =
        l.revision + (if targets.length = 0 then 0 else 1) ∧
      (l.deleteKeys expiries targets).result =
        { deleted := targets.length,
          revision := (l.deleteKeys expiries targets).ledger.revision } := by
  cases targets with
  | nil => exact ⟨rfl, rfl⟩
  | cons key rest => exact ⟨revision_eraseAll l.begin (key :: rest), rfl⟩

/-- A transaction takes a revision if it has writes, and answers with the present one. -/
theorem txn_takes (l : Ledger) (now : Nat) (writes : List Write) :
    (l.txn now writes).ledger.revision =
        (l.expire now).1.revision + (if writes.isEmpty then 0 else 1) ∧
      (l.txn now writes).result = (l.txn now writes).ledger.revision := by
  cases writes with
  | nil => exact ⟨rfl, rfl⟩
  | cons first rest => exact ⟨revision_apply (l.expire now).1.begin (first :: rest), rfl⟩

end Ledger

namespace Store

variable {s : Store} {now : Nat} {service : Service} {request : Request service}

/-- The revisions that an act takes, in their order. Expired keys take theirs first. -/
def takings (s : Store) : Act → List (Nat × Taking)
  | .serve now request =>
    let served := s.serve now request
    (if (s.expiring now request).isEmpty then []
      else [(s.ledger.revision + 1, .expiry (s.expiring now request))]) ++
      request.takes served.store.ledger.revision served.outcome
  | _ => []

/-- The revisions that acts in order take. -/
def takingsAll (s : Store) : List Act → List (Nat × Taking)
  | [] => []
  | act :: rest => s.takings act ++ (s.act act).takingsAll rest

/-- The revision before a request does anything of its own. -/
def sweptRevision (s : Store) (now : Nat) {service : Service} (request : Request service) : Nat :=
  s.ledger.revision + if (s.expiring now request).isEmpty then 0 else 1

/-! ### One request -/

/-- A request that is carried out begins at the revision at which expired keys are gone. -/
theorem sweptRevision_of_answers (hanswers : s.answers request = true)
    (hsweeps : request.sweeps = true) :
    s.sweptRevision now request = (s.ledger.expire now).1.revision := by
  rw [sweptRevision, expiring_of_answers hanswers hsweeps, Ledger.revision_expire]

/-- What a request has taken, and that the counter has moved by it: by nothing, or by one
revision, which is the present one. -/
def Taken (s : Store) (now : Nat) {service : Service} (request : Request service)
    (present : Nat) (outcome : Outcome service.Reply) : Prop :=
  (request.takes present outcome = [] ∧ present = s.sweptRevision now request) ∨
    ∃ taking, request.takes present outcome = [(present, taking)] ∧
      present = s.sweptRevision now request + 1

/-- Deleting one key and deleting a stem differ in their targets only. -/
theorem taken_delete {key : Key} {under : Bool} {targets : List Key}
    {change : Ledger.Change Deletion} (hanswers : s.answers (.delete key under) = true)
    (hchange : change = (s.ledger.expire now).1.deleteKeys (s.ledger.expire now).2 targets) :
    s.Taken now (.delete key under) change.ledger.revision (.ok change.result) := by
  obtain ⟨hrevision, hresult⟩ :=
    (s.ledger.expire now).1.deleteKeys_takes (s.ledger.expire now).2 targets
  rw [← hchange] at hrevision hresult
  rw [Taken, sweptRevision_of_answers hanswers rfl, hresult, Request.takes]
  simp only
  split at hrevision
  · next hnone => exact .inl ⟨if_pos hnone, hrevision⟩
  · next hsome => exact .inr ⟨_, if_neg hsome, hrevision⟩

/-- A request takes the present revision, one beyond that of the expired keys, or none. -/
theorem taken_serve (s : Store) (now : Nat) (request : Request service) :
    s.Taken now request (s.serve now request).store.ledger.revision
      (s.serve now request).outcome := by
  cases hanswers : s.answers request with
  | false =>
    obtain ⟨error, heq⟩ := serve_of_not_answers now hanswers
    rw [heq]
    refine .inl ⟨?_, ?_⟩
    · cases request <;> rfl
    · simp [sweptRevision, expiring, hanswers]
  | true =>
    by_cases hclose : service = .close
    · subst hclose
      cases request
      refine .inl ⟨rfl, ?_⟩
      simp [ledger_serve, hanswers, Ledger.serve, sweptRevision, expiring, Request.sweeps]
    rw [serve_of_answers now hanswers fun h => absurd h hclose, ledger_perform]
    cases request with
    -- a put takes its revision before it computes its deadline, and wastes it if there is none
    | put key value ttl =>
      obtain ⟨hrevision, hresult⟩ := s.ledger.put_takes now key value ttl
      rw [Taken, sweptRevision_of_answers hanswers rfl]
      refine .inr ⟨if ttl.any fun t => (deadlineAfter now t).isNone then .waste
        else .put key value, ?_, hrevision⟩
      simp only [perform, adopt, hresult]
      split <;> rfl
    | get key =>
      rw [Taken, sweptRevision_of_answers hanswers rfl]
      exact .inl ⟨rfl, rfl⟩
    | range query =>
      rw [Taken, sweptRevision_of_answers hanswers rfl]
      exact .inl ⟨rfl, rfl⟩
    | delete key under =>
      cases under with
      | false => exact taken_delete hanswers rfl
      | true => exact taken_delete hanswers rfl
    | txn writes =>
      obtain ⟨hrevision, hresult⟩ := s.ledger.txn_takes now writes
      rw [Taken, sweptRevision_of_answers hanswers rfl]
      simp only [perform, adopt, hresult, Request.takes, Ledger.serve]
      split at hrevision
      · next hnone => exact .inl ⟨if_pos hnone, hrevision⟩
      · next hsome => exact .inr ⟨_, if_neg hsome, hrevision ▸ rfl⟩
    | watch stem =>
      refine .inl ⟨rfl, ?_⟩
      simp [Ledger.serve, sweptRevision, expiring, Request.sweeps]
    | close => exact absurd rfl hclose

/-- The revisions that an act takes are those by which the counter moves. -/
theorem takings_act (s : Store) (act : Act) :
    s.ledger.revision ≤ (s.act act).ledger.revision ∧
      (s.takings act).map (·.1) = List.range' (s.ledger.revision + 1)
        ((s.act act).ledger.revision - s.ledger.revision) := by
  cases act with
  | serve now request =>
    have hswept : s.sweptRevision now request =
        s.ledger.revision + if (s.expiring now request).isEmpty then 0 else 1 := rfl
    simp only [takings, Store.act]
    rcases taken_serve s now request with ⟨htakes, hpresent⟩ | ⟨taking, htakes, hpresent⟩
    · rw [htakes, hpresent, hswept]
      split <;> simp
    · rw [htakes, hpresent, hswept]
      split <;> simp [List.range'_succ, Nat.add_assoc]
  | read n => simp [takings, ledger_read]
  | _ => simp [takings, Store.act, compact, Ledger.compact]

/-- The revisions that a run takes are those by which the counter moves. -/
theorem takingsAll_after (s : Store) (acts : List Act) :
    s.ledger.revision ≤ (s.after acts).ledger.revision ∧
      (s.takingsAll acts).map (·.1) = List.range' (s.ledger.revision + 1)
        ((s.after acts).ledger.revision - s.ledger.revision) := by
  induction acts generalizing s with
  | nil => simp [takingsAll]
  | cons act rest ih =>
    obtain ⟨hfirst, htakings⟩ := takings_act s act
    obtain ⟨hrest, htakingsAll⟩ := ih (s.act act)
    refine ⟨Nat.le_trans hfirst hrest, ?_⟩
    have hnext : (s.act act).ledger.revision + 1 =
        s.ledger.revision + 1 + ((s.act act).ledger.revision - s.ledger.revision) := by omega
    rw [takingsAll, List.map_append, htakings, htakingsAll, hnext, List.range'_append_1,
      after_cons]
    congr 1
    omega

/-! ### Waste -/

/-- Whether an act is a put that is carried out with a deadline beyond the clock. -/
def Act.Overdue (s : Store) (act : Act) : Prop :=
  ∃ now key value ttl, act = .serve now (.put key value (some ttl)) ∧
    s.answers (.put key value (some ttl)) = true ∧ deadlineAfter now ttl = none

/-- A put is aborted only if it is carried out, and then for its deadline. -/
theorem outcome_put_eq_aborted_iff {key : Key} {value : Bytes} {ttl : Option Duration}
    {why : Abort} :
    (s.serve now (.put key value ttl)).outcome = .aborted why ↔
      why = .deadline ∧ s.answers (.put key value ttl) = true ∧
        ∃ t, ttl = some t ∧ deadlineAfter now t = none := by
  cases hanswers : s.answers (.put key value ttl) with
  | false =>
    obtain ⟨error, heq⟩ := serve_of_not_answers now hanswers
    simp [heq]
  | true =>
    have hresult := (s.ledger.put_takes now key value ttl).2
    rw [serve_of_answers now hanswers fun h => by cases h]
    simp only [perform, adopt, hresult]
    cases ttl with
    | none => simp
    | some t => cases hdeadline : deadlineAfter now t <;> simp [hdeadline, eq_comm]

/-- Only a put that stops at a limit of the machine wastes a revision, the present one. -/
theorem mem_takes_waste {present revision : Nat} {outcome : Outcome service.Reply}
    (h : (revision, Taking.waste) ∈ request.takes present outcome) :
    revision = present ∧ service = .put ∧ ∃ why, outcome = .aborted why := by
  cases request with
  | put key value ttl =>
    cases outcome with
    | aborted why => exact ⟨by simpa [Request.takes] using h, rfl, why, rfl⟩
    | _ => simp [Request.takes] at h
  | delete key under =>
    cases outcome with
    | ok deletion =>
      simp only [Request.takes] at h
      split at h <;> simp at h
    | _ => simp [Request.takes] at h
  | txn writes =>
    cases outcome with
    | ok revision =>
      simp only [Request.takes] at h
      split at h <;> simp at h
    | _ => simp [Request.takes] at h
  | _ => simp [Request.takes] at h

/-- A request that does not succeed takes nothing but waste. -/
theorem eq_waste_of_mem_takes {present : Nat} {entry : Nat × Taking}
    {outcome : Outcome service.Reply} (hfails : ∀ reply, outcome ≠ .ok reply)
    (h : entry ∈ request.takes present outcome) : entry = (present, .waste) := by
  cases outcome with
  | ok reply => exact absurd rfl (hfails reply)
  | failed error => cases request <;> cases h
  | aborted why => cases request <;> simp_all [Request.takes]

/-- What the counter of a store tells of an act on it. -/
structure Counted (s : Store) (act : Act) : Prop where
  /-- A revision is wasted by a put with a deadline beyond the clock, which has begun it, and
  by nothing else. -/
  waste : ∀ revision, (revision, Taking.waste) ∈ s.takings act ↔
    act.Overdue s ∧ revision = (s.act act).ledger.revision
  /-- Any other call that does not succeed moves the counter for expired keys only. -/
  unsuccessful : ∀ now service (request : Request service), act = .serve now request →
    ¬ act.Overdue s → (∀ reply, (s.serve now request).outcome ≠ .ok reply) →
      (s.act act).ledger.revision =
        s.ledger.revision + if (s.expiring now request).isEmpty then 0 else 1

/-- An act wastes a revision only as a put with a deadline beyond the clock. -/
theorem overdue_of_mem_takings {act : Act} {revision : Nat}
    (h : (revision, Taking.waste) ∈ s.takings act) :
    act.Overdue s ∧ revision = (s.act act).ledger.revision := by
  cases act with
  | serve now request =>
    rcases List.mem_append.1 h with h | h
    · split at h <;> simp at h
    · obtain ⟨hrevision, rfl, why, houtcome⟩ := mem_takes_waste h
      cases request with
      | put key value ttl =>
        obtain ⟨-, hanswers, t, rfl, hdeadline⟩ := outcome_put_eq_aborted_iff.1 houtcome
        exact ⟨⟨now, key, value, t, rfl, hanswers, hdeadline⟩, hrevision⟩
  | _ => cases h

/-- Every act moves the counter of a store by the revisions that it takes. -/
theorem counted (s : Store) (act : Act) : Counted s act where
  waste := by
    intro revision
    refine ⟨overdue_of_mem_takings, ?_⟩
    rintro ⟨⟨now, key, value, ttl, rfl, hanswers, hdeadline⟩, rfl⟩
    have houtcome := outcome_put_eq_aborted_iff.2 ⟨rfl, hanswers, ttl, rfl, hdeadline⟩
    simp [takings, houtcome, Request.takes, Store.act]
  unsuccessful := by
    rintro now service request rfl htimely hfails
    rcases taken_serve s now request with ⟨-, hpresent⟩ | ⟨taking, htakes, -⟩
    · exact hpresent
    · have hmem : (_, taking) ∈ request.takes _ (s.serve now request).outcome :=
        htakes ▸ List.mem_singleton_self _
      have hwaste := eq_waste_of_mem_takes hfails hmem
      rw [hwaste] at hmem
      exact absurd (overdue_of_mem_takings (List.mem_append_right _ hmem)).1 htimely

/-- Every revision was taken once. The revisions that a run from a new store takes are, in
their order, the numbers from 1 to the present one. -/
theorem revisions_taken_once (acts : List Act) :
    (takingsAll {} acts).map (·.1) = List.range' 1 (after {} acts).ledger.revision ∧
      ∀ before act, before ++ [act] <+: acts → Counted (after {} before) act :=
  ⟨(takingsAll_after {} acts).2, fun _ _ _ => counted _ _⟩

/-- A put with the longest time to live takes the first revision and commits nothing. -/
theorem revision_without_commit :
    let served := serve {} 0 (.put ['k'] [1] (some (.ofSecs (wordLimit - 1))))
    served.outcome = .aborted .deadline ∧ served.store.ledger.revision = 1 ∧
      served.store.ledger.keys.entries = [] ∧
      takingsAll {} [.serve 0 (.put ['k'] [1] (some (.ofSecs (wordLimit - 1))))] =
        [(1, .waste)] := by
  decide +kernel

end Store

end KeyBroker
