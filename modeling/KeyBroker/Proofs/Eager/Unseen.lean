import KeyBroker.Proofs.Eager.Deposits
import KeyBroker.Proofs.Store.Squeezing

/-!
# Expiry that nobody sees

A store lets keys go whose time is over, but not before it is asked something. Nobody can
tell. At every call the store answers, writes and tells of its writes as one would that
holds just what the deposits show at that instant. The deletions that it sends for expired
keys come first and at one revision of their own, once for each put that has come to the
end of its time as the last of its key, and old revisions keep the keys.
-/

namespace KeyBroker

/-- The live keys that a deletion removes. -/
def Snapshot.targets (m : Snapshot) (key : Key) (under : Bool) : List Key :=
  if under then m.keysUnder key else if (m.get? key).isSome then [key] else []

/-- The reply of a store that holds what is seen and nothing else, at its present revision. A
range must be about the present for it. -/
def Request.Answers (seen : Snapshot) (present : Nat) : {service : Service} → Request service →
    service.Reply → Prop
  | _, .put .., revision => revision = present
  | _, .get key, found =>
    found = (seen.get? key).map fun (revision, value) => { key, value, revision }
  | _, .delete key under, deletion =>
    deletion = { deleted := (seen.targets key under).length, revision := present }
  | _, .range query, page => query.revision = none → page = seen.page present query
  | _, .txn _, revision => revision = present
  | _, .watch _, _ => True
  | _, .close, _ => True

/-- A deletion that names as many keys as there are targets has committed their deletions. -/
theorem Request.writes_delete (m : Snapshot) (key : Key) (under : Bool) (revision : Nat) :
    (Request.delete key under).writes m
        (.ok { deleted := (m.targets key under).length, revision }) =
      (m.targets key under).map .delete := by
  cases under with
  | true =>
    simp only [writes, Snapshot.targets, if_true]
    split
    · next hnone => rw [List.length_eq_zero_iff.1 hnone, List.map_nil]
    · rfl
  | false => cases hlive : (m.get? key).isSome <;> simp [writes, Snapshot.targets, hlive]

namespace Store

variable {s : Store} {deposits : Deposits} {now last : Nat} {service : Service}
  {request : Request service}

/-! ### The deposits of a run -/

/-- The instant of a request. -/
def Act.time? : Act → Option Nat
  | .serve now _ => some now
  | _ => none

/-- The deposits after an act on a store. -/
def depositsAct (s : Store) (deposits : Deposits) : Act → Deposits
  | .serve now request => deposits.served now request (s.serve now request).outcome
  | _ => deposits

/-- The deposits after acts in order. -/
def depositsAfter (s : Store) (deposits : Deposits) : List Act → Deposits
  | [] => deposits
  | act :: rest => (s.act act).depositsAfter (s.depositsAct deposits act) rest

/-- The puts whose keys an act lets go for their time: the keys with the revisions of the
puts. -/
def expiries (s : Store) (deposits : Deposits) : Act → List (Key × Nat)
  | .serve now request =>
    (s.expiring now request).filterMap fun key =>
      (deposits.get? key).map fun d => (key, d.revision)
  | _ => []

/-- The puts whose keys acts in order let go for their time. -/
def expiriesAll (s : Store) (deposits : Deposits) : List Act → List (Key × Nat)
  | [] => []
  | act :: rest =>
    s.expiries deposits act ++ (s.act act).expiriesAll (s.depositsAct deposits act) rest

/-- What a request comes to on a store with these deposits. -/
structure Unseen (s : Store) (deposits : Deposits) (now : Nat) {service : Service}
    (request : Request service) : Prop where
  /-- A reply tells of what is there now. -/
  replies : ∀ reply, (s.serve now request).outcome = .ok reply →
    request.Answers (deposits.visible now) (s.serve now request).store.ledger.revision reply
  /-- What is there afterwards is what is there now, with the writes of the request. -/
  modifies : (s.serve now request).store.ledger.latest =
    (deposits.visible now).writeAll (s.serve now request).store.ledger.revision
      (request.writes (deposits.visible now) (s.serve now request).outcome)
  /-- The keys that expire are those which still have their last deposit, and whose deposit
  is due. -/
  expires : ∀ key, key ∈ s.expiring now request ↔ ∃ d, deposits.get? key = some d ∧
    d.due now = true ∧ s.ledger.latest.get? key = some (d.revision, d.value)
  /-- First come their deletions, at the next revision and with the values of the deposits,
  and then the events of what the request writes to what is there now. -/
  tells : s.events now request =
    (s.expiring now request).map (deposits.shown.farewell (s.ledger.revision + 1)) ++
      (deposits.visible now).tell (s.serve now request).store.ledger.revision
        (request.writes (deposits.visible now) (s.serve now request).outcome)
  /-- Keys that expire take one revision together, and the writes take the next one. -/
  revision : (s.serve now request).store.ledger.revision =
    s.ledger.revision + (if (s.expiring now request).isEmpty then 0 else 1) +
      if (request.writes (deposits.visible now) (s.serve now request).outcome).isEmpty then 0
      else 1
  /-- From the revision of its put up to that before its deletion, a key that expires stays in
  the snapshots by which ranges are answered, whatever happens after the call. -/
  pinned : ∀ key ∈ s.expiring now request, ∀ d, deposits.get? key = some d →
    ∀ revision, d.revision ≤ revision → revision ≤ s.ledger.revision →
      ∃ snapshot : Snapshot, snapshot.get? key = some (d.revision, d.value) ∧
        ∀ acts later query, query.revision = some revision →
          ((s.serve now request).store.after acts).refusal = none →
          ((s.serve now request).store.after acts).ledger.compacted ≤ revision →
            (((s.serve now request).store.after acts).serve later (.range query)).outcome =
              .ok (snapshot.page revision query)

/-! ### One request -/

/-- A deletion deletes its targets among the keys that the sweep has left. -/
theorem delete_eq (s : Store) (now : Nat) (key : Key) (under : Bool) :
    let swept := (s.ledger.expire now).1
    let change := swept.deleteKeys (s.ledger.expire now).2 (swept.latest.targets key under)
    s.ledger.serve now (.delete key under) = (change.ledger, change.events) ∧
      (s.perform now (.delete key under)).outcome = .ok change.result := by
  cases under with
  | false =>
    simp only [Ledger.serve, Ledger.delete, perform, adopt, Snapshot.targets, Ledger.latest?_eq]
    exact ⟨rfl, rfl⟩
  | true =>
    simp only [Ledger.serve, Ledger.deletePrefix, perform, adopt, Snapshot.targets,
      Ledger.liveUnder_eq]
    exact ⟨rfl, rfl⟩

/-- A request that is answered and lets expired keys go is performed. -/
theorem serve_of_sweeps (hanswers : s.answers request = true) (hsweeps : request.sweeps = true) :
    s.serve now request = s.perform now request := by
  refine serve_of_answers now hanswers ?_
  rintro rfl
  cases request
  cases hsweeps

/-- A request that is carried out sweeps and then commits its writes. -/
theorem commits_serve (hbounded : s.ledger.Bounded) (hanswers : s.answers request = true)
    (hsweeps : request.sweeps = true) (hclock : request.WithinClock now) :
    ∃ own, s.events now request = (s.ledger.expire now).2 ++ own ∧
      (s.ledger.expire now).1.Commits (s.serve now request).store.ledger
        (request.writes (s.ledger.expire now).1.latest (s.serve now request).outcome) own := by
  have hswept := hbounded.expire now
  rw [ledger_serve, if_pos hanswers, Store.events, if_pos hanswers,
    serve_of_sweeps hanswers hsweeps]
  cases request with
  | put key value ttl =>
    obtain ⟨own, hevents, ⟨revision, hresult⟩, hcommits⟩ := hbounded.commits_put key value hclock
    have houtcome : (s.perform now (.put key value ttl)).outcome = .ok revision := hresult
    rw [houtcome]
    exact ⟨own, hevents, hcommits⟩
  | get key => exact ⟨[], (List.append_nil _).symm, .nothing _⟩
  | range query => exact ⟨[], (List.append_nil _).symm, .nothing _⟩
  | txn writes => exact hbounded.commits_txn now writes
  | delete key under =>
    obtain ⟨hserve, houtcome⟩ := delete_eq s now key under
    rw [hserve, houtcome, (Ledger.deleteKeys_takes _ _ _).2, Request.writes_delete]
    exact hswept.commits_deleteKeys _ _
  | watch stem => cases hsweeps
  | close => cases hsweeps

/-- Its reply is read off the ledger that the sweep has left. -/
theorem replies_serve (hsweeps : request.sweeps = true) {reply : service.Reply}
    (hreply : (s.serve now request).outcome = .ok reply) :
    request.Answers (s.ledger.expire now).1.latest (s.serve now request).store.ledger.revision
      reply := by
  have hanswers := answers_of_ok hreply
  have hserve : s.serve now request = s.perform now request := serve_of_sweeps hanswers hsweeps
  cases request with
  | put key value ttl => exact revision_of_revision? now (congrArg _ hreply)
  | txn writes => exact revision_of_revision? now (congrArg _ hreply)
  | get key =>
    rw [hserve] at hreply
    rw [Request.Answers, ← Ledger.latest?_eq]
    exact (Outcome.ok.inj hreply).symm
  | delete key under =>
    obtain ⟨hchange, houtcome⟩ := delete_eq s now key under
    rw [hserve, houtcome, (Ledger.deleteKeys_takes _ _ _).2] at hreply
    rw [Request.Answers, hserve, ledger_perform, hchange, ← Outcome.ok.inj hreply]
  | range query =>
    intro hunpinned
    obtain ⟨hledger, hpage⟩ := serve_range_of_ok hreply
    obtain ⟨hrevision, -, -, hread⟩ := Ledger.page_of_ok hpage
    rw [hunpinned, Option.getD_none] at hrevision
    rw [hledger, hread, hrevision]
    rfl
  | watch stem => cases hsweeps
  | close => cases hsweeps

/-- A range that is pinned at a revision of an earlier ledger is answered from the snapshot
which that had. -/
theorem outcome_of_past {l : Ledger} {events : List Event} (hlater : l.Later s.ledger events)
    (hreachable : s.refusal = none) {query : RangeQuery} {revision : Nat}
    (hpinned : query.revision = some revision) (hlow : s.ledger.compacted ≤ revision)
    (hhigh : revision ≤ l.revision) :
    (s.serve now (.range query)).outcome = .ok ((l.snapshot revision).page revision query) := by
  have hswept := hlater.expire now
  rw [← hlater.bounded.compacted_expire now] at hlow
  rw [outcome_range hreachable, Ledger.page_eq]
  · rw [hpinned, Option.getD_some, hswept.past revision hlow hhigh]
  · rwa [hpinned, Option.getD_some]
  · rw [hpinned, Option.getD_some]
    exact Nat.le_trans hhigh hswept.revision

/-- On a ledger that tracks the deposits a request comes to what it would come to on a store that
never held anything expired. -/
theorem unseen (htracks : s.ledger.Tracks last deposits) (hle : last ≤ now)
    (hbounded : s.ledger.Bounded) (hfloor : s.ledger.compacted ≤ s.ledger.revision)
    (hanswers : s.answers request = true) (hsweeps : request.sweeps = true)
    (hclock : request.WithinClock now) : s.Unseen deposits now request := by
  have hvisible : (s.ledger.expire now).1.latest = deposits.visible now := by
    rw [(hbounded.expire now).latest_eq_shown, htracks.swept hbounded hle]
    rfl
  have hexpiring : s.expiring now request = s.ledger.expired now :=
    expiring_of_answers hanswers hsweeps
  obtain ⟨own, hevents, hcommits⟩ := commits_serve hbounded hanswers hsweeps hclock
  rw [hvisible] at hcommits
  constructor
  case replies =>
    intro reply hreply
    rw [← hvisible]
    exact replies_serve hsweeps hreply
  case modifies => rw [hcommits.latest, hvisible]
  case expires =>
    intro key
    rw [hexpiring, htracks.mem_expired_iff hbounded]
  case tells => rw [hevents, hcommits.events, hvisible, hexpiring, htracks.events_expire hbounded]
  case revision => rw [hcommits.revision, Ledger.revision_expire, hexpiring]
  case pinned =>
    intro key hkey d hlast revision hlow hhigh
    rw [hexpiring] at hkey
    obtain ⟨d', hlast', hget, -⟩ := htracks.of_expired hkey
    obtain rfl : d = d' := Option.some.inj (hlast.symm.trans hlast')
    refine ⟨s.ledger.snapshot revision, Ledger.get?_snapshot_of_kept hget hlow, ?_⟩
    intro acts later query hpinned hreachable hcompacted
    have hserved := later_serve (.refl hfloor hbounded) now request
    exact outcome_of_past (later_after hserved acts) hreachable hpinned hcompacted hhigh

/-! ### One act -/

/-- A request that does not sweep leaves the ledger as it is. -/
theorem serve_idle (h : ¬ (s.answers request = true ∧ request.sweeps = true)) :
    (s.serve now request).store.ledger = s.ledger ∧ s.expiring now request = [] := by
  constructor
  · rw [ledger_serve]
    split
    · next hanswers => cases request <;> first | rfl | exact absurd ⟨hanswers, rfl⟩ h
    · rfl
  · simp [expiring, h]

/-- An act keeps the ledger abreast of the deposits. -/
theorem tracks_serve (htracks : s.ledger.Tracks last deposits) (hle : last ≤ now)
    (hbounded : s.ledger.Bounded) (request : Request service) :
    (s.serve now request).store.ledger.Tracks now
      (deposits.served now request (s.serve now request).outcome) := by
  cases hanswers : s.answers request with
  | false =>
    obtain ⟨error, heq⟩ := serve_of_not_answers now hanswers
    rw [heq, Deposits.served_failed]
    exact htracks.later hle
  | true =>
    rw [ledger_serve, if_pos hanswers]
    cases request with
    | close => exact htracks.later hle
    | watch stem => exact htracks.later hle
    | get key => exact htracks.expire hbounded hle
    | range query => exact htracks.expire hbounded hle
    | put key value ttl =>
      rw [serve_of_sweeps hanswers rfl]
      exact htracks.put hbounded hle key value ttl
    | txn writes =>
      rw [serve_of_sweeps hanswers rfl]
      exact htracks.txn hbounded hle writes
    | delete key under =>
      rw [serve_of_sweeps hanswers rfl]
      cases under with
      | false => exact htracks.delete hbounded hle key
      | true => exact htracks.deletePrefix hbounded hle key

/-- An act no earlier than the last leaves a ledger that tracks the deposits after it. -/
theorem tracks_act (htracks : s.ledger.Tracks last deposits) (hbounded : s.ledger.Bounded)
    {act : Act} (hle : ∀ now, act.time? = some now → last ≤ now) :
    (s.act act).ledger.Tracks (act.time?.getD last) (s.depositsAct deposits act) := by
  cases act with
  | serve now request => exact tracks_serve htracks (hle now rfl) hbounded request
  | compact revision => exact htracks.compact revision
  | setAvailable available => simpa [Store.act, Act.time?, depositsAct] using htracks
  | read n => simpa [ledger_read, Act.time?, depositsAct] using htracks
  | leave n => exact htracks

/-! ### At most once -/

/-- The store has nothing left of the puts in `past`. -/
def Spent (s : Store) (past : List (Key × Nat)) : Prop :=
  ∀ key revision, (key, revision) ∈ past → revision ≤ s.ledger.revision ∧
    ∀ found, s.ledger.latest.get? key = some found → revision < found.1

/-- A key whose time is over still has the put that is named. -/
theorem mem_expiries (htracks : s.ledger.Tracks last deposits) {act : Act} {key : Key}
    {revision : Nat} (h : (key, revision) ∈ s.expiries deposits act) :
    ∃ now service, ∃ request : Request service, act = .serve now request ∧
      key ∈ s.expiring now request ∧
      ∃ d, s.ledger.kept.get? key = some d ∧ d.revision = revision := by
  cases act with
  | serve now request =>
    obtain ⟨k, hk, hentry⟩ := List.mem_filterMap.1 h
    obtain ⟨d, hlast, hpair⟩ := Option.map_eq_some_iff.1 hentry
    obtain ⟨rfl, rfl⟩ := Prod.mk.inj hpair
    refine ⟨now, _, request, rfl, hk, d, ?_, rfl⟩
    unfold expiring at hk
    split at hk
    · obtain ⟨_, hlast', hget, -⟩ := htracks.of_expired hk
      rw [hget, ← hlast', hlast]
    · cases hk
  | _ => cases h

/-- An act lets each put go at most once. -/
theorem nodup_expiries (s : Store) (deposits : Deposits) (act : Act) :
    (s.expiries deposits act).Nodup := by
  cases act with
  | serve now request =>
    have hdistinct : (s.expiring now request).Nodup := by
      unfold expiring
      split
      · exact s.ledger.nodup_expired now
      · exact List.nodup_nil
    refine List.Pairwise.filterMap _ ?_ hdistinct
    intro k k' hne entry hentry entry' hentry' heq
    obtain ⟨d, -, rfl⟩ := Option.map_eq_some_iff.1 hentry
    obtain ⟨d', -, rfl⟩ := Option.map_eq_some_iff.1 hentry'
    exact hne (congrArg Prod.fst heq)
  | _ => exact List.nodup_nil

/-- What is there at an instant is what the store has, but for the keys that expire. -/
theorem latest_of_visible (htracks : s.ledger.Tracks last deposits) (hle : last ≤ now)
    (hbounded : s.ledger.Bounded) {key : Key} {found : Nat × Bytes}
    (hfound : (deposits.visible now).get? key = some found) :
    s.ledger.latest.get? key = some found ∧ key ∉ s.ledger.expired now := by
  have hlasting : deposits.lasting now = s.ledger.kept.lasting now := by
    rw [← htracks.swept hbounded hle, hbounded.kept_expire]
  rw [Deposits.visible, hlasting, Deposits.get?_shown, Option.map_eq_some_iff] at hfound
  obtain ⟨d, hget, rfl⟩ := hfound
  rw [Deposits.get?_lasting, Option.bind_eq_some_iff] at hget
  obtain ⟨kept, hkept, hlasts⟩ := hget
  split at hlasts
  · cases hlasts
  · next hdue =>
    obtain rfl := Option.some.inj hlasts
    refine ⟨hbounded.get?_latest_of_kept hkept, fun hmem => ?_⟩
    obtain ⟨d, hget, hover⟩ := Ledger.mem_expired_iff_due.1 hmem
    have hsame : kept = d := Option.some.inj (hkept.symm.trans hget)
    exact hdue (hsame ▸ hover)

/-- What the store has nothing left of stays gone when nothing is put. -/
theorem Spent.idle {past : List (Key × Nat)} (h : s.Spent past) {t : Store}
    (hrevision : t.ledger.revision = s.ledger.revision)
    (hlatest : t.ledger.latest = s.ledger.latest) : t.Spent past := by
  intro key revision hmem
  rw [hrevision, hlatest]
  exact h key revision hmem

/-- What is over before a request stays over: its writes are all later. -/
theorem Unseen.spent (h : s.Unseen deposits now request) {past : List (Key × Nat)}
    (hbefore : ∀ key revision, (key, revision) ∈ past → revision ≤ s.ledger.revision ∧
      ∀ found, (deposits.visible now).get? key = some found → revision < found.1) :
    (s.serve now request).store.Spent past := by
  intro key revision hmem
  obtain ⟨hold, hnewer⟩ := hbefore key revision hmem
  have hrevision := h.revision
  refine ⟨by omega, fun found hfound => ?_⟩
  rw [h.modifies] at hfound
  by_cases hwritten : ∃ w ∈ request.writes (deposits.visible now) (s.serve now request).outcome,
      w.key = key
  · have hdated := Snapshot.revision_of_writeAll hwritten hfound
    obtain ⟨w, hw, -⟩ := hwritten
    rw [List.isEmpty_eq_false_iff.2 (List.ne_nil_of_mem hw)] at hrevision
    simp only [Bool.false_eq_true, if_false] at hrevision
    omega
  · rw [Snapshot.get?_writeAll_of_ne fun w hw heq => hwritten ⟨w, hw, heq⟩] at hfound
    exact hnewer found hfound

/-- A put that has been let go is never found again, nor one before it under the same key. -/
theorem spent_act (htracks : s.ledger.Tracks last deposits) (hbounded : s.ledger.Bounded)
    (hfloor : s.ledger.compacted ≤ s.ledger.revision) {act : Act} (hclock : act.WithinClock)
    (hle : ∀ now, act.time? = some now → last ≤ now) {past : List (Key × Nat)}
    (hspent : s.Spent past) : (s.act act).Spent (past ++ s.expiries deposits act) := by
  -- an act that lets nothing go leaves all keys as they are
  have hidle (hrevision : (s.act act).ledger.revision = s.ledger.revision)
      (hlatest : (s.act act).ledger.latest = s.ledger.latest)
      (hnone : s.expiries deposits act = []) :
      (s.act act).Spent (past ++ s.expiries deposits act) := by
    rw [hnone, List.append_nil]
    exact hspent.idle hrevision hlatest
  cases act with
  | compact revision => exact hidle rfl (Ledger.latest_compact _ _) rfl
  | setAvailable available => exact hidle (by simp [Store.act]) (by simp [Store.act]) rfl
  | read n => exact hidle (by rw [ledger_read]) (by rw [ledger_read]) rfl
  | leave n => exact hidle rfl rfl rfl
  | @serve now service request =>
    by_cases hworks : s.answers request = true ∧ request.sweeps = true
    · obtain ⟨hanswers, hsweeps⟩ := hworks
      refine (unseen htracks (hle now rfl) hbounded hfloor hanswers hsweeps hclock).spent ?_
      intro key revision hmem
      -- the put has been let go before, or it was there before the act and goes now
      rcases List.mem_append.1 hmem with hmem | hmem
      · obtain ⟨hold, hnewer⟩ := hspent key revision hmem
        exact ⟨hold, fun found hfound =>
          hnewer found (latest_of_visible htracks (hle now rfl) hbounded hfound).1⟩
      · obtain ⟨_, _, _, heq, hkey, d, hget, rfl⟩ := mem_expiries htracks hmem
        cases heq
        rw [expiring_of_answers hanswers hsweeps] at hkey
        exact ⟨hbounded.revision_of_kept hget, fun found hfound =>
          absurd hkey (latest_of_visible htracks (hle now rfl) hbounded hfound).2⟩
    · obtain ⟨hledger, hnone⟩ : _ ∧ s.expiring now request = [] := serve_idle hworks
      have hsame : (s.act (.serve now request)).ledger = s.ledger := hledger
      exact hidle (by rw [hsame]) (by rw [hsame]) (by simp [expiries, hnone])

/-- Nothing is let go that has been let go before. -/
theorem Spent.nodup {past : List (Key × Nat)} (h : s.Spent past) (hdistinct : past.Nodup)
    (htracks : s.ledger.Tracks last deposits) (hbounded : s.ledger.Bounded) (act : Act) :
    (past ++ s.expiries deposits act).Nodup := by
  refine List.nodup_append.2 ⟨hdistinct, nodup_expiries s deposits act, ?_⟩
  rintro ⟨key, revision⟩ hold _ hmem rfl
  obtain ⟨_, _, _, -, -, d, hget, rfl⟩ := mem_expiries htracks hmem
  have hnewer := (h key d.revision hold).2 _ (hbounded.get?_latest_of_kept hget)
  exact absurd hnewer (Nat.lt_irrefl _)

/-! ### A run -/

/-- Along a run each call comes to what it would with the expired keys gone before, and no
put is let go a second time. -/
theorem unseen_after (acts : List Act) (hclock : ∀ act ∈ acts, act.WithinClock)
    (hordered : (last :: acts.filterMap Act.time?).Pairwise (· ≤ ·))
    (htracks : s.ledger.Tracks last deposits) (hbounded : s.ledger.Bounded)
    (hfloor : s.ledger.compacted ≤ s.ledger.revision) {past : List (Key × Nat)}
    (hdistinct : past.Nodup) (hspent : s.Spent past) :
    (past ++ s.expiriesAll deposits acts).Nodup ∧
      ∀ before now service (request : Request service) rest,
        acts = before ++ .serve now request :: rest →
        (s.after before).answers request = true → request.sweeps = true →
        (s.after before).Unseen (s.depositsAfter deposits before) now request := by
  -- the invariant is that the ledger tracks the deposits by the instant of the last request, and
  -- that what was let go before is spent
  induction acts generalizing s deposits last past with
  | nil => simpa [expiriesAll] using hdistinct
  | cons first acts ih =>
    have hfirst : first.WithinClock := hclock first List.mem_cons_self
    obtain ⟨hlow, hrest⟩ := List.pairwise_cons.1 hordered
    have hle : ∀ now, first.time? = some now → last ≤ now := fun now htime =>
      hlow now (List.mem_filterMap.2 ⟨first, List.mem_cons_self, htime⟩)
    -- an act without an instant leaves the last one standing
    have hnext : (first.time?.getD last :: acts.filterMap Act.time?).Pairwise (· ≤ ·) := by
      cases htime : first.time? with
      | some now => simpa [htime] using hrest
      | none => simpa [htime] using hordered
    have hlater := later_act (.refl hfloor hbounded) first
    have hnew := hspent.nodup hdistinct htracks hbounded first
    obtain ⟨honce, hunseen⟩ := ih (fun act hmem => hclock act (List.mem_cons_of_mem _ hmem)) hnext
      (tracks_act htracks hbounded hle) hlater.bounded hlater.floor hnew
      (spent_act htracks hbounded hfloor hfirst hle hspent)
    rw [List.append_assoc] at honce
    refine ⟨honce, ?_⟩
    intro before now service request rest heq hanswers hsweeps
    cases before with
    | nil =>
      obtain ⟨rfl, rfl⟩ := List.cons.inj heq
      exact unseen htracks (hle now rfl) hbounded hfloor hanswers hsweeps hfirst
    | cons head before =>
      obtain ⟨rfl, hrest⟩ := List.cons.inj heq
      exact hunseen before now service request rest hrest hanswers hsweeps

/-- Letting go late looks like letting go in time. In a run from a new store in which time does
not go back, whatever is carried out comes to what it would if each key were gone as soon as
the time of its last put is over, and no put is let go twice. -/
theorem expiry_unseen (acts : List Act) (hclock : ∀ act ∈ acts, act.WithinClock)
    (hordered : (acts.filterMap Act.time?).Pairwise (· ≤ ·)) :
    (expiriesAll {} .empty acts).Nodup ∧
      ∀ before now service (request : Request service) rest,
        acts = before ++ .serve now request :: rest →
        (after {} before).answers request = true → request.sweeps = true →
        (after {} before).Unseen (depositsAfter {} .empty before) now request := by
  have hfrom : (0 :: acts.filterMap Act.time?).Pairwise (· ≤ ·) :=
    List.pairwise_cons.2 ⟨fun _ _ => Nat.zero_le _, hordered⟩
  have hnew := Ledger.later_new
  have hspent : Spent {} [] := fun _ _ hmem => by cases hmem
  exact unseen_after acts hclock hfrom .new hnew.bounded hnew.floor .nil hspent

/-- Of two puts with deadlines that are over the first one has been replaced. Asked for their
key, the store lets go of the second one only. -/
theorem expiry_unseen_get :
    let before : List Act :=
      [.serve 0 (.put ['k'] [1] (some ⟨5⟩)), .serve 3 (.put ['k'] [2] (some ⟨4⟩)), .compact 1]
    let acts := before ++ [.serve 9 (.get ['k'])]
    (∀ act ∈ acts, act.WithinClock) ∧ (acts.filterMap Act.time?).Pairwise (· ≤ ·) ∧
      (after {} before).answers (.get ['k']) = true ∧
      expiriesAll {} .empty acts = [(['k'], 2)] ∧
      (after {} before).Unseen (depositsAfter {} .empty before) 9 (.get ['k']) := by
  intro before acts
  have hclock : ∀ act ∈ acts, act.WithinClock := by
    simp [acts, before, Act.WithinClock, Request.WithinClock, deadlineAfter, instantLimit]
    decide
  have hordered : (acts.filterMap Act.time?).Pairwise (· ≤ ·) := by decide
  have hanswers : (after {} before).answers (.get ['k']) = true := by decide
  exact ⟨hclock, hordered, hanswers, by decide,
    (expiry_unseen acts hclock hordered).2 before 9 .get (.get ['k']) [] rfl hanswers rfl⟩

end Store

end KeyBroker
