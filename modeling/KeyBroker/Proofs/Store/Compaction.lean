import KeyBroker.Proofs.Ledger.Compaction
import KeyBroker.Proofs.Store.Stream

/-!
# Compaction cannot be observed

A store that has been compacted goes on like the one that has not. Whatever happens
to both afterwards, they answer alike, commit the same events at the same revisions
and send the same signals to the same feeds, except that a range pinned behind the
compaction point may be refused for the compaction.
-/

namespace KeyBroker

/-- The revision at which a request asks to read. -/
def Request.pin? : {service : Service} → Request service → Option Nat
  | _, .range query => query.revision
  | _, _ => none

namespace Store

/-- The store `s'` is `s`, or what `s` would be now if it had been compacted at `point`
some time ago. -/
structure Thinned (point : Nat) (s s' : Store) : Prop where
  ledger : s.ledger.Thinned point s'.ledger
  rest : s' = { s with ledger := s'.ledger }

/-- An act looks the same on the store `s'` as on `s`, but for reads behind `point`. -/
structure SeenAlike (point : Nat) (s s' : Store) (act : Act) : Prop where
  /-- Requests have the same outcome; a range pinned behind the point may be refused for
  the compaction instead. -/
  outcome : ∀ now service (request : Request service), act = .serve now request →
    (s'.serve now request).outcome = (s.serve now request).outcome ∨
      ∃ revision, request.pin? = some revision ∧ revision < point ∧
        (s'.serve now request).outcome =
          .failed (.compacted revision (s'.act act).ledger.compacted)
  /-- The events, each with the value before it, are sent to the same feeds in the same
  order. -/
  events : s'.sent act = s.sent act
  reached : ∀ now service (request : Request service), act = .serve now request →
    (s'.serve now request).reached = (s.serve now request).reached
  /-- Readers of feeds get the same signals. -/
  signals : ∀ n, s'.taken n act = s.taken n act
  revision : (s'.act act).ledger.revision = (s.act act).ledger.revision
  /-- Feeds, watches and connection stay the same. -/
  rest : s'.act act = { s.act act with ledger := (s'.act act).ledger }

namespace Thinned

variable {point : Nat} {s s' : Store}

/-- A compacted store refuses all requests for the same reason, or none. -/
theorem refusal (h : s.Thinned point s') : s'.refusal = s.refusal := by
  rw [h.rest]
  rfl

/-- A compacted store carries out the same requests. -/
theorem answers (h : s.Thinned point s') {service : Service} (request : Request service) :
    s'.answers request = s.answers request := by
  rw [Store.answers, Store.answers, h.refusal]

/-- A compacted store has the same feeds. -/
theorem feed (h : s.Thinned point s') (n : Nat) : s'.feed n = s.feed n := by
  rw [h.rest]
  rfl

/-! ### Sending -/

/-- Sending the same events keeps a store and the compacted one together. -/
theorem emitAll (h : s.Thinned point s') (events : List Event) :
    (s.emitAll events).Thinned point (s'.emitAll events) := by
  induction events generalizing s s' with
  | nil => exact h
  | cons event rest ih =>
    refine ih ⟨h.ledger, ?_⟩
    rw [h.rest]
    rfl

/-- Taking over a change keeps the stores alike. -/
theorem adopt (h : s.Thinned point s') {service : Service}
    {change change' : Ledger.Change (Outcome service.Reply)}
    (hledger : change.ledger.Thinned point change'.ledger)
    (hevents : change'.events = change.events) :
    (s.adopt service change).store.Thinned point (s'.adopt service change').store ∧
      (s'.adopt service change').reached = (s.adopt service change).reached := by
  constructor
  · have hbefore : Thinned point { s with ledger := change.ledger }
        { s' with ledger := change'.ledger } := by
      refine ⟨hledger, ?_⟩
      rw [h.rest]
    simpa only [Store.adopt, hevents] using hbefore.emitAll change.events
  · rw [h.rest]
    simp only [Store.adopt, Store.reach, hevents, Store.concerned]

/-- Breaking their native watches keeps a store and the compacted one together. -/
theorem breakWatches (h : s.Thinned point s') (error : StorageError) :
    (s.breakWatches error).Thinned point (s'.breakWatches error) := by
  refine ⟨h.ledger, ?_⟩
  rw [h.rest]
  rfl

/-- Changing the same feed keeps a store and the compacted one together. -/
theorem onFeed (h : s.Thinned point s') (n : Nat) (f : Feed → Feed) :
    (s.onFeed n f).Thinned point (s'.onFeed n f) := by
  refine ⟨h.ledger, ?_⟩
  rw [h.rest]
  rfl

end Thinned

/-! ### Requests -/

/-- A request on a compacted store and on the store itself. -/
structure Served.Thinned (point : Nat) {service : Service} (request : Request service)
    (served served' : Served service) : Prop where
  store : served.store.Thinned point served'.store
  reached : served'.reached = served.reached
  outcome : served'.outcome = served.outcome ∨
    ∃ revision, request.pin? = some revision ∧ revision < point ∧
      served'.outcome = .failed (.compacted revision served'.store.ledger.compacted)

namespace Thinned

variable {point : Nat} {s s' : Store}

/-- A change with the same answer is adopted alike. -/
theorem adopt_same (h : s.Thinned point s') {service : Service} (request : Request service)
    {change change' : Ledger.Change (Outcome service.Reply)}
    (hchange : change.Thinned point change') :
    Served.Thinned point request (s.adopt service change) (s'.adopt service change') := by
  obtain ⟨hstore, hreached⟩ := h.adopt hchange.ledger hchange.events
  exact ⟨hstore, hreached, .inl hchange.result⟩

/-- So is one whose answer cannot be a failure. -/
theorem adopt_ok (h : s.Thinned point s') {service : Service} (request : Request service)
    {change change' : Ledger.Change service.Reply} (hchange : change.Thinned point change') :
    Served.Thinned point request
      (s.adopt service { change with result := .ok change.result })
      (s'.adopt service { change' with result := .ok change'.result }) :=
  h.adopt_same request ⟨hchange.ledger, hchange.events, congrArg Outcome.ok hchange.result⟩

/-- A range comes to the same on both stores, unless it reads behind the point. -/
theorem range (h : s.Thinned point s') (now : Nat) (query : RangeQuery) :
    Served.Thinned point (.range query) (s.perform now (.range query))
      (s'.perform now (.range query)) := by
  obtain ⟨hswept, hexpiries⟩ := h.ledger.expire now
  have hadopted : (s.perform now (.range query)).store.Thinned point
      (s'.perform now (.range query)).store ∧
      (s'.perform now (.range query)).reached = (s.perform now (.range query)).reached :=
    h.adopt hswept hexpiries
  refine ⟨hadopted.1, hadopted.2, ?_⟩
  rcases hswept.page query with hsame | ⟨revision, hpinned, hbehind, hrefused⟩
  · exact .inl hsame
  · right
    have hledger : (s'.perform now (.range query)).store.ledger = (s'.ledger.expire now).1 :=
      ledger_perform s' now (.range query)
    exact ⟨revision, hpinned, hbehind, by rw [hledger]; exact hrefused⟩

/-- Every request comes to the same on both stores, unless it reads behind the point. -/
theorem perform (h : s.Thinned point s') (now : Nat) {service : Service}
    (request : Request service) :
    Served.Thinned point request (s.perform now request) (s'.perform now request) := by
  cases request with
  | put key value ttl => exact h.adopt_same _ (h.ledger.put now key value ttl)
  | get key => exact h.adopt_ok _ (h.ledger.get now key)
  | delete key under =>
    cases under with
    | false => exact h.adopt_ok _ (h.ledger.delete now key)
    | true => exact h.adopt_ok _ (h.ledger.deletePrefix now key)
  | range query => exact h.range now query
  | txn writes => exact h.adopt_ok _ (h.ledger.txn now writes)
  | watch stem =>
    refine ⟨⟨h.ledger, ?_⟩, rfl, .inl ?_⟩
    · rw [h.rest]
      rfl
    · rw [h.rest]
      rfl
  | close =>
    have hclosed : Thinned point { s with closed := true } { s' with closed := true } := by
      refine ⟨h.ledger, ?_⟩
      rw [h.rest]
    refine ⟨hclosed.breakWatches .closed, ?_, .inl rfl⟩
    rw [h.rest]
    rfl

/-- A request is carried out on both stores or refused by both. -/
theorem serve (h : s.Thinned point s') (now : Nat) {service : Service}
    (request : Request service) :
    Served.Thinned point request (s.serve now request) (s'.serve now request) := by
  have hclosed : s'.closed = s.closed := by rw [h.rest]
  unfold Store.serve
  rw [h.refusal]
  split
  · exact ⟨h, rfl, .inl rfl⟩
  · split
    · rw [hclosed]
      split
      · exact ⟨h, rfl, .inl rfl⟩
      · exact h.perform now _
    · split
      · exact ⟨h, rfl, .inl rfl⟩
      · exact h.perform now _

/-- The events of a request are the same. -/
theorem events (h : s.Thinned point s') (now : Nat) {service : Service}
    (request : Request service) : s'.events now request = s.events now request := by
  simp only [Store.events, h.answers request]
  split
  · cases request with
    | put key value ttl => exact (h.ledger.put now key value ttl).events
    | get key => exact (h.ledger.get now key).events
    | delete key under =>
      cases under with
      | false => exact (h.ledger.delete now key).events
      | true => exact (h.ledger.deletePrefix now key).events
    | range query => exact (h.ledger.expire now).2
    | txn writes => exact (h.ledger.txn now writes).events
    | watch stem => rfl
    | close => rfl
  · rfl

/-! ### Acts -/

/-- Acts keep the stores alike. -/
theorem act (h : s.Thinned point s') (act : Act) :
    (s.act act).Thinned point (s'.act act) := by
  cases act with
  | serve now request => exact (h.serve now request).store
  | compact revision =>
    refine ⟨h.ledger.compact revision, ?_⟩
    rw [h.rest]
    rfl
  | setAvailable available =>
    have hset : Thinned point { s with available } { s' with available } := by
      refine ⟨h.ledger, ?_⟩
      rw [h.rest]
    cases available with
    | false => exact hset.breakWatches _
    | true => exact hset
  | read n =>
    rw [act_read, act_read]
    exact h.onFeed n _
  | leave n => exact h.onFeed n _

/-- Acts in order keep a store and the compacted one together. -/
theorem after (h : s.Thinned point s') (acts : List Act) :
    (s.after acts).Thinned point (s'.after acts) := by
  induction acts generalizing s s' with
  | nil => exact h
  | cons act rest ih => exact ih (h.act act)

/-- An act looks the same on stores that are alike. -/
theorem seenAlike (h : s.Thinned point s') (act : Act) : SeenAlike point s s' act where
  outcome := by
    rintro now service request rfl
    exact (h.serve now request).outcome
  events := by
    cases act with
    | serve now request => exact h.events now request
    | _ => rfl
  reached := by
    rintro now service request rfl
    exact (h.serve now request).reached
  signals n := by
    cases act with
    | read m => simp only [taken, h.feed]
    | _ => rfl
  revision := (h.act act).ledger.revision
  rest := (h.act act).rest

end Thinned

/-- A compacted store differs from the store by the compaction. -/
theorem thinned_compact {s : Store} (hfloor : s.ledger.compacted ≤ s.ledger.revision)
    (revision : Nat) :
    s.Thinned (min revision s.ledger.revision) (s.compact revision) :=
  ⟨Ledger.thinned_compact hfloor revision, rfl⟩

/-- The compaction point never lies beyond the present revision. -/
theorem floor_after (acts : List Act) :
    (after {} acts).ledger.compacted ≤ (after {} acts).ledger.revision := by
  have hnew : Ledger.Later {} ({} : Ledger) [] :=
    .refl (Nat.le_refl 0) fun _ _ hv => by cases hv
  exact (later_after (s := {}) hnew acts).floor

/-- Compaction cannot be observed. Run any acts from a store that has come to be by
acts, and run them from the same store compacted: every act then looks the same, except
that a range pinned behind the compaction point may be refused. -/
theorem compaction_unobservable (before later : List Act) (revision : Nat) (act : Act) :
    let s := after {} before
    SeenAlike (min revision s.ledger.revision) (s.after later) ((s.compact revision).after later)
      act :=
  ((thinned_compact (floor_after before) revision).after later).seenAlike act

/-- A key is deleted at the compaction point and put anew afterwards: the put tells of no
value before it, although the deletion has been forgotten. -/
example :
    let s := after {} [.serve 0 (.put ['k'] [1] none), .serve 0 (.delete ['k'] false)]
    let put : Act := .serve 0 (.put ['k'] [2] none)
    (s.compact 2).ledger.versions ['k'] = [] ∧
      ((s.compact 2).sent put).map (·.previous) = [none] ∧ (s.compact 2).sent put = s.sent put := by
  decide

end Store

end KeyBroker
