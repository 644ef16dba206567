import KeyBroker.Proofs.Ledger.Squeezing
import KeyBroker.Proofs.Listing.Serving
import KeyBroker.Proofs.System.Shelter

/-!
# A transaction on a store

On a store that can be reached a transaction does what its writes do, one call each, but
all at one revision: the next one after the sweep. The feeds cannot tell the two apart, if
one does not look at the revisions, and whoever reads at an earlier revision cannot tell
that there has been a transaction at all.
-/

namespace KeyBroker

/-- A signal without the revision of its event. -/
def Signal.undated (signal : Signal) : Signal := signal.map (·.undated)

/-- A feed whose signals have no revisions. -/
def Feed.undated (feed : Feed) : Feed := { feed with queue := feed.queue.map Signal.undated }

/-- Leaving out revisions may be done before or after a signal is put on a feed. -/
theorem Feed.undated_push (feed : Feed) (signal : Signal) :
    (feed.push signal).undated = feed.undated.push signal.undated := by
  unfold push undated
  split <;> simp

namespace Store

variable {s s' : Store} {now : Nat} {writes : List Write}

/-! ### Feeds without revisions -/

/-- Two stores have the same watches, and their feeds carry the same, but for revisions. -/
structure FedAlike (s s' : Store) : Prop where
  watchers : s.watchers = s'.watchers
  feeds : s.feeds.map Feed.undated = s'.feeds.map Feed.undated

/-- Stores that are fed alike have readers on the same feeds. -/
theorem FedAlike.attended (h : s.FedAlike s') (n : Nat) :
    (s.feed n).attended = (s'.feed n).attended := by
  have hfeed (s : Store) :
      (s.feed n).attended = ((s.feeds.map Feed.undated).getD n { fed := false }).attended := by
    simp only [feed, List.getD_eq_getElem?_getD, List.getElem?_map]
    cases s.feeds[n]? <;> rfl
  rw [hfeed s, hfeed s', h.feeds]

/-- Stores stay fed alike when they send events that differ in their revisions only. -/
theorem FedAlike.emit (h : s.FedAlike s') {event event' : Event}
    (hevent : event.undated = event'.undated) : (s.emit event).FedAlike (s'.emit event') := by
  have hkey : event.key = event'.key := congrArg (·.key) hevent
  have hconcerned : s.concerned event = s'.concerned event' := by
    rw [concerned, concerned, h.watchers, hkey]
  have hfeeds (s : Store) (event : Event) : (s.emit event).feeds.map Feed.undated =
      (s.feeds.map Feed.undated).mapIdx fun n feed =>
        if n ∈ (s.concerned event).map (·.feed) then feed.push (.ok event.undated) else feed := by
    refine List.ext_getElem? fun n => ?_
    simp only [Store.emit, List.getElem?_map, List.getElem?_mapIdx]
    cases s.feeds[n]? with
    | none => rfl
    | some feed =>
      simp only [Option.map_some]
      split
      · rw [Feed.undated_push]
        rfl
      · rfl
  constructor
  · simp only [Store.emit, h.watchers, h.attended, hkey]
  · rw [hfeeds, hfeeds, h.feeds, hconcerned, hevent]

/-- Stores stay fed alike when they send events in order that differ in their revisions only. -/
theorem FedAlike.emitAll {events events' : List Event} (h : s.FedAlike s')
    (hevents : events.map (·.undated) = events'.map (·.undated)) :
    (s.emitAll events).FedAlike (s'.emitAll events') := by
  induction events generalizing s s' events' with
  | nil =>
    rw [List.map_eq_nil_iff.1 hevents.symm]
    exact h
  | cons event rest ih =>
    cases events' with
    | nil => cases hevents
    | cons event' rest' =>
      obtain ⟨hfirst, hrest⟩ := List.cons.inj hevents
      have hlast := ih (h.emit hfirst) hrest
      exact hlast

/-! ### One call for each write -/

/-- A write by a call of its own. -/
def Act.single (now : Nat) : Write → Act
  | .put key value => .serve now (.put key value none)
  | .delete key => .serve now (.delete key false)

/-- A write to a key that is not empty is carried out. -/
theorem act_single (hreachable : s.refusal = none) (now : Nat) {w : Write} (hkey : w.key ≠ []) :
    (s.act (.single now w)).ledger = (s.ledger.single now w).1 ∧
      s.sent (.single now w) = (s.ledger.single now w).2 ∧
      (s.act (.single now w)).refusal = none ∧
      ∃ ledger, s.act (.single now w) =
        Store.emitAll { s with ledger } (s.sent (.single now w)) := by
  have hserve {service : Service} (request : Request service) (hwatch : service ≠ .watch)
      (hclose : service ≠ .close) (hnamed : request.namesEmptyKey = false) :
      (s.act (.serve now request)).ledger = (s.ledger.serve now request).1 ∧
        s.sent (.serve now request) = (s.ledger.serve now request).2 ∧
        (s.act (.serve now request)).refusal = none ∧
        ∃ ledger, s.act (.serve now request) =
          Store.emitAll { s with ledger } (s.sent (.serve now request)) := by
    have hanswers := answers_of_refusal_none hreachable request hnamed
    refine ⟨?_, ?_, (refusal_serve s now request hclose).trans hreachable,
      serve_eq_emitAll s now request hwatch hclose⟩
    · rw [act, ledger_serve, if_pos hanswers]
    · rw [sent, events, if_pos hanswers]
  have hempty : w.key.isEmpty = false := by simpa using hkey
  cases w with
  | put key value => exact hserve (.put key value none) (by simp) (by simp) hempty
  | delete key => exact hserve (.delete key false) (by simp) (by simp) hempty

/-- Events in two parts are sent one part after the other. -/
theorem emitAll_append (s : Store) (events more : List Event) :
    s.emitAll (events ++ more) = (s.emitAll events).emitAll more := by
  induction events generalizing s with
  | nil => rfl
  | cons event rest ih => exact ih (s.emit event)

/-- Sending events does not depend on the ledger. -/
theorem emitAll_withLedger (s : Store) (ledger : Ledger) (events : List Event) :
    Store.emitAll { s with ledger } events = { s.emitAll events with ledger } := by
  induction events generalizing s with
  | nil => rfl
  | cons event rest ih => exact ih (s.emit event)

variable (now) in
/-- All of them are carried out one after the other. -/
theorem after_singles (hreachable : s.refusal = none) (hkeys : ∀ w ∈ writes, w.key ≠ []) :
    (s.after (writes.map (.single now))).ledger = (s.ledger.singles now writes).1 ∧
      s.sentAll (writes.map (.single now)) = (s.ledger.singles now writes).2 ∧
      ∃ ledger, s.after (writes.map (.single now)) =
        Store.emitAll { s with ledger } (s.sentAll (writes.map (.single now))) := by
  induction writes generalizing s with
  | nil => exact ⟨rfl, rfl, s.ledger, rfl⟩
  | cons w rest ih =>
    obtain ⟨hledger, hsent, hstill, first, hact⟩ :=
      act_single hreachable now (hkeys w List.mem_cons_self)
    obtain ⟨hlast, hmore, last, hafter⟩ := ih hstill fun w hw => hkeys w (List.mem_cons_of_mem _ hw)
    simp only [List.map_cons, after_cons, sentAll, Ledger.singles]
    rw [hledger] at hlast hmore
    have hfirst : { s.act (.single now w) with ledger := last } =
        Store.emitAll { s with ledger := last } (s.sent (.single now w)) := by
      rw [hact]
      exact (emitAll_withLedger { s with ledger := first } last _).symm
    refine ⟨hlast, by rw [hsent, hmore], last, ?_⟩
    rw [hafter, emitAll_append, hfirst]

/-! ### The transaction -/

/-- What a transaction at `now` on a store comes to, whose writes take the given revision. -/
structure Squeezes (s : Store) (now : Nat) (writes : List Write) (revision : Nat) : Prop where
  /-- The revision is the answer. -/
  answer : (s.serve now (.txn writes)).outcome = .ok revision
  /-- One call for each write leaves the same latest values. -/
  values : (s.serve now (.txn writes)).store.ledger.latest.plain =
    (s.after (writes.map (.single now))).ledger.latest.plain
  /-- It leaves the same deadlines. -/
  deadlines : (s.serve now (.txn writes)).store.ledger.deadlines =
    (s.after (writes.map (.single now))).ledger.deadlines
  /-- It has the same events, but for their revisions. -/
  events : (s.events now (.txn writes)).map (·.undated) =
    (s.sentAll (writes.map (.single now))).map (·.undated)
  /-- It sends the same to all feeds. -/
  feeds : (s.serve now (.txn writes)).store.FedAlike (s.after (writes.map (.single now)))
  /-- Behind the deletions of keys whose time is over, all events carry the revision. -/
  dated : ∃ own, s.events now (.txn writes) = (s.ledger.expire now).2 ++ own ∧
    ∀ event ∈ own, event.revision = revision
  /-- What is left of the keys carries the revision. -/
  leaves : ∀ w ∈ writes, ∀ found,
    (s.serve now (.txn writes)).store.ledger.latest? w.key = some found → found.1 = revision
  /-- Each key gains at most one version, of the revision, behind those that the sweep
  left it. -/
  gains : ∀ key, (s.ledger.expire now).1.Gains (s.serve now (.txn writes)).store.ledger key
  /-- So does each key whose time is not over, behind the versions that it had. -/
  lasting : ∀ key, key ∉ s.ledger.expired now →
    s.ledger.Gains (s.serve now (.txn writes)).store.ledger key
  /-- Keys without a write keep the versions that the sweep left them. -/
  spares : ∀ key, (∀ w ∈ writes, w.key ≠ key) →
    (s.serve now (.txn writes)).store.ledger.versions key = (s.ledger.expire now).1.versions key
  /-- A range pinned at a revision from before the call is answered as before, at any time. -/
  past : ∀ later query at', query.revision = some at' → at' ≤ s.ledger.revision →
    ((s.serve now (.txn writes)).store.serve later (.range query)).outcome =
      (s.serve later (.range query)).outcome
  /-- So is, at the same time, a range pinned at any revision from before the
  transaction, that of the sweep included. -/
  present : ∀ query at', query.revision = some at' → at' < revision →
    ((s.serve now (.txn writes)).store.serve now (.range query)).outcome =
      (s.serve now (.range query)).outcome

/-- A transaction whose keys are not empty is carried out. -/
theorem serve_txn (hreachable : s.refusal = none) (now : Nat)
    (hkeys : ∀ w ∈ writes, w.key ≠ []) :
    (s.serve now (.txn writes)).store.ledger = (s.ledger.txn now writes).ledger ∧
      (s.serve now (.txn writes)).outcome = .ok (s.ledger.txn now writes).result ∧
      s.events now (.txn writes) = (s.ledger.txn now writes).events := by
  have hnamed : (Request.txn writes).namesEmptyKey = false := by
    simp only [Request.namesEmptyKey, List.any_eq_false, List.isEmpty_iff]
    exact hkeys
  have hanswers := answers_of_refusal_none hreachable _ hnamed
  refine ⟨?_, ?_, ?_⟩
  · rw [ledger_serve, if_pos hanswers]
    rfl
  · rw [serve_of_answers now hanswers fun h => by cases h]
    rfl
  · rw [events, if_pos hanswers]
    rfl

/-- The outcome of a range on a store that can be reached is read off the ledger. -/
theorem outcome_range (hreachable : s.refusal = none) (now : Nat) (query : RangeQuery) :
    (s.serve now (.range query)).outcome = (s.ledger.expire now).1.page query := by
  have hanswers := answers_of_refusal_none hreachable (.range query) rfl
  rw [serve_of_answers now hanswers fun h => by cases h]
  rfl

/-- A transaction equals its writes made one by one, squeezed into one revision. -/
theorem txn_squeezes (acts : List Act) (now : Nat) {writes : List Write}
    (hreachable : (after {} acts).refusal = none) (hwrites : writes ≠ [])
    (hkeys : ∀ w ∈ writes, w.key ≠ []) :
    (after {} acts).Squeezes now writes (((after {} acts).ledger.expire now).1.revision + 1) := by
  have hlater := later_after (s := {}) Ledger.later_new acts
  generalize after {} acts = s at hreachable hlater ⊢
  have hbounded := hlater.bounded
  have hreflexive : s.ledger.Later s.ledger [] := .refl hlater.floor hbounded
  have hswept := hbounded.expire now
  -- the transaction and the single calls, each reduced to what it does to the ledger
  obtain ⟨hledger, houtcome, hevents⟩ := serve_txn hreachable now hkeys
  obtain ⟨hsingles, hsent, ledger, hafter⟩ := after_singles now hreachable hkeys
  obtain ⟨hheld, hundated⟩ := hbounded.held_txn now hwrites
  obtain ⟨hcommit, hown, hresult⟩ := Ledger.txn_eq s.ledger now hwrites
  have hamends := Ledger.amends_apply hswept.begin writes
  -- the ledger after the transaction is later both than the store's ledger and than the ledger from
  -- which expired keys are gone: the first serves reads of the past, the second reads of the
  -- present
  have hcommitted := (hreflexive.expire now).commit hamends
  have hbegun : (s.ledger.expire now).1.Later _ _ :=
    Ledger.Later.commit (.refl (hreflexive.expire now).floor hswept) hamends
  have hbegin : (s.ledger.expire now).1.begin.revision = (s.ledger.expire now).1.revision + 1 := rfl
  have hstill : (s.serve now (.txn writes)).store.refusal = none :=
    (refusal_serve s now (.txn writes) (by simp)).trans hreachable
  have hcompacted : (s.serve now (.txn writes)).store.ledger.compacted =
      (s.ledger.expire now).1.compacted := by
    rw [hledger, hcommit, hamends.compacted]
    rfl
  have hsame : (s.ledger.expire now).1.compacted = s.ledger.compacted :=
    hbounded.compacted_expire now
  rw [hledger, hcommit] at hcompacted
  have hgains : ∀ key,
      (s.ledger.expire now).1.Gains (s.serve now (.txn writes)).store.ledger key := by
    rw [hledger, hcommit]
    exact Ledger.gains_apply hswept hbegin (fun _ => .inl rfl) writes
  constructor
  case answer =>
    rw [houtcome, hresult, hamends.revision]
    rfl
  case values =>
    have htxn : (s.ledger.txn now writes).ledger.Bounded := hcommit ▸ hcommitted.bounded
    rw [hledger, htxn.plain_latest, (later_after hreflexive _).bounded.plain_latest, hsingles,
      hheld]
  case deadlines =>
    rw [hledger, hsingles, Ledger.deadlines, Ledger.deadlines, hheld]
  case events =>
    rw [hevents, hsent, hundated]
  -- the stores differ in their ledgers only, and send events that agree but for revisions
  case feeds =>
    obtain ⟨after, htxn⟩ := serve_eq_emitAll s now (.txn writes) (by simp) (by simp)
    have hbefore : FedAlike { s with ledger := after } { s with ledger } := ⟨rfl, rfl⟩
    rw [htxn, hafter]
    exact hbefore.emitAll (by rw [hevents, hsent, hundated])
  case dated =>
    exact ⟨_, hevents.trans hown, hamends.dated⟩
  case leaves =>
    intro w hw found hfound
    rw [hledger, hcommit, Ledger.latest?_eq, hamends.latest] at hfound
    exact Snapshot.revision_of_writeAll ⟨w, hw, rfl⟩ hfound
  case gains => exact hgains
  case lasting =>
    intro key hlasts
    have hkey := hgains key
    rwa [Ledger.Gains, Ledger.versions_expire_of_not_expired hlasts] at hkey
  case spares =>
    intro key hkey
    rw [hledger, hcommit]
    exact Ledger.versions_apply_of_ne hkey _
  case past =>
    intro later query at' hpinned hle
    rw [outcome_range hstill, outcome_range hreachable, hledger, hcommit,
      (hcommitted.expire later).page_eq _ hpinned hle,
      (hreflexive.expire later).page_eq (hbounded.compacted_expire later) hpinned hle]
    rw [hcommitted.bounded.compacted_expire, hcompacted, hsame]
  case present =>
    intro query at' hpinned hlt
    rw [outcome_range hstill, outcome_range hreachable, hledger, hcommit,
      (hbegun.expire now).page_eq _ hpinned (Nat.le_of_lt_succ hlt)]
    rw [hcommitted.bounded.compacted_expire, hcompacted]

/-- A key with a deadline that has come and a key that is put, deleted and put again: the
sweep takes revision 2 and all writes revision 3. -/
theorem txn_squeezes_repeated :
    let acts : List Act := [.serve 0 (.watch []), .serve 0 (.put ['a'] [1] (some ⟨5⟩))]
    let writes : List Write :=
      [.put ['k'] [1], .delete ['k'], .delete ['a'], .put ['k'] [2], .put ['a'] [3]]
    (after {} acts).refusal = none ∧ writes ≠ [] ∧ (∀ w ∈ writes, w.key ≠ []) ∧
      (after {} acts).ledger.expired 9 = [['a']] ∧ (after {} acts).Squeezes 9 writes 3 := by
  intro acts writes
  have hreachable : (after {} acts).refusal = none := by decide
  have hkeys : ∀ w ∈ writes, w.key ≠ [] := by decide
  have hexpired : (after {} acts).ledger.expired 9 = [['a']] := by decide
  exact ⟨hreachable, by decide, hkeys, hexpired, txn_squeezes acts 9 hreachable (by decide) hkeys⟩

end Store

end KeyBroker
