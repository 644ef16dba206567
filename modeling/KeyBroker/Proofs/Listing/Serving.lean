import KeyBroker.Proofs.Listing.Replies

/-!
# A broker that serves

While the broker runs, the store can be reached and no script delays its ranges, a
poll of a listing's call brings it a page, or the refusal of a snapshot that was
compacted away. A listing that is read to its end therefore comes to its end after
finitely many polls.
-/

namespace KeyBroker

/-- Expiry leaves the compaction point where it is. -/
theorem Ledger.Bounded.compacted_expire {l : Ledger} (h : l.Bounded) (now : Nat) :
    (l.expire now).1.compacted = l.compacted := by
  unfold Ledger.expire
  split
  · rfl
  · exact (Ledger.amends_eraseAll h.begin _).compacted

/-- A script without lines for a service passes its requests on at once. -/
theorem Script.next_of_none {service : Service} {script : Script}
    (h : ∀ line ∈ script, line.service ≠ service) : script.next service = (.forward 0, script) := by
  induction script with
  | nil => rfl
  | cons line rest ih =>
    have hline : line.service ≠ service := h line List.mem_cons_self
    have hrest := ih fun line hmem => h line (List.mem_cons_of_mem _ hmem)
    simp only [Script.next, dif_neg hline, hrest]

/-- What a range pinned at the revision of an earlier ledger is answered. -/
theorem Store.outcome_of_pinned {l : Ledger} {s : Store} {query : RangeQuery}
    (hlater : ∃ events, l.Later s.ledger events) (hreachable : s.refusal = none) (now : Nat)
    (hpinned : query.revision = some l.revision) :
    (s.serve now (.range query)).outcome =
      if l.revision < s.ledger.compacted then .failed (.compacted l.revision s.ledger.compacted)
      else .ok (l.latest.page l.revision query) := by
  obtain ⟨events, hlater⟩ := hlater
  have hswept := hlater.expire now
  have hcompacted := hlater.bounded.compacted_expire now
  have hanswers : s.answers (.range query) = true := by
    simp [answers, Request.namesEmptyKey, hreachable]
  have houtcome : (s.serve now (.range query)).outcome = (s.ledger.expire now).1.page query := by
    rw [serve_of_answers now hanswers fun h => by cases h]
    rfl
  rw [houtcome]
  split
  · next hlow =>
    simp only [Ledger.page, hpinned, Option.getD_some, hcompacted, if_pos hlow]
  · next hlow =>
    have hlow : (s.ledger.expire now).1.compacted ≤ query.revision.getD
        (s.ledger.expire now).1.revision := by
      rw [hpinned, Option.getD_some, hcompacted]
      exact Nat.le_of_not_lt hlow
    have hhigh : query.revision.getD (s.ledger.expire now).1.revision ≤
        (s.ledger.expire now).1.revision := by
      rw [hpinned, Option.getD_some]
      exact hswept.revision
    rw [Ledger.page_eq _ query hlow hhigh]
    rw [hpinned, Option.getD_some] at hlow ⊢
    rw [hswept.past l.revision hlow (Nat.le_refl _)]
    rfl

/-- A listing that was given a page has come to its end, or it has less to yield and asks
again. -/
theorem Listing.Reads.drainPage_cases {rest : Listing} {m : Snapshot} (h : rest.Reads m)
    {page : Page} {revision : Nat} (pinned : Option Nat)
    (hpage : page = m.page revision (rest.query pinned)) (taken : List KeyValue) :
    (∃ all, Call.drainPage rest taken page = .done (.drained all none)) ∨
      ∃ later all, Call.drainPage rest taken page = .ask (.drain later all) ∧ later.Reads m ∧
        later.revision = rest.revision ∧
        (later.remaining m).length < (rest.remaining m).length := by
  have habsorb := h.absorb revision pinned
  have hremaining := h.remaining_absorb revision pinned
  rw [← hpage] at habsorb hremaining
  have hturn := habsorb.continueDrain_eq taken
  unfold Call.drainPage
  split
  · exact .inl ⟨taken, rfl⟩
  · next hfull =>
    have hbuffer : (rest.absorb page).buffer ≠ [] := fun hnil =>
      hfull (List.isEmpty_iff.2 (List.append_eq_nil_iff.1 hnil).2)
    have hshorter := Listing.remaining_emptied_lt hbuffer m
    rw [hremaining] at hshorter
    by_cases hmore : (rest.absorb page).more = true
    · rw [if_pos hmore] at hturn
      exact .inr ⟨_, _, hturn, habsorb.emptied, rfl, hshorter⟩
    · rw [if_neg hmore] at hturn
      exact .inl ⟨_, hturn⟩

namespace System

/-- The broker runs, its store can be reached, and no script stands between them for a
range. -/
structure Serves (s : System) : Prop where
  running : s.stopped = false
  reachable : s.store.refusal = none
  direct : ∀ line ∈ s.script, line.service ≠ .range

variable {s t : System} {c : InFlight} {id : Nat} {l : Ledger}

/-- Whether the store serves ranges shows in the wiring. -/
theorem Serves.congr (h : s.Serves) (hwiring : t.wiring = s.wiring) : t.Serves where
  running := (congrArg Wiring.stopped hwiring).trans h.running
  reachable := (congrArg (fun w : Wiring => w.store.refusal) hwiring).trans h.reachable
  direct := by
    have hscript : t.script = s.script := congrArg Wiring.script hwiring
    rw [hscript]
    exact h.direct

/-- The store carries out a range of the broker in the poll that makes it. -/
theorem Serves.pollCall (h : s.Serves) (hfind : s.desk.call? id = some c)
    (hnew : c.exchange = none) (hrange : c.call.service = .range) :
    s.pollCall id = s.act c s.now := by
  have hfound : s.calls.find? (fun c => decide (c.id = id)) = some c := hfind
  have hnext : s.script.next c.call.service = (.forward 0, s.script) := by
    refine Script.next_of_none fun line hmem => ?_
    rw [hrange]
    exact h.direct line hmem
  have hgoes : (s.stopped && c.call.endsWithBroker) = false := by rw [h.running, Bool.false_and]
  simp only [System.pollCall, hfound, hnew, makeRequest, hgoes, Bool.false_eq_true, if_false, hnext]

/-- The next turn of a call whose page request the store carries out. -/
theorem Serves.standing_poll (h : s.Serves) (hbooked : s.desk.Booked)
    (hfind : s.desk.call? id = some c) (hnew : c.exchange = none)
    (hrange : c.call.service = .range) :
    ∃ turn, (s.pollCall id).desk =
        (s.desk.beside (s.store.serve s.instant c.call.request).store).proceed c turn ∧
      (s.pollCall id).desk.standing id = some turn ∧
      c.call.Resumes (s.store.serve s.instant c.call.request).outcome turn := by
  obtain ⟨turn, hdesk, hturn⟩ := desk_act s c s.now
  have hid := Desk.id_of_call? hfind
  rw [← h.pollCall hfind hnew hrange] at hdesk
  refine ⟨turn, hdesk, ?_, hturn⟩
  rw [hdesk, (hbooked.beside _).standing_proceed (by rwa [hid]), hid, if_pos rfl]

/-! ### A step -/

variable {listing rest : Listing} {taken : List KeyValue}

/-- A poll for the next page ends the step. -/
theorem Serves.standing_next (h : s.Serves) (hbooked : s.desk.Booked)
    (hlater : ∃ events, l.Later s.store.ledger events) (hreads : listing.Reads l.latest)
    (hrevision : listing.revision = l.revision) (hneeds : listing.needsPage = true)
    (hfind : s.desk.call? id = some c) (hnew : c.exchange = none) (hcall : c.call = .next listing) :
    ∃ later result, (s.pollCall id).desk.standing id = some (.done (.stepped later result)) ∧
      listing.Steps l.latest later result ∧
      result = if l.revision < s.store.ledger.compacted then
          .error (.snapshotCompacted l.revision s.store.ledger.compacted)
        else .ok (listing.remaining l.latest).head? := by
  obtain ⟨number, call, exchange, holds⟩ := c
  obtain rfl : call = .next listing := hcall
  obtain ⟨turn, _, hstanding, hturn⟩ := h.standing_poll hbooked hfind hnew rfl
  have hpinned : (listing.query (some listing.revision)).revision = some l.revision :=
    congrArg some hrevision
  have houtcome := Store.outcome_of_pinned hlater h.reachable s.instant hpinned
  by_cases hlow : l.revision < s.store.ledger.compacted
  · rw [if_pos hlow] at houtcome ⊢
    obtain ⟨t, rfl⟩ := Call.Resumes.of_failed (.next listing) (houtcome ▸ hturn)
    exact ⟨_, _, hstanding, .fails _ hneeds, rfl⟩
  · rw [if_neg hlow] at houtcome ⊢
    obtain ⟨t, rfl⟩ := Call.Resumes.of_ok (.next listing) (houtcome ▸ hturn)
    obtain ⟨hresult, _, _⟩ := (hreads.absorb l.revision
      (some listing.revision)).take (hreads.held_absorb _ _)
    rw [hreads.remaining_absorb] at hresult
    exact ⟨_, _, hstanding, hreads.steps_absorb rfl, hresult⟩

/-! ### Reading to the end -/

/-- A store that answered a range can be reached as before. -/
theorem refusal_serve_range (s : Store) (now : Nat) (query : RangeQuery) :
    (s.serve now (.range query)).store.refusal = s.refusal := by
  obtain ⟨ledger, heq⟩ := s.serve_eq_emitAll now (.range query) (fun h => by cases h)
    (fun h => by cases h)
  rw [heq]
  generalize s.events now (.range query) = events
  have hsame (store : Store) : (store.emitAll events).refusal = store.refusal := by
    induction events generalizing store with
    | nil => rfl
    | cons event rest ih => exact ih (store.emit event)
  rw [hsame]
  rfl

/-- A reply after which the call has a further request leaves the wiring alone. -/
theorem wiring_proceed_ask (s : System) (service : Service) (started : Nat) (c : InFlight)
    (next : Call) : ((s.answeredWell service started).proceed c (.ask next)).wiring = s.wiring :=
  rfl

/-- The system after a page that is followed by a further request. -/
theorem wiring_act_drain (hcall : c.call = .drain rest taken) {page : Page} {next : Call}
    (houtcome : (s.store.serve s.instant
      (.range (rest.query (some rest.revision)))).outcome = .ok page)
    (hnext : Call.drainPage rest taken page = .ask next) (started : Nat) :
    (s.act c started).wiring =
      { s.wiring with
        store := (s.store.serve s.instant (.range (rest.query (some rest.revision)))).store } := by
  obtain ⟨number, call, exchange, holds⟩ := c
  obtain rfl : call = .drain rest taken := hcall
  let served := s.store.serve s.instant (.range (rest.query (some rest.revision)))
  let after : System := { s with store := served.store }.wakeReaders served.reached
  have hact : s.act ⟨number, .drain rest taken, exchange, holds⟩ started =
      (after.answeredWell .range started).proceed ⟨number, .drain rest taken, exchange, holds⟩
        (Call.drainPage rest taken page) := by
    have hsettle : s.act ⟨number, .drain rest taken, exchange, holds⟩ started =
        after.settle ⟨number, .drain rest taken, exchange, holds⟩ started served.outcome := rfl
    have hok : served.outcome = .ok page := houtcome
    rw [hsettle, hok]
    rfl
  have hafter : after.wiring = { s.wiring with store := served.store } :=
    wiring_wakeReaders { s with store := served.store } served.reached
  rw [hact, hnext, wiring_proceed_ask, hafter]

/-- A store that serves ranges still does so after it has carried one out. -/
theorem Serves.of_range (h : s.Serves) {query : RangeQuery}
    (hwiring : t.wiring =
      { s.wiring with store := (s.store.serve s.instant (.range query)).store }) : t.Serves := by
  have hstore : t.store = (s.store.serve s.instant (.range query)).store :=
    congrArg Wiring.store hwiring
  have hscript : t.script = s.script := congrArg Wiring.script hwiring
  refine ⟨(congrArg Wiring.stopped hwiring).trans h.running, ?_, ?_⟩
  · rw [hstore, refusal_serve_range]
    exact h.reachable
  · rw [hscript]
    exact h.direct

/-- After a page that is followed by a further request, the broker serves on, and the call
stands at the request. -/
theorem Serves.asks_again (h : s.Serves) (hlater : ∃ events, l.Later s.store.ledger events)
    (hfind : s.desk.call? id = some c) (hnew : c.exchange = none)
    (hcall : c.call = .drain rest taken) {page : Page} {later : Listing} {all : List KeyValue}
    (houtcome : (s.store.serve s.instant
      (.range (rest.query (some rest.revision)))).outcome = .ok page)
    (hask : Call.drainPage rest taken page = .ask (.drain later all))
    (hdesk : (s.pollCall id).desk =
      (s.desk.beside (s.store.serve s.instant c.call.request).store).proceed c
        (.ask (.drain later all))) :
    (s.pollCall id).Serves ∧
      (s.pollCall id).store.ledger.compacted = s.store.ledger.compacted ∧
      ∃ c', (s.pollCall id).desk.call? id = some c' ∧ c'.exchange = none ∧
        c'.call = .drain later all := by
  have hwiring := wiring_act_drain hcall houtcome hask s.now
  rw [← h.pollCall hfind hnew (by rw [hcall])] at hwiring
  refine ⟨h.of_range hwiring, ?_, { c with call := .drain later all, exchange := none }, ?_, rfl,
    rfl⟩
  · have hstore : (s.pollCall id).store = (s.store.serve s.instant
        (.range (rest.query (some rest.revision)))).store := congrArg Wiring.store hwiring
    obtain ⟨_, hbounded⟩ := hlater
    rw [hstore, (Store.serve_range_of_ok houtcome).1, hbounded.bounded.compacted_expire]
  · obtain rfl : c.id = id := Desk.id_of_call? hfind
    rw [hdesk]
    exact (Desk.call?_proceed hfind (.drain later all) c.id).trans (if_pos rfl)

/-- A listing comes to its end, or to the refusal of its snapshot, after finitely many
polls. -/
theorem Serves.drains {n : Nat} (h : s.Serves) (hgenuine : s.wiring.Genuine)
    (hbooked : s.desk.Booked) (hlater : ∃ events, l.Later s.store.ledger events)
    (hreads : rest.Reads l.latest) (hrevision : rest.revision = l.revision)
    (hlength : (rest.remaining l.latest).length < n) (hfind : s.desk.call? id = some c)
    (hnew : c.exchange = none) (hcall : c.call = .drain rest taken) (reportFirst : Bool) :
    ∃ polls all, (s.moves (.replicate polls (.poll (.call id) reportFirst))).desk.standing id =
      some (.done (.drained all (if l.revision < s.store.ledger.compacted then
        some (.snapshotCompacted l.revision s.store.ledger.compacted) else none))) := by
  induction n generalizing s rest taken c with
  | zero => omega
  | succ n ih =>
    obtain ⟨turn, hdesk, hstanding, hturn⟩ :=
      h.standing_poll hbooked hfind hnew (by rw [hcall])
    have hpinned : (rest.query (some rest.revision)).revision = some l.revision :=
      congrArg some hrevision
    have houtcome := Store.outcome_of_pinned hlater h.reachable s.instant hpinned
    obtain ⟨number, call, exchange, holds⟩ := c
    obtain rfl : call = .drain rest taken := hcall
    by_cases hlow : l.revision < s.store.ledger.compacted
    · rw [if_pos hlow] at houtcome ⊢
      obtain ⟨t, rfl⟩ := Call.Resumes.of_failed (.drain rest taken) (houtcome ▸ hturn)
      exact ⟨1, taken, hstanding⟩
    rw [if_neg hlow] at houtcome
    obtain ⟨t, rfl⟩ := Call.Resumes.of_ok (.drain rest taken) (houtcome ▸ hturn)
    rcases hreads.drainPage_cases (some rest.revision) rfl taken with
      ⟨all, hdone⟩ | ⟨later, all, hask, hreads', hrevision', hshorter⟩
    · refine ⟨1, all, ?_⟩
      rw [if_neg hlow, ← hdone]
      exact hstanding
    -- the listing has less to yield than before
    obtain ⟨hserves, hcompacted, c', hfind', hnew', hcall'⟩ :=
      h.asks_again hlater hfind hnew rfl houtcome hask (hask ▸ hdesk)
    obtain ⟨polls, shown, hend⟩ := ih hserves
      (hgenuine.changes (changes_move hgenuine (.poll (.call id) reportFirst)))
      ((deals_move hgenuine (.poll (.call id) reportFirst)).booked hbooked)
      (later_moves hgenuine hlater [.poll (.call id) reportFirst]) hreads'
      (hrevision'.trans hrevision) (by omega) hfind' hnew' hcall'
    refine ⟨polls + 1, shown, ?_⟩
    rw [hcompacted] at hend
    exact hend

end System

end KeyBroker
