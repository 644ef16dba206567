import KeyBroker.Proofs.Listing.Serving

/-!
# Reading a listing

A listing yields a snapshot and nothing else. The snapshot is what all keys held when
the store gave the first page. Whatever happens between the steps of the listing or
during them, the pairs that it yields are the first ones of the snapshot under its
stem, in ascending order; only the end can be missing, when the history that the
listing reads was compacted away or the broker does not serve.
-/

namespace KeyBroker

/-- A listing in use, with the system behind it and the pairs that it has yielded. -/
structure Reader where
  system : System
  listing : Listing
  yielded : List KeyValue := []

/-- What a step yields. -/
def yieldOf : Except Error (Option KeyValue) → List KeyValue
  | .ok (some pair) => [pair]
  | _ => []

namespace Reader

/-- One step of a listing: a call is launched, other things happen, and its answer is taken
away. If there is no answer yet, the step has not come to its end. -/
def next (r : Reader) (holdsBroker : Bool) (between : List Move) :
    Option (Reader × Except Error (Option KeyValue)) :=
  let begun := r.system.launch (Call.beginNext r.listing) holdsBroker
  match (begun.1.moves between).takeAnswer begun.2 with
  | some (.stepped listing result, system) =>
    some ({ system, listing, yielded := r.yielded ++ yieldOf result }, result)
  | _ => none

/-- All further steps of a listing in one call. -/
def collect (r : Reader) (holdsBroker : Bool) (between : List Move) :
    Option (List KeyValue × Option Error) :=
  let begun := r.system.launch (Call.continueDrain r.listing []) holdsBroker
  match (begun.1.moves between).takeAnswer begun.2 with
  | some (.drained taken failure, _) => some (taken, failure)
  | _ => none

/-- What can become of a reader: anything may happen to the system, and the listing takes a
step. -/
inductive Reaches (r : Reader) : Reader → Prop where
  | refl : Reaches r r
  | around {r' : Reader} (h : Reaches r r') (m : Move) :
    Reaches r { r' with system := r'.system.move m }
  | next {r' r'' : Reader} (h : Reaches r r') {holdsBroker : Bool} {between : List Move}
    {result : Except Error (Option KeyValue)}
    (answered : r'.next holdsBroker between = some (r'', result)) : Reaches r r''

/-- A listing reads the latest snapshot of the ledger `l`, of which it yields `whole`. -/
structure Sound (r : Reader) (l : Ledger) (whole : List KeyValue) : Prop where
  genuine : r.system.wiring.Genuine
  booked : r.system.desk.Booked
  later : ∃ events, l.Later r.system.store.ledger events
  reads : r.listing.Reads l.latest
  revision : r.listing.revision = l.revision
  account : r.yielded ++ r.listing.remaining l.latest = whole

variable {r r' : Reader} {l : Ledger} {whole : List KeyValue} {holdsBroker : Bool}
  {between : List Move} {result : Except Error (Option KeyValue)}

/-! ### Steps -/

/-- Nothing that happens to the system concerns the listing. -/
theorem Sound.withSystem (h : r.Sound l whole) (run : List Move) {s : System}
    (hs : s = r.system.moves run) : Sound { r with system := s } l whole := by
  subst hs
  exact {
    genuine := System.genuine_moves h.genuine run
    booked := System.booked_moves h.genuine h.booked run
    later := System.later_moves h.genuine h.later run
    reads := h.reads
    revision := h.revision
    account := h.account }

/-- A page that a call of the listing is given is of its snapshot. -/
theorem Sound.page_eq (h : r.Sound l whole) {rest : Listing}
    (hrevision : rest.revision = r.listing.revision) (early : List Move) {page : Page}
    (houtcome : ((r.system.moves early).store.serve (r.system.moves early).instant
      (.range (rest.query (some rest.revision)))).outcome = .ok page) :
    page = l.latest.page l.revision (rest.query (some rest.revision)) :=
  Store.page_of_pinned (System.later_moves h.genuine h.later early)
    (congrArg some (hrevision.trans h.revision)) houtcome

/-- The answer of a step is a step in the snapshot. -/
theorem Sound.steps (h : r.Sound l whole) (hnext : r.next holdsBroker between = some (r', result)) :
    r.listing.Steps l.latest r'.listing result ∧
      (∃ replies, r.listing.next replies = some (r'.listing, result, [])) ∧
      r'.yielded = r.yielded ++ yieldOf result ∧ ∃ run, r'.system = r.system.moves run := by
  have hstep : ∀ early m call next, early ++ [m] <+: between →
      r.listing.Stepping l.latest (.ask call) →
      System.Resumes
        ((r.system.launch (Call.beginNext r.listing) holdsBroker).1.moves early) call
        ((r.system.launch (Call.beginNext r.listing) holdsBroker).1.moves (early ++ [m])).store
        next → r.listing.Stepping l.latest next := by
    intro early m call next _ hstepping hresumes
    obtain rfl : call = .next r.listing := by
      cases hstepping with
      | asks => rfl
    rcases hresumes.next with ⟨e, rfl⟩ | ⟨page, houtcome, rfl⟩
    · exact hstepping.error e
    · exact hstepping.given h.reads
        (h.page_eq rfl (.launch (Call.beginNext r.listing) holdsBroker :: early) houtcome)
  unfold next at hnext
  simp only at hnext
  split at hnext
  · next later stepped system htake =>
    obtain ⟨hanswer, hsystem⟩ :=
      System.answer_of_launch h.genuine h.booked h.reads.stepping hstep htake
    obtain ⟨rfl, rfl⟩ := Prod.mk.inj (Option.some.inj hnext)
    cases hanswer with
    | answers steps replied => exact ⟨steps, ⟨_, replied⟩, rfl, _, hsystem⟩
  · cases hnext

/-- What is handed out and what is left are together what was there. -/
theorem yieldOf_head? (pairs : List KeyValue) :
    yieldOf (.ok pairs.head?) ++ pairs.tail = pairs := by
  cases pairs <;> rfl

/-- A step goes on in the account of what was yielded and what is to come. -/
theorem Sound.stepped (h : r.Sound l whole) (hsystem : Sound { r with system := r'.system } l whole)
    (hsteps : r.listing.Steps l.latest r'.listing result)
    (hyielded : r'.yielded = r.yielded ++ yieldOf result) : r'.Sound l whole := by
  obtain ⟨system, later, yielded⟩ := r'
  cases hsteps with
  | answers reads revision rest =>
    refine { hsystem with reads, revision := revision.trans h.revision, account := ?_ }
    rw [hyielded, rest, List.append_assoc, yieldOf_head?]
    exact h.account
  | fails e needs =>
    refine { hsystem with account := ?_ }
    rw [hyielded]
    exact (congrArg (· ++ _) (List.append_nil _)).trans h.account

/-- A step keeps a reader sound. -/
theorem Sound.next (h : r.Sound l whole) (hnext : r.next holdsBroker between = some (r', result)) :
    r'.Sound l whole := by
  obtain ⟨hsteps, _, hyielded, run, hsystem⟩ := h.steps hnext
  exact h.stepped (h.withSystem run hsystem) hsteps hyielded

/-- Whatever can become of a sound reader is sound. -/
theorem Sound.reaches (h : r.Sound l whole) (hreaches : r.Reaches r') : r'.Sound l whole := by
  induction hreaches with
  | refl => exact h
  | around _ m ih => exact ih.withSystem [m] rfl
  | next _ answered ih => exact ih.next answered

/-- The answer of all further steps in one call. -/
theorem Sound.collect (h : r.Sound l whole) {taken : List KeyValue} {failure : Option Error}
    (hcollect : r.collect holdsBroker between = some (taken, failure)) :
    r.listing.Draining l.latest (.done (.drained taken failure)) := by
  have hstep : ∀ early m call next, early ++ [m] <+: between →
      r.listing.Draining l.latest (.ask call) →
      System.Resumes
        ((r.system.launch (Call.continueDrain r.listing []) holdsBroker).1.moves early) call
        ((r.system.launch (Call.continueDrain r.listing []) holdsBroker).1.moves
          (early ++ [m])).store next →
      r.listing.Draining l.latest next := by
    intro early m call next _ hdraining hresumes
    obtain ⟨rest, taken, rfl, hrevision⟩ : ∃ rest taken, call = .drain rest taken ∧
        rest.revision = r.listing.revision := by
      cases hdraining with
      | asks reads revision => exact ⟨_, _, rfl, revision⟩
    rcases hresumes.drain with ⟨e, rfl⟩ | ⟨page, houtcome, rfl⟩
    · exact hdraining.error e
    · exact hdraining.drainPage (h.page_eq hrevision
        (.launch (Call.continueDrain r.listing []) holdsBroker :: early) houtcome)
  unfold Reader.collect at hcollect
  simp only at hcollect
  split at hcollect
  · next taken' failure' system htake =>
    obtain ⟨rfl, rfl⟩ := Prod.mk.inj (Option.some.inj hcollect)
    exact (System.answer_of_launch h.genuine h.booked h.reads.draining hstep htake).1
  · cases hcollect

/-! ### Opening -/

/-- The call that opens a listing answers with the first page of what the store holds at some
moment of the call. -/
theorem openedBy_of_answer {s t : System} {opening listing : Listing} {turn : Turn}
    (hgenuine : s.wiring.Genuine) (hbooked : s.desk.Booked)
    (hturn : turn = .ask (.list opening) ∨ ∃ why, turn = .done (.aborted why))
    (hopened : ((s.launch turn holdsBroker).1.moves between).takeAnswer
      (s.launch turn holdsBroker).2 = some (.listing (.ok listing), t)) :
    ∃ early, early <+: between ∧
      listing = opening.openedBy
        (((s.launch turn holdsBroker).1.moves early).store.ledger.latest.page
          ((s.launch turn holdsBroker).1.moves early).store.ledger.revision (opening.query none)) ∧
      t = s.moves (.launch turn holdsBroker :: (between ++ [.take s.nextCall])) := by
  let begun := (s.launch turn holdsBroker).1
  let given (page : Page) : Prop := ∃ early, early <+: between ∧
    page = (begun.moves early).store.ledger.latest.page (begun.moves early).store.ledger.revision
      (opening.query none)
  have hstart : opening.Opening given turn := by
    rcases hturn with rfl | ⟨why, rfl⟩
    · exact .asks
    · exact .aborts why
  have hstep : ∀ early m call next, early ++ [m] <+: between → opening.Opening given (.ask call) →
      (begun.moves early).Resumes call (begun.moves (early ++ [m])).store next →
        opening.Opening given next := by
    intro early m call next hearly hopening hresumes
    obtain rfl : call = .list opening := by
      cases hopening with
      | asks => rfl
    rcases hresumes.list with ⟨e, rfl⟩ | ⟨page, houtcome, hstore, rfl⟩
    · exact .fails e
    · refine .opens ⟨early ++ [m], hearly, ?_⟩
      obtain ⟨hledger, hpage⟩ := Store.serve_range_of_ok houtcome
      rw [← hledger, ← hstore] at hpage
      obtain ⟨hrevision, _, _, heq⟩ := Ledger.page_of_ok hpage
      have hlatest : page.revision = (begun.moves (early ++ [m])).store.ledger.revision := hrevision
      rw [hlatest] at heq
      exact heq
  obtain ⟨hanswer, hsystem⟩ := System.answer_of_launch hgenuine hbooked hstart hstep hopened
  cases hanswer with
  | opens first =>
    obtain ⟨early, hearly, rfl⟩ := first
    exact ⟨early, hearly, rfl, hsystem⟩

/-- A listing with the first page of what a ledger holds reads the latest snapshot of the
ledger. -/
theorem sound_openedBy {t : System} (l : Ledger) (scope stem : Key) {pageSize : Nat}
    (keysOnly : Bool) (hgenuine : t.wiring.Genuine) (hbooked : t.desk.Booked)
    (hlater : ∃ events, l.Later t.store.ledger events) (hsize : 0 < pageSize) :
    let opening : Listing := .opening scope stem pageSize keysOnly
    let page := l.latest.page l.revision (opening.query none)
    Sound { system := t, listing := opening.openedBy page } l
      (Listing.whole l.latest scope stem keysOnly) := by
  intro opening page
  have hopening := Listing.reads_opening l.latest scope stem hsize keysOnly
  have hremaining : opening.remaining l.latest = Listing.whole l.latest scope stem keysOnly :=
    Listing.remaining_opening l.latest scope stem pageSize keysOnly
  have habsorb := hopening.absorb l.revision none
  exact {
    genuine := hgenuine
    booked := hbooked
    later := hlater
    reads := { habsorb with }
    revision := Snapshot.revision_page ..
    account := by
      rw [← hremaining, List.nil_append]
      exact hopening.remaining_absorb _ none }

/-- A call that opens a listing asks for its first page, unless the page buffer does not fit. -/
theorem beginList_cases (settings : Settings) (scope stem : Key) (keysOnly : Bool) :
    Call.beginList settings scope stem keysOnly .list =
        .ask (.list (.opening scope stem settings.pageSize keysOnly)) ∨
      ∃ why, Call.beginList settings scope stem keysOnly .list = .done (.aborted why) := by
  unfold Call.beginList
  split
  · exact .inl rfl
  · exact .inr ⟨_, rfl⟩

/-- A listing that was opened has the first page of what the store held at some moment of the
call, and the store has gone on from there. -/
theorem opened_of_answer {s t : System} {settings : Settings} {scope stem : Key} {keysOnly : Bool}
    {listing : Listing} (hgenuine : s.wiring.Genuine) (hbooked : s.desk.Booked)
    (hlater : ∃ events, Ledger.Later {} s.store.ledger events)
    (hopened : ((s.launch (Call.beginList settings scope stem keysOnly .list)
        holdsBroker).1.moves between).takeAnswer
      (s.launch (Call.beginList settings scope stem keysOnly .list) holdsBroker).2 =
        some (.listing (.ok listing), t)) :
    ∃ early l, early <+: between ∧
      ((s.launch (Call.beginList settings scope stem keysOnly .list) holdsBroker).1.moves
        early).store.ledger = l ∧
      listing = (Listing.opening scope stem settings.pageSize keysOnly).openedBy
        (l.latest.page l.revision
          ((Listing.opening scope stem settings.pageSize keysOnly).query none)) ∧
      t.wiring.Genuine ∧ t.desk.Booked ∧ ∃ events, l.Later t.store.ledger events := by
  let first : Move := .launch (Call.beginList settings scope stem keysOnly .list) holdsBroker
  obtain ⟨early, hearly, rfl, rfl⟩ := openedBy_of_answer hgenuine hbooked
    (beginList_cases settings scope stem keysOnly) hopened
  refine ⟨early, _, hearly, rfl, rfl, System.genuine_moves hgenuine _,
    System.booked_moves hgenuine hbooked _, ?_⟩
  obtain ⟨rest, rfl⟩ := hearly
  have hgenuine' := System.genuine_moves hgenuine (first :: early)
  obtain ⟨_, hledger⟩ := System.later_moves hgenuine hlater (first :: early)
  -- what happened after the page was given is what the store has gone on by
  have hsplit : first :: (early ++ rest ++ [.take s.nextCall]) =
      (first :: early) ++ (rest ++ [.take s.nextCall]) := by
    rw [List.cons_append, List.append_assoc]
  rw [hsplit, System.moves_append]
  exact System.later_moves hgenuine' ⟨[], .refl hledger.floor hledger.bounded⟩ _

/-- A listing that was opened reads the snapshot that the store held when it gave the first
page. -/
theorem sound_opened {s t : System} {begun : System × Nat} {settings : Settings} {scope stem : Key}
    {keysOnly : Bool} {listing : Listing} (hgenuine : s.wiring.Genuine) (hbooked : s.desk.Booked)
    (hlater : ∃ events, Ledger.Later {} s.store.ledger events) (hsize : 0 < settings.pageSize)
    (hbegun : begun = s.launch (Call.beginList settings scope stem keysOnly .list) holdsBroker)
    (hopened : (begun.1.moves between).takeAnswer begun.2 = some (.listing (.ok listing), t)) :
    ∃ early, early <+: between ∧
      Sound { system := t, listing } (begun.1.moves early).store.ledger
        (Listing.whole (begun.1.moves early).store.ledger.latest scope stem keysOnly) := by
  subst hbegun
  obtain ⟨early, l, hearly, rfl, rfl, hgenuine', hbooked', hlater'⟩ :=
    opened_of_answer hgenuine hbooked hlater hopened
  exact ⟨early, hearly, sound_openedBy _ scope stem keysOnly hgenuine' hbooked' hlater' hsize⟩

/-! ### A broker that serves -/

/-- Launching a call leaves a system that serves, and a sound reader. -/
theorem Sound.launched (h : r.Sound l whole) (hserves : r.system.Serves) (turn : Turn)
    (holdsBroker : Bool) :
    (r.system.launch turn holdsBroker).1.Serves ∧
      Sound { r with system := (r.system.launch turn holdsBroker).1 } l whole :=
  ⟨hserves.congr (System.wiring_launch ..), h.withSystem [.launch turn holdsBroker] rfl⟩

/-- A step is answered once its call stands at an answer. -/
theorem next_of_standing (between : List Move) {later : Listing}
    (h : ((r.system.launch (Call.beginNext r.listing) holdsBroker).1.moves between).desk.standing
      r.system.nextCall = some (.done (.stepped later result))) :
    ∃ r', r.next holdsBroker between = some (r', result) := by
  have htake := System.takeAnswer_of_standing h
  rw [← System.launch_id r.system (Call.beginNext r.listing) holdsBroker] at htake
  simp only [Reader.next, htake]
  exact ⟨_, rfl⟩

/-- A call that stands at the end of its listing gives the reader what it has collected. -/
theorem collect_of_standing {taken : List KeyValue} {failure : Option Error}
    (h : ((r.system.launch (Call.continueDrain r.listing []) holdsBroker).1.moves
      between).desk.standing r.system.nextCall = some (.done (.drained taken failure))) :
    r.collect holdsBroker between = some (taken, failure) := by
  have htake := System.takeAnswer_of_standing h
  rw [← System.launch_id r.system (Call.continueDrain r.listing []) holdsBroker] at htake
  simp only [Reader.collect, htake]

/-- When the broker serves, a step is answered with its first poll. -/
theorem Sound.serves (h : r.Sound l whole) (hserves : r.system.Serves) (reportFirst : Bool) :
    ∃ r' result, r.next holdsBroker [.poll (.call r.system.nextCall) reportFirst] =
        some (r', result) ∧
      result =
        if r.listing.needsPage = true ∧ l.revision < r.system.store.ledger.compacted then
          .error (.snapshotCompacted l.revision r.system.store.ledger.compacted)
        else .ok (r.listing.remaining l.latest).head? := by
  obtain ⟨hserves', hsound⟩ := h.launched hserves (Call.beginNext r.listing) holdsBroker
  have hstart := System.standing_launch h.booked (Call.beginNext r.listing) holdsBroker
  have hstanding : ∃ later result,
      ((r.system.launch (Call.beginNext r.listing) holdsBroker).1.pollCall
        r.system.nextCall).desk.standing r.system.nextCall =
          some (.done (.stepped later result)) ∧
        result =
          if r.listing.needsPage = true ∧ l.revision < r.system.store.ledger.compacted then
            .error (.snapshotCompacted l.revision r.system.store.ledger.compacted)
          else .ok (r.listing.remaining l.latest).head? := by
    have hledger : (r.system.launch (Call.beginNext r.listing) holdsBroker).1.store =
        r.system.store := congrArg Wiring.store (System.wiring_launch ..)
    by_cases hneeds : r.listing.needsPage = true
    · have hbegin : Call.beginNext r.listing = .ask (.next r.listing) := if_pos hneeds
      have hcall := System.call?_launch h.booked (.next r.listing) holdsBroker
      rw [← hbegin] at hcall
      obtain ⟨later, result, hdone, _, hresult⟩ := hserves'.standing_next hsound.booked
        hsound.later h.reads h.revision hneeds hcall rfl rfl
      rw [hledger] at hresult
      refine ⟨later, result, hdone, ?_⟩
      simp only [hneeds, true_and]
      exact hresult
    · have hbegin : Call.beginNext r.listing =
          .done (.stepped r.listing.take.1 r.listing.take.2) := if_neg hneeds
      rw [hbegin] at hstart ⊢
      rw [System.pollCall_of_answered hstart]
      refine ⟨_, _, hstart, ?_⟩
      rw [if_neg fun hboth => hneeds hboth.1]
      exact (h.reads.take (h.reads.held (eq_false_of_ne_true hneeds))).1
  obtain ⟨later, result, hdone, hresult⟩ := hstanding
  obtain ⟨r', hnext⟩ := next_of_standing [.poll (.call r.system.nextCall) reportFirst] hdone
  exact ⟨r', result, hnext, hresult⟩

/-- When the broker serves, all further steps are answered after finitely many polls. -/
theorem Sound.collects (h : r.Sound l whole) (hserves : r.system.Serves) (reportFirst : Bool) :
    ∃ polls taken, r.collect holdsBroker
        (.replicate polls (.poll (.call r.system.nextCall) reportFirst)) =
      some (taken,
        if r.listing.more = true ∧ l.revision < r.system.store.ledger.compacted then
          some (.snapshotCompacted l.revision r.system.store.ledger.compacted)
        else none) := by
  obtain ⟨hserves', hsound⟩ := h.launched hserves (Call.continueDrain r.listing [])
    holdsBroker
  have hstart := System.standing_launch h.booked (Call.continueDrain r.listing []) holdsBroker
  have hturn := h.reads.continueDrain_eq []
  have hstore : (r.system.launch (Call.continueDrain r.listing []) holdsBroker).1.store =
      r.system.store := congrArg Wiring.store (System.wiring_launch ..)
  by_cases hmore : r.listing.more = true
  · rw [if_pos hmore] at hturn
    have hcall := System.call?_launch h.booked (.drain { r.listing with buffer := [] }
      ([] ++ r.listing.buffer.map (·.within r.listing.scope))) holdsBroker
    rw [← hturn] at hcall
    obtain ⟨polls, taken, hdone⟩ := hserves'.drains hsound.genuine hsound.booked hsound.later
      h.reads.emptied h.revision (Nat.lt_succ_self _) hcall rfl rfl reportFirst
    rw [hstore] at hdone
    refine ⟨polls, taken, ?_⟩
    simp only [hmore, true_and]
    exact collect_of_standing hdone
  · rw [if_neg hmore] at hturn
    rw [hturn] at hstart
    refine ⟨0, [] ++ r.listing.buffer.map (·.within r.listing.scope), ?_⟩
    rw [if_neg fun hboth => hmore hboth.1]
    refine collect_of_standing ?_
    rw [hturn]
    exact hstart

end Reader

end KeyBroker
