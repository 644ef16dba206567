import KeyBroker.Proofs.System.Without

/-!
# What calls leave behind

A write whose answer is a failure leaves nothing behind: the run comes to the same as
the run in which the call is not made, save that whoever made it keeps the broker for as
long as the call took. A write that succeeds leaves what its request does when it is made once
and directly. A read leaves no more than deletions of keys whose time was over.
-/

namespace KeyBroker

/-- Whether a call is a write. -/
def Call.writes : Call → Bool
  | .put .. | .delete .. | .deletePrefix .. | .commit .. => true
  | _ => false

/-- Whether a call is a read. -/
def Call.reads : Call → Bool
  | .get .. | .list .. | .listAll .. | .next .. | .drain .. => true
  | _ => false

/-- The turns that writes begin with, on a broker that is `stopped` or not. -/
inductive Turn.Writes (stopped : Bool) : Turn → Prop where
  | put (scope key : Key) (value : Bytes) (ttl : Option Duration) :
    Writes stopped (Call.beginPut scope key value ttl)
  | delete (scope key : Key) : Writes stopped (Call.beginDelete scope key)
  | deletePrefix (scope stem : Key) : Writes stopped (.ask (.deletePrefix scope stem))
  | commit (batch : Batch) : Writes stopped (Call.beginCommit batch stopped)

/-- The turns that reads begin with. -/
inductive Turn.Reads (settings : Settings) : Turn → Prop where
  | get (scope key : Key) : Reads settings (.ask (.get scope key))
  | list (scope stem : Key) (keysOnly : Bool) :
    Reads settings (Call.beginList settings scope stem keysOnly .list)
  | listAll (scope stem : Key) (keysOnly : Bool) :
    Reads settings (Call.beginList settings scope stem keysOnly .listAll)
  | next (listing : Listing) : Reads settings (Call.beginNext listing)
  | drain (listing : Listing) : Reads settings (Call.continueDrain listing [])

/-- A write makes a request, or is over. -/
theorem Turn.Writes.cases {stopped : Bool} {turn : Turn} (h : turn.Writes stopped) :
    (∃ call, turn = .ask call ∧ call.writes = true) ∨ ∃ answer, turn = .done answer := by
  cases h with
  | put scope key value ttl =>
    unfold Call.beginPut
    split
    · exact .inr ⟨_, rfl⟩
    · exact .inl ⟨_, rfl, rfl⟩
  | delete scope key =>
    unfold Call.beginDelete
    split
    · exact .inr ⟨_, rfl⟩
    · exact .inl ⟨_, rfl, rfl⟩
  | deletePrefix scope stem => exact .inl ⟨_, rfl, rfl⟩
  | commit batch =>
    unfold Call.beginCommit
    split
    · exact .inr ⟨_, rfl⟩
    · exact .inl ⟨_, rfl, rfl⟩

/-- Going on with a listing makes a request, or is over. -/
theorem Call.continueDrain_cases (listing : Listing) (taken : List KeyValue) :
    (∃ call, continueDrain listing taken = .ask call ∧ call.reads = true) ∨
      ∃ answer, continueDrain listing taken = .done answer := by
  unfold continueDrain
  split
  · exact .inr ⟨_, rfl⟩
  · simp only
    split
    · exact .inl ⟨_, rfl, rfl⟩
    · exact .inr ⟨_, rfl⟩

/-- A read makes a request, or is over. -/
theorem Turn.Reads.cases {settings : Settings} {turn : Turn} (h : turn.Reads settings) :
    (∃ call, turn = .ask call ∧ call.reads = true) ∨ ∃ answer, turn = .done answer := by
  cases h with
  | get scope key => exact .inl ⟨_, rfl, rfl⟩
  | list scope stem keysOnly =>
    unfold Call.beginList
    split
    · exact .inl ⟨_, rfl, rfl⟩
    · exact .inr ⟨_, rfl⟩
  | listAll scope stem keysOnly =>
    unfold Call.beginList
    split
    · exact .inl ⟨_, rfl, rfl⟩
    · exact .inr ⟨_, rfl⟩
  | next listing =>
    unfold Call.beginNext
    split
    · exact .inl ⟨_, rfl, rfl⟩
    · exact .inr ⟨_, rfl⟩
  | drain listing => exact Call.continueDrain_cases listing []

/-- A write that succeeds without a request is the commit of a batch without writes. -/
theorem Turn.Writes.of_done {stopped : Bool} {answer : Answer}
    (h : Turn.Writes stopped (.done answer)) (hok : answer.failure? = none) :
    ∃ batch : Batch, batch.writes = [] ∧ Call.beginCommit batch stopped = .done answer := by
  generalize hturn : Turn.done answer = turn at h
  cases h with
  | put scope key value ttl =>
    unfold Call.beginPut at hturn
    split at hturn
    · obtain rfl := Turn.done.inj hturn
      cases hok
    · cases hturn
  | delete scope key =>
    unfold Call.beginDelete at hturn
    split at hturn
    · obtain rfl := Turn.done.inj hturn
      cases hok
    · cases hturn
  | deletePrefix scope stem => cases hturn
  | commit batch =>
    refine ⟨batch, ?_, rfl⟩
    simp only [Call.beginCommit] at hturn
    split at hturn
    · next after result hcommit =>
      obtain rfl := Turn.done.inj hturn
      simp only [Batch.commit] at hcommit
      split at hcommit
      · obtain ⟨_, rfl⟩ := Prod.mk.inj hcommit |>.imp_right Batch.Decision.settled.inj
        cases hok
      · split at hcommit
        · obtain ⟨_, rfl⟩ := Prod.mk.inj hcommit |>.imp_right Batch.Decision.settled.inj
          cases hok
        · split at hcommit
          · obtain ⟨_, rfl⟩ := Prod.mk.inj hcommit |>.imp_right Batch.Decision.settled.inj
            cases hok
          · split at hcommit
            · next hempty => exact hempty
            · cases (Prod.mk.inj hcommit).2
    · cases hturn

namespace System

variable {id : Nat} {s t : System} {c : InFlight} {st : Fated} {run : List Fated}

/-! ### Reads -/

/-- Deletes the keys whose time is over, and does nothing else: a request for the empty key,
which no write can name. -/
def sweep : Move := .ask (.get [])

/-- The store once the keys whose time is over are deleted, if it can be reached. -/
def swept (s : Store) (now : Nat) : Store :=
  if s.refusal.isNone then
    Store.emitAll { s with ledger := (s.ledger.expire now).1 } (s.ledger.expire now).2
  else s

/-- Reading a key does nothing to a store but let expired keys go. -/
theorem serve_get (s : Store) (now : Nat) (key : Key) :
    (s.serve now (.get key)).store = swept s now ∧
      s.events now (.get key) = if s.refusal.isNone then (s.ledger.expire now).2 else [] := by
  unfold swept Store.events Store.answers
  cases hrefusal : s.refusal with
  | some error => simp [Store.serve, Request.namesEmptyKey, hrefusal]
  | none =>
    simp [Store.serve, Request.namesEmptyKey, hrefusal, Store.perform, Store.adopt, Ledger.get,
      Ledger.serve]

/-- Reading a range does nothing to a store but let expired keys go. -/
theorem serve_range (s : Store) (now : Nat) (query : RangeQuery) :
    (s.serve now (.range query)).store = swept s now ∧
      s.events now (.range query) = if s.refusal.isNone then (s.ledger.expire now).2 else [] := by
  unfold swept Store.events Store.answers
  cases hrefusal : s.refusal with
  | some error => simp [Store.serve, Request.namesEmptyKey, hrefusal]
  | none =>
    simp [Store.serve, Request.namesEmptyKey, hrefusal, Store.perform, Store.adopt, Ledger.range,
      Ledger.serve]

/-- A read does to the store what a sweep does. -/
theorem serve_read (s : Store) (now : Nat) {call : Call} (hreads : call.reads = true) :
    (s.serve now call.request).store = (s.serve now (.get [])).store ∧
      s.events now call.request = s.events now (.get []) := by
  obtain ⟨hstore, hevents⟩ := serve_get s now []
  rw [hstore, hevents]
  cases call with
  | get scope key => exact serve_get s now _
  | list | listAll | next | drain => exact serve_range s now _
  | _ => cases hreads

/-- A sweep stands for a request with the same effect. -/
theorem Replaces.ask {call : Call} {service : Service} {request : Request service}
    (h : Alike id s t) (hwatch : call.service ≠ .watch)
    (hsame : (s.store.serve s.instant call.request).store =
        (s.store.serve s.instant request).store ∧
      s.store.events s.instant call.request = s.store.events s.instant request)
    (hscript : s.script = []) : Replaces id s call t [.ask request] := by
  have hunder : t.under (.plain (.ask request)) = t := by
    have hempty : { t with script := [] } = t := by rw [← hscript, h.script]
    exact hempty
  have hcarried : Alike id (s.carriedOut call) (s.serveDirectly request).1 := by
    refine Alike.trans ?_ (Alike.wakeReaders _ _).symm
    exact { Alike.refl id s with store := hsame.1 }
  have hdirect := h.serveDirectly request
  constructor
  · simp only [List.map_cons, List.map_nil, fates, List.foldl_cons, List.foldl_nil, fate]
    rw [hunder]
    have hall := hcarried.trans hdirect
    exact { hall with script := hscript }
  · have hcomes : s.comesOf call = (s.store.events s.instant call.request).map .committed := by
      cases call with
      | watch | watchAll => exact absurd rfl hwatch
      | _ => exact List.append_nil _
    simp only [List.map_cons, List.map_nil, fatedHappenings, List.append_nil]
    rw [hunder, hcomes, hsame.2, h.store, h.instant]
    rfl

/-- The further requests of a read are reads. -/
theorem answered_read (u : System) {call next : Call} (hreads : call.reads = true)
    (reply : Except Error call.service.Reply)
    (hnext : (System.answered u call reply).2 = .ask next) : next.reads = true := by
  have hdrain (listing : Listing) (taken : List KeyValue)
      (h : Call.continueDrain listing taken = .ask next) : next.reads = true := by
    rcases Call.continueDrain_cases listing taken with ⟨call, hturn, hcall⟩ | ⟨answer, hturn⟩
    · rw [hturn] at h
      exact Turn.ask.inj h ▸ hcall
    · rw [hturn] at h
      cases h
  cases call with
  | listAll listing =>
    cases reply with
    | error e => cases hnext
    | ok page => exact hdrain _ _ hnext
  | drain listing taken =>
    cases reply with
    | error e => cases hnext
    | ok page =>
      simp only [answered, Call.drainPage] at hnext
      split at hnext
      · cases hnext
      · exact hdrain _ _ hnext
  | next listing => cases reply <;> cases hnext
  | get | list => cases hnext
  | _ => cases hreads

/-- No read is a watch. -/
theorem service_of_reads {call : Call} (hreads : call.reads = true) : call.service ≠ .watch := by
  cases call <;> simp_all [Call.reads]

/-- A read leaves a sweep in the place of each of its requests. -/
theorem matches_read (h : Alike id s t) (hs : s.InOrder) (hid : id < s.nextCall)
    (hreads : ∀ c, s.desk.call? id = some c → c.call.reads = true) (run : List Fated) :
    Matches id s run t (s.without id [sweep] run) := by
  refine matches_without (P := fun call => call.reads = true) (fun _ => service_of_reads)
    (fun u call reply next hcall hnext => answered_read u hcall reply hnext)
    (fun u v call hcall hu halike => ?_) h hs hid hreads run
  exact Replaces.ask halike (service_of_reads hcall) (serve_read u.store u.instant hcall) hu

/-! ### Writes -/

/-- No write is a watch. -/
theorem service_of_writes {call : Call} (hwrites : call.writes = true) : call.service ≠ .watch := by
  cases call <;> simp_all [Call.writes]

/-- A write is over with the first reply, and its answer is a failure just if the reply is. -/
theorem answered_write (u : System) {call : Call} (hwrites : call.writes = true)
    (reply : Except Error call.service.Reply) :
    ∃ answer, (System.answered u call reply).2 = .done answer ∧
      (∀ e, reply = .error e → answer.failure? = some e) ∧
      ∀ value, reply = .ok value → answer.failure? = none := by
  cases call with
  | put | delete | deletePrefix | commit =>
    refine ⟨_, rfl, ?_, ?_⟩
    · intro e he
      rw [he]
      rfl
    · intro value hvalue
      rw [hvalue]
      rfl
  | _ => cases hwrites

/-- The answer of a write does not depend on the system. -/
theorem answered_write_eq (u v : System) {call : Call} (hwrites : call.writes = true)
    (reply : Except Error call.service.Reply) :
    (System.answered u call reply).2 = (System.answered v call reply).2 := by
  cases call with
  | put | delete | deletePrefix | commit => rfl
  | _ => cases hwrites

/-- A put that reaches the ledger does not fail. -/
theorem put_ne_failed (l : Ledger) (now : Nat) (key : Key) (value : Bytes) (ttl : Option Duration)
    (error : StorageError) : (l.put now key value ttl).result ≠ .failed error := by
  unfold Ledger.put
  intro h
  cases ttl with
  | none => cases h
  | some ttl =>
    simp only at h
    split at h <;> cases h

/-- A write that the store fails has no effect: the store fails it before it looks at its
ledger, or not at all. -/
theorem serve_failed_write {store : Store} {now : Nat} {call : Call} (hwrites : call.writes = true)
    {error : StorageError} (h : (store.serve now call.request).outcome = .failed error) :
    (store.serve now call.request).store = store ∧ store.events now call.request = [] := by
  cases hanswers : store.answers call.request with
  | false =>
    obtain ⟨refusal, heq⟩ := Store.serve_of_not_answers now hanswers
    constructor
    · rw [heq]
    · simp [Store.events, hanswers]
  | true =>
    cases call with
    | put scope key value ttl =>
      rw [Store.serve_of_answers now hanswers fun h => by cases h] at h
      exact absurd h (put_ne_failed _ _ _ _ _ _)
    | delete scope key =>
      rw [Store.serve_of_answers now hanswers fun h => by cases h] at h
      cases h
    | deletePrefix scope stem =>
      rw [Store.serve_of_answers now hanswers fun h => by cases h] at h
      cases h
    | commit batch writes =>
      rw [Store.serve_of_answers now hanswers fun h => by cases h] at h
      cases h
    | _ => cases hwrites

/-- In the run without the call its request is made once and directly, between `early` and
`late`; the store answers it, that is the answer of the call, and all comes to the same. -/
structure AppliedOnce (id : Nat) (s : System) (run : List Fated) (t : System) (call : Call)
    (answer : Answer) : Prop where
  applied : ∃ early late reply, s.without id [] run = early ++ late ∧
    ((t.fates early).store.serve (t.fates early).instant call.request).outcome = .ok reply ∧
    (t.answered call (.ok reply)).2 = .done answer ∧
    Matches id s run t (early ++ .plain (.ask call.request) :: late)

/-- How a run with a write compares with the run without it. -/
inductive Wrote (id : Nat) (s : System) (run : List Fated) (t : System) (call : Call) : Prop where
  /-- It came to nothing: it has failed, or has not ended. -/
  | failed (same : Matches id s run t (s.without id [] run))
    (answer : ∀ answer, s.answerOf id run = some answer → ∃ e, answer.failure? = some e)
  | applied (answer : Answer) (got : s.answerOf id run = some answer)
    (good : answer.failure? = none) (once : AppliedOnce id s run t call answer)
  | aborted (why : Abort) (got : s.answerOf id run = some (.aborted why))

/-- A call without an answer gets it, if at all, in what the run does after the next move. -/
theorem answerOf_cons (hanswer : s.answer? id = none) (st : Fated) (run : List Fated) :
    s.answerOf id (st :: run) = (s.fate st).answerOf id run := by
  rw [answerOf, hanswer, Option.none_or]

/-- A step that leaves a write under way, or does not concern it, changes nothing in the
comparison. -/
theorem Wrote.cons {call : Call} (hanswer : s.answer? id = none) {kept : List Fated}
    (hkept : (if st.polls id then (s.remains id [] st).map .plain else [st]) = kept)
    (first : Matches id s [st] t kept)
    (rest : Wrote id (s.fate st) run (t.fates kept) call) (hwrites : call.writes = true) :
    Wrote id s (st :: run) t call := by
  have hwithout : s.without id [] (st :: run) = kept ++ (s.fate st).without id [] run := by
    rw [without, hkept]
  have hgot := answerOf_cons hanswer st run
  cases rest with
  | failed same answer =>
    refine .failed ?_ fun a ha => answer a (hgot ▸ ha)
    rw [hwithout]
    exact first.append same
  | applied answer got good once =>
    obtain ⟨early, late, reply, hsplit, hserved, hanswered, hmatches⟩ := once.applied
    refine .applied answer (hgot ▸ got) good ⟨kept ++ early, late, reply, ?_, ?_, ?_, ?_⟩
    · rw [hwithout, hsplit, List.append_assoc]
    · rw [fates_append]
      exact hserved
    · rw [answered_write_eq t (t.fates kept) hwrites]
      exact hanswered
    · rw [List.append_assoc]
      exact first.append hmatches
  | aborted why got => exact .aborted why (hgot ▸ got)

/-- A call that has its answer gets no other in the rest of the run. -/
theorem answerOf_of_answer? {answer : Answer} (h : s.answer? id = some answer) (run : List Fated) :
    s.answerOf id run = some answer := by
  cases run with
  | nil => exact h
  | cons st run => rw [answerOf, h, Option.some_or]

/-- A write that the store fails is replaced by nothing. -/
theorem Replaces.nothing {call : Call} (h : Alike id s t) (hwrites : call.writes = true)
    {error : StorageError}
    (hfailed : (s.store.serve s.instant call.request).outcome = .failed error) :
    Replaces id s call t [] := by
  obtain ⟨hstore, hevents⟩ := serve_failed_write hwrites hfailed
  constructor
  · refine Alike.trans ?_ h
    exact { Alike.refl id s with store := hstore }
  · cases call with
    | put | delete | deletePrefix | commit =>
      simp only [comesOf, hevents]
      rfl
    | _ => cases hwrites

/-- A write that has ended in a step goes on to match. -/
theorem Matches.ends {answer : Answer} {kept : List Fated} (first : Matches id s [st] t kept)
    (hs : s.InOrder) (hid : id < s.nextCall)
    (hended : (s.fate st).desk.standing id = some (.done answer)) (run : List Fated) :
    Matches id s (st :: run) t (kept ++ (s.fate st).without id [] run) := by
  have hnone := (isNone_call?_iff hended).2 ⟨answer, rfl⟩
  exact first.append (matches_ended first.alike (hs.fate st)
    (Nat.lt_of_lt_of_le hid (nextCall_fate s st)) (Option.isNone_iff_eq_none.1 hnone) [] run)

/-- The poll in which the store carries out the request of a write decides what comes of it. -/
theorem wrote_of_acts (h : Alike id s t) (hs : s.InOrder) (hid : id < s.nextCall)
    (hpolls : st.polls id = true) (hfound : s.desk.call? id = some c)
    (hwrites : c.call.writes = true) (hacts : (s.under st).actsOn c = true) (run : List Fated) :
    Wrote id s (st :: run) t c.call := by
  have hcid := Desk.id_of_call? hfound
  have hanswer := answer?_of_call? hs hfound
  obtain ⟨turn, hadvances, hmatches⟩ := Matches.poll h hs hpolls hfound (service_of_writes hwrites)
  have hstands := hadvances.stands
  have hresumes := hadvances.resumes hacts
  have hinstant : (s.under st).instant = s.instant := rfl
  have hstore : (s.under st).store = s.store := rfl
  rw [hcid] at hstands
  rw [hinstant, hstore] at hresumes
  have hremains (left : List Move) : s.remains id left st = left ++ s.remains id [] st := by
    simp only [remains, hfound, hacts, if_true, List.nil_append]
  have hwithout : s.without id [] (st :: run) =
      (s.remains id [] st).map Fated.plain ++ (s.fate st).without id [] run := by
    rw [without, if_pos hpolls]
  generalize houtcome : (s.store.serve s.instant c.call.request).outcome = outcome at hresumes
  cases hresumes with
  -- the store took the request: in the run without the call it is made directly in its place
  | ok u reply =>
    obtain ⟨answer, hturn, _, hgood⟩ := answered_write u hwrites (.ok reply)
    rw [hturn] at hstands
    have hgot := answerOf_of_answer? (answer?_of_standing hstands) run
    have first := hmatches [.ask c.call.request] fun _ =>
      Replaces.ask h (service_of_writes hwrites) ⟨rfl, rfl⟩ hs.script
    have hall := first.ends hs hid hstands run
    refine .applied answer ?_ (hgood reply rfl) ⟨[], _, reply, hwithout, ?_, ?_, ?_⟩
    · rw [answerOf_cons hanswer, hgot]
    · have htime := h.instant
      simp only [fates, List.foldl_nil]
      rw [← h.store, ← htime, houtcome]
    · rw [answered_write_eq t u hwrites, hturn]
    · rw [hremains] at hall
      exact hall
  -- the store refused the request and left nothing: nothing stands in its place
  | failed u error =>
    obtain ⟨answer, hturn, hbad, _⟩ :=
      answered_write u hwrites (.error (c.call.service.failure error).1)
    rw [hturn] at hstands
    have hgot := answerOf_of_answer? (answer?_of_standing hstands) run
    have first := hmatches [] fun _ => Replaces.nothing h hwrites houtcome
    refine .failed ?_ fun a ha => ⟨(c.call.service.failure error).1, ?_⟩
    · rw [hwithout]
      exact first.ends hs hid hstands run
    · rw [answerOf_cons hanswer, hgot] at ha
      obtain rfl := Option.some.inj ha
      exact hbad _ rfl
  | aborted why =>
    have hgot := answerOf_of_answer? (answer?_of_standing hstands) run
    exact .aborted why (by rw [answerOf_cons hanswer, hgot])

/-- What comes of a write in a run. -/
theorem wrote (h : Alike id s t) (hs : s.InOrder) (hid : id < s.nextCall) {call : Call}
    (hwrites : call.writes = true) (hfound : s.desk.call? id = some c) (hcall : c.call = call)
    (run : List Fated) : Wrote id s run t call := by
  induction run generalizing s t c with
  | nil =>
    have hanswer := answer?_of_call? hs hfound
    refine .failed ⟨h, rfl⟩ fun answer hgot => ?_
    rw [answerOf, hanswer] at hgot
    cases hgot
  | cons st run ih =>
    subst hcall
    have hanswer := answer?_of_call? hs hfound
    have hid' : id < (s.fate st).nextCall := Nat.lt_of_lt_of_le hid (nextCall_fate s st)
    cases hpolls : st.polls id with
    -- a move that does not poll the call is the same in both runs
    | false =>
      have first := Matches.other h hpolls
      refine Wrote.cons hanswer (by rw [hpolls]; rfl) first ?_ hwrites
      refine ih first.alike (hs.fate st) hid' ?_ rfl
      rw [call?_fate_of_ne hid hpolls]
      exact hfound
    | true =>
      cases hacts : (s.under st).actsOn c with
      | true => exact wrote_of_acts h hs hid hpolls hfound hwrites hacts run
      -- a poll in which the store does not act: the call waits on, or fails for good
      | false =>
        obtain ⟨turn, hadvances, hmatches⟩ :=
          Matches.poll h hs hpolls hfound (service_of_writes hwrites)
        have first := hmatches [] fun hacted => by simp [hacts] at hacted
        have hstands := hadvances.stands
        rw [Desk.id_of_call? hfound] at hstands
        rcases hadvances.quiet hacts with rfl | ⟨u, e, hturn⟩
        · refine Wrote.cons hanswer (by rw [hpolls]; rfl) first ?_ hwrites
          cases hcall : (s.fate st).desk.call? id with
          | none =>
            obtain ⟨answer, hdone⟩ := (isNone_call?_iff hstands).1 (by rw [hcall]; rfl)
            cases hdone
          | some c' =>
            rw [standing_of_call? hcall] at hstands
            exact ih first.alike (hs.fate st) hid' hcall (Turn.ask.inj (Option.some.inj hstands))
        · obtain ⟨answer, hdone, hbad, _⟩ := answered_write u hwrites (.error e)
          rw [hturn, hdone] at hstands
          have hgot := answerOf_of_answer? (answer?_of_standing hstands) run
          refine .failed ?_ fun a ha => ⟨e, ?_⟩
          · rw [without, if_pos hpolls]
            exact first.ends hs hid hstands run
          · rw [answerOf_cons hanswer, hgot] at ha
            obtain rfl := Option.some.inj ha
            exact hbad e rfl

/-! ### Calls from the beginning of a run -/

/-- A system stays in order when a call is launched. -/
theorem InOrder.launch (hs : s.InOrder) (turn : Turn) (holdsBroker : Bool) :
    (s.launch turn holdsBroker).1.InOrder where
  script := by
    have hwiring := congrArg Wiring.script (wiring_launch s turn holdsBroker)
    exact hwiring.trans hs.script
  booked := by
    rw [desk_launch]
    exact hs.booked.begin turn holdsBroker

/-- Launching a call gives out one number. -/
theorem nextCall_launch (s : System) (turn : Turn) (holdsBroker : Bool) :
    (s.launch turn holdsBroker).1.nextCall = s.nextCall + 1 := by
  have hdesk := congrArg Desk.nextCall (desk_launch s turn holdsBroker)
  cases turn <;> exact hdesk

/-- A call that has just begun is all that is new. -/
theorem alike_launch (s : System) (turn : Turn) (holdsBroker : Bool) :
    Alike s.nextCall (s.launch turn holdsBroker).1 (s.spare turn holdsBroker) := by
  cases turn with
  | done answer =>
    have hnoted := @Alike.noteAll s.nextCall { s with nextCall := s.nextCall + 1 } answer.notices
    refine { hnoted with holders := rfl, finished := ?_ }
    simp only [System.launch, spare, List.filter_append]
    simp
  | ask call =>
    let started : System :=
      { s with
        nextCall := s.nextCall + 1
        calls := s.calls ++ [{ id := s.nextCall, call, holdsBroker }]
        holders := if holdsBroker then s.holders + 1 else s.holders }
    have hwoken : Alike s.nextCall (s.launch (.ask call) holdsBroker).1 started := Alike.wake _ _
    have hstarted : Alike s.nextCall started (s.spare (.ask call) holdsBroker) := by
      refine { Alike.refl s.nextCall s with
        nextCall := rfl, holders := hwoken.holders.symm, calls := ?_ }
      simp only [started, List.filter_append, spare]
      simp
    exact hwoken.trans hstarted

/-- A call that is over at once is no call to the store. -/
theorem matches_launch_done (hs : s.InOrder) (answer : Answer) (holdsBroker : Bool)
    (left : List Move) (run : List Fated) :
    let begun := (s.launch (.done answer) holdsBroker).1
    Matches s.nextCall begun run (s.spare (.done answer) holdsBroker)
      (begun.without s.nextCall left run) := by
  intro begun
  have hid : s.nextCall < begun.nextCall := by
    rw [nextCall_launch]
    exact Nat.lt_succ_self _
  have hnone := (isNone_call?_iff (standing_launch hs.booked (.done answer) holdsBroker)).2
    ⟨answer, rfl⟩
  exact matches_ended (alike_launch s (.done answer) holdsBroker)
    (hs.launch (.done answer) holdsBroker) hid (Option.isNone_iff_eq_none.1 hnone) left run

/-- What the answer of a write says of its effect. -/
theorem Wrote.of_answer {call : Call} {run : List Fated} (h : Wrote id s run t call)
    {answer : Answer} (hanswer : s.answerOf id run = some answer) :
    (∀ e, answer.failure? = some e → Matches id s run t (s.without id [] run)) ∧
      (answer.failure? = none → (∀ why, answer ≠ .aborted why) →
        AppliedOnce id s run t call answer) := by
  cases h with
  | failed same bad =>
    obtain ⟨e, he⟩ := bad answer hanswer
    refine ⟨fun _ _ => same, fun hok => ?_⟩
    rw [he] at hok
    cases hok
  | applied given got good once =>
    rw [hanswer] at got
    obtain rfl := Option.some.inj got
    refine ⟨fun e he => ?_, fun _ _ => once⟩
    rw [good] at he
    cases he
  | aborted why got =>
    rw [hanswer] at got
    obtain rfl := Option.some.inj got
    exact ⟨fun e he => (by cases he), fun _ hnot => absurd rfl (hnot why)⟩

/-- A sweep leaves the store from which expired keys are gone, if it can be reached. -/
theorem store_sweep (u : System) : (u.move sweep).store = swept u.store u.instant :=
  ((@Alike.wakeReaders 0 { u with store := (u.store.serve u.instant (.get [])).store }
    (u.store.serve u.instant (.get [])).reached).store).trans (serve_get u.store u.instant []).1

/-- Calls that fail have no effect, and writes that succeed have the effect of their request.
Take any run of a broker, in which every request of any call may be delayed, lost or failed
by the store, the connection cut, the broker closed or dropped. When a write answers with an
error, the run comes to the same as the run without the call: the same store with all
versions, the same events, the same answers to all others. When it succeeds, then the run
comes to the same as the one in which the request is made once, directly, and answered so.
And of a read, whatever it answers, nothing remains but sweeps, which only delete keys whose
time is over. -/
theorem failed_calls_leave_nothing (settings : Settings) (before run : List Fated) (turn : Turn)
    (holdsBroker : Bool) :
    let s := fates { settings } before
    let begun := (s.launch turn holdsBroker).1
    let spared := s.spare turn holdsBroker
    (turn.Writes s.stopped → ∀ answer, begun.answerOf s.nextCall run = some answer →
      (∀ e, answer.failure? = some e →
        Matches s.nextCall begun run spared (begun.without s.nextCall [] run)) ∧
      (answer.failure? = none → (∀ why, answer ≠ .aborted why) →
        (∃ call, turn = .ask call ∧ AppliedOnce s.nextCall begun run spared call answer) ∨
        (∃ batch : Batch, batch.writes = [] ∧ turn = Call.beginCommit batch s.stopped ∧
          turn = .done answer ∧
          Matches s.nextCall begun run spared (begun.without s.nextCall [] run)))) ∧
    (turn.Reads settings →
      Matches s.nextCall begun run spared (begun.without s.nextCall [sweep] run) ∧
        ∀ u : System, (u.move sweep).store = swept u.store u.instant) := by
  intro s begun spared
  have hs : s.InOrder := (inOrder_new settings).fates before
  have hbegun : begun.InOrder := hs.launch turn holdsBroker
  have hid : s.nextCall < begun.nextCall := by
    have hnext : begun.nextCall = s.nextCall + 1 := nextCall_launch s turn holdsBroker
    omega
  have halike : Alike s.nextCall begun spared := alike_launch s turn holdsBroker
  refine ⟨fun hwrites answer hanswer => ?_, fun hreads => ⟨?_, store_sweep⟩⟩
  · rcases hwrites.cases with ⟨call, rfl, hcall⟩ | ⟨first, rfl⟩
    · have hfound := call?_launch hs.booked call holdsBroker
      obtain ⟨hfailed, honce⟩ := (wrote halike hbegun hid hcall hfound rfl run).of_answer hanswer
      exact ⟨hfailed, fun hok hnot => .inl ⟨call, rfl, honce hok hnot⟩⟩
    · have hsame := matches_launch_done hs first holdsBroker [] run
      refine ⟨fun _ _ => hsame, fun hok _ => .inr ?_⟩
      have hfirst : begun.answerOf s.nextCall run = some first :=
        answerOf_of_answer? (answer?_of_standing (standing_launch hs.booked _ holdsBroker)) run
      rw [hanswer] at hfirst
      obtain rfl := Option.some.inj hfirst
      obtain ⟨batch, hempty, hcommit⟩ := hwrites.of_done hok
      exact ⟨batch, hempty, hcommit.symm, rfl, hsame⟩
  · rcases hreads.cases with ⟨call, rfl, hcall⟩ | ⟨first, rfl⟩
    · refine matches_read halike hbegun hid (fun c hc => ?_) run
      have hfound := call?_launch hs.booked call holdsBroker
      rw [hfound] at hc
      obtain rfl := Option.some.inj hc
      exact hcall
    · exact matches_launch_done hs first holdsBroker [sweep] run

/-- The store never looks at a put; meanwhile the user of the broker lets go of it. The put
takes too long, and with its end the broker goes away, as it does without the put. -/
theorem failed_calls_leave_nothing_overdue :
    let turn := Call.beginPut [] ['k'] [1] none
    let lost : Fated :=
      { script := [{ service := .put, answer := .hang }]
        genuine := by simp [ScriptLine.invents]
        move := .poll (.call 0) false }
    let run : List Fated :=
      [lost, .plain .release, .plain (.pass 5), .plain (.poll (.call 0) false)]
    let settings : Settings := { requestTimeout := 5 }
    let s : System := { settings }
    let begun := (s.launch turn true).1
    let answer : Answer :=
      .written (.error (.storeUnavailable "put" (.timeout (.ofMillis 5))))
    turn.Writes s.stopped ∧ begun.answerOf 0 run = some answer ∧
      (begun.without 0 [] run).map (·.move) = [.release, .pass 5, .release] ∧
      (begun.fates run).stopped = true ∧
      Matches 0 begun run (s.spare turn true) (begun.without 0 [] run) := by
  intro turn lost run settings s begun answer
  have hwrites : turn.Writes s.stopped := .put [] ['k'] [1] none
  have hanswer : begun.answerOf 0 run = some answer := rfl
  have hmoves : (begun.without 0 [] run).map (·.move) = [.release, .pass 5, .release] := by rfl
  have hstopped : (begun.fates run).stopped = true := by decide +kernel
  obtain ⟨hwrite, _⟩ := failed_calls_leave_nothing settings [] run turn true
  obtain ⟨hfailed, _⟩ := hwrite hwrites answer hanswer
  exact ⟨hwrites, hanswer, hmoves, hstopped, hfailed _ rfl⟩

end System

end KeyBroker
