import KeyBroker.Proofs.Listing.Course

/-!
# Steps that fail

A step of a listing that fails because the store cannot be had leaves the listing as it was,
and the store too. So a run in which such steps are not made at all comes to the same: the
steps that are left have the same results, and the listing and all others end up where they
did.
-/

namespace KeyBroker

/-- Whether a step failed because the store could not be had. -/
def unavailable : Except Error (Option KeyValue) → Bool
  | .error (.storeUnavailable ..) => true
  | _ => false

/-- A step failed for want of the store if its result is that the store is unavailable. -/
theorem unavailable_iff {result : Except Error (Option KeyValue)} :
    unavailable result = true ↔
      ∃ during cause, result = .error (.storeUnavailable during cause) := by
  constructor
  · intro h
    unfold unavailable at h
    split at h
    · exact ⟨_, _, rfl⟩
    · cases h
  · rintro ⟨during, cause, rfl⟩
    rfl

/-- A listing does not lack the store for a pair that it holds. -/
theorem unavailable_take (listing : Listing) : unavailable listing.take.2 = false := by
  cases h : unavailable listing.take.2 with
  | false => rfl
  | true =>
    obtain ⟨during, cause, hresult⟩ := unavailable_iff.1 h
    obtain ⟨_, hforeign⟩ := Listing.foreign_of_take hresult
    cases hforeign

/-- A range that fails because the store cannot be had is not carried out. -/
theorem Store.serve_range_unavailable {store : Store} {now : Nat} {query : RangeQuery}
    {cause : StorageError} (hfailed : (store.serve now (.range query)).outcome = .failed cause)
    (hlost : unavailable (.error (.ofStorage "list" cause)) = true) :
    (store.serve now (.range query)).store = store ∧ store.events now (.range query) = [] := by
  cases hanswers : store.answers (.range query) with
  | false =>
    obtain ⟨refusal, heq⟩ := serve_of_not_answers now hanswers
    refine ⟨by rw [heq], ?_⟩
    rw [events, hanswers]
    rfl
  | true =>
    rw [serve_of_answers now hanswers fun h => by cases h] at hfailed
    have hpage : (store.ledger.expire now).1.page query = .failed cause := hfailed
    unfold Ledger.page at hpage
    simp only at hpage
    split at hpage
    · cases hpage
      cases hlost
    · split at hpage
      · cases hpage
        cases hlost
      · split at hpage <;> cases hpage

namespace System

variable {s t : System} {id : Nat} {c : InFlight} {listing later : Listing}
  {result : Except Error (Option KeyValue)} {run : List Fated}

/-- A poll that ends a step for want of the store leaves the listing. -/
theorem Fetches.unavailable (h : s.Fetches c listing (.done (.stepped later result)))
    (hlost : unavailable result = true) : later = listing := by
  cases h with
  | reads acts page outcome => rw [unavailable_take] at hlost; cases hlost
  | stopped | lost | rejected => rfl

/-- Such a poll leaves the store too. -/
theorem Fetches.store_unavailable (h : s.Fetches c listing (.done (.stepped later result)))
    (hlost : KeyBroker.unavailable result = true) (hcall : c.call = .next listing)
    (hacts : s.actsOn c = true) :
    (s.store.serve s.instant c.call.request).store = s.store ∧
      s.store.events s.instant c.call.request = [] := by
  obtain ⟨number, call, exchange, holds⟩ := c
  obtain rfl : call = .next listing := hcall
  cases h with
  | stopped quiet | lost quiet => simp [hacts] at quiet
  | reads acts page outcome => rw [unavailable_take] at hlost; cases hlost
  | rejected acts cause outcome => exact Store.serve_range_unavailable outcome hlost

/-- Nothing stands for a request for a page that leaves the store as it is. -/
theorem Replaces.idle (halike : Alike id s t) (hcall : c.call = .next listing)
    (hidle : (s.store.serve s.instant c.call.request).store = s.store ∧
      s.store.events s.instant c.call.request = []) : Replaces id s c.call t [] := by
  constructor
  · refine Alike.trans ?_ halike
    exact { Alike.refl id s with store := hidle.1 }
  · simp only [comesOf, hidle.2, hcall]
    rfl

/-- A run with a step that fails for want of the store comes to the same as the run without
it. -/
theorem Fetched.matches (h : Fetched id listing (.stepped later result) s run)
    (hlost : unavailable result = true) (halike : Alike id s t) (hs : s.InOrder)
    (hid : id < s.nextCall) : Matches id s run t (s.without id [] run) := by
  induction h generalizing t with
  | @other s st run hother rest ih =>
    have first := Matches.other halike hother
    refine Matches.cons (by rwa [hother]) ?_
    rw [hother]
    exact ih first.alike (hs.fate st) (Nat.lt_of_lt_of_le hid (nextCall_fate s st))
  | @waits s st run c polls found asks quiet rest ih =>
    obtain ⟨_, _, hmatches⟩ := Matches.poll halike hs polls found (by rw [asks]; nofun)
    have first := hmatches [] fun hacts => by simp [quiet] at hacts
    refine Matches.cons (by rwa [polls]) ?_
    rw [polls]
    exact ih first.alike (hs.fate st) (Nat.lt_of_lt_of_le hid (nextCall_fate s st))
  | @ends s st run c polls found asks fetches ended =>
    obtain ⟨_, _, hmatches⟩ := Matches.poll halike hs polls found (by rw [asks]; nofun)
    have first := hmatches [] fun hacts =>
      Replaces.idle halike asks (fetches.store_unavailable hlost asks hacts)
    rw [without, if_pos polls]
    exact first.ends hs hid ended run

end System

namespace Reader

variable {r r' : Reader} {t : System} {holdsBroker : Bool} {between : List Fated}
  {result : Except Error (Option KeyValue)} {results : List (Except Error (Option KeyValue))}
  {stages : List Stage}

/-- A step that fails for want of the store needed a page, and leaves the listing. -/
theorem Stepped.kept (h : r.Stepped holdsBroker between r' result)
    (hlost : unavailable result = true) :
    r.listing.needsPage = true ∧ r'.listing = r.listing ∧ r'.yielded = r.yielded := by
  have hyielded : r'.yielded = r.yielded := by
    obtain ⟨during, cause, hresult⟩ := unavailable_iff.1 hlost
    rw [h.yielded, hresult]
    exact List.append_nil _
  cases hneeds : r.listing.needsPage with
  | false =>
    rw [(h.held hneeds).2, unavailable_take] at hlost
    cases hlost
  | true =>
    obtain ⟨_, _, _, _, _, _, hfetches⟩ := (h.fetched hneeds).moment
    exact ⟨rfl, hfetches.unavailable hlost, hyielded⟩

/-- The same course without the steps that fail for want of the store. Everything that happens
during them happens all the same. -/
def spared (r : Reader) : List Stage → List Stage
  | [] => []
  | .around st :: rest => .around st :: (r.withSystem (r.system.fate st)).spared rest
  | .next holdsBroker between :: rest =>
    match r.step holdsBroker between with
    | none => .next holdsBroker between :: rest
    | some (r', result) =>
      let begun := r.system.launch (Call.beginNext r.listing) holdsBroker
      (if unavailable result then
        .skip holdsBroker :: (begun.1.without begun.2 [] between).map .around
      else [.next holdsBroker between]) ++ r'.spared rest
  | .skip holdsBroker :: rest =>
    .skip holdsBroker :: (r.withSystem (r.passed holdsBroker)).spared rest

/-- Things that happen around the steps of a course happen to its system alone. -/
theorem course_around (r : Reader) (run : List Fated) (rest : List Stage) :
    r.course (run.map .around ++ rest) = (r.withSystem (r.system.fates run)).course rest := by
  induction run generalizing r with
  | nil => rfl
  | cons st run ih => exact ih (r.withSystem (r.system.fate st))

/-- Two readers of one listing pass over a step alike. -/
theorem same_passed (h : System.Same r.system t) (holdsBroker : Bool) :
    System.Same (r.passed holdsBroker) ((r.withSystem t).passed holdsBroker) where
  left := h.left.spare _ holdsBroker
  right := h.right.spare _ holdsBroker
  alike id :=
    { h.alike id with
      nextCall := congrArg (· + 1) (h.alike id).nextCall
      holders := ((h.alike id).launch (Call.beginNext r.listing) holdsBroker).holders }

/-- Two readers of one listing take a step alike. -/
theorem Stepped.same (h : r.Stepped holdsBroker between r' result)
    (hsame : System.Same r.system t) :
    ∃ t', System.Same r'.system t' ∧
      (r.withSystem t).step holdsBroker between = some (r'.withSystem t', result) := by
  have hnext : t.nextCall = r.system.nextCall := (hsame.alike 0).nextCall.symm
  have hended := (hsame.launch (Call.beginNext r.listing) holdsBroker).fates between
  have hdone : ((t.launch (Call.beginNext r.listing) holdsBroker).1.fates between).desk.standing
      t.nextCall = some (.done (.stepped r'.listing result)) := by
    rw [hnext, ← hended.standing]
    exact h.done
  have hstep := step_of_standing (r := r.withSystem t) hdone
  refine ⟨((t.launch (Call.beginNext r.listing) holdsBroker).1.fates between).move
    (.take t.nextCall), ?_, hstep.trans ?_⟩
  · rw [h.taken, hnext]
    exact hended.take _
  · simp only [withSystem, h.yielded]

/-- A step that fails for want of the store leaves what the run without it leaves. -/
theorem Stepped.same_without (h : r.Stepped holdsBroker between r' result)
    (hlost : unavailable result = true) (hsame : System.Same r.system t) :
    System.Same r'.system (((r.withSystem t).passed holdsBroker).fates
      ((r.system.launch (Call.beginNext r.listing) holdsBroker).1.without r.system.nextCall []
        between)) := by
  obtain ⟨hneeds, _, _⟩ := h.kept hlost
  have hturn := Listing.beginNext_of_needsPage hneeds
  let id := r.system.nextCall
  let begun := (r.system.launch (Call.beginNext r.listing) holdsBroker).1
  let kept := begun.without id [] between
  have hnext : t.nextCall = id := (hsame.alike 0).nextCall.symm
  have hbegun : begun.InOrder := hsame.left.launch _ holdsBroker
  have hpassed : ((r.withSystem t).passed holdsBroker).InOrder := hsame.right.spare _ holdsBroker
  have hid : id < begun.nextCall := by
    rw [System.nextCall_launch]
    exact Nat.lt_succ_self _
  have halike : System.Alike id begun ((r.withSystem t).passed holdsBroker) := by
    have hlaunched := System.alike_launch t (Call.beginNext r.listing) holdsBroker
    rw [hnext] at hlaunched
    exact ((hsame.launch _ holdsBroker).alike id).trans hlaunched
  have hfetched : System.Fetched id r.listing (.stepped r'.listing result) begun between := by
    have hfetched := h.fetched hneeds
    rwa [← hturn] at hfetched
  have hmatches := hfetched.matches hlost halike hbegun hid
  have hnone : (((r.withSystem t).passed holdsBroker).fates kept).desk.standing id = none := by
    refine System.standing_fates_eq_none hpassed ?_ ?_ kept
    · rw [← hnext]
      exact Nat.lt_succ_self _
    · exact hsame.right.booked.standing_eq_none (Nat.le_of_eq hnext)
  -- the failed call is the only one in which the two differ, and its answer is now taken
  rw [h.taken]
  refine ((System.alike_take _ id).trans hmatches.alike).same ?_ (hpassed.fates kept)
    (System.standing_take_self h.done) hnone
  rw [← h.taken]
  exact h.inOrder hsame.left

/-- Without the steps that fail for want of the store, the others have the same results, and
the listing and all others end up where they did. -/
theorem Course.spared (h : Course r stages r' results) (hsame : System.Same r.system t) :
    ∃ t', System.Same r'.system t' ∧ (r.withSystem t).course (r.spared stages) =
      some (r'.withSystem t', results.filter fun result => !unavailable result) := by
  induction h generalizing t with
  | nil => exact ⟨t, hsame, rfl⟩
  | around _ st _ ih => exact ih (hsame.fate st)
  | skip _ holdsBroker _ ih => exact ih (same_passed hsame holdsBroker)
  | @next r first last _ _ _ result _ _ hstep hstepped _ ih =>
    simp only [Reader.spared, hstep, System.launch_id]
    cases hlost : unavailable result with
    | true =>
      -- from here on the other system is one of its own, and only `Same` relates the two
      obtain ⟨_, hlisting, hyielded⟩ := hstepped.kept hlost
      obtain ⟨t', hsame', hcourse⟩ := ih (hstepped.same_without hlost hsame)
      refine ⟨t', hsame', ?_⟩
      have hfirst (u : System) : r.withSystem u = first.withSystem u := by
        simp only [withSystem, hlisting, hyielded]
      rw [← hfirst] at hcourse
      rw [if_pos rfl, List.cons_append, course, course_around,
        List.filter_cons_of_neg (by simp [hlost])]
      exact hcourse
    | false =>
      obtain ⟨t₁, hsame₁, hstep₁⟩ := hstepped.same hsame
      obtain ⟨t', hsame', hcourse⟩ := ih hsame₁
      refine ⟨t', hsame', ?_⟩
      rw [List.filter_cons_of_pos (by simp [hlost])]
      simp only [Bool.false_eq_true, if_false, List.cons_append, List.nil_append, course, hstep₁,
        hcourse, Option.map_some]

end Reader

end KeyBroker
