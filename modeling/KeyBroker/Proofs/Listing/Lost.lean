import KeyBroker.Proofs.Listing.Course
import KeyBroker.Proofs.System.Frame
import KeyBroker.Proofs.Listing.Serving

/-!
# Listings that are lost

A broker that has stopped does not start again, and the compaction point never moves back. So
a listing that needs a page, and cannot have it for one of these reasons, never gets it: none
of its further steps yields a pair or comes to an end.
-/

namespace KeyBroker

/-- Whether an error says that no further page of a listing can be had. -/
def Error.endsListing : Error → Bool
  | .closed | .snapshotCompacted .. => true
  | _ => false

/-- The store does not claim a compaction that there was not. -/
def Fated.Candid (st : Fated) : Prop :=
  ∀ line ∈ st.script, ∀ requested floor, line.error? ≠ some (.compacted requested floor)

/-- A store that can be reached refuses a range for compaction just if there was one. -/
theorem Store.compacted_of_failed {store : Store} {now : Nat} {query : RangeQuery}
    {revision requested floor : Nat} (hpinned : query.revision = some revision)
    (hbounded : store.ledger.Bounded)
    (h : (store.serve now (.range query)).outcome = .failed (.compacted requested floor)) :
    revision < store.ledger.compacted := by
  cases hrefusal : store.refusal with
  | some error =>
    simp only [serve, Request.namesEmptyKey, hrefusal] at h
    cases h
    unfold refusal at hrefusal
    split at hrefusal
    · cases hrefusal
    · split at hrefusal <;> cases hrefusal
  | none =>
    have hanswers : store.answers (.range query) = true := by
      simp [answers, Request.namesEmptyKey, hrefusal]
    rw [serve_of_answers now hanswers fun h => by cases h] at h
    have hpage : (store.ledger.expire now).1.page query = .failed (.compacted requested floor) := h
    simp only [Ledger.page, hpinned, Option.getD_some, hbounded.compacted_expire] at hpage
    split at hpage
    · assumption
    · split at hpage
      · cases hpage
      · split at hpage <;> cases hpage

/-- A page is of a revision that was not compacted away. -/
theorem Store.compacted_le_of_ok {store : Store} {now : Nat} {query : RangeQuery} {page : Page}
    {revision : Nat} (hpinned : query.revision = some revision) (hbounded : store.ledger.Bounded)
    (h : (store.serve now (.range query)).outcome = .ok page) :
    store.ledger.compacted ≤ revision := by
  obtain ⟨hrevision, hlow, _, _⟩ := Ledger.page_of_ok (serve_range_of_ok h).2
  rwa [hrevision, hpinned, Option.getD_some, hbounded.compacted_expire] at hlow

namespace System

variable {s : System} {c : InFlight} {listing later : Listing} {turn : Turn} {l : Ledger}
  {result : Except Error (Option KeyValue)}

/-- The listing needs a page that it cannot have any more. -/
structure Lost (s : System) (listing : Listing) : Prop where
  needs : listing.needsPage = true
  cause : s.stopped = true ∨ listing.revision < s.store.ledger.compacted

/-- The page can never be had again. -/
theorem Lost.fates (h : s.Lost listing) (hlater : ∃ events, l.Later s.store.ledger events)
    (run : List Fated) : (s.fates run).Lost listing := by
  induction run generalizing s with
  | nil => exact h
  | cons st run ih =>
    refine ih ⟨h.needs, ?_⟩ (later_fate hlater st)
    have hchanges := changes_move (genuine_under s st) st.move
    rcases h.cause with hstopped | hcompacted
    · exact .inl (hchanges.stopped hstopped)
    · obtain ⟨_, hlater⟩ := hlater
      obtain ⟨_, hgrown⟩ := later_fate ⟨[], .refl hlater.floor hlater.bounded⟩ st
      exact .inr (Nat.lt_of_lt_of_le hcompacted hgrown.compacted)

/-- A poll for a page that cannot be had fails, or waits. -/
theorem Fetches.of_lost (h : s.Fetches c listing turn) (hcall : c.call = .next listing)
    (hlost : s.Lost listing) (hbounded : s.store.ledger.Bounded) :
    turn = .ask (.next listing) ∨ ∃ e, turn = .done (.stepped listing (.error e)) := by
  cases h with
  | waits => exact .inl rfl
  | stopped | lost | rejected => exact .inr ⟨_, rfl⟩
  | reads acts page outcome =>
    rcases hlost.cause with hstopped | hcompacted
    · simp [actsOn, hcall, hstopped, Call.endsWithBroker] at acts
    · have hlow := Store.compacted_le_of_ok rfl hbounded outcome
      omega

/-- A poll that tells of the end of a listing tells the truth. -/
theorem Fetches.lost_of_endsListing {e : Error}
    (h : s.Fetches c listing (.done (.stepped later (.error e)))) (hends : e.endsListing = true)
    (hcandid : ∀ line ∈ s.script, ∀ requested floor,
      line.error? ≠ some (.compacted requested floor))
    (hneeds : listing.needsPage = true) (hbounded : s.store.ledger.Bounded) :
    later = listing ∧ s.Lost listing := by
  have hkind {cause : StorageError} (hends : (Error.ofStorage "list" cause).endsListing = true) :
      ∃ requested floor, cause = .compacted requested floor := by
    cases cause with
    | compacted requested floor => exact ⟨requested, floor, rfl⟩
    | _ => cases hends
  generalize hresult : (Except.error e : Except Error (Option KeyValue)) = result at h
  cases h with
  | stopped quiet stopped => exact ⟨rfl, hneeds, .inl stopped⟩
  | lost quiet cause known =>
    cases hresult
    obtain ⟨requested, floor, rfl⟩ := hkind hends
    rcases known with htimeout | ⟨line, hline, herror⟩
    · cases htimeout
    · exact absurd herror (hcandid line hline requested floor)
  | rejected acts cause outcome =>
    cases hresult
    obtain ⟨requested, floor, rfl⟩ := hkind hends
    exact ⟨rfl, hneeds, .inr (Store.compacted_of_failed rfl hbounded outcome)⟩
  | reads acts page outcome =>
    obtain ⟨key, rfl⟩ := Listing.foreign_of_take hresult.symm
    cases hends

end System

namespace Reader

variable {r r' : Reader} {holdsBroker : Bool} {between : List Fated}
  {result : Except Error (Option KeyValue)} {results : List (Except Error (Option KeyValue))}
  {stages : List Stage} {l : Ledger}

/-- A step that tells of the end of its listing leaves a listing that is lost. -/
theorem Stepped.lost {e : Error} (h : r.Stepped holdsBroker between r' (.error e))
    (hs : r.system.InOrder) (hlater : ∃ events, l.Later r.system.store.ledger events)
    (hends : e.endsListing = true) (hcandid : ∀ st ∈ between, st.Candid) :
    r'.system.Lost r'.listing := by
  cases hneeds : r.listing.needsPage with
  | false =>
    obtain ⟨key, rfl⟩ := Listing.foreign_of_take (h.held hneeds).2.symm
    cases hends
  | true =>
    obtain ⟨early, st, late, c, hbetween, hcall, hfetches⟩ := (h.fetched hneeds).moment
    have hturn := Listing.beginNext_of_needsPage hneeds
    obtain ⟨events, hmoment⟩ := later_begun hlater (.ask (.next r.listing)) holdsBroker early
    obtain ⟨hlisting, hlost⟩ := hfetches.lost_of_endsListing hends
      (hcandid st (by simp [hbetween])) hneeds hmoment.bounded
    rw [h.system_of_moment hs hbetween, hturn, hlisting]
    have hlost : ((r.system.launch (.ask (.next r.listing)) holdsBroker).1.fates early).Lost
        r.listing := ⟨hlost.needs, hlost.cause⟩
    exact hlost.fates ⟨events, hmoment⟩ _

/-- No further step of a listing that is lost yields a pair or comes to an end. -/
theorem Stepped.of_lost (h : r.Stepped holdsBroker between r' result) (hs : r.system.InOrder)
    (hlater : ∃ events, l.Later r.system.store.ledger events) (hlost : r.system.Lost r.listing) :
    r'.system.Lost r'.listing ∧ ∃ e, result = .error e := by
  obtain ⟨early, st, late, c, hbetween, hcall, hfetches⟩ := (h.fetched hlost.needs).moment
  obtain ⟨events, hmoment⟩ := later_begun hlater (.ask (.next r.listing)) holdsBroker early
  have hturn := Listing.beginNext_of_needsPage hlost.needs
  have hthere : ((r.system.launch (.ask (.next r.listing)) holdsBroker).1.fates early).Lost
      r.listing := by
    rw [System.launch_eq_fate hs, ← System.fates_cons]
    exact hlost.fates hlater _
  have hunder : (((r.system.launch (.ask (.next r.listing)) holdsBroker).1.fates early).under
      st).Lost r.listing := ⟨hthere.needs, hthere.cause⟩
  rcases hfetches.of_lost hcall hunder hmoment.bounded with hwaits | ⟨e, hfails⟩
  · cases hwaits
  · simp only [Turn.done.injEq, Answer.stepped.injEq] at hfails
    rw [h.system_of_moment hs hbetween, hturn, hfails.1]
    exact ⟨hthere.fates ⟨events, hmoment⟩ _, e, hfails.2⟩

/-- What holds of the next step of such a listing holds of all of them. -/
theorem Course.of_lost (h : Course r stages r' results)
    (hlater : ∃ events, l.Later r.system.store.ledger events) (hlost : r.system.Lost r.listing) :
    ∀ result ∈ results, ∃ e, result = .error e := by
  induction h with
  | nil =>
    intro result hmem
    cases hmem
  | around _ st _ ih => exact ih (System.later_fate hlater st) (hlost.fates hlater [st])
  | skip _ holdsBroker _ ih => exact ih hlater ⟨hlost.needs, hlost.cause⟩
  | next hs _ hstepped _ ih =>
    obtain ⟨hstill, hresult⟩ := hstepped.of_lost hs hlater hlost
    exact List.forall_mem_cons.2 ⟨hresult, ih (hstepped.later hs hlater) hstill⟩

end Reader

end KeyBroker
