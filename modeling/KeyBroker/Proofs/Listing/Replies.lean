import KeyBroker.Proofs.Listing.Iteration
import KeyBroker.Proofs.System.Calls

/-!
# What the store answers to a listing

A listing that was opened at a revision asks for all its pages at that revision.
As long as the store can still read it, each page is of the one snapshot, whatever
was committed meanwhile; a page that the store gives is never of another one. So
the calls of a listing lead from one listing of the snapshot to the next.
-/

namespace KeyBroker

/-! ### The ledger behind a system -/

variable {l : Ledger} {s : System}

/-- A change of the wiring leads to a later ledger. -/
theorem Wiring.Change.later {w w' : Wiring} {hs : List Happening} (h : Wiring.Change w hs w')
    (hlater : ∃ events, l.Later w.store.ledger events) :
    ∃ events, l.Later w'.store.ledger events := by
  obtain ⟨events, hlater⟩ := hlater
  cases h with
  | serve now request => exact ⟨_, Store.later_serve hlater now request⟩
  | subscribe now scope localStem channel feed opened => exact ⟨_, Store.later_serve hlater now _⟩
  | compact revision => exact ⟨events, hlater.compact revision⟩
  | setAvailable available =>
    refine ⟨events, ?_⟩
    rw [Store.ledger_setAvailable]
    exact hlater
  | unsubscribe id =>
    unfold Wiring.unsubscribe
    split <;> exact ⟨events, hlater⟩
  | dispatch d reportFirst works =>
    simp only [Wiring.dispatch]
    split <;> exact ⟨events, hlater⟩
  | _ => exact ⟨events, hlater⟩

/-- Changes of the wiring make the ledger later. -/
theorem Wiring.Changes.later {w w' : Wiring} {hs : List Happening} (h : Wiring.Changes w hs w')
    (hlater : ∃ events, l.Later w.store.ledger events) :
    ∃ events, l.Later w'.store.ledger events := by
  induction h with
  | nil => exact hlater
  | cons first _ ih => exact ih (first.later hlater)

/-- Moves make the ledger later. -/
theorem System.later_moves (hgenuine : s.wiring.Genuine)
    (hlater : ∃ events, l.Later s.store.ledger events) (run : List Move) :
    ∃ events, l.Later (s.moves run).store.ledger events :=
  (changes_moves hgenuine run).later hlater

/-- The ledger of a new system is the beginning of all. -/
theorem Ledger.later_new : Later {} {} [] :=
  .refl (Nat.le_refl _) fun _ _ hv => by cases hv

namespace Store

variable {s : Store} {now : Nat} {query : RangeQuery} {page : Page}

/-- A range is answered with a page or an error. -/
theorem serve_range_ne_aborted (s : Store) (now : Nat) (query : RangeQuery) (why : Abort) :
    (s.serve now (.range query)).outcome ≠ .aborted why := by
  cases hanswers : s.answers (.range query) with
  | false =>
    obtain ⟨error, heq⟩ := serve_of_not_answers now hanswers
    rw [heq]
    exact fun h => by cases h
  | true =>
    rw [serve_of_answers now hanswers fun h => by cases h]
    intro h
    have hpage : (s.ledger.expire now).1.page query = .aborted why := h
    unfold Ledger.page at hpage
    simp only at hpage
    split at hpage
    · cases hpage
    · split at hpage
      · cases hpage
      · split at hpage <;> cases hpage

/-- A page read at the revision of an earlier ledger is a page of what all keys held then. -/
theorem page_of_pinned (hlater : ∃ events, l.Later s.ledger events)
    (hpinned : query.revision = some l.revision)
    (h : (s.serve now (.range query)).outcome = .ok page) :
    page = l.latest.page l.revision query := by
  obtain ⟨events, hlater⟩ := hlater
  have hswept := hlater.expire now
  obtain ⟨hrevision, hlow, _, hpage⟩ := Ledger.page_of_ok (serve_range_of_ok h).2
  rw [hpinned, Option.getD_some] at hrevision
  rw [hrevision] at hpage hlow
  rw [hpage, hswept.past l.revision hlow (Nat.le_refl _)]
  rfl

end Store

/-! ### The turns of a listing -/

namespace System

variable {listing : Listing} {store : Store} {turn : Turn} {taken : List KeyValue}

/-- The call that opens a listing goes on with an error, or with a page that the store has
answered. -/
theorem Resumes.list (h : s.Resumes (.list listing) store turn) :
    (∃ e, turn = .done (.listing (.error e))) ∨
      ∃ page, (s.store.serve s.instant (.range (listing.query none))).outcome = .ok page ∧
        store = (s.store.serve s.instant (.range (listing.query none))).store ∧
        turn = .done (.listing (.ok (listing.openedBy page))) := by
  rcases h.cases with ⟨t, e, rfl⟩ | ⟨t, page, houtcome, hstore, rfl⟩ | ⟨why, houtcome, _⟩
  · exact .inl ⟨e, rfl⟩
  · exact .inr ⟨page, houtcome, hstore, rfl⟩
  · exact absurd houtcome (Store.serve_range_ne_aborted _ _ _ why)

/-- The call for a step goes on with an error, or with a page that the store has answered. -/
theorem Resumes.next (h : s.Resumes (.next listing) store turn) :
    (∃ e, turn = .done (.stepped listing (.error e))) ∨
      ∃ page, (s.store.serve s.instant (.range (listing.query (some listing.revision)))).outcome =
          .ok page ∧
        turn = .done (.stepped (listing.absorb page).take.1 (listing.absorb page).take.2) := by
  rcases h.cases with ⟨t, e, rfl⟩ | ⟨t, page, houtcome, _, rfl⟩ | ⟨why, houtcome, _⟩
  · exact .inl ⟨e, rfl⟩
  · exact .inr ⟨page, houtcome, rfl⟩
  · exact absurd houtcome (Store.serve_range_ne_aborted _ _ _ why)

/-- The call that reads a listing to its end goes on with an error, or with a page that the store
has answered. -/
theorem Resumes.drain (h : s.Resumes (.drain listing taken) store turn) :
    (∃ e, turn = .done (.drained taken (some e))) ∨
      ∃ page, (s.store.serve s.instant (.range (listing.query (some listing.revision)))).outcome =
          .ok page ∧ turn = Call.drainPage listing taken page := by
  rcases h.cases with ⟨t, e, rfl⟩ | ⟨t, page, houtcome, _, rfl⟩ | ⟨why, houtcome, _⟩
  · exact .inl ⟨e, rfl⟩
  · exact .inr ⟨page, houtcome, rfl⟩
  · exact absurd houtcome (Store.serve_range_ne_aborted _ _ _ why)

end System

/-! ### One step -/

namespace Listing

/-- One step of a listing of `m`: it answers the next pair, if there is one, and goes on
behind it, or it fails and stays where it is. -/
inductive Steps (listing : Listing) (m : Snapshot) :
    Listing → Except Error (Option KeyValue) → Prop where
  | answers {later : Listing} (reads : later.Reads m) (revision : later.revision = listing.revision)
    (rest : later.remaining m = (listing.remaining m).tail) :
    Steps listing m later (.ok (listing.remaining m).head?)
  | fails (e : Error) (needs : listing.needsPage = true) : Steps listing m listing (.error e)

variable {listing : Listing} {m : Snapshot} {revision : Nat} {page : Page}

/-- A step that answers nothing has nothing to answer. -/
theorem Steps.remaining_eq_nil {later : Listing} {result : Except Error (Option KeyValue)}
    (h : listing.Steps m later result) (hnone : result = .ok none) : listing.remaining m = [] := by
  cases h with
  | answers => exact List.head?_eq_none_iff.1 (Except.ok.inj hnone)
  | fails => cases hnone

/-- Handing out a pair keeps the revision of a listing. -/
theorem revision_take (listing : Listing) : listing.take.1.revision = listing.revision := by
  unfold take
  split <;> rfl

/-- A step that needs no page. -/
theorem Reads.steps_take (h : listing.Reads m) (hheld : listing.needsPage = false) :
    listing.Steps m listing.take.1 listing.take.2 := by
  obtain ⟨hresult, hrest, hreads⟩ := h.take (h.held hheld)
  rw [hresult]
  exact .answers hreads (revision_take listing) hrest

/-- A step with a page of the snapshot. -/
theorem Reads.steps_absorb (h : listing.Reads m) {pinned : Option Nat}
    (hpage : page = m.page revision (listing.query pinned)) :
    listing.Steps m (listing.absorb page).take.1 (listing.absorb page).take.2 := by
  subst hpage
  obtain ⟨hresult, hrest, hreads⟩ := (h.absorb revision pinned).take (h.held_absorb revision pinned)
  rw [h.remaining_absorb] at hresult hrest
  rw [hresult]
  exact .answers hreads (revision_take _) hrest

/-- The turns of a step: it asks for a page, or it has answered as it does with replies of the
store. -/
inductive Stepping (listing : Listing) (m : Snapshot) : Turn → Prop where
  | asks (needs : listing.needsPage = true) : Stepping listing m (.ask (.next listing))
  | answers {later : Listing} {result : Except Error (Option KeyValue)}
    {replies : List (Except Error Page)} (steps : listing.Steps m later result)
    (replied : listing.next replies = some (later, result, [])) :
    Stepping listing m (.done (.stepped later result))

/-- A step of a listing begins with one of its turns. -/
theorem Reads.stepping (h : listing.Reads m) : listing.Stepping m (Call.beginNext listing) := by
  unfold Call.beginNext
  split
  · next hneeds => exact .asks hneeds
  · next hfull =>
    have hheld := eq_false_of_ne_true hfull
    exact .answers (h.steps_take hheld) (next_of_held hheld [])

/-- A page of the snapshot ends a step that asked for it. -/
theorem Stepping.given (h : listing.Stepping m (.ask (.next listing))) (hreads : listing.Reads m)
    {pinned : Option Nat} (hpage : page = m.page revision (listing.query pinned)) :
    listing.Stepping m
      (.done (.stepped (listing.absorb page).take.1 (listing.absorb page).take.2)) := by
  cases h with
  | asks needs => exact .answers (hreads.steps_absorb hpage) (next_of_page needs page [])

/-- A step that asked for a page may fail. -/
theorem Stepping.error (h : listing.Stepping m (.ask (.next listing))) (e : Error) :
    listing.Stepping m (.done (.stepped listing (.error e))) := by
  cases h with
  | asks needs => exact .answers (.fails e needs) (next_of_error needs e [])

/-! ### The first page -/

/-- The turns of the call that opens a listing: with the first page, of which `given` tells,
the listing is open. -/
inductive Opening (listing : Listing) (given : Page → Prop) : Turn → Prop where
  | asks : Opening listing given (.ask (.list listing))
  | opens {page : Page} (first : given page) :
    Opening listing given (.done (.listing (.ok (listing.openedBy page))))
  | fails (e : Error) : Opening listing given (.done (.listing (.error e)))
  | aborts (why : Abort) : Opening listing given (.done (.aborted why))

/-! ### All further steps at once -/

/-- How far a listing of `m` has come on its way to the end: what was taken and what is to
come is all that it had to yield, and with the same replies it is taken pair by pair. -/
inductive Draining (listing : Listing) (m : Snapshot) : Turn → Prop where
  | asks {rest : Listing} {taken : List KeyValue} {replies : List (Except Error Page)}
    (reads : rest.Reads m) (revision : rest.revision = listing.revision)
    (empty : rest.buffer = []) (account : taken ++ rest.remaining m = listing.remaining m)
    (same : ∀ more, (Call.continueDrain listing []).drained (replies ++ more) =
      (Turn.ask (.drain rest taken)).drained more) :
    Draining listing m (.ask (.drain rest taken))
  | answers {taken : List KeyValue} {failure : Option Error} {replies : List (Except Error Page)}
    (read : listing.Iterates replies taken failure)
    (front : taken <+: listing.remaining m)
    (all : failure = none → taken = listing.remaining m) :
    Draining listing m (.done (.drained taken failure))

/-- An answer that was drained from replies of the store is one that a listing read to its end may
give. -/
theorem Draining.answers_of_drained {taken : List KeyValue} {failure : Option Error}
    {replies : List (Except Error Page)}
    (hdrained : (Call.continueDrain listing []).drained replies = some (taken, failure))
    (hfront : taken <+: listing.remaining m)
    (hall : failure = none → taken = listing.remaining m) :
    listing.Draining m (.done (.drained taken failure)) := by
  obtain ⟨pairs, rfl, hread⟩ := iterates_of_drained hdrained
  exact .answers hread hfront hall

/-- A listing hands out its buffer and then asks for a page or has come to its end. -/
theorem Reads.continueDrain_eq {rest : Listing} (h : rest.Reads m) (taken : List KeyValue) :
    Call.continueDrain rest taken =
      if rest.more then
        .ask (.drain { rest with buffer := [] } (taken ++ rest.buffer.map (·.within rest.scope)))
      else .done (.drained (taken ++ rest.buffer.map (·.within rest.scope)) none) := by
  rw [Call.continueDrain, h.revealAll]

/-- What is still to come is what is in the buffer, and then the rest. -/
theorem remaining_split (rest : Listing) (m : Snapshot) :
    rest.remaining m =
      rest.buffer.map (·.within rest.scope) ++ remaining { rest with buffer := [] } m :=
  List.map_append

/-- Emptying a buffer with something in it leaves less to come. -/
theorem remaining_emptied_lt {rest : Listing} (h : rest.buffer ≠ []) (m : Snapshot) :
    (remaining { rest with buffer := [] } m).length < (rest.remaining m).length := by
  have hbuffer := List.length_pos_iff.2 h
  rw [remaining_split rest, List.length_append, List.length_map]
  omega

/-- Emptying the buffer leaves a listing that was given pages of the snapshot only. -/
theorem Reads.emptied {rest : Listing} (h : rest.Reads m) : Reads { rest with buffer := [] } m :=
  { h with under := fun _ hmem => by cases hmem }

/-- The way goes on from a listing on it. -/
theorem Draining.of_continueDrain {rest : Listing} {taken : List KeyValue}
    (replies : List (Except Error Page)) (hreads : rest.Reads m)
    (hrevision : rest.revision = listing.revision)
    (haccount : taken ++ rest.remaining m = listing.remaining m)
    (hsame : ∀ more, (Call.continueDrain listing []).drained (replies ++ more) =
      (Call.continueDrain rest taken).drained more) :
    listing.Draining m (Call.continueDrain rest taken) := by
  rw [remaining_split, ← List.append_assoc] at haccount
  have hturn := hreads.continueDrain_eq taken
  by_cases hmore : rest.more = true
  · rw [if_pos hmore] at hturn
    rw [hturn] at hsame ⊢
    exact .asks hreads.emptied hrevision rfl haccount hsame
  · rw [if_neg hmore] at hturn
    have hend : remaining { rest with buffer := [] } m = [] := by
      have hpairs : m.pairs (rest.query none) = [] := hreads.ended (eq_false_of_ne_true hmore)
      exact congrArg (List.map (·.within rest.scope)) hpairs
    rw [hend, List.append_nil] at haccount
    rw [hturn] at hsame ⊢
    exact .answers_of_drained (hsame []) (haccount ▸ List.prefix_refl _) fun _ => haccount

/-- A listing begins to be read to its end with one of the turns of that. -/
theorem Reads.draining (h : listing.Reads m) :
    listing.Draining m (Call.continueDrain listing []) :=
  .of_continueDrain [] h rfl rfl fun _ => rfl

/-- The way goes on with a page of the snapshot. -/
theorem Draining.drainPage {rest : Listing} {taken : List KeyValue} {pinned : Option Nat}
    (h : listing.Draining m (.ask (.drain rest taken)))
    (hpage : page = m.page revision (rest.query pinned)) :
    listing.Draining m (Call.drainPage rest taken page) := by
  cases h with
  | @asks _ _ replies reads hrevision empty account same =>
    have hsame : ∀ more, (Call.continueDrain listing []).drained ((replies ++ [.ok page]) ++ more) =
        (Call.drainPage rest taken page).drained more := by
      intro more
      rw [List.append_assoc, same]
      rfl
    subst hpage
    unfold Call.drainPage at hsame ⊢
    split
    · next hempty =>
      have hbuffer : (rest.absorb (m.page revision (rest.query pinned))).buffer = [] := by
        simp only [absorb, empty, List.isEmpty_iff.1 hempty, List.append_nil]
      have hend := reads.held_absorb revision pinned hbuffer
      rw [reads.remaining_absorb] at hend
      rw [hend, List.append_nil] at account
      simp only [hempty, if_true] at hsame
      exact .answers_of_drained (hsame []) (account ▸ List.prefix_refl _) fun _ => account
    · next hfull =>
      simp only [hfull] at hsame
      refine .of_continueDrain _ (reads.absorb revision pinned) hrevision ?_ hsame
      rw [reads.remaining_absorb]
      exact account

/-- The way ends with an error. -/
theorem Draining.error {rest : Listing} {taken : List KeyValue}
    (h : listing.Draining m (.ask (.drain rest taken))) (e : Error) :
    listing.Draining m (.done (.drained taken (some e))) := by
  cases h with
  | @asks _ _ replies reads hrevision empty account same =>
    exact .answers_of_drained (same [.error e]) (account ▸ List.prefix_append _ _)
      fun hnone => by cases hnone

end Listing

end KeyBroker
