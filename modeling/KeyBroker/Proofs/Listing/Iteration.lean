import KeyBroker.Broker.Call
import KeyBroker.Proofs.Listing.Pages

/-!
# Reading a listing to its end

A listing is read to its end pair by pair, or all at once. Both ask for the same
pages, and with the same replies both come to the same pairs and the same failure,
whatever the replies are.
-/

namespace KeyBroker

/-- One step of a listing whose page requests get these replies: the listing after it, what
the step answers, and the replies that are left. -/
def Listing.next (l : Listing) (replies : List (Except Error Page)) :
    Option (Listing × Except Error (Option KeyValue) × List (Except Error Page)) :=
  match Call.beginNext l, replies with
  | .done (.stepped l result), replies => some (l, result, replies)
  | .ask (.next l), .ok page :: rest => some ((l.absorb page).take.1, (l.absorb page).take.2, rest)
  | .ask (.next l), .error e :: rest => some (l, .error e, rest)
  | _, _ => none

/-- Step after step, a listing yields `pairs` and then has come to its end or to a failure.
The replies are those to its page requests. -/
inductive Listing.Iterates :
    Listing → List (Except Error Page) → List KeyValue → Option Error → Prop where
  | yields {l l' : Listing} {replies rest : List (Except Error Page)} {pair : KeyValue}
    {pairs : List KeyValue} {failure : Option Error}
    (step : l.next replies = some (l', .ok (some pair), rest))
    (later : Iterates l' rest pairs failure) : Iterates l replies (pair :: pairs) failure
  | ends {l l' : Listing} {replies : List (Except Error Page)}
    (step : l.next replies = some (l', .ok none, [])) : Iterates l replies [] none
  | fails {l l' : Listing} {replies : List (Except Error Page)} {e : Error}
    (step : l.next replies = some (l', .error e, [])) : Iterates l replies [] (some e)

/-- What a turn that reads a listing to its end answers if its page requests get these
replies. -/
def Turn.drained : Turn → List (Except Error Page) → Option (List KeyValue × Option Error)
  | .done (.drained taken failure), [] => some (taken, failure)
  | .ask (.drain l taken), .ok page :: rest => drained (Call.drainPage l taken page) rest
  | .ask (.drain _ taken), [.error e] => some (taken, some e)
  | _, _ => none

namespace Listing

variable {l l' : Listing} {replies replies' : List (Except Error Page)}
  {pairs taken all : List KeyValue}
  {failure failure' : Option Error}

/-- A step with a pair at hand, or at the end, is over at once. -/
theorem beginNext_of_held (h : l.needsPage = false) :
    Call.beginNext l = .done (.stepped l.take.1 l.take.2) := by
  simp [Call.beginNext, h]

/-- A step that needs a page asks for it. -/
theorem beginNext_of_needsPage (h : l.needsPage = true) : Call.beginNext l = .ask (.next l) := by
  simp [Call.beginNext, h]

/-- A step that needs no page uses no reply. -/
theorem next_of_held (h : l.needsPage = false) (replies : List (Except Error Page)) :
    l.next replies = some (l.take.1, l.take.2, replies) := by
  simp only [next, beginNext_of_held h]

/-- A step that needs a page and gets it takes the first pair that is there then. -/
theorem next_of_page (h : l.needsPage = true) (page : Page) (replies : List (Except Error Page)) :
    l.next (.ok page :: replies) =
      some ((l.absorb page).take.1, (l.absorb page).take.2, replies) := by
  simp only [next, beginNext_of_needsPage h]

/-- A step that needs a page and gets an error fails with it, and leaves the listing
where it was. -/
theorem next_of_error (h : l.needsPage = true) (e : Error) (replies : List (Except Error Page)) :
    l.next (.error e :: replies) = some (l, .error e, replies) := by
  simp only [next, beginNext_of_needsPage h]

/-- Listings with the same first step are iterated alike. -/
theorem Iterates.congr (h : l'.Iterates replies' pairs failure)
    (hstep : l.next replies = l'.next replies') : l.Iterates replies pairs failure := by
  cases h with
  | yields step later => exact .yields (hstep.trans step) later
  | ends step => exact .ends (hstep.trans step)
  | fails step => exact .fails (hstep.trans step)

/-- A step with pairs in the buffer hands out the first. -/
theorem next_of_buffer (l : Listing) (pair : KeyValue) (rest : List KeyValue)
    (replies : List (Except Error Page)) :
    next { l with buffer := pair :: rest } replies =
      some ({ l with buffer := rest }, (pair.reveal l.scope).map some, replies) :=
  next_of_held (l := { l with buffer := pair :: rest }) rfl replies

/-- The buffer is yielded pair by pair, up to the first that cannot be shown. -/
theorem Iterates.of_buffer {buffer shown : List KeyValue} {stopped : Option Error}
    (h : revealAll l.scope buffer = (shown, stopped))
    (hlater : stopped = none → Iterates { l with buffer := [] } replies pairs failure)
    (hstopped : ∀ e, stopped = some e → replies = [] ∧ pairs = [] ∧ failure = some e) :
    Iterates { l with buffer } replies (shown ++ pairs) failure := by
  induction buffer generalizing shown with
  | nil =>
    obtain ⟨rfl, rfl⟩ := Prod.mk.inj h
    exact hlater rfl
  | cons pair rest ih =>
    have hstep := next_of_buffer l pair rest replies
    simp only [revealAll] at h
    cases hreveal : pair.reveal l.scope with
    | error e =>
      rw [hreveal] at h hstep
      obtain ⟨rfl, rfl⟩ := Prod.mk.inj h
      obtain ⟨rfl, rfl, rfl⟩ := hstopped e rfl
      exact .fails hstep
    | ok first =>
      rw [hreveal] at h hstep
      obtain ⟨rfl, hrest⟩ := Prod.mk.inj h
      exact .yields hstep (ih (Prod.ext rfl hrest))

/-- A page without pairs is the end, whatever the store says. -/
theorem Iterates.of_emptyPage (hmore : l.more = true) {page : Page} (hpairs : page.pairs = []) :
    Iterates { l with buffer := [] } [.ok page] [] none := by
  have hneeds : needsPage { l with buffer := [] } = true := hmore
  have hstep := next_of_page hneeds page []
  have htake : (absorb { l with buffer := [] } page).take.2 = .ok none := by
    simp only [absorb, hpairs, List.append_nil, take]
  rw [htake] at hstep
  exact .ends hstep

/-- A page with pairs is read on with its first pair. -/
theorem Iterates.of_page (hmore : l.more = true) {page : Page} (hpairs : page.pairs ≠ [])
    (h : (absorb { l with buffer := [] } page).Iterates replies pairs failure) :
    Iterates { l with buffer := [] } (.ok page :: replies) pairs failure := by
  have hneeds : needsPage { l with buffer := [] } = true := hmore
  have hheld : (absorb { l with buffer := [] } page).needsPage = false := by
    cases hpage : page.pairs with
    | nil => exact absurd hpage hpairs
    | cons pair rest => simp [needsPage, absorb, hpage]
  exact h.congr ((next_of_page hneeds page replies).trans (next_of_held hheld replies).symm)

/-- A listing read to its end uses no further reply. -/
theorem drained_done {pairs : List KeyValue} {stopped : Option Error}
    (h : (Turn.done (.drained pairs stopped)).drained replies = some (all, failure)) :
    replies = [] ∧ all = pairs ∧ failure = stopped := by
  cases replies with
  | nil =>
    simp only [Turn.drained, Option.some.injEq, Prod.mk.injEq] at h
    exact ⟨rfl, h.1.symm, h.2.symm⟩
  | cons reply rest => simp [Turn.drained] at h

/-- Reading all at once either ends with the buffer or goes on with a further page. -/
theorem drained_continueDrain
    (h : (Call.continueDrain l taken).drained replies = some (all, failure)) :
    (∃ pairs, all = taken ++ pairs ∧ l.Iterates replies pairs failure) ∨
      ∃ shown, revealAll l.scope l.buffer = (shown, none) ∧ l.more = true ∧
        (Turn.ask (.drain { l with buffer := [] } (taken ++ shown))).drained replies =
          some (all, failure) := by
  obtain ⟨shown, stopped, hshown⟩ :
      ∃ shown stopped, revealAll l.scope l.buffer = (shown, stopped) := ⟨_, _, rfl⟩
  rw [Call.continueDrain, hshown] at h
  cases stopped with
  | some e =>
    obtain ⟨rfl, rfl, rfl⟩ := drained_done h
    have hread : l.Iterates [] (shown ++ []) (some e) :=
      Iterates.of_buffer hshown (fun hnone => by cases hnone) (fun e' he => ⟨rfl, rfl, he⟩)
    rw [List.append_nil] at hread
    exact .inl ⟨shown, rfl, hread⟩
  | none =>
    cases hmore : l.more with
    | false =>
      simp only [hmore, Bool.false_eq_true, if_false] at h
      obtain ⟨rfl, rfl, rfl⟩ := drained_done h
      have hend : Iterates { l with buffer := [] } [] [] none := by
        have hheld : needsPage { l with buffer := [] } = false := hmore
        exact .ends (next_of_held hheld [])
      have hread := Iterates.of_buffer hshown (fun _ => hend) (fun e he => by cases he)
      rw [List.append_nil] at hread
      exact .inl ⟨shown, rfl, hread⟩
    | true =>
      simp only [hmore, if_true] at h
      exact .inr ⟨shown, hshown, rfl, h⟩

/-- Reading all at once is reading pair by pair. -/
theorem iterates_of_drained
    (h : (Call.continueDrain l taken).drained replies = some (all, failure)) :
    ∃ pairs, all = taken ++ pairs ∧ l.Iterates replies pairs failure := by
  -- on the replies: each is used for one page, and the buffer before it is handed out first
  induction replies generalizing l taken with
  | nil =>
    rcases drained_continueDrain h with hread | ⟨shown, _, _, hask⟩
    · exact hread
    · cases hask
  | cons reply rest ih =>
    rcases drained_continueDrain h with hread | ⟨shown, hshown, hmore, hask⟩
    · exact hread
    have hbuffer {pairs : List KeyValue}
        (hlater : Iterates { l with buffer := [] } (reply :: rest) pairs failure) :
        l.Iterates (reply :: rest) (shown ++ pairs) failure :=
      Iterates.of_buffer hshown (fun _ => hlater) (fun e he => by cases he)
    cases reply with
    | error e =>
      have hrest : rest = [] ∧ all = taken ++ shown ∧ failure = some e := by
        cases rest with
        | nil =>
          simp only [Turn.drained, Option.some.injEq, Prod.mk.injEq] at hask
          exact ⟨rfl, hask.1.symm, hask.2.symm⟩
        | cons => simp [Turn.drained] at hask
      obtain ⟨rfl, rfl, rfl⟩ := hrest
      -- the listing had a page to ask for, and the error ends it there
      have hneeds : needsPage { l with buffer := [] } = true := hmore
      have hread := hbuffer (.fails (next_of_error hneeds e []))
      rw [List.append_nil] at hread
      exact ⟨shown, rfl, hread⟩
    | ok page =>
      have hdrain : (Call.drainPage { l with buffer := [] } (taken ++ shown) page).drained rest =
          some (all, failure) := hask
      unfold Call.drainPage at hdrain
      split at hdrain
      · next hempty =>
        obtain ⟨rfl, rfl, rfl⟩ := drained_done hdrain
        have hread := hbuffer (.of_emptyPage hmore (List.isEmpty_iff.1 hempty))
        rw [List.append_nil] at hread
        exact ⟨shown, rfl, hread⟩
      · next hfull =>
        obtain ⟨pairs, rfl, hread⟩ := ih hdrain
        have hpairs : page.pairs ≠ [] := fun hnil => hfull (List.isEmpty_iff.2 hnil)
        exact ⟨shown ++ pairs, List.append_assoc .., hbuffer (.of_page hmore hpairs hread)⟩

end Listing

end KeyBroker
