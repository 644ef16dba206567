import KeyBroker.Proofs.Ledger.Ranges
import KeyBroker.Proofs.Store.Intact
import KeyBroker.Proofs.Store.Squeezing

/-!
# Ranges on a store

A store that can be reached lets go of the keys whose time is over and answers a range from
what is left. A reader of all pages asks again behind the last pair of each page, until
a page says that it is the last one; the pages together are all that the query wants.
-/

namespace KeyBroker.Store

variable {s : Store} {l : Ledger} {now : Nat} {query : RangeQuery}

/-! ### Reading page after page -/

/-- What a reader of all pages is given, one call after the other at one instant. -/
inductive ReadsOn (now : Nat) : Store → RangeQuery → List KeyValue → Prop where
  | last {s : Store} {query : RangeQuery} {page : Page}
      (answer : (s.serve now (.range query)).outcome = .ok page) (ended : page.more = false) :
      ReadsOn now s query page.pairs
  /-- The next call starts behind the last pair of the page. -/
  | next {s : Store} {query : RangeQuery} {page : Page} {pair : KeyValue} {rest : List KeyValue}
      (answer : (s.serve now (.range query)).outcome = .ok page) (more : page.more = true)
      (behind : page.pairs.getLast? = some pair)
      (later : ReadsOn now (s.serve now (.range query)).store
        { query with startAfter := some pair.key } rest) :
      ReadsOn now s query (page.pairs ++ rest)

/-- A reader is given one list. -/
theorem ReadsOn.unique {all others : List KeyValue} (h : ReadsOn now s query all)
    (h' : ReadsOn now s query others) : all = others := by
  induction h generalizing others with
  | last answer ended =>
    cases h' with
    | last answer' _ => rw [Outcome.ok.inj (answer.symm.trans answer')]
    | next answer' more _ _ =>
      obtain rfl := Outcome.ok.inj (answer.symm.trans answer')
      rw [ended] at more
      cases more
  | next answer more behind _ ih =>
    cases h' with
    | last answer' ended =>
      obtain rfl := Outcome.ok.inj (answer.symm.trans answer')
      rw [ended] at more
      cases more
    | next answer' _ behind' later' =>
      obtain rfl := Outcome.ok.inj (answer.symm.trans answer')
      obtain rfl := Option.some.inj (behind.symm.trans behind')
      rw [ih later']

/-- A store that can be reached and sweeps to the ledger `l` at `now`. -/
structure Sweeps (s : Store) (now : Nat) (l : Ledger) : Prop where
  reachable : s.refusal = none
  expire : (s.ledger.expire now).1 = l
  swept : l.Swept now

/-- A range is answered with the page of the ledger from which expired keys are gone. -/
theorem Sweeps.outcome_range (h : s.Sweeps now l) (query : RangeQuery) :
    (s.serve now (.range query)).outcome = l.page query := by
  rw [Store.outcome_range h.reachable, h.expire]

/-- A range leaves the ledger from which expired keys are gone. -/
theorem Sweeps.ledger_range (h : s.Sweeps now l) (query : RangeQuery) :
    (s.serve now (.range query)).store.ledger = l := by
  rw [ledger_serve, if_pos (answers_of_refusal_none h.reachable _ rfl), ← h.expire]
  rfl

/-- A range leaves nothing to let go of. -/
theorem Sweeps.range (h : s.Sweeps now l) (query : RangeQuery) :
    (s.serve now (.range query)).store.Sweeps now l where
  reachable := (refusal_serve s now (.range query) (by simp)).trans h.reachable
  expire := by rw [h.ledger_range, h.swept.expire_eq]
  swept := h.swept

/-- A limit above zero allows that many pairs. -/
theorem allows_of_limit (hlimit : 0 < query.limit) (pairs : List KeyValue) :
    query.allows pairs = pairs.take query.limit := by
  rw [RangeQuery.allows, if_neg (Nat.ne_of_gt hlimit)]

/-- A page with all that is wanted is the last one. -/
theorem Sweeps.reads_last (h : s.Sweeps now l) (hlow : l.compacted ≤ l.readAt query)
    (hhigh : l.readAt query ≤ l.revision)
    (hall : query.allows (l.wanted (l.readAt query) query) = l.wanted (l.readAt query) query) :
    ReadsOn now s query ((l.wanted (l.readAt query) query).map query.shows) := by
  have hanswer := (h.outcome_range query).trans (Ledger.page_of_readable hlow hhigh)
  have hlast : ReadsOn now s query (l.due query).pairs := .last hanswer (by simp [Ledger.due, hall])
  rwa [Ledger.due, hall] at hlast

/-- A page that left pairs out is followed by those. -/
theorem Sweeps.reads_next (h : s.Sweeps now l) (hlimit : 0 < query.limit)
    (hlow : l.compacted ≤ l.readAt query) (hhigh : l.readAt query ≤ l.revision) {pair : KeyValue}
    (hmore : query.limit < (l.wanted (l.readAt query) query).length)
    (hpair : ((l.wanted (l.readAt query) query).take query.limit).getLast? = some pair)
    (hlater : ReadsOn now (s.serve now (.range query)).store
      { query with startAfter := some pair.key }
      (((l.wanted (l.readAt query) query).drop query.limit).map query.shows)) :
    ReadsOn now s query ((l.wanted (l.readAt query) query).map query.shows) := by
  have hanswer := (h.outcome_range query).trans (Ledger.page_of_readable hlow hhigh)
  have hdue : (l.due query).pairs =
      ((l.wanted (l.readAt query) query).take query.limit).map query.shows := by
    rw [Ledger.due, allows_of_limit hlimit]
  have hkey : (query.shows pair).key = pair.key := by
    unfold RangeQuery.shows
    split <;> rfl
  have hpages : ReadsOn now s query ((l.due query).pairs ++
      ((l.wanted (l.readAt query) query).drop query.limit).map query.shows) := by
    have hlast : (l.due query).pairs.getLast? = some (query.shows pair) := by
      rw [hdue, List.getLast?_map, hpair]
      rfl
    refine .next hanswer ?_ hlast (by rwa [hkey])
    simp only [Ledger.due, allows_of_limit hlimit, List.length_take, decide_eq_true_eq]
    omega
  rwa [hdue, ← List.map_append, List.take_append_drop] at hpages

/-- Reading page after page comes to its end and gives all that the query wants. -/
theorem Sweeps.readsOn (h : s.Sweeps now l) {n : Nat} (hlimit : 0 < query.limit)
    (hlow : l.compacted ≤ l.readAt query) (hhigh : l.readAt query ≤ l.revision)
    (hlength : (l.wanted (l.readAt query) query).length ≤ n) :
    ReadsOn now s query ((l.wanted (l.readAt query) query).map query.shows) := by
  -- by induction on how many pairs are wanted: each page but the last leaves fewer
  induction n generalizing s query with
  | zero =>
    refine h.reads_last hlow hhigh ?_
    rw [allows_of_limit hlimit, List.take_of_length_le (by omega)]
  | succ n ih =>
    by_cases hmore : query.limit < (l.wanted (l.readAt query) query).length
    · obtain ⟨pair, hpair⟩ : ∃ pair,
          ((l.wanted (l.readAt query) query).take query.limit).getLast? = some pair := by
        rw [← Option.isSome_iff_exists, List.getLast?_isSome, ne_eq, ← List.length_eq_zero_iff,
          List.length_take]
        omega
      have hrest := Ledger.wanted_after hpair
      have hlater := @ih _ { query with startAfter := some pair.key } (h.range query) hlimit hlow
        hhigh
      have hreadAt : l.readAt { query with startAfter := some pair.key } = l.readAt query := rfl
      rw [hreadAt, hrest] at hlater
      exact h.reads_next hlimit hlow hhigh hmore hpair (hlater (by rw [List.length_drop]; omega))
    · refine h.reads_last hlow hhigh ?_
      rw [allows_of_limit hlimit, List.take_of_length_le (by omega)]

/-! ### One range -/

/-- What a range at `now` comes to on a store whose keys that are not over make the ledger
`l`. -/
structure Ranges (s : Store) (now : Nat) (query : RangeQuery) (l : Ledger) : Prop where
  /-- That ledger is what the call leaves. -/
  leaves : (s.serve now (.range query)).store.ledger = l
  /-- The range is refused for the compaction if and only if it is pinned below it. -/
  compacted : ∀ revision floor,
    (s.serve now (.range query)).outcome = .failed (.compacted revision floor) ↔
      l.readAt query < l.compacted ∧ revision = l.readAt query ∧ floor = l.compacted
  /-- It is refused as an invalid argument if and only if it is pinned beyond the latest
  revision. -/
  invalid : ∀ reason,
    (s.serve now (.range query)).outcome = .failed (.invalidArgument reason) ↔
      l.revision < l.readAt query ∧
        reason = s!"revision {l.readAt query} is newer than current revision {l.revision}"
  /-- Otherwise the query wants exactly one list of pairs. The answer shows the first of them,
  as many as the limit allows, and tells whether there are more. With a limit, reading on
  from the last pair of each page ends, and gives all of them. -/
  answer : l.compacted ≤ l.readAt query → l.readAt query ≤ l.revision →
    ∃ wanted, (∀ pairs, l.Wants (l.readAt query) query pairs ↔ pairs = wanted) ∧
      (s.serve now (.range query)).outcome = .ok
        { pairs := (query.allows wanted).map query.shows
          more := decide ((query.allows wanted).length < wanted.length)
          revision := l.readAt query } ∧
      (0 < query.limit → ∀ all, ReadsOn now s query all ↔ all = wanted.map query.shows)

/-- A range equals its specification, whatever has happened to the store. -/
theorem ranges_exactly (acts : List Act) (now : Nat) (query : RangeQuery)
    (hreachable : (after {} acts).refusal = none) :
    (after {} acts).Ranges now query ((after {} acts).ledger.expire now).1 := by
  have hbounded := (later_after (s := {}) Ledger.later_new acts).bounded
  have hintact := (Intact.empty.after acts).ledger.expire now
  generalize after {} acts = s at hreachable hbounded hintact ⊢
  have hsweeps : s.Sweeps now (s.ledger.expire now).1 :=
    ⟨hreachable, rfl, hbounded.swept_expire now⟩
  generalize (s.ledger.expire now).1 = l at hintact hsweeps ⊢
  have houtcome := hsweeps.outcome_range query
  refine ⟨hsweeps.ledger_range query, fun revision floor => ?_, fun reason => ?_,
    fun hlow hhigh => ⟨l.wanted (l.readAt query) query, fun pairs => hintact.wants_iff, ?_,
      fun hlimit all => ?_⟩⟩
  · rw [houtcome, Ledger.page_compacted_iff]
  · rw [houtcome, Ledger.page_invalid_iff hintact.floor]
  · rw [houtcome, Ledger.page_of_readable hlow hhigh]
    rfl
  · have hreads := hsweeps.readsOn hlimit hlow hhigh (Nat.le_refl _)
    constructor
    · exact fun h => h.unique hreads
    · rintro rfl
      exact hreads

/-- The stem holds a deleted key and one whose time is over, the start lies before the stem,
and the page is exactly full. -/
theorem ranges_exactly_full :
    let acts : List Act := [.serve 0 (.put ['a', 'b'] [1] none),
      .serve 0 (.put ['a', 'c'] [2] none), .serve 0 (.put ['a', 'd'] [3] (some ⟨5⟩)),
      .serve 0 (.put ['a', 'é'] [4] none), .serve 0 (.put ['b'] [5] none),
      .serve 1 (.delete ['a', 'c'] false)]
    let query : RangeQuery := { stem := ['a'], startAfter := some ['Z'], limit := 2 }
    (after {} acts).refusal = none ∧
      ((after {} acts).serve 9 (.range query)).outcome = .ok
        { pairs := [⟨['a', 'b'], [1], 1⟩, ⟨['a', 'é'], [4], 4⟩], more := false, revision := 7 } ∧
      (after {} acts).Ranges 9 query ((after {} acts).ledger.expire 9).1 := by
  intro acts query
  have hreachable : (after {} acts).refusal = none := by decide
  exact ⟨hreachable, by decide +kernel, ranges_exactly acts 9 query hreachable⟩

end KeyBroker.Store
