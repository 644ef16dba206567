import KeyBroker.Proofs.Store.History
import KeyBroker.Proofs.Store.Stream

/-!
# A listing and the stream of a watch

The stream of a native watch carries the events under its stem from the commits after
its opening, each with the value that the key held before. A listing of the keys
under the stem, with the later part of the stream replayed on it, is therefore what
the store holds now.
-/

namespace KeyBroker

open Ledger (Chronicle)

/-! ### Listings -/

/-- The listed keys, with their values and revisions. -/
def Page.listing (page : Page) : Snapshot :=
  page.pairs.foldl (fun m pair => m.insert pair.key (pair.revision, pair.value)) .empty

/-- The query asks for all keys under the stem with their values. -/
structure RangeQuery.Whole (query : RangeQuery) (stem : Key) : Prop where
  under : query.stem = stem
  fromStart : query.startAfter = none
  withValues : query.keysOnly = false

/-- A map into which entries were put has what the entries have at a key, and otherwise what it
had. -/
theorem KeyMap.get?_foldl_insert {α : Type} {entries : List (Key × α)}
    (hasc : entries.Pairwise (·.1 < ·.1)) (m : KeyMap α) (key : Key) :
    (entries.foldl (fun m e => m.insert e.1 e.2) m).get? key =
      (lookup key entries).or (m.get? key) := by
  induction entries generalizing m with
  | nil => rfl
  | cons head rest ih =>
    obtain ⟨hhead, hrest⟩ := List.pairwise_cons.1 hasc
    rw [List.foldl_cons, ih hrest, get?_insert]
    by_cases hkey : key = head.1
    · have hnone : lookup key rest = none := by
        cases hlookup : lookup key rest with
        | none => rfl
        | some a =>
          have hlt := hhead _ (mem_of_lookup hlookup)
          rw [hkey] at hlt
          exact absurd hlt (Key.lt_irrefl _)
      simp [lookup, hkey, hkey ▸ hnone]
    · simp [lookup, hkey, Ne.symm hkey]

/-- A page that leaves nothing out lists the part of its snapshot under the stem. -/
theorem Snapshot.listing_page (m : Snapshot) (revision : Nat) {query : RangeQuery} {stem : Key}
    (hwhole : query.Whole stem) (hmore : (page m revision query).more = false) :
    (page m revision query).listing = m.restrict stem.beginsWith := by
  have hpairs : (page m revision query).pairs = pairs m query := by
    unfold page at hmore ⊢
    split
    · rfl
    · next hlimit =>
      rw [if_neg hlimit] at hmore
      exact List.take_of_length_le (Nat.le_of_not_lt (of_decide_eq_false hmore))
  have hentries : pairs m query =
      (m.restrict stem.beginsWith).entries.map (shown query) := by
    simp only [pairs, KeyMap.restrict, hwhole.under, hwhole.fromStart, Option.all_none,
      Bool.and_true]
  apply KeyMap.ext_get?
  intro key
  rw [Page.listing, hpairs, hentries, List.foldl_map]
  simp only [shown, hwhole.withValues, Bool.false_eq_true, if_false]
  rw [KeyMap.get?_foldl_insert (KeyMap.ascending _), KeyMap.get?_empty, Option.or_none]
  rfl

namespace Store

variable {s : Store} {n : Nat} {stem : Key} {history : History} {events : List Event}

/-! ### The chronicle of a run -/

/-- An act extends the chronicle by the events that it commits. -/
theorem chronicle_sent (h : Chronicle s.ledger history events) (act : Act) :
    ∃ later, history <+: later ∧ Chronicle (s.act act).ledger later (events ++ s.sent act) := by
  by_cases hclock : act.WithinClock
  · exact ⟨_, prefix_record s history act, chronicle_act h hclock⟩
  -- only a put whose deadline lies beyond the clock is left
  cases act with
  | serve now request =>
    cases request with
    | put key value ttl =>
      cases ttl with
      | none => exact absurd trivial hclock
      | some ttl =>
        have hnone : deadlineAfter now ttl = none := Classical.not_not.1 hclock
        have hput := h.put_beyond key value hnone
        simp only [Store.act, sent, Store.events, ledger_serve]
        split
        · exact ⟨_, (History.prefix_commit _ _).trans (List.prefix_append _ _), hput⟩
        · exact ⟨history, List.prefix_refl _, by simpa using h⟩
    | _ => exact absurd trivial hclock
  | _ => exact absurd trivial hclock

/-- A run extends the chronicle by the events that it commits. -/
theorem chronicle_sentAll (h : Chronicle s.ledger history events) (acts : List Act) :
    ∃ later, history <+: later ∧
      Chronicle (s.after acts).ledger later (events ++ s.sentAll acts) := by
  induction acts generalizing s history events with
  | nil => exact ⟨history, List.prefix_refl _, by simpa [sentAll] using h⟩
  | cons act rest ih =>
    obtain ⟨middle, hmiddle, hact⟩ := chronicle_sent h act
    obtain ⟨later, hlater, hrest⟩ := ih hact
    refine ⟨later, hmiddle.trans hlater, ?_⟩
    rw [sentAll, ← List.append_assoc]
    exact hrest

/-- Acts in two parts send what the first part sends, then what the second part sends after it. -/
theorem sentAll_append (s : Store) (acts more : List Act) :
    s.sentAll (acts ++ more) = s.sentAll acts ++ (s.after acts).sentAll more := by
  induction acts generalizing s with
  | nil => rfl
  | cons act rest ih => simp only [List.cons_append, sentAll, after_cons, ih, List.append_assoc]

/-- From a snapshot that can be read before a run, the later events lead to what the store
holds after it. -/
theorem replay_since (h : Chronicle s.ledger history events) {revision : Nat}
    (hlow : s.ledger.compacted ≤ revision) (hhigh : revision ≤ s.ledger.revision)
    (acts : List Act) :
    (s.ledger.snapshot revision).replay
      ((events ++ s.sentAll acts).filter fun e => revision < e.revision) =
        some (s.after acts).ledger.latest := by
  obtain ⟨final, hprefix, hfinal⟩ := chronicle_sentAll h acts
  exact hfinal.replays _ _ (h.reads_of_prefix hprefix hlow hhigh)

/-- A chronicle of a new store after a run. -/
theorem chronicle_run (acts : List Act) :
    ∃ history, Chronicle (after {} acts).ledger history (sentAll {} acts) := by
  obtain ⟨history, _, hchronicle⟩ := chronicle_sentAll (s := {}) .new acts
  exact ⟨history, hchronicle⟩

/-- From the snapshot that a range was served from, the later events of the run lead to
what the store holds in the end. -/
theorem replay_page {before : List Act} (later : List Act) {now : Nat} {query : RangeQuery}
    {page : Page} (hserved : ((after {} before).serve now (.range query)).outcome = .ok page) :
    ∃ snapshot : Snapshot, page = snapshot.page page.revision query ∧
      snapshot.replay ((sentAll {} (before ++ .serve now (.range query) :: later)).filter
        fun e => page.revision < e.revision) =
      some (after {} (before ++ .serve now (.range query) :: later)).ledger.latest := by
  obtain ⟨history, hbefore⟩ := chronicle_run before
  obtain ⟨middle, _, hmiddle⟩ := chronicle_sent hbefore (.serve now (.range query))
  obtain ⟨hledger, hswept⟩ := serve_range_of_ok hserved
  have hpage : ((after {} before).act (.serve now (.range query))).ledger.page query =
      .ok page := by
    rw [Store.act, hledger, hswept]
  obtain ⟨_, hlow, hhigh, heq⟩ := Ledger.page_of_ok hpage
  refine ⟨_, heq, ?_⟩
  rw [after_append, after_cons, sentAll_append, sentAll, ← List.append_assoc]
  exact replay_since hmiddle hlow hhigh later

/-- Of events in the order of two runs, those under a stem after a revision are found in the
second run, when the first one ends at the revision. -/
theorem filter_since {first : List Event} {revision : Nat}
    (hfirst : ∀ event ∈ first, event.revision ≤ revision) (second : List Event)
    (keep : Key → Bool) :
    ((first ++ second).filter fun e => revision < e.revision).filter (fun e => keep e.key) =
      (second.filter fun e => keep e.key).filter fun e => revision < e.revision := by
  have hnone : first.filter (fun e => decide (revision < e.revision)) = [] := by
    refine List.filter_eq_nil_iff.2 fun event hmem => ?_
    simpa using hfirst event hmem
  rw [List.filter_append, hnone, List.nil_append, List.filter_filter, List.filter_filter]
  exact List.filter_congr fun event _ => Bool.and_comm _ _

/-- What the stream of a watch on `stem` says, when the watch was opened after the run
`before`, its signals are those of `events`, and `whole` is the run up to now. -/
structure Reconstructs (before whole : List Act) (stem : Key) (events : List Event) : Prop where
  later : ∀ event ∈ events, (after {} before).ledger.revision < event.revision
  under : ∀ event ∈ events, stem <+: event.key
  ordered : events.Pairwise (·.revision ≤ ·.revision)
  /-- The stream leads from what the store held to what it holds. -/
  fromOpening : Snapshot.replay ((after {} before).ledger.latest.restrict stem.beginsWith) events =
    some ((after {} whole).ledger.latest.restrict stem.beginsWith)
  /-- Every listing since the opening is led to what the store holds by the events after
  its revision. -/
  fromListing : ∀ served now query rest page, whole = served ++ .serve now (.range query) :: rest →
    ((after {} served).serve now (.range query)).outcome = .ok page → query.Whole stem →
    page.more = false → (after {} before).ledger.revision ≤ page.revision →
      page.listing.replay (events.filter fun e => page.revision < e.revision) =
        some ((after {} whole).ledger.latest.restrict stem.beginsWith)

/-- The events under a stem that a run commits after its part `before` reconstruct the store
under the stem. -/
theorem reconstructs_sent (before later : List Act) (stem : Key) :
    Reconstructs before (before ++ later) stem
      (((after {} before).sentAll later).filter fun e => stem.beginsWith e.key) := by
  let opening := after {} before
  obtain ⟨history, hbefore⟩ := chronicle_run before
  obtain ⟨final, _, hfinal⟩ := chronicle_sentAll hbefore later
  have hlater : ∀ event ∈ opening.sentAll later, opening.ledger.revision < event.revision :=
    (later_after (.refl hbefore.floor hbefore.bounded) later).dated
  have hwhole : sentAll {} (before ++ later) = sentAll {} before ++ opening.sentAll later :=
    sentAll_append {} before later
  have hsince {revision : Nat} (hrevision : opening.ledger.revision ≤ revision) :=
    filter_since (fun event hmem => Nat.le_trans (hbefore.dated event hmem) hrevision)
      (opening.sentAll later) stem.beginsWith
  refine ⟨fun event hmem => ?_, fun event hmem => ?_, ?_, ?_, ?_⟩
  · exact hlater event (List.mem_filter.1 hmem).1
  · exact Key.beginsWith_iff.1 (List.mem_filter.1 hmem).2
  · exact (List.pairwise_append.1 hfinal.ordered).2.1.filter _
  · have hreplay := Snapshot.replay_restrict stem.beginsWith
      (replay_since hbefore hbefore.floor (Nat.le_refl _) later)
    rw [hsince (Nat.le_refl _), List.filter_eq_self.2, ← after_append] at hreplay
    · exact hreplay
    · exact fun event hmem => decide_eq_true (hlater event (List.mem_filter.1 hmem).1)
  · intro served now query rest page hsplit hserved hquery hmore hrevision
    obtain ⟨snapshot, hpage, hreplay⟩ := replay_page rest hserved
    have hlisting : page.listing = snapshot.restrict stem.beginsWith := by
      rw [hpage] at hmore ⊢
      exact Snapshot.listing_page snapshot page.revision hquery hmore
    rw [← hsplit, hwhole] at hreplay
    rw [hlisting, ← hsince hrevision]
    exact Snapshot.replay_restrict stem.beginsWith hreplay

/-- The stream of a watch that is not broken reconstructs the store: it carries events
only, and together with any listing since the opening they give the latest live
keys. -/
theorem stream_reconstructs (before later : List Act) (now feed : Nat) (stem : Key)
    (hopened : ((after {} before).serve now (.watch stem)).outcome = .ok feed)
    (hspares : ∀ act ∈ later, act.spares feed) :
    ∃ events, ((after {} before).serve now (.watch stem)).store.stream feed later =
        events.map .ok ∧
      Reconstructs before (before ++ .serve now (.watch stem) :: later) stem events := by
  let opening := after {} before
  obtain ⟨rfl, hserve⟩ := serve_watch_of_ok hopened
  let opened := (opening.openWatch stem).1
  have hnumbered : opening.Numbered := (onlyNew_after {} before).numbered fun _ hw => by cases hw
  obtain ⟨hwatched, hqueue⟩ := hnumbered.watched_openWatch stem
  have hstream : opened.stream opening.feeds.length later =
      ((opened.sentAll later).filter fun e => stem.beginsWith e.key).map .ok := by
    rw [hwatched.stream_eq hspares, hqueue]
    rfl
  -- the opening itself commits nothing
  have hsent : opening.sentAll (.serve now (.watch stem) :: later) = opened.sentAll later := by
    have hnone : opening.sent (.serve now (.watch stem)) = [] := events_watch opening now stem
    rw [sentAll, hnone, Store.act, hserve]
    rfl
  rw [hserve]
  refine ⟨_, hstream, ?_⟩
  rw [← hsent]
  exact reconstructs_sent before (.serve now (.watch stem) :: later) stem

/-- The stream of a transaction that writes a key twice and deletes another one. -/
theorem stream_reconstructs_txn :
    let before : List Act := [.serve 0 (.put ['a', 'x'] [1] none)]
    let later : List Act := [.serve 2 (.txn [.put ['a', 'y'] [2], .delete ['a', 'x'],
      .put ['a', 'y'] [3]]), .read 0]
    ((after {} before).serve 1 (.watch ['a'])).outcome = .ok 0 ∧
      (∀ act ∈ later, act.spares 0) ∧
      ∃ events, ((after {} before).serve 1 (.watch ['a'])).store.stream 0 later =
          events.map .ok ∧
        Reconstructs before (before ++ .serve 1 (.watch ['a']) :: later) ['a'] events := by
  intro before later
  have hspares : ∀ act ∈ later, act.spares 0 := by simp [later, Act.spares]
  exact ⟨rfl, hspares, stream_reconstructs before later 1 0 ['a'] rfl hspares⟩

end Store

end KeyBroker
