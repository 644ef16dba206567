import KeyBroker.Proofs.Confined.Turns
import KeyBroker.Proofs.Listing.Reader

/-!
# What a view shows of the store

A view shows the keys that begin with its scope, and shows them without it. What a read of
one key or a step of a listing answers through a view is, with the scope put in front, a pair
that the store held; a key outside the scope is never met, so it is never reported.
-/

namespace KeyBroker

/-- A snapshot holds a pair under `key`, with its value left out if only keys are asked for. -/
def Snapshot.Holds (m : Snapshot) (keysOnly : Bool) (key : Key) (pair : KeyValue) : Prop :=
  ∃ value, m.get? key = some (pair.revision, value) ∧ pair.value = if keysOnly then [] else value

/-- What a view of `scope` may answer over a snapshot: a pair that, with the scope in front of
its key, the snapshot holds; nothing; or an error that is not about a foreign key. -/
structure Snapshot.Vouches (m : Snapshot) (scope : Key) (keysOnly : Bool)
    (result : Except Error (Option KeyValue)) : Prop where
  own : ∀ e, result = .error e → e.isForeign = false
  held : ∀ pair, result = .ok (some pair) → m.Holds keysOnly (scope.qualify pair.key) pair

/-- A listing through a view of `scope` whose buffer is of the snapshot `m`. -/
structure Listing.Confined (listing : Listing) (m : Snapshot) (scope : Key) (keysOnly : Bool) :
    Prop where
  through : listing.scope = scope
  blank : listing.keysOnly = keysOnly
  under : scope <+: listing.stem
  buffered : ∀ pair ∈ listing.buffer, scope <+: pair.key ∧ m.Holds keysOnly pair.key pair

namespace Snapshot

variable {m : Snapshot} {scope : Key} {keysOnly : Bool} {pair : KeyValue}

/-- An error about anything but a foreign key is a proper answer of a view. -/
theorem vouches_error {e : Error} (h : e.isForeign = false) :
    m.Vouches scope keysOnly (.error e) where
  own _ heq := Except.error.inj heq ▸ h
  held _ heq := by cases heq

/-- The end of a listing is a proper answer of a view. -/
theorem vouches_none : m.Vouches scope keysOnly (.ok none) where
  own _ heq := by cases heq
  held _ heq := by cases heq

/-- A pair under the scope is shown without it. -/
theorem Holds.within (h : m.Holds keysOnly pair.key pair) (hscope : scope <+: pair.key) :
    m.Holds keysOnly (scope.qualify (pair.within scope).key) (pair.within scope) := by
  obtain ⟨rest, hrest⟩ := hscope
  have hkey : scope.qualify (pair.within scope).key = pair.key := by
    rw [KeyValue.within, ← hrest, List.drop_left]
    rfl
  rw [hkey]
  exact h

/-- A pair that the snapshot holds under the scope is properly answered without the scope. -/
theorem Holds.vouches (h : m.Holds keysOnly pair.key pair) (hscope : scope <+: pair.key) :
    m.Vouches scope keysOnly ((pair.reveal scope).map some) := by
  rw [KeyValue.reveal_of_prefix hscope]
  refine ⟨nofun, fun shown heq => ?_⟩
  obtain rfl : pair.within scope = shown := Option.some.inj (Except.ok.inj heq)
  exact h.within hscope

/-- The pairs of a page are held by the snapshot, under the stem that was asked for. -/
theorem mem_page {revision : Nat} {query : RangeQuery}
    (h : pair ∈ (m.page revision query).pairs) :
    query.stem <+: pair.key ∧ m.Holds query.keysOnly pair.key pair := by
  have hfound : pair ∈ m.pairs query := by
    unfold page at h
    simp only at h
    split at h
    · exact h
    · exact List.mem_of_mem_take h
  obtain ⟨⟨key, modified, value⟩, he, rfl⟩ := List.mem_map.1 hfound
  obtain ⟨hentry, hasked⟩ := List.mem_filter.1 he
  exact ⟨Key.beginsWith_iff.1 (Bool.and_eq_true_iff.1 hasked).1, value,
    KeyMap.mem_entries_iff.1 hentry, rfl⟩

end Snapshot

namespace Listing

variable {listing : Listing} {m : Snapshot} {scope : Key} {keysOnly : Bool}

namespace Confined

/-- A page of the snapshot adds pairs of the snapshot. -/
theorem absorb (h : listing.Confined m scope keysOnly) (revision : Nat) (pinned : Option Nat) :
    (listing.absorb (m.page revision (listing.query pinned))).Confined m scope keysOnly := by
  refine { h with buffered := fun pair hpair => ?_ }
  rcases List.mem_append.1 hpair with hold | hnew
  · exact h.buffered pair hold
  · obtain ⟨hstem, hholds⟩ := Snapshot.mem_page hnew
    have hkind : (listing.query pinned).keysOnly = keysOnly := h.blank
    exact ⟨h.under.trans hstem, hkind ▸ hholds⟩

/-- A step hands out a pair of the snapshot, and leaves pairs of the snapshot. -/
theorem take (h : listing.Confined m scope keysOnly) :
    listing.take.1.Confined m scope keysOnly ∧ m.Vouches scope keysOnly listing.take.2 := by
  unfold Listing.take
  cases hbuffer : listing.buffer with
  | nil => exact ⟨h, Snapshot.vouches_none⟩
  | cons pair rest =>
    have hmem : ∀ p ∈ pair :: rest, scope <+: p.key ∧ m.Holds keysOnly p.key p :=
      hbuffer ▸ h.buffered
    obtain ⟨hscope, hholds⟩ := hmem pair List.mem_cons_self
    refine ⟨{ h with buffered := fun p hp => hmem p (List.mem_cons_of_mem _ hp) }, ?_⟩
    simp only [h.through]
    exact hholds.vouches hscope

/-- A confined listing stays confined when its buffer is emptied. -/
theorem emptied (h : listing.Confined m scope keysOnly) :
    Confined { listing with buffer := [] } m scope keysOnly :=
  { h with buffered := fun _ hmem => by cases hmem }

end Confined

/-- Pairs of the snapshot are all shown. -/
theorem revealAll_of_held {pairs : List KeyValue}
    (h : ∀ pair ∈ pairs, scope <+: pair.key ∧ m.Holds keysOnly pair.key pair) :
    ∃ shown, revealAll scope pairs = (shown, none) ∧
      ∀ pair ∈ shown, m.Holds keysOnly (scope.qualify pair.key) pair := by
  induction pairs with
  | nil => exact ⟨[], rfl, nofun⟩
  | cons pair rest ih =>
    obtain ⟨hscope, hholds⟩ := h pair List.mem_cons_self
    obtain ⟨shown, hshown, hheld⟩ := ih fun p hp => h p (List.mem_cons_of_mem _ hp)
    refine ⟨pair.within scope :: shown, ?_, ?_⟩
    · simp only [revealAll, KeyValue.reveal_of_prefix hscope, hshown]
    · exact List.forall_mem_cons.2 ⟨hholds.within hscope, hheld⟩

/-- The turns of a step. -/
inductive Walks (m : Snapshot) (revision : Nat) (scope : Key) (keysOnly : Bool) : Turn → Prop where
  | asks (listing : Listing) (confined : listing.Confined m scope keysOnly)
    (pinned : listing.revision = revision) : Walks m revision scope keysOnly (.ask (.next listing))
  | answers (listing : Listing) (result : Except Error (Option KeyValue))
    (confined : listing.Confined m scope keysOnly) (pinned : listing.revision = revision)
    (vouched : m.Vouches scope keysOnly result) :
    Walks m revision scope keysOnly (.done (.stepped listing result))

/-- The turns of a listing that is read to its end. -/
inductive Drains (m : Snapshot) (revision : Nat) (scope : Key) (keysOnly : Bool) : Turn → Prop where
  | asks (listing : Listing) (taken : List KeyValue) (confined : listing.Confined m scope keysOnly)
    (pinned : listing.revision = revision)
    (held : ∀ pair ∈ taken, m.Holds keysOnly (scope.qualify pair.key) pair) :
    Drains m revision scope keysOnly (.ask (.drain listing taken))
  | answers (taken : List KeyValue) (failure : Option Error)
    (held : ∀ pair ∈ taken, m.Holds keysOnly (scope.qualify pair.key) pair)
    (own : ∀ e, failure = some e → e.isForeign = false) :
    Drains m revision scope keysOnly (.done (.drained taken failure))

variable {revision : Nat}

/-- Handing out the first pair of the buffer is a turn of a step. -/
theorem Confined.walks (h : listing.Confined m scope keysOnly)
    (hpinned : listing.revision = revision) : Walks m revision scope keysOnly
      (.done (.stepped listing.take.1 listing.take.2)) := by
  obtain ⟨hrest, hvouched⟩ := h.take
  exact .answers _ _ hrest ((revision_take listing).trans hpinned) hvouched

/-- However a step of a confined listing begins, its turn is one of those of a step. -/
theorem Confined.walks_beginNext (h : listing.Confined m scope keysOnly)
    (hpinned : listing.revision = revision) :
    Walks m revision scope keysOnly (Call.beginNext listing) := by
  unfold Call.beginNext
  split
  · exact .asks listing h hpinned
  · exact h.walks hpinned

/-- What was taken is of the snapshot, and so is what the buffer adds. -/
theorem Confined.drains (h : listing.Confined m scope keysOnly)
    (hpinned : listing.revision = revision) {taken : List KeyValue}
    (htaken : ∀ pair ∈ taken, m.Holds keysOnly (scope.qualify pair.key) pair) :
    Drains m revision scope keysOnly (Call.continueDrain listing taken) := by
  obtain ⟨shown, hshown, hheld⟩ := revealAll_of_held h.buffered
  have hall : ∀ pair ∈ taken ++ shown, m.Holds keysOnly (scope.qualify pair.key) pair :=
    List.forall_mem_append.2 ⟨htaken, hheld⟩
  rw [← h.through] at hshown
  simp only [Call.continueDrain, hshown]
  split
  · exact .asks _ _ h.emptied hpinned hall
  · exact .answers _ none hall fun _ hnone => by cases hnone

/-- A page of the snapshot brings a listing that is read to its end one turn further. -/
theorem Confined.drains_page (h : listing.Confined m scope keysOnly)
    (hpinned : listing.revision = revision) {taken : List KeyValue}
    (htaken : ∀ pair ∈ taken, m.Holds keysOnly (scope.qualify pair.key) pair) {page : Page}
    {pin : Option Nat} (hpage : page = m.page revision (listing.query pin)) :
    Drains m revision scope keysOnly (Call.drainPage listing taken page) := by
  unfold Call.drainPage
  split
  · exact .answers taken none htaken nofun
  · subst hpage
    exact (h.absorb revision pin).drains hpinned htaken

end Listing

/-! ### Reading on -/

namespace Reader

/-- A listing that was opened through a view of `scope` and reads the latest snapshot of the
ledger `l`. -/
structure Confined (r : Reader) (l : Ledger) (scope : Key) (keysOnly : Bool) : Prop where
  genuine : r.system.wiring.Genuine
  booked : r.system.desk.Booked
  later : ∃ events, l.Later r.system.store.ledger events
  reads : r.listing.Confined l.latest scope keysOnly
  pinned : r.listing.revision = l.revision

variable {r r' : Reader} {l : Ledger} {scope : Key} {keysOnly holdsBroker : Bool}
  {between : List Move} {result : Except Error (Option KeyValue)}

namespace Confined

/-- The reader stays confined whatever happens to its system. -/
theorem withSystem (h : r.Confined l scope keysOnly) (run : List Move) {s : System}
    (hs : s = r.system.moves run) : Confined { r with system := s } l scope keysOnly := by
  subst hs
  exact {
    genuine := System.genuine_moves h.genuine run
    booked := System.booked_moves h.genuine h.booked run
    later := System.later_moves h.genuine h.later run
    reads := h.reads
    pinned := h.pinned }

/-- A page that the store gives a call of the listing is of the snapshot. -/
theorem page_eq (h : r.Confined l scope keysOnly) {rest : Listing}
    (hrevision : rest.revision = l.revision) (early : List Move) {page : Page}
    (houtcome : ((r.system.moves early).store.serve (r.system.moves early).instant
      (.range (rest.query (some rest.revision)))).outcome = .ok page) :
    page = l.latest.page l.revision (rest.query (some rest.revision)) :=
  Store.page_of_pinned (System.later_moves h.genuine h.later early) (congrArg some hrevision)
    houtcome

/-- A step keeps the reader confined, and the snapshot vouches for its result. -/
theorem walks (h : r.Confined l scope keysOnly)
    (hnext : r.next holdsBroker between = some (r', result)) :
    r'.Confined l scope keysOnly ∧ l.latest.Vouches scope keysOnly result := by
  have hstep : ∀ early m call next, early ++ [m] <+: between →
      Listing.Walks l.latest l.revision scope keysOnly (.ask call) →
      ((r.system.launch (Call.beginNext r.listing) holdsBroker).1.moves early).Proceeds call
        ((r.system.launch (Call.beginNext r.listing) holdsBroker).1.moves (early ++ [m])).store
        next →
      Listing.Walks l.latest l.revision scope keysOnly next := by
    intro early m call next _ hwalks hproceeds
    cases hwalks with
    | asks listing confined pinned =>
      cases hproceeds with
      | waits => exact .asks listing confined pinned
      | refused t e own => exact .answers listing _ confined pinned (Snapshot.vouches_error own)
      | served t page outcome after =>
        obtain rfl := h.page_eq pinned
          (.launch (Call.beginNext r.listing) holdsBroker :: early) outcome
        exact (confined.absorb _ _).walks pinned
      | aborted why cause => exact absurd cause (Store.serve_range_ne_aborted _ _ _ why)
  unfold Reader.next at hnext
  simp only at hnext
  split at hnext
  · next later stepped system htake =>
    obtain ⟨hanswer, hsystem⟩ := System.answer_proceeds h.genuine h.booked
      (h.reads.walks_beginNext h.pinned) hstep htake
    obtain ⟨rfl, rfl⟩ := Prod.mk.inj (Option.some.inj hnext)
    cases hanswer with
    | answers _ _ confined pinned vouched =>
      exact ⟨{ h.withSystem _ hsystem with reads := confined, pinned := pinned }, vouched⟩
  · cases hnext

/-- Whatever can become of a confined reader is confined. -/
theorem reaches (h : r.Confined l scope keysOnly) (hreaches : r.Reaches r') :
    r'.Confined l scope keysOnly := by
  induction hreaches with
  | refl => exact h
  | around _ m ih => exact ih.withSystem [m] rfl
  | next _ answered ih => exact (ih.walks answered).1

/-- What a reader collects is what the turns of a listing read to its end may answer. -/
theorem drains (h : r.Confined l scope keysOnly) {taken : List KeyValue} {failure : Option Error}
    (hcollect : r.collect holdsBroker between = some (taken, failure)) :
    Listing.Drains l.latest l.revision scope keysOnly (.done (.drained taken failure)) := by
  have hstep : ∀ early m call next, early ++ [m] <+: between →
      Listing.Drains l.latest l.revision scope keysOnly (.ask call) →
      ((r.system.launch (Call.continueDrain r.listing []) holdsBroker).1.moves early).Proceeds call
        ((r.system.launch (Call.continueDrain r.listing []) holdsBroker).1.moves
          (early ++ [m])).store next →
      Listing.Drains l.latest l.revision scope keysOnly next := by
    intro early m call next _ hdrains hproceeds
    cases hdrains with
    | asks listing taken confined pinned held =>
      cases hproceeds with
      | waits => exact .asks listing taken confined pinned held
      | refused t e own => exact .answers taken (some e) held fun _ heq => Option.some.inj heq ▸ own
      | served t page outcome after =>
        exact confined.drains_page pinned held (h.page_eq pinned
          (.launch (Call.continueDrain r.listing []) holdsBroker :: early) outcome)
      | aborted why cause => exact absurd cause (Store.serve_range_ne_aborted _ _ _ why)
  unfold Reader.collect at hcollect
  simp only at hcollect
  split at hcollect
  · next taken' failure' system htake =>
    obtain ⟨rfl, rfl⟩ := Prod.mk.inj (Option.some.inj hcollect)
    have hnone : ∀ pair ∈ ([] : List KeyValue), l.latest.Holds keysOnly
        (scope.qualify pair.key) pair := fun _ hmem => by cases hmem
    have hstart := h.reads.drains h.pinned hnone
    exact (System.answer_proceeds h.genuine h.booked hstart hstep htake).1
  · cases hcollect

end Confined

/-- A listing opened through a view reads what the store held at some moment of the call that
opened it. -/
theorem confined_opened {s t : System} {settings : Settings} {stem : Key} {listing : Listing}
    (hgenuine : s.wiring.Genuine) (hbooked : s.desk.Booked)
    (hlater : ∃ events, Ledger.Later {} s.store.ledger events)
    (hopened : ((s.launch (Call.beginList settings scope stem keysOnly .list)
        holdsBroker).1.moves between).takeAnswer
      (s.launch (Call.beginList settings scope stem keysOnly .list) holdsBroker).2 =
        some (.listing (.ok listing), t)) :
    ∃ early, early <+: between ∧
      Confined { system := t, listing }
        ((s.launch (Call.beginList settings scope stem keysOnly .list) holdsBroker).1.moves
          early).store.ledger scope keysOnly := by
  obtain ⟨early, l, hearly, rfl, rfl, hgenuine', hbooked', hlater'⟩ :=
    opened_of_answer hgenuine hbooked hlater hopened
  have hopening : (Listing.opening scope stem settings.pageSize keysOnly).Confined
      (((s.launch (Call.beginList settings scope stem keysOnly .list) holdsBroker).1.moves
        early).store.ledger.latest) scope keysOnly := {
    through := rfl
    blank := rfl
    under := List.prefix_append scope stem
    buffered := nofun }
  exact ⟨early, hearly, {
    genuine := hgenuine'
    booked := hbooked'
    later := hlater'
    reads := { hopening.absorb _ none with }
    pinned := Snapshot.revision_page .. }⟩

end Reader

/-! ### Reading one key -/

namespace System

variable {s t : System} {scope key : Key} {holdsBroker : Bool} {between : List Move}
  {answer : Answer}

/-- The turns of a read of one key, where `given` tells of the moments at which the store can
have answered. -/
inductive Seeks (scope key : Key) (given : Ledger → Prop) : Turn → Prop where
  | asks : Seeks scope key given (.ask (.get scope key))
  | answers (l : Ledger) (held : given l) (result : Except Error (Option KeyValue))
    (vouched : l.latest.Vouches scope false result)
    (same : ∀ pair, result = .ok (some pair) → pair.key = key) :
    Seeks scope key given (.done (.found result))

/-- The store answers a read with what its latest snapshot holds then. -/
theorem get?_latest_of_serve {s : Store} {now : Nat} {pair : KeyValue}
    (h : (s.serve now (.get key)).outcome = .ok (some pair)) :
    pair.key = key ∧ (s.serve now (.get key)).store.ledger.latest.Holds false key pair := by
  have hserve := Store.serve_of_ok (fun heq => by cases heq) h
  have hledger : (s.serve now (.get key)).store.ledger = (s.ledger.expire now).1 := by
    rw [hserve]
    exact Store.ledger_perform s now (.get key)
  rw [hserve] at h
  have hfound : (s.ledger.get now key).result = some pair := Outcome.ok.inj h
  obtain ⟨⟨revision, value⟩, hlatest, rfl⟩ := Option.map_eq_some_iff.1 hfound
  rw [Ledger.latest?_eq] at hlatest
  rw [hledger]
  exact ⟨rfl, value, hlatest, rfl⟩

/-- The store never stops at a limit of the machine in a read of one key. -/
theorem serve_get_ne_aborted (s : Store) (now : Nat) (key : Key) (why : Abort) :
    (s.serve now (.get key)).outcome ≠ .aborted why := by
  cases hanswers : s.answers (.get key) with
  | false =>
    obtain ⟨error, heq⟩ := Store.serve_of_not_answers now hanswers
    rw [heq]
    nofun
  | true =>
    rw [Store.serve_of_answers now hanswers fun heq => by cases heq]
    nofun

/-- The answer to a read of one key is one that the store gave on some ledger met on the way. -/
theorem seeks_of_answer (hgenuine : s.wiring.Genuine) (hbooked : s.desk.Booked)
    (htake : ((s.launch (.ask (.get scope key)) holdsBroker).1.moves between).takeAnswer
      (s.launch (.ask (.get scope key)) holdsBroker).2 = some (answer, t)) :
    Seeks scope key (fun l => ∃ early, early <+: between ∧
      l = ((s.launch (.ask (.get scope key)) holdsBroker).1.moves early).store.ledger)
      (.done answer) := by
  refine (answer_proceeds hgenuine hbooked .asks
    (fun early m call next hearly hseeks hproceeds => ?_) htake).1
  cases hseeks with
  | asks =>
    have hmoment (l : Ledger) (hl : l = ((s.launch (.ask (.get scope key)) holdsBroker).1.moves
        (early ++ [m])).store.ledger) : ∃ early, early <+: between ∧
        l = ((s.launch (.ask (.get scope key)) holdsBroker).1.moves early).store.ledger :=
      ⟨_, hearly, hl⟩
    cases hproceeds with
    | waits => exact .asks
    | refused t e own =>
      exact .answers _ (hmoment _ rfl) _ (Snapshot.vouches_error own) fun _ heq => by cases heq
    | served t reply outcome after =>
      cases reply with
      | none => exact .answers _ (hmoment _ rfl) _ Snapshot.vouches_none fun _ heq => by cases heq
      | some pair =>
        obtain ⟨hkey, hholds⟩ := get?_latest_of_serve outcome
        have hscope : scope <+: pair.key := hkey ▸ List.prefix_append scope key
        refine .answers _ (hmoment _ (congrArg Store.ledger after.symm)) _
          (Snapshot.Holds.vouches (hkey ▸ hholds) hscope) fun shown heq => ?_
        have hshown : (pair.reveal scope).map some = .ok (some shown) := heq
        rw [KeyValue.reveal_of_prefix hscope] at hshown
        obtain rfl : pair.within scope = shown := Option.some.inj (Except.ok.inj hshown)
        rw [KeyValue.within, hkey]
        exact List.drop_left
    | aborted why cause => exact absurd cause (serve_get_ne_aborted _ _ _ why)

end System

end KeyBroker
