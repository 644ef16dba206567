import KeyBroker.Proofs.View.Client

/-!
# The same call on two brokers

A call through a view and the same call on a broker of its own, where the store of the one
mirrors that of the other, have the same answers but for revisions. The listings and
batches that come with them go on to resemble each other: what a listing is pinned at is
mirrored too, and stays so, since the past of a ledger does not change.
-/

namespace KeyBroker

variable {scope : Key} {l l' m m' : Ledger} {now : Nat}

/-! ### Pairs -/

/-- Mirrored pairs are as many. -/
theorem KeyValue.Mirrored.length_eq {pairs pairs' : List KeyValue}
    (h : Mirrored scope pairs pairs') : pairs.length = pairs'.length := by
  have hlength := congrArg List.length h
  rwa [List.length_map, List.length_map] at hlength

/-- Mirrored pairs put behind mirrored pairs are mirrored. -/
theorem KeyValue.Mirrored.append {pairs pairs' more more' : List KeyValue}
    (h : Mirrored scope pairs pairs') (hmore : Mirrored scope more more') :
    Mirrored scope (pairs ++ more) (pairs' ++ more') := by
  rw [Mirrored, List.map_append, List.map_append, h, hmore]

/-- The last keys correspond. -/
theorem KeyValue.Mirrored.lastKey {pairs pairs' : List KeyValue} (h : Mirrored scope pairs pairs') :
    pairs.getLast?.map (·.key) = (pairs'.getLast?.map (·.key)).map scope.qualify := by
  have hkeys := congrArg (List.map KeyValue.key) h
  rw [List.map_map, List.map_map] at hkeys
  have hlast := congrArg List.getLast? hkeys
  rw [List.getLast?_map, List.getLast?_map] at hlast
  rw [Option.map_map]
  exact hlast

/-- A pair is shown through the view as its counterpart is. -/
theorem KeyValue.reveal_mirrored {pair pair' : KeyValue}
    (h : pair.undated = (pair'.inside scope).undated) :
    ∃ shown shown', pair.reveal scope = .ok shown ∧ pair'.reveal [] = .ok shown' ∧
      shown.undated = shown'.undated := by
  obtain ⟨hkey, hvalue, _⟩ := KeyValue.mk.inj h
  have hunder : scope <+: pair.key := by
    rw [hkey]
    exact List.prefix_append scope _
  refine ⟨_, _, reveal_of_prefix hunder,
    reveal_of_prefix List.nil_prefix, ?_⟩
  have hlocal : pair.key.drop scope.length = pair'.key := by
    rw [hkey]
    exact List.drop_left
  simp only [within, undated, hlocal, hvalue, List.length_nil, List.drop_zero]
  rfl

/-! ### Listings -/

namespace Listing

/-- The listing `a` through a view has come as far as the listing `b` on a broker. -/
structure Resembles (scope : Key) (a b : Listing) : Prop where
  through : a.scope = scope
  direct : b.scope = []
  stem : a.stem = scope.qualify b.stem
  pageSize : a.pageSize = b.pageSize
  keysOnly : a.keysOnly = b.keysOnly
  more : a.more = b.more
  buffer : KeyValue.Mirrored scope a.buffer b.buffer
  lastKey : a.lastKey = b.lastKey.map scope.qualify

/-- Both listings are pinned at revisions at which the ledgers held the same. -/
structure Mirrors (scope : Key) (l l' : Ledger) (a b : Listing) : Prop where
  resembles : Resembles scope a b
  dated : a.revision ≤ l.revision
  dated' : b.revision ≤ l'.revision
  pinned : Snapshot.Mirrors scope (l.snapshot a.revision) (l'.snapshot b.revision)

variable {a b : Listing}

/-- A listing through a view begins as the listing on a broker does. -/
theorem resembles_opening (scope stem : Key) (pageSize : Nat) (keysOnly : Bool) :
    Resembles scope (opening scope stem pageSize keysOnly) (opening [] stem pageSize keysOnly) where
  through := rfl
  direct := rfl
  stem := rfl
  pageSize := rfl
  keysOnly := rfl
  more := rfl
  buffer := rfl
  lastKey := rfl

/-- A listing through a view asks what the other one asks, with the scope in front. -/
theorem Resembles.query_eq (h : Resembles scope a b) (revision revision' : Option Nat) :
    a.query revision = { (b.query revision').inside scope with revision } := by
  simp only [query, RangeQuery.inside, h.stem, h.lastKey, h.pageSize, h.keysOnly]

/-- Listings that resemble each other still do after mirrored pages. -/
theorem Resembles.absorb (h : Resembles scope a b) {page page' : Page}
    (hpage : page.Mirrors scope page') : Resembles scope (a.absorb page) (b.absorb page') where
  through := h.through
  direct := h.direct
  stem := h.stem
  pageSize := h.pageSize
  keysOnly := h.keysOnly
  more := hpage.more
  buffer := h.buffer.append hpage.pairs
  lastKey := by
    simp only [Listing.absorb, hpage.pairs.lastKey, h.lastKey]
    cases page'.pairs.getLast? <;> rfl

/-- Both listings hand out the same pair and go on alike. -/
theorem Resembles.take (h : Resembles scope a b) :
    Resembles scope a.take.1 b.take.1 ∧
      Seen.of (fun pair => .pair (pair.map (·.undated))) a.take.2 =
        Seen.of (fun pair => .pair (pair.map (·.undated))) b.take.2 := by
  have hbuffer := h.buffer
  unfold Listing.take
  cases ha : a.buffer with
  | nil =>
    cases hb : b.buffer with
    | nil => exact ⟨h, rfl⟩
    | cons pair' rest' =>
      rw [ha, hb] at hbuffer
      cases hbuffer
  | cons pair rest =>
    cases hb : b.buffer with
    | nil =>
      rw [ha, hb] at hbuffer
      cases hbuffer
    | cons pair' rest' =>
      rw [ha, hb] at hbuffer
      obtain ⟨hpair, hrest⟩ := List.cons.inj hbuffer
      obtain ⟨shown, shown', hshown, hshown', hsame⟩ := KeyValue.reveal_mirrored hpair
      refine ⟨{ h with buffer := hrest }, ?_⟩
      rw [h.through, h.direct]
      simp only
      rw [hshown, hshown']
      exact congrArg (fun pair => Seen.pair (some pair)) hsame

/-- Listings that resemble each other need a page at the same time. -/
theorem Resembles.needsPage (h : Resembles scope a b) : a.needsPage = b.needsPage := by
  have hempty : a.buffer.isEmpty = b.buffer.isEmpty := by
    rw [Bool.eq_iff_iff, List.isEmpty_iff, List.isEmpty_iff, ← List.length_eq_zero_iff,
      ← List.length_eq_zero_iff, h.buffer.length_eq]
  rw [Listing.needsPage, Listing.needsPage, hempty, h.more]

/-- The past of a ledger does not change. -/
theorem Mirrors.later (h : Mirrors scope l l' a b) {events events' : List Event}
    (hlater : l.Later m events) (hlater' : l'.Later m' events') (hwhole : m.compacted = 0)
    (hwhole' : m'.compacted = 0) : Mirrors scope m m' a b where
  resembles := h.resembles
  dated := Nat.le_trans h.dated hlater.revision
  dated' := Nat.le_trans h.dated' hlater'.revision
  pinned := by
    rw [hlater.past _ (hwhole ▸ Nat.zero_le _) h.dated,
      hlater'.past _ (hwhole' ▸ Nat.zero_le _) h.dated']
    exact h.pinned

end Listing

/-! ### Batches -/

namespace Batch

/-- The batch with the scope in front of all keys. -/
def inside (scope : Key) (batch : Batch) : Batch :=
  { batch with
    scope := scope.qualify batch.scope
    writes := batch.writes.map (·.inside scope) }

/-- No write of the batch names an empty key. -/
def Named (batch : Batch) : Prop := ∀ w ∈ batch.writes, w.key.isEmpty = false

variable {batch : Batch}

/-- Recording a write inside the scope is recording it inside. -/
theorem record_inside (batch : Batch) (key : Key) {write : Key → Write}
    (hwrite : ∀ key, write (scope.qualify key) = (write key).inside scope) :
    (batch.inside scope).record key write = (batch.record key write).inside scope := by
  have hqualify : (scope.qualify batch.scope).qualify key =
      scope.qualify (batch.scope.qualify key) := List.append_assoc ..
  unfold record
  have hcommitted : (batch.inside scope).committed = batch.committed := rfl
  rw [hcommitted]
  split
  · rfl
  · split
    · rfl
    · simp only [inside, hqualify, hwrite, List.map_append, List.map_cons, List.map_nil]

/-- A batch without empty keys still has none after one more write through the batch. -/
theorem Named.record (h : batch.Named) {key : Key} {write : Key → Write}
    (hkey : ∀ key, (write key).key = key) : (batch.record key write).Named := by
  unfold Batch.record
  split
  · exact h
  · split
    · exact h
    · next hnamed =>
      refine List.forall_mem_append.2 ⟨h, List.forall_mem_singleton.2 ?_⟩
      rw [hkey, List.isEmpty_eq_false_iff]
      exact List.append_ne_nil_of_right_ne_nil _ fun hnil => hnamed (List.isEmpty_iff.2 hnil)

end Batch

/-! ### Turns -/

/-- Two calls ask the same, the first through the view. -/
inductive Call.Mirrors (scope : Key) (l l' : Ledger) : Call → Call → Prop where
  | put (key : Key) (value : Bytes) (ttl : Option Duration) (named : key.isEmpty = false) :
    Mirrors scope l l' (.put scope key value ttl) (.put [] key value ttl)
  | get (key : Key) : Mirrors scope l l' (.get scope key) (.get [] key)
  | delete (key : Key) (named : key.isEmpty = false) :
    Mirrors scope l l' (.delete scope key) (.delete [] key)
  | deletePrefix (stem : Key) :
    Mirrors scope l l' (.deletePrefix scope stem) (.deletePrefix [] stem)
  | list {a b : Listing} (resembles : a.Resembles scope b) : Mirrors scope l l' (.list a) (.list b)
  | next {a b : Listing} (mirrors : a.Mirrors scope l l' b) : Mirrors scope l l' (.next a) (.next b)
  | commit (batch : Batch) (writes : List Write) (named : batch.Named)
    (named' : ∀ w ∈ writes, w.key.isEmpty = false) :
    Mirrors scope l l' (.commit (batch.inside scope) (writes.map (·.inside scope)))
      (.commit batch writes)

/-- Two answers show the same, and what comes with them is mirrored. -/
structure Answer.Mirrors (scope : Key) (l l' : Ledger) (a a' : Answer) : Prop where
  seen : a.seen = a'.seen
  listing : a.listing? = none ∧ a'.listing? = none ∨
    ∃ kept kept', a.listing? = some kept ∧ a'.listing? = some kept' ∧ kept.Mirrors scope l l' kept'
  batch : a.batch? = none ∧ a'.batch? = none ∨
    ∃ kept : Batch, a.batch? = some (kept.inside scope) ∧ a'.batch? = some kept ∧ kept.Named

/-- Two turns ask the same or answer the same. -/
inductive Turn.Mirrors (scope : Key) (l l' : Ledger) : Turn → Turn → Prop where
  | ask {call call' : Call} (mirrors : call.Mirrors scope l l' call') :
    Mirrors scope l l' (.ask call) (.ask call')
  | done {answer answer' : Answer} (mirrors : answer.Mirrors scope l l' answer') :
    Mirrors scope l l' (.done answer) (.done answer')

/-- Answers with nothing but a result mirror each other if the results do. -/
theorem Answer.Mirrors.plain {a a' : Answer} (seen : a.seen = a'.seen)
    (listing : a.listing? = none ∧ a'.listing? = none)
    (batch : a.batch? = none ∧ a'.batch? = none) :
    a.Mirrors scope l l' a' where
  seen := seen
  listing := .inl listing
  batch := .inl batch

/-- Mirrored listings answer a step in mirrored ways. -/
theorem Answer.Mirrors.stepped {a b : Listing} (h : a.Mirrors scope l l' b) :
    Answer.Mirrors scope l l' (.stepped a.take.1 a.take.2) (.stepped b.take.1 b.take.2) := by
  obtain ⟨hresembles, hseen⟩ := h.resembles.take
  have hrevision (listing : Listing) : listing.take.1.revision = listing.revision := by
    unfold Listing.take
    split <;> rfl
  refine ⟨hseen, .inr ⟨_, _, rfl, rfl, ?_⟩, .inl ⟨rfl, rfl⟩⟩
  exact {
    resembles := hresembles
    dated := hrevision a ▸ h.dated
    dated' := hrevision b ▸ h.dated'
    pinned := by
      rw [hrevision, hrevision]
      exact h.pinned }

/-- A commit through the view answers what the other one answers, and the batch that comes with it
is mirrored. -/
theorem Answer.Mirrors.committed {batch : Batch} (named : batch.Named)
    (result : Except Error Unit) :
    Answer.Mirrors scope l l' (.committed (batch.inside scope) result)
      (.committed batch result) where
  seen := rfl
  listing := .inl ⟨rfl, rfl⟩
  batch := .inr ⟨batch, rfl, rfl, named⟩

/-- A commit begins alike inside the scope. -/
theorem Turn.Mirrors.commit {batch : Batch} (named : batch.Named) (stopped : Bool) :
    Turn.Mirrors scope l l' (Call.beginCommit (batch.inside scope) stopped)
      (Call.beginCommit batch stopped) := by
  obtain ⟨own, writes, spoiled, committed⟩ := batch
  unfold Call.beginCommit Batch.commit
  cases committed with
  | true => exact .done (.committed named _)
  | false =>
    cases stopped with
    | true =>
      have hnamed : Batch.Named { scope := own, writes, spoiled, committed := true } := named
      exact .done (.committed hnamed _)
    | false =>
      let emptied : Batch := { scope := own, writes := [], spoiled := none, committed := true }
      have hempty : emptied.Named := fun _ hw => by cases hw
      cases spoiled with
      | some reason => exact .done (.committed hempty _)
      | none =>
        cases writes with
        | nil => exact .done (.committed hempty _)
        | cons first rest => exact .ask (.commit _ (first :: rest) hempty named)

/-! ### The answers of calls -/

/-- Calls that mirror each other make one request each, and open no watch. -/
theorem Call.Mirrors.brief {call call' : Call} (h : call.Mirrors scope l l' call') :
    call.brief = true ∧ call'.brief = true := by
  cases h <;> exact ⟨rfl, rfl⟩

/-- What the store is asked names no empty key. -/
theorem Call.Mirrors.named {call call' : Call} (h : call.Mirrors scope l l' call') :
    call.request.namesEmptyKey = false ∧ call'.request.namesEmptyKey = false := by
  have hqualify {key : Key} (named : key.isEmpty = false) :
      (scope.qualify key).isEmpty = false := Key.isEmpty_qualify scope named
  cases h with
  | put key value ttl named => exact ⟨hqualify named, named⟩
  | delete key named =>
    exact ⟨(Bool.true_and _).trans (hqualify named), (Bool.true_and _).trans named⟩
  | commit batch writes named named' =>
    constructor
    · refine List.any_eq_false.2 fun w hw => ?_
      obtain ⟨w', hw', rfl⟩ := List.mem_map.1 hw
      rw [Write.key_inside, hqualify (named' w' hw')]
      exact Bool.false_ne_true
    · refine List.any_eq_false.2 fun w hw => ?_
      rw [named' w hw]
      exact Bool.false_ne_true
  | _ => exact ⟨rfl, rfl⟩

/-- A call whose request stopped at a limit of the machine ends with that. -/
theorem Call.Resumes.of_aborted (call : Call) {why : Abort} {turn : Turn}
    (h : call.Resumes (.aborted why) turn) : turn = .done (.aborted why) := by
  cases h
  rfl

/-- Two puts succeed, unless their deadline lies beyond the clock's range. -/
theorem Ledger.results_put (l l' : Ledger) (now : Nat) (key key' : Key) (value : Bytes)
    (ttl : Option Duration) :
    (∃ revision revision', (l.put now key value ttl).result = .ok revision ∧
        (l'.put now key' value ttl).result = .ok revision') ∨
      (l.put now key value ttl).result = .aborted .deadline ∧
        (l'.put now key' value ttl).result = .aborted .deadline := by
  cases ttl with
  | none => exact .inl ⟨_, _, rfl, rfl⟩
  | some ttl =>
    cases hdeadline : deadlineAfter now ttl with
    | none => exact .inr (by simp only [put, hdeadline, and_self])
    | some deadline =>
      have hput (l : Ledger) (key : Key) : (l.put now key value (some ttl)).result =
          .ok (l.expire now).1.begin.revision := by
        simp only [put, hdeadline]
        rfl
      exact .inl ⟨_, _, hput l key, hput l' key'⟩

/-- A pair that is found, or none, is shown as its counterpart is. -/
theorem Answer.seen_found {found found' : Option KeyValue}
    (h : found.map (·.undated) = found'.map fun pair => (pair.inside scope).undated)
    (t t' : System) (key key' : Key) {answer answer' : Answer}
    (hturn : Turn.done answer = (System.answered t (.get scope key) (.ok found)).2)
    (hturn' : Turn.done answer' = (System.answered t' (.get [] key') (.ok found')).2) :
    answer.seen = answer'.seen := by
  obtain rfl := Turn.done.inj hturn
  obtain rfl := Turn.done.inj hturn'
  cases found with
  | none =>
    cases found' with
    | none => rfl
    | some pair' => cases h
  | some pair =>
    cases found' with
    | none => cases h
    | some pair' =>
      obtain ⟨shown, shown', hshown, hshown', hsame⟩ :=
        KeyValue.reveal_mirrored (Option.some.inj h)
      simp only [Except.bind, hshown, hshown', Except.map]
      exact congrArg (fun pair => Seen.pair (some pair)) hsame

section

variable {store store' : Store}

/-- A store that can be reached performs what names no empty key. -/
theorem Store.serve_eq_perform (hreachable : store.refusal = none) {service : Service}
    {request : Request service} (hnamed : request.namesEmptyKey = false)
    (hclose : service ≠ .close) (now : Nat) :
    store.serve now request = store.perform now request :=
  serve_of_answers now (answers_of_refusal_none hreachable request hnamed)
    fun h => absurd h hclose

/-- The first pages of two listings that resemble each other are mirrored. -/
theorem Listing.Resembles.openedBy {a b : Listing} (h : a.Resembles scope b)
    (hmirrors : Ledger.Mirrors scope now l l') (hwhole : l.compacted = 0)
    (hwhole' : l'.compacted = 0) :
    ∃ page page', (l.range now (a.query none)).result = .ok page ∧
      (l'.range now (b.query none)).result = .ok page' ∧
      Listing.Mirrors scope (l.expire now).1 (l'.expire now).1 (a.openedBy page)
        (b.openedBy page') := by
  have hpage := hmirrors.latest.page (l.expire now).1.revision (l'.expire now).1.revision
    (b.query none)
  have hquery : a.query none = (b.query none).inside scope := h.query_eq none none
  have hlow := (hmirrors.bounded.compacted_expire now).trans hwhole
  have hlow' := (hmirrors.bounded'.compacted_expire now).trans hwhole'
  have hresult := (l.expire now).1.page_eq (a.query none) (hlow ▸ Nat.zero_le _) (Nat.le_refl _)
  have hresult' := (l'.expire now).1.page_eq (b.query none) (hlow' ▸ Nat.zero_le _) (Nat.le_refl _)
  refine ⟨_, _, hresult, hresult', ?_⟩
  rw [hquery]
  exact {
    resembles := { h.absorb hpage with }
    dated := Nat.le_of_eq (Snapshot.revision_page _ _ _)
    dated' := Nat.le_of_eq (Snapshot.revision_page _ _ _)
    pinned := by
      simp only [Listing.openedBy, Snapshot.revision_page]
      exact hmirrors.latest }

/-- So are further pages of mirrored listings. -/
theorem Listing.Mirrors.absorb {a b : Listing} (h : a.Mirrors scope l l' b)
    (hmirrors : Ledger.Mirrors scope now l l') (hwhole : l.compacted = 0)
    (hwhole' : l'.compacted = 0) :
    ∃ page page', (l.range now (a.query (some a.revision))).result = .ok page ∧
      (l'.range now (b.query (some b.revision))).result = .ok page' ∧
      Listing.Mirrors scope (l.expire now).1 (l'.expire now).1 (a.absorb page)
        (b.absorb page') := by
  have hlater := (Ledger.Later.refl (hwhole ▸ Nat.zero_le _) hmirrors.bounded).expire now
  have hlater' := (Ledger.Later.refl (hwhole' ▸ Nat.zero_le _) hmirrors.bounded').expire now
  have hlow := (hmirrors.bounded.compacted_expire now).trans hwhole
  have hlow' := (hmirrors.bounded'.compacted_expire now).trans hwhole'
  have hswept := h.later hlater hlater' hlow hlow'
  have hpage := hswept.pinned.page a.revision b.revision (b.query (some b.revision))
  have hquery := h.resembles.query_eq (some a.revision) (some b.revision)
  have hresult := (l.expire now).1.page_eq (a.query (some a.revision)) (hlow ▸ Nat.zero_le _)
    hswept.dated
  have hresult' := (l'.expire now).1.page_eq (b.query (some b.revision)) (hlow' ▸ Nat.zero_le _)
    hswept.dated'
  refine ⟨_, _, hresult, hresult', ?_⟩
  rw [hquery]
  exact {
    resembles := h.resembles.absorb hpage
    dated := hswept.dated
    dated' := hswept.dated'
    pinned := hswept.pinned }

/-- The same call has the same answer. -/
theorem Call.Mirrors.answer {call call' : Call} {answer answer' : Answer}
    (h : call.Mirrors scope store.ledger store'.ledger call')
    (hmirrors : Ledger.Mirrors scope now store.ledger store'.ledger)
    (hreachable : store.refusal = none) (hreachable' : store'.refusal = none)
    (hwhole : store.ledger.compacted = 0) (hwhole' : store'.ledger.compacted = 0)
    (hresumes : call.Resumes (store.serve now call.request).outcome (.done answer))
    (hresumes' : call'.Resumes (store'.serve now call'.request).outcome (.done answer')) :
    answer.Mirrors scope (store.serve now call.request).store.ledger
      (store'.serve now call'.request).store.ledger answer' := by
  obtain ⟨hnamed, hnamed'⟩ := h.named
  have hserve := Store.serve_eq_perform hreachable hnamed (Call.service_of_brief h.brief.1).2 now
  have hserve' := Store.serve_eq_perform hreachable' hnamed' (Call.service_of_brief h.brief.2).2 now
  have hledger := Store.ledger_perform store now call.request
  have hledger' := Store.ledger_perform store' now call'.request
  rw [hserve] at hresumes ⊢
  rw [hserve'] at hresumes' ⊢
  rw [hledger, hledger']
  -- both stores carry their request out
  have hboth {reply : call.service.Reply} {reply' : call'.service.Reply}
      (hok : (store.perform now call.request).outcome = .ok reply)
      (hok' : (store'.perform now call'.request).outcome = .ok reply') :
      ∃ t t', Turn.done answer = (System.answered t call (.ok reply)).2 ∧
        Turn.done answer' = (System.answered t' call' (.ok reply')).2 := by
    rw [hok] at hresumes
    rw [hok'] at hresumes'
    obtain ⟨t, hturn⟩ := Call.Resumes.of_ok _ hresumes
    obtain ⟨t', hturn'⟩ := Call.Resumes.of_ok _ hresumes'
    exact ⟨t, t', hturn, hturn'⟩
  cases h with
  | put key value ttl named =>
    rcases store.ledger.results_put store'.ledger now (scope.qualify key) key value ttl with
      ⟨revision, revision', hok, hok'⟩ | ⟨hlate, hlate'⟩
    · obtain ⟨_, _, ⟨⟩, ⟨⟩⟩ := hboth hok hok'
      exact .plain rfl ⟨rfl, rfl⟩ ⟨rfl, rfl⟩
    · have hout : (store.perform now (Call.put scope key value ttl).request).outcome =
          .aborted .deadline := hlate
      have hout' : (store'.perform now (Call.put [] key value ttl).request).outcome =
          .aborted .deadline := hlate'
      rw [hout] at hresumes
      rw [hout'] at hresumes'
      cases Call.Resumes.of_aborted _ hresumes
      cases Call.Resumes.of_aborted _ hresumes'
      exact .plain rfl ⟨rfl, rfl⟩ ⟨rfl, rfl⟩
  | get key =>
    obtain ⟨t, t', ⟨⟩, ⟨⟩⟩ := hboth rfl rfl
    exact .plain (Answer.seen_found (hmirrors.get key) t t' key key rfl rfl) ⟨rfl, rfl⟩ ⟨rfl, rfl⟩
  | delete key named =>
    have hcount := hmirrors.delete key
    obtain ⟨_, _, ⟨⟩, ⟨⟩⟩ := hboth rfl rfl
    refine .plain ?_ ⟨rfl, rfl⟩ ⟨rfl, rfl⟩
    exact congrArg (fun n => Seen.flag (decide (0 < n))) hcount
  | deletePrefix stem =>
    have hcount := hmirrors.deletePrefix stem
    obtain ⟨_, _, ⟨⟩, ⟨⟩⟩ := hboth rfl rfl
    refine .plain ?_ ⟨rfl, rfl⟩ ⟨rfl, rfl⟩
    exact congrArg Seen.count hcount
  | list resembles =>
    obtain ⟨page, page', hok, hok', hopened⟩ := resembles.openedBy hmirrors hwhole hwhole'
    obtain ⟨_, _, ⟨⟩, ⟨⟩⟩ := hboth hok hok'
    exact ⟨rfl, .inr ⟨_, _, rfl, rfl, hopened⟩, .inl ⟨rfl, rfl⟩⟩
  | next mirrors =>
    obtain ⟨page, page', hok, hok', habsorbed⟩ := mirrors.absorb hmirrors hwhole hwhole'
    obtain ⟨_, _, ⟨⟩, ⟨⟩⟩ := hboth hok hok'
    exact .stepped habsorbed
  | commit batch writes named named' =>
    obtain ⟨_, _, ⟨⟩, ⟨⟩⟩ := hboth rfl rfl
    exact .committed named _

end

end KeyBroker
