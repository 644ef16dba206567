import KeyBroker.Proofs.Independence.Actions
import KeyBroker.Proofs.Store.Squeezing

/-!
# What a call needs to succeed

A call with one request succeeds if its store grants the request. A store that can be reached
grants every request that a caller can come to, with two exceptions: a deadline that the clock
cannot count up to, and a page of a snapshot that has been compacted away. On a broker with
nothing in its way, to be granted its request is all that a call needs.
-/

namespace KeyBroker

/-- Whether an answer tells of a success. -/
def Answer.succeeds : Answer → Bool
  | .aborted _ => false
  | answer => answer.failure?.isNone

/-- A call that makes one request of the open broker. -/
def Call.single : Call → Bool
  | .watch .. => true
  | call => call.brief

/-- A call on the keys `l` that callers can come to: it writes to no empty key, and a listing
goes on at a revision that there has been, under the scope of its view. -/
structure Call.Formed (l : Ledger) (call : Call) : Prop where
  named : call.request.namesEmptyKey = false
  scope : ∀ listing, call = .next listing → listing.scope <+: listing.stem
  revision : ∀ listing, call = .next listing → listing.revision ≤ l.revision
  needsPage : ∀ listing, call = .next listing → listing.needsPage = true

/-- A call that names no empty key and goes on in no listing is one that callers can come to. -/
theorem Call.formed_of_named {l : Ledger} {call : Call}
    (hnamed : call.request.namesEmptyKey = false) (hother : ∀ listing, call ≠ .next listing) :
    call.Formed l where
  named := hnamed
  scope listing heq := absurd heq (hother listing)
  revision listing heq := absurd heq (hother listing)
  needsPage listing heq := absurd heq (hother listing)

/-- A call that callers can come to stays so as the ledger grows. -/
theorem Call.Formed.mono {l l' : Ledger} {call : Call} (h : call.Formed l)
    (hrevision : l.revision ≤ l'.revision) : call.Formed l' :=
  { h with revision := fun listing hcall => Nat.le_trans (h.revision listing hcall) hrevision }

/-- What a call needs of its store, once that can be reached. -/
def Call.Feasible (s : System) : Call → Prop
  | .put _ _ _ (some ttl) => (deadlineAfter s.instant ttl).isSome = true
  | .next listing => s.store.ledger.compacted ≤ listing.revision
  | _ => True

/-! ### Requests that are granted -/

namespace Ledger

variable {l : Ledger} {now : Nat}

/-- A page only has keys under its stem. -/
theorem prefix_of_page_ok {query : RangeQuery} {page : Page} (h : l.page query = .ok page) :
    ∀ pair ∈ page.pairs, query.stem <+: pair.key := by
  have hpairs (m : Snapshot) : ∀ pair ∈ m.pairs query, query.stem <+: pair.key := by
    intro pair hpair
    obtain ⟨e, he, rfl⟩ := List.mem_map.1 hpair
    exact Key.beginsWith_iff.1 (Bool.and_eq_true_iff.1 (List.mem_filter.1 he).2).1
  intro pair hpair
  rw [(page_of_ok h).2.2.2, Snapshot.page] at hpair
  split at hpair
  · exact hpairs _ pair hpair
  · exact hpairs _ pair (List.mem_of_mem_take hpair)

/-- A put is carried out if the clock can count up to its deadline. -/
theorem result_put_iff (key : Key) (value : Bytes) (ttl : Option Duration) :
    (∃ revision, (l.put now key value ttl).result = .ok revision) ↔
      ∀ duration, ttl = some duration → (deadlineAfter now duration).isSome = true := by
  cases ttl with
  | none => exact iff_of_true ⟨_, rfl⟩ nofun
  | some duration =>
    cases hdeadline : deadlineAfter now duration <;> simp [put, hdeadline]

/-- A page is given of every revision that there has been and that is not compacted away. -/
theorem page_ok_iff {query : RangeQuery} (hhigh : query.revision.getD l.revision ≤ l.revision) :
    (∃ page, l.page query = .ok page) ↔ l.compacted ≤ query.revision.getD l.revision := by
  constructor
  · rintro ⟨page, hpage⟩
    obtain ⟨hrevision, hlow, _⟩ := page_of_ok hpage
    exact hrevision ▸ hlow
  · exact fun hlow => ⟨_, page_eq l query hlow hhigh⟩

end Ledger

/-- A call that makes one request of the open broker does not close it. -/
theorem Call.service_of_single {call : Call} (hsingle : call.single = true) :
    call.service ≠ .close := by
  cases call <;> simp_all [single, brief]

/-- A call that makes one request of the open broker is told when the broker stops. -/
theorem Call.endsWithBroker_of_single {call : Call} (hsingle : call.single = true) :
    call.endsWithBroker = true := by
  cases call <;> first | rfl | cases hsingle

/-- Whoever is granted a request has reached the store. -/
theorem Store.refusal_of_ok {s : Store} {now : Nat} {service : Service} {request : Request service}
    {reply : service.Reply} (hclose : service ≠ .close)
    (h : (s.serve now request).outcome = .ok reply) : s.refusal = none := by
  have hanswers := answers_of_ok h
  simp only [answers, Bool.and_eq_true, Bool.or_eq_true, decide_eq_true_eq,
    Option.isNone_iff_eq_none] at hanswers
  exact hanswers.2.resolve_left hclose

/-- A store grants the request of a call if it can be reached and the call is feasible. -/
theorem Call.granted_iff {s : System} {call : Call} (hsingle : call.single = true)
    (hformed : call.Formed s.store.ledger)
    (hfloor : s.store.ledger.compacted ≤ s.store.ledger.revision)
    (hbounded : s.store.ledger.Bounded) :
    (∃ reply, (s.store.serve s.instant call.request).outcome = .ok reply) ↔
      s.store.refusal = none ∧ call.Feasible s := by
  have hservice := Call.service_of_single hsingle
  cases hrefusal : s.store.refusal with
  | some error =>
    refine iff_of_false ?_ nofun
    rintro ⟨reply, hreply⟩
    cases hrefusal.symm.trans (Store.refusal_of_ok hservice hreply)
  | none =>
    have hanswers := Store.answers_of_refusal_none hrefusal call.request hformed.named
    have hswept := (Ledger.Later.refl hfloor hbounded).expire s.instant
    have hcompacted := hbounded.compacted_expire s.instant
    rw [Store.serve_of_answers s.instant hanswers fun h => absurd h hservice, eq_self, true_and]
    cases call with
    | put scope key value ttl =>
      refine (Ledger.result_put_iff (l := s.store.ledger) (scope.qualify key) value ttl).trans ?_
      cases ttl <;> simp [Feasible]
    | list listing =>
      refine iff_of_true ((Ledger.page_ok_iff (Nat.le_refl _)).2 ?_) trivial
      exact hswept.floor
    | next listing =>
      have hrevision := Nat.le_trans (hformed.revision listing rfl) hswept.revision
      have hpage : (∃ page, (s.store.ledger.expire s.instant).1.page
          (listing.query (some listing.revision)) = .ok page) ↔
            (s.store.ledger.expire s.instant).1.compacted ≤ listing.revision :=
        Ledger.page_ok_iff hrevision
      rw [hcompacted] at hpage
      exact hpage
    | listAll | drain | watchAll | close => cases hsingle
    | _ => exact iff_of_true ⟨_, rfl⟩ trivial

/-! ### Answers to requests that are granted -/

/-- The pair that a get finds has the key that was asked for. -/
theorem Store.key_of_get {s : Store} {now : Nat} {key : Key} {pair : KeyValue}
    (h : (s.serve now (.get key)).outcome = .ok (some pair)) : pair.key = key := by
  have hperformed : s.serve now (.get key) = s.perform now (.get key) :=
    serve_of_ok (fun heq => by cases heq) h
  rw [hperformed] at h
  have hfound : (s.ledger.get now key).result = some pair := Outcome.ok.inj h
  obtain ⟨latest, _, rfl⟩ := Option.map_eq_some_iff.1 hfound
  rfl

/-- Handing out a pair succeeds as long as all pairs lie under the scope. -/
theorem Listing.take_of_prefix {listing : Listing}
    (h : ∀ pair ∈ listing.buffer, listing.scope <+: pair.key) :
    ∃ first, listing.take.2 = .ok first := by
  unfold take
  cases hbuffer : listing.buffer with
  | nil => exact ⟨none, rfl⟩
  | cons pair rest =>
    have hunder := h pair (hbuffer ▸ List.mem_cons_self)
    refine ⟨some (pair.within listing.scope), ?_⟩
    simp only [KeyValue.reveal_of_prefix hunder]
    rfl

/-- A call with one request that was granted is answered without an error. -/
theorem Call.succeeds_of_granted {s : System} {call : Call} (hsingle : call.single = true)
    (hformed : call.Formed s.store.ledger) {reply : call.service.Reply}
    (hgranted : (s.store.serve s.instant call.request).outcome = .ok reply) (t : System) :
    ∃ answer, (t.answered call (.ok reply)).2 = .done answer ∧ answer.succeeds = true := by
  cases call with
  | get scope key =>
    cases reply with
    | none => exact ⟨_, rfl, rfl⟩
    | some pair =>
      have hunder : scope <+: pair.key := by
        rw [Store.key_of_get hgranted]
        exact List.prefix_append scope key
      refine ⟨_, rfl, ?_⟩
      simp only [Except.bind, KeyValue.reveal_of_prefix hunder]
      rfl
  | next listing =>
    obtain ⟨_, hpage⟩ := Store.serve_range_of_ok hgranted
    have hempty := List.isEmpty_iff.1 (Bool.and_eq_true_iff.1 (hformed.needsPage listing rfl)).1
    have hunder : ∀ pair ∈ (listing.absorb reply).buffer, listing.scope <+: pair.key := by
      intro pair hpair
      simp only [Listing.absorb, hempty, List.nil_append] at hpair
      exact (hformed.scope listing rfl).trans (Ledger.prefix_of_page_ok hpage pair hpair)
    obtain ⟨first, hfirst⟩ := Listing.take_of_prefix hunder
    have hturn : (t.answered (.next listing) (.ok reply)).2 =
        .done (.stepped (listing.absorb reply).take.1 (listing.absorb reply).take.2) := rfl
    rw [hfirst] at hturn
    exact ⟨_, hturn, rfl⟩
  | listAll | drain | watchAll | close => cases hsingle
  | _ => exact ⟨_, rfl, rfl⟩

/-! ### Calls that are carried out -/

namespace System

/-- A call that is made at once is answered without an error: its store has done what was
requested, the answer is what it replied, and a subscription that comes of it is registered. -/
structure Achieves (s : System) (call : Call) (answer : Answer) : Prop where
  answered : s.made? (.ask call) = some answer
  succeeds : answer.succeeds = true
  granted : ∃ reply, (s.store.serve s.instant call.request).outcome = .ok reply ∧
    call.Resumes (.ok reply) (.done answer)
  carriedOut : (s.moves (s.making (.ask call))).store =
    (s.store.serve s.instant call.request).store
  active : ∀ handle, answer = .watching (.ok handle) →
    (s.moves (s.making (.ask call))).isActive handle.id = true

variable {s : System} {call : Call}

/-- On a broker with nothing in the way a call with one request achieves what its store grants. -/
theorem Prompt.achieves_of_brief (h : s.Prompt) (hbrief : call.brief = true)
    (hsingle : call.single = true) (hformed : call.Formed s.store.ledger)
    {reply : call.service.Reply}
    (hgranted : (s.store.serve s.instant call.request).outcome = .ok reply) :
    ∃ answer, s.Achieves call answer := by
  obtain ⟨answer, hresumes, hmakes⟩ := h.makes_ask hbrief
  rw [hgranted] at hresumes
  obtain ⟨t, hturn⟩ := hresumes.of_ok
  obtain ⟨answer', hanswer', hsucceeds⟩ := Call.succeeds_of_granted hsingle hformed hgranted t
  obtain rfl : answer = answer' := Turn.done.inj (hturn.trans hanswer')
  refine ⟨answer, hmakes.answer, hsucceeds, ⟨reply, hgranted, hresumes⟩, hmakes.store, ?_⟩
  rintro handle rfl
  cases call with
  | watch | watchAll | listAll | drain | close => cases hbrief
  | _ => cases hturn

/-- On a broker with nothing in the way a call for a watch ends with the handle of a registered
subscription. -/
theorem Prompt.achieves_watch (h : s.Prompt) (hreachable : s.store.refusal = none)
    (scope stem : Key) (channel : Nat) :
    s.Achieves (.watch scope stem channel)
      (.watching (.ok { id := s.nextSubscription, stem })) := by
  obtain ⟨hcarried, hregisters⟩ := h.carried_watch hreachable scope stem channel
  have hserve := Store.serve_watch_of_reachable hreachable s.instant (scope.qualify stem)
  have hwiring := hcarried.wiring.trans hregisters
  have hresumes : (Call.watch scope stem channel).Resumes (.ok s.store.feeds.length)
      (s.answered (.watch scope stem channel) (.ok s.store.feeds.length)).2 := .ok s _
  refine ⟨hcarried.answer, rfl, ⟨s.store.feeds.length, ?_, hresumes⟩, ?_, ?_⟩
  · exact congrArg Store.Served.outcome hserve
  · exact (congrArg Wiring.store hwiring).trans (congrArg Store.Served.store hserve).symm
  · rintro handle heq
    obtain rfl := Except.ok.inj (Answer.watching.inj heq)
    have hregistered : (s.moves (s.making (.ask (.watch scope stem channel)))).registered =
        s.registered ++ [s.nextSubscription] := congrArg Wiring.registered hwiring
    rw [isActive, hregistered]
    exact decide_eq_true List.mem_concat_self

/-- A call for something other than closing only succeeds if its store can be reached. -/
theorem Achieves.reachable {answer : Answer} (h : s.Achieves call answer)
    (hclose : call.service ≠ .close) : s.store.refusal = none := by
  obtain ⟨reply, hreply, _⟩ := h.granted
  exact Store.refusal_of_ok hclose hreply

/-- With nothing in its way, a call succeeds just if its store can be reached and the call is
feasible. -/
theorem Prompt.achieves_iff (h : s.Prompt) (hsingle : call.single = true)
    (hformed : call.Formed s.store.ledger)
    (hfloor : s.store.ledger.compacted ≤ s.store.ledger.revision)
    (hbounded : s.store.ledger.Bounded) :
    (∃ answer, s.Achieves call answer) ↔ s.store.refusal = none ∧ call.Feasible s := by
  have hgranted := Call.granted_iff hsingle hformed hfloor hbounded
  constructor
  · rintro ⟨answer, hachieves⟩
    obtain ⟨reply, hreply, _⟩ := hachieves.granted
    exact hgranted.1 ⟨reply, hreply⟩
  · intro hboth
    by_cases hbrief : call.brief = true
    · obtain ⟨reply, hreply⟩ := hgranted.2 hboth
      exact h.achieves_of_brief hbrief hsingle hformed hreply
    cases call with
    | watch scope stem channel => exact ⟨_, h.achieves_watch hboth.1 scope stem channel⟩
    | _ => exact absurd hsingle hbrief

end System

end KeyBroker
