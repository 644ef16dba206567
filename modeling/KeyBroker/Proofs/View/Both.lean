import KeyBroker.Proofs.View.Answers
import KeyBroker.Proofs.View.Steps

/-!
# A step on two brokers

A client of a view and a client of a broker of its own have come equally far if both
brokers are sheltered, one ledger mirrors the other and so do the listings and batches
that the clients have begun. They stay so when both do the same, and when something else
happens to either broker that touches no key of the client.
-/

namespace KeyBroker

variable {scope : Key} {l l' m m' : Ledger} {now : Nat}

/-! ### The same request of two ledgers -/

/-- The call that a turn makes. -/
def Turn.call? : Turn → Option Call
  | .ask call => some call
  | .done _ => none

/-- What begins with a call asks for it. -/
theorem turn_of_call? {turn? : Option Turn} {call : Call} (h : call ∈ turn?.bind (·.call?)) :
    turn? = some (.ask call) := by
  obtain ⟨turn, rfl, hcall⟩ := Option.bind_eq_some_iff.1 h
  cases turn with
  | ask other => rw [Option.some.inj hcall]
  | done answer => cases hcall

/-- What two ledgers become by the same call, if there is one, and the events of both. -/
inductive Ledger.Doubles (scope : Key) (now : Nat) (l l' : Ledger) :
    Option Call → Ledger → List Event → Ledger → List Event → Prop where
  | rest : Doubles scope now l l' none l [] l' []
  | serve (call : Call) :
    Doubles scope now l l' (some call) (l.serve now (call.request.inside scope)).1
      (l.serve now (call.request.inside scope)).2 (l'.serve now call.request).1
      (l'.serve now call.request).2

namespace Ledger.Doubles

variable {call? : Option Call} {events events' : List Event}

/-- Mirrored ledgers are mirrored after the same call on both. -/
theorem mirrors (h : Doubles scope now l l' call? m events m' events')
    (hmirrors : Mirrors scope now l l') (hbounded : m.Bounded) (hbounded' : m'.Bounded) :
    Mirrors scope now m m' := by
  cases h with
  | rest => exact hmirrors
  | serve call => exact hmirrors.serve hbounded hbounded' call.request rfl rfl

/-- The events of the call are about keys under the scope, but for the deletions of keys whose
time is over. -/
theorem under (h : Doubles scope now l l' call? m events m' events') {event : Event}
    (hevent : event ∈ events) :
    scope.beginsWith event.key = true ∨ event.key ∈ l.expired now ∧ event.kind = .delete := by
  cases h with
  | rest => cases hevent
  | serve call => exact (touches_of_mem_serve hevent).imp_left Request.beginsWith_of_touches_inside

/-- Keys outside the scope whose time is not over keep their versions. -/
theorem versions (h : Doubles scope now l l' call? m events m' events') {key : Key}
    (hforeign : scope.beginsWith key = false) (hlasts : key ∉ l.expired now) :
    m.versions key = l.versions key := by
  cases h with
  | rest => rfl
  | serve call => exact versions_serve hlasts (Request.touches_inside_of_foreign hforeign)

/-- What keys outside the scope hold at that instant stays. -/
theorem holdings (h : Doubles scope now l l' call? m events m' events')
    (hbounded : l.Bounded) {key : Key} (hforeign : scope.beginsWith key = false) :
    m.holdings now key = l.holdings now key := by
  cases h with
  | rest => rfl
  | serve call =>
    rw [hbounded.holdings_serve]
    exact Request.effect_of_not_touches (Request.touches_inside_of_foreign hforeign) now _

/-- Ledgers without deadlines have none after the same call on both, if it sets none. -/
theorem timeless (h : Doubles scope now l l' call? m events m' events')
    (hmirrors : Mirrors scope now l l') (htimeless : ∀ key, l.Timeless (scope.qualify key))
    (htimeless' : ∀ key, l'.Timeless key)
    (huntimed : ∀ call ∈ call?, ∀ key, call.request.times key = false) :
    (∀ key, m.Timeless (scope.qualify key)) ∧ ∀ key, m'.Timeless key := by
  cases h with
  | rest => exact ⟨htimeless, htimeless'⟩
  | serve call =>
    refine ⟨fun key => (htimeless key).serve hmirrors.bounded ?_,
      fun key => (htimeless' key).serve hmirrors.bounded' (huntimed call rfl key)⟩
    rw [Request.times_inside]
    exact huntimed call rfl key

/-- Without deadlines the events of both under the scope are the same. -/
theorem mirrored (h : Doubles scope now l l' call? m events m' events')
    (hmirrors : Mirrors scope now l l') (htimeless : ∀ key, l.Timeless (scope.qualify key))
    (htimeless' : ∀ key, l'.Timeless key) :
    Event.Mirrored scope (events.filter fun e => scope.beginsWith e.key) events' := by
  cases h with
  | rest => rfl
  | serve call => exact hmirrors.events_of_timeless htimeless htimeless' call.request

end Ledger.Doubles

/-- What a call asks through a view is what the other call asks, inside the scope. -/
theorem Call.Mirrors.serve {call call' : Call} (h : call.Mirrors scope l l' call') (now : Nat)
    (k : Ledger) : k.serve now call.request = k.serve now (call'.request.inside scope) := by
  cases h <;> rfl

/-- A store that can be reached changes its ledger as it carries out a call that names no empty
key. -/
theorem Store.ledger_serve_of_named {store : Store} (hreachable : store.refusal = none)
    {service : Service} {request : Request service} (hnamed : request.namesEmptyKey = false)
    (now : Nat) :
    (store.serve now request).store.ledger = (store.ledger.serve now request).1 ∧
      store.events now request = (store.ledger.serve now request).2 := by
  have hanswers := answers_of_refusal_none hreachable request hnamed
  rw [ledger_serve, events, hanswers]
  exact ⟨rfl, rfl⟩

/-! ### Listings and batches of two clients -/

namespace Client

/-- The listings and batches of two clients correspond. -/
structure Kept (scope : Key) (l l' : Ledger) (c c' : Client) : Prop where
  listings : ∃ pairs : List (Listing × Listing), c.listings = pairs.map (·.1) ∧
    c'.listings = pairs.map (·.2) ∧ ∀ pair ∈ pairs, pair.1.Mirrors scope l l' pair.2
  batches : c.batches = c'.batches.map (·.inside scope)
  named : ∀ batch ∈ c'.batches, batch.Named

variable {c c' : Client}

/-- Listings and batches that correspond still do on later ledgers that were not compacted. -/
theorem Kept.later (h : Kept scope l l' c c') {events events' : List Event}
    (hlater : l.Later m events) (hlater' : l'.Later m' events') (hwhole : m.compacted = 0)
    (hwhole' : m'.compacted = 0) : Kept scope m m' c c' where
  listings := by
    obtain ⟨pairs, hleft, hright, hpairs⟩ := h.listings
    exact ⟨pairs, hleft, hright,
      fun pair hpair => (hpairs pair hpair).later hlater hlater' hwhole hwhole'⟩
  batches := h.batches
  named := h.named

/-- Two answers, or none twice. -/
def Corresponds (scope : Key) (l l' : Ledger) (answer? answer'? : Option Answer) : Prop :=
  answer? = none ∧ answer'? = none ∨
    ∃ answer answer', answer? = some answer ∧ answer'? = some answer' ∧
      answer.Mirrors scope l l' answer'

variable {answer? answer'? : Option Answer}

/-- Answers that correspond show the client the same. -/
theorem Corresponds.seen (h : Corresponds scope l l' answer? answer'?) :
    answer?.map (·.seen) = answer'?.map (·.seen) := by
  rcases h with ⟨rfl, rfl⟩ | ⟨answer, answer', rfl, rfl, hmirrors⟩
  · rfl
  · exact congrArg some hmirrors.seen

/-- Listings that come with answers that correspond are mirrored, or there is none twice. -/
theorem Corresponds.listing (h : Corresponds scope l l' answer? answer'?) :
    answer?.bind (·.listing?) = none ∧ answer'?.bind (·.listing?) = none ∨
      ∃ kept kept', answer?.bind (·.listing?) = some kept ∧
        answer'?.bind (·.listing?) = some kept' ∧ kept.Mirrors scope l l' kept' := by
  rcases h with ⟨rfl, rfl⟩ | ⟨answer, answer', rfl, rfl, hmirrors⟩
  · exact .inl ⟨rfl, rfl⟩
  · exact hmirrors.listing

/-- Batches that come with answers that correspond are alike but for the scope, or there is none
twice. -/
theorem Corresponds.batch (h : Corresponds scope l l' answer? answer'?) :
    answer?.bind (·.batch?) = none ∧ answer'?.bind (·.batch?) = none ∨
      ∃ kept : Batch, answer?.bind (·.batch?) = some (kept.inside scope) ∧
        answer'?.bind (·.batch?) = some kept ∧ kept.Named := by
  rcases h with ⟨rfl, rfl⟩ | ⟨answer, answer', rfl, rfl, hmirrors⟩
  · exact .inl ⟨rfl, rfl⟩
  · exact hmirrors.batch

/-- Recording a write in a batch of each keeps the batches alike. -/
theorem Kept.record (h : Kept scope l l' c c') (n : Nat) (key : Key) (value : Option Bytes) :
    Kept scope l l' (c.keep scope none (.record n key value))
      (c'.keep [] none (.record n key value)) where
  listings := h.listings
  batches := by
    have hwrite (key : Key) : (value.map (Write.put (scope.qualify key))).getD
        (.delete (scope.qualify key)) =
          ((value.map (Write.put key)).getD (.delete key)).inside scope := by
      cases value <;> rfl
    simp only [keep, h.batches]
    refine List.ext_getElem? fun i => ?_
    simp only [List.getElem?_modify, List.getElem?_map]
    cases c'.batches[i]? with
    | none => rfl
    | some batch =>
      simp only [Option.map_some]
      split
      · exact congrArg some (batch.record_inside key hwrite)
      · rfl
  named := by
    have hkey (key : Key) : ((value.map (Write.put key)).getD (.delete key)).key = key := by
      cases value <;> rfl
    intro batch hbatch
    obtain ⟨i, hi⟩ := List.mem_iff_getElem?.1 hbatch
    simp only [keep, List.getElem?_modify] at hi
    obtain ⟨before, hbefore, rfl⟩ := Option.map_eq_some_iff.1 hi
    have hnamed := h.named before (List.mem_iff_getElem?.2 ⟨i, hbefore⟩)
    split
    · exact hnamed.record hkey
    · exact hnamed

/-- Keeping what comes with two answers keeps listings and batches alike. -/
theorem Kept.keep (h : Kept scope l l' c c') (hanswers : Corresponds scope l l' answer? answer'?)
    (doing : Doing) :
    Kept scope l l' (c.keep scope answer? doing) (c'.keep [] answer'? doing) := by
  obtain ⟨pairs, hleft, hright, hpairs⟩ := h.listings
  cases doing with
  | list stem keysOnly =>
    refine ⟨?_, h.batches, h.named⟩
    rcases hanswers.listing with ⟨hnone, hnone'⟩ | ⟨kept, kept', hkept, hkept', hmirrors⟩
    · refine ⟨pairs, ?_, ?_, hpairs⟩
      · simp only [Client.keep, hnone, Option.toList_none, List.append_nil, hleft]
      · simp only [Client.keep, hnone', Option.toList_none, List.append_nil, hright]
    · refine ⟨pairs ++ [(kept, kept')], ?_, ?_, ?_⟩
      · simp only [Client.keep, hkept, Option.toList_some, hleft, List.map_append, List.map_cons,
          List.map_nil]
      · simp only [Client.keep, hkept', Option.toList_some, hright, List.map_append,
          List.map_cons, List.map_nil]
      · exact List.forall_mem_append.2 ⟨hpairs, List.forall_mem_singleton.2 hmirrors⟩
  -- the listing as the step left it takes the place of the one that the step began with
  | next n =>
    rcases hanswers.listing with ⟨hnone, hnone'⟩ | ⟨kept, kept', hkept, hkept', hmirrors⟩
    · simp only [Client.keep, hnone, hnone']
      exact h
    · simp only [Client.keep, hkept, hkept']
      refine ⟨⟨pairs.set n (kept, kept'), ?_, ?_, fun pair hpair => ?_⟩, h.batches, h.named⟩
      · rw [hleft, List.map_set]
      · rw [hright, List.map_set]
      · rcases List.mem_or_eq_of_mem_set hpair with hold | rfl
        · exact hpairs pair hold
        · exact hmirrors
  | begin =>
    refine ⟨h.listings, ?_, ?_⟩
    · have hscope : scope.qualify [] = scope := List.append_nil scope
      simp only [Client.keep, h.batches, List.map_append, List.map_cons, List.map_nil,
        Batch.inside, hscope]
    · refine List.forall_mem_append.2 ⟨h.named, List.forall_mem_singleton.2 ?_⟩
      exact fun _ hw => absurd hw List.not_mem_nil
  | record n key value => exact h.record n key value
  -- the batch as the commit left it takes the place of the one that was handed in
  | commit n =>
    rcases hanswers.batch with ⟨hnone, hnone'⟩ | ⟨kept, hkept, hkept', hnamed⟩
    · simp only [Client.keep, hnone, hnone']
      exact h
    · simp only [Client.keep, hkept, hkept']
      refine ⟨h.listings, ?_, fun batch hbatch => ?_⟩
      · rw [h.batches, List.map_set]
      · rcases List.mem_or_eq_of_mem_set hbatch with hold | rfl
        · exact h.named batch hold
        · exact hnamed
  | _ => exact h

/-! ### Two clients -/

/-- A client of a view and a client of a broker of its own have come equally far. -/
structure Mirrors (scope : Key) (c c' : Client) : Prop where
  shelters : c.system.Shelters scope
  shelters' : c'.system.Shelters []
  settings : c.system.settings = c'.system.settings
  now : c.system.now = c'.system.now
  ledgers : c.system.store.ledger.Mirrors scope c.system.instant c'.system.store.ledger
  kept : Kept scope c.system.store.ledger c'.system.store.ledger c c'

namespace Mirrors

variable {doing : Doing}

/-- The stores of both clients act at the same instant. -/
theorem instant (h : Mirrors scope c c') : c'.system.instant = c.system.instant := by
  rw [System.instant, System.instant, h.now]

/-- The same call begins alike on both brokers. -/
theorem turn? (h : Mirrors scope c c') (doing : Doing) :
    c.turn? scope doing = none ∧ c'.turn? [] doing = none ∨
      ∃ turn turn', c.turn? scope doing = some turn ∧ c'.turn? [] doing = some turn' ∧
        turn.Mirrors scope c.system.store.ledger c'.system.store.ledger turn' := by
  have hplain {l l' : Ledger} {answer answer' : Answer} (hseen : answer.seen = answer'.seen)
      (hlisting : answer.listing? = none ∧ answer'.listing? = none)
      (hbatch : answer.batch? = none ∧ answer'.batch? = none) :
      Turn.Mirrors scope l l' (.done answer) (.done answer') := .done (.plain hseen hlisting hbatch)
  cases doing with
  | put key value ttl =>
    refine .inr ⟨_, _, rfl, rfl, ?_⟩
    unfold Call.beginPut
    split
    · exact hplain rfl ⟨rfl, rfl⟩ ⟨rfl, rfl⟩
    · next hkey => exact .ask (.put key value ttl (eq_false_of_ne_true hkey))
  | get key => exact .inr ⟨_, _, rfl, rfl, .ask (.get key)⟩
  | delete key =>
    refine .inr ⟨_, _, rfl, rfl, ?_⟩
    unfold Call.beginDelete
    split
    · exact hplain rfl ⟨rfl, rfl⟩ ⟨rfl, rfl⟩
    · next hkey => exact .ask (.delete key (eq_false_of_ne_true hkey))
  | deletePrefix stem => exact .inr ⟨_, _, rfl, rfl, .ask (.deletePrefix stem)⟩
  | list stem keysOnly =>
    refine .inr ⟨_, _, rfl, rfl, ?_⟩
    rw [h.settings]
    unfold Call.beginList
    split
    · exact .ask (.list (Listing.resembles_opening ..))
    · exact hplain rfl ⟨rfl, rfl⟩ ⟨rfl, rfl⟩
  -- listings go by their place, and both clients have kept equally many
  | next n =>
    obtain ⟨pairs, hleft, hright, hpairs⟩ := h.kept.listings
    simp only [Client.turn?, hleft, hright, List.getElem?_map]
    cases hpair : pairs[n]? with
    | none => exact .inl ⟨rfl, rfl⟩
    | some pair =>
      have hmirrors := hpairs pair (List.mem_of_getElem? hpair)
      refine .inr ⟨_, _, rfl, rfl, ?_⟩
      simp only [Call.beginNext, hmirrors.resembles.needsPage]
      split
      · exact .ask (.next hmirrors)
      · exact .done (.stepped hmirrors)
  | commit n =>
    simp only [Client.turn?, h.kept.batches, List.getElem?_map, h.shelters.running,
      h.shelters'.running]
    cases hbatch : c'.batches[n]? with
    | none => exact .inl ⟨rfl, rfl⟩
    | some batch =>
      have hnamed := h.kept.named batch (List.mem_of_getElem? hbatch)
      exact .inr ⟨_, _, rfl, rfl, .commit hnamed false⟩
  | begin | record n key value | pass moment => exact .inl ⟨rfl, rfl⟩

/-- Calls that begin alike are answered alike, and both ledgers go on alike. -/
theorem call (h : Mirrors scope c c') {turn turn' : Turn}
    (hturns : turn.Mirrors scope c.system.store.ledger c'.system.store.ledger turn') :
    ∃ answer answer' store store' events events',
      c.system.Makes turn answer store (events.map .committed) ∧
      c'.system.Makes turn' answer' store' (events'.map .committed) ∧
      c.system.store.Continues events store ∧ c'.system.store.Continues events' store' ∧
      answer.Mirrors scope store.ledger store'.ledger answer' ∧
      Ledger.Doubles scope c.system.instant c.system.store.ledger c'.system.store.ledger
        turn'.call? store.ledger events store'.ledger events' := by
  cases hturns with
  | @done answer answer' mirrors =>
    exact ⟨answer, answer', _, _, [], [], h.shelters.prompt.makes_done answer,
      h.shelters'.prompt.makes_done answer', h.shelters.continues_feeds _,
      h.shelters'.continues_feeds _, mirrors, .rest⟩
  | @ask call call' mirrors =>
    obtain ⟨hbrief, hbrief'⟩ := mirrors.brief
    obtain ⟨hnamed, hnamed'⟩ := mirrors.named
    obtain ⟨answer, hresumes, hmakes⟩ := h.shelters.prompt.makes_ask hbrief
    obtain ⟨answer', hresumes', hmakes'⟩ := h.shelters'.prompt.makes_ask hbrief'
    have hcontinues := h.shelters.continues_serve call.request (Call.service_of_brief hbrief).2
    have hcontinues' := h.shelters'.continues_serve call'.request (Call.service_of_brief hbrief').2
    rw [h.instant] at hresumes' hmakes' hcontinues'
    have hanswers := mirrors.answer h.ledgers h.shelters.reachable h.shelters'.reachable
      h.shelters.whole h.shelters'.whole hresumes hresumes'
    refine ⟨answer, answer', _, _, _, _, hmakes, hmakes', hcontinues, hcontinues', hanswers, ?_⟩
    obtain ⟨hledger, hevents⟩ :=
      Store.ledger_serve_of_named h.shelters.reachable hnamed c.system.instant
    obtain ⟨hledger', hevents'⟩ :=
      Store.ledger_serve_of_named h.shelters'.reachable hnamed' c.system.instant
    rw [hledger, hevents, hledger', hevents', mirrors.serve]
    exact .serve call'

/-- Keeping what comes with the answers, both clients stay equally far. -/
theorem keep (h : Mirrors scope c c')
    (hanswers : Corresponds scope c.system.store.ledger c'.system.store.ledger answer? answer'?)
    (doing : Doing) : Mirrors scope (c.keep scope answer? doing) (c'.keep [] answer'? doing) := by
  have hkept := h.kept.keep hanswers doing
  constructor <;> simp only [system_keep]
  · exact h.shelters
  · exact h.shelters'
  · exact h.settings
  · exact h.now
  · exact h.ledgers
  · exact hkept

/-- Time passes for both. -/
theorem passed (h : Mirrors scope c c') (moment : Nat) :
    Mirrors scope { c with system := c.system.move (.pass moment) }
      { c' with system := c'.system.move (.pass moment) } where
  shelters := { h.shelters with }
  shelters' := { h.shelters' with }
  settings := h.settings
  now := congrArg (max · moment) h.now
  ledgers := h.ledgers.later (Nat.mul_le_mul_right _ (Nat.le_max_left _ _))
  kept := { h.kept with }

/-- Both brokers answer the same call. -/
theorem made (h : Mirrors scope c c') {turn turn' : Turn} {answer answer' : Answer}
    {store store' : Store} {events events' : List Event}
    (hmakes : c.system.Makes turn answer store (events.map .committed))
    (hmakes' : c'.system.Makes turn' answer' store' (events'.map .committed))
    (hcontinues : c.system.store.Continues events store)
    (hcontinues' : c'.system.store.Continues events' store')
    (hdoubles : Ledger.Doubles scope c.system.instant c.system.store.ledger
      c'.system.store.ledger turn'.call? store.ledger events store'.ledger events') :
    Mirrors scope { c with system := c.system.moves (c.system.making turn) }
      { c' with system := c'.system.moves (c'.system.making turn') } := by
  have hsettings := congrArg Frame.settings hmakes.frame
  have hsettings' := congrArg Frame.settings hmakes'.frame
  have hnow : (c.system.moves (c.system.making turn)).now = c.system.now :=
    congrArg Frame.now hmakes.frame
  have hnow' := congrArg Frame.now hmakes'.frame
  have hinstant : (c.system.moves (c.system.making turn)).instant = c.system.instant := by
    rw [System.instant, System.instant, hnow]
  have hledgers := hdoubles.mirrors h.ledgers hcontinues.later.bounded hcontinues'.later.bounded
  have hkept := h.kept.later hcontinues.later hcontinues'.later hcontinues.whole hcontinues'.whole
  exact {
    shelters := hmakes.shelters h.shelters hcontinues
    shelters' := hmakes'.shelters h.shelters' hcontinues'
    settings := hsettings.trans (h.settings.trans hsettings'.symm)
    now := hnow.trans (h.now.trans hnow'.symm)
    ledgers := by
      simp only [hinstant, hmakes.store, hmakes'.store]
      exact hledgers
    kept := by
      simp only [hmakes.store, hmakes'.store]
      exact { hkept with } }

/-- Doing the same, both clients come equally far and see the same. -/
theorem own (h : Mirrors scope c c') (doing : Doing) :
    Mirrors scope (c.after scope doing) (c'.after [] doing) ∧
      (c.answer? scope doing).map (·.seen) = (c'.answer? [] doing).map (·.seen) ∧
      Ledger.Doubles scope c.system.instant c.system.store.ledger c'.system.store.ledger
        ((c'.turn? [] doing).bind (·.call?)) (c.after scope doing).system.store.ledger
        (committed (c.happens (.own doing : Step scope)))
        (c'.after [] doing).system.store.ledger
        (committed (c'.happens (.own doing : Step []))) := by
  rw [system_after, system_after, happens_own, happens_own]
  unfold after
  rcases h.turn? doing with ⟨hturn, hturn'⟩ | ⟨turn, turn', hturn, hturn', hturns⟩
  · have hanswer : c.answer? scope doing = none := by rw [answer?, hturn, Option.bind_none]
    have hanswer' : c'.answer? [] doing = none := by rw [answer?, hturn', Option.bind_none]
    have hnone : Corresponds scope c.system.store.ledger c'.system.store.ledger none none :=
      .inl ⟨rfl, rfl⟩
    rw [hanswer, hanswer', hturn', Option.bind_none]
    rcases moves_of_no_turn hturn with ⟨moment, rfl, hmoves⟩ | ⟨hwaits, hmoves⟩
    · have hmoves' : c'.moves [] (.pass moment) = [.pass moment] := rfl
      rw [hmoves, hmoves']
      exact ⟨(h.passed moment).keep hnone _, rfl, .rest⟩
    · have hmoves' : c'.moves [] doing = [] := by
        rcases moves_of_no_turn hturn' with ⟨moment, heq, _⟩ | ⟨_, hstays⟩
        · exact absurd heq (hwaits moment)
        · exact hstays
      rw [hmoves, hmoves']
      exact ⟨h.keep hnone doing, rfl, .rest⟩
  · obtain ⟨answer, answer', store, store', events, events', hmakes, hmakes', hcontinues,
      hcontinues', hanswers, hdoubles⟩ := h.call hturns
    have hanswer : c.answer? scope doing = some answer := by
      rw [answer?, hturn, Option.bind_some, hmakes.answer]
    have hanswer' : c'.answer? [] doing = some answer' := by
      rw [answer?, hturn', Option.bind_some, hmakes'.answer]
    have hcorresponds : Corresponds scope store.ledger store'.ledger (some answer) (some answer') :=
      .inr ⟨answer, answer', rfl, rfl, hanswers⟩
    have hmade := h.made hmakes hmakes' hcontinues hcontinues' hdoubles
    rw [hanswer, hanswer', hturn', Option.bind_some, moves_of_turn? hturn, moves_of_turn? hturn']
    refine ⟨hmade.keep ?_ doing, hcorresponds.seen, ?_⟩
    · simp only [hmakes.store, hmakes'.store]
      exact hcorresponds
    · rw [hmakes.store, hmakes'.store, hmakes.happenings, hmakes'.happenings, committed_map,
        committed_map]
      exact hdoubles

/-! ### What else happens -/

/-- A move on the shared broker that spares the scope leaves the clients equally far. -/
theorem left (h : Mirrors scope c c') {m : Move} (hspares : m.Spares scope)
    (hrunning : (c.system.move m).stopped = false) :
    Mirrors scope { c with system := c.system.move m } c' := by
  have hkeeps := h.shelters.keeps hspares
  have hcontinues := hkeeps.tends.continues h.shelters
  have hnow : (c.system.move m).now = c.system.now := congrArg Frame.now hkeeps.frame
  have hinstant : (c.system.move m).instant = c.system.instant := by
    rw [System.instant, System.instant, hnow]
  have hkept := h.kept.later hcontinues.later
    (h.shelters'.continues_feeds []).later hcontinues.whole h.shelters'.whole
  exact {
    shelters := h.shelters.move hspares hrunning
    shelters' := h.shelters'
    settings := (congrArg Frame.settings hkeeps.frame).trans h.settings
    now := hnow.trans h.now
    ledgers := by
      simp only [hinstant]
      rcases hkeeps.tends.cases h.shelters with ⟨hsame, _⟩ | ⟨_, request, hrequest, hserve, _⟩
      · rw [hsame]
        exact h.ledgers
      · exact h.ledgers.spared hcontinues.later.bounded hserve hrequest
    kept := { hkept with } }

/-- So does a move on the client's own broker that touches no key at all. -/
theorem right (h : Mirrors scope c c') {m : Move} (hspares : m.Spares [])
    (hrunning : (c'.system.move m).stopped = false) :
    Mirrors scope c { c' with system := c'.system.move m } := by
  have hkeeps := h.shelters'.keeps hspares
  have hcontinues := hkeeps.tends.continues h.shelters'
  have hkept := h.kept.later (h.shelters.continues_feeds []).later
    hcontinues.later h.shelters.whole hcontinues.whole
  exact {
    shelters := h.shelters
    shelters' := h.shelters'.move hspares hrunning
    settings := h.settings.trans (congrArg Frame.settings hkeeps.frame).symm
    now := h.now.trans (congrArg Frame.now hkeeps.frame).symm
    ledgers := by
      rcases hkeeps.tends.cases h.shelters' with ⟨hsame, _⟩ | ⟨_, request, hrequest, hserve, _⟩
      · simp only [hsame]
        exact h.ledgers
      · rw [h.instant] at hserve
        exact h.ledgers.spared_right hcontinues.later.bounded hserve hrequest
    kept := { hkept with } }

end Mirrors

end Client

end KeyBroker
