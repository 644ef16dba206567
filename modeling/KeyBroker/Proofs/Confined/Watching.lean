import KeyBroker.Proofs.Confined.Listings
import KeyBroker.Proofs.Following.Loss
import KeyBroker.Proofs.Listing.Faithful

/-!
# Scopes are never violated

A subscription through a view reads a stem that begins with the scope of the view, and its
dispatcher passes over every event outside that stem. So whatever its stream carries, an event
that is sent has the scope in front of its key, and no foreign key is ever reported. The reads
and listings of a view meet no foreign key either, as the store answers with the keys that it
was asked for.
-/

namespace KeyBroker

namespace Subscription

/-- What may be sent for a subscription that reads a stream: an error that is not about a
foreign key, or an event that the stream carries under the stem, with the scope taken off its
key. -/
inductive Localizes (sub : Subscription) (stream : List Signal) : Item → Prop where
  | error (e : Error) (own : e.isForeign = false) : Localizes sub stream (.error e)
  | event (native : Event) (rest : Key) (carried : .ok native ∈ stream)
    (under : native.key = sub.scope.qualify (sub.localStem.qualify rest)) :
    Localizes sub stream (.ok { native with key := sub.localStem.qualify rest })

variable {sub : Subscription} {policy : SlowPolicy} {stream : List Signal} {items : List Item}
  {events : List Event}

/-- What tells of dropped events is an item of an event or the number of those dropped. -/
theorem Accounts.mem {missed : Nat} (h : sub.Accounts missed items events) {item : Item}
    (hitem : item ∈ items) :
    (∃ event ∈ events, item = sub.itemOf event) ∨ ∃ n, item = .error (.watchLagged n) := by
  induction h with
  | pending events left => cases hitem
  | delivered event rest ih =>
    rcases List.mem_cons.1 hitem with rfl | hlater
    · exact .inl ⟨event, List.mem_cons_self, rfl⟩
    · exact (ih hlater).imp_left fun ⟨other, hother, heq⟩ =>
        ⟨other, List.mem_cons_of_mem _ hother, heq⟩
  | reported gone some rest ih =>
    rcases List.mem_cons.1 hitem with rfl | hlater
    · exact .inr ⟨_, rfl⟩
    · exact (ih hlater).imp_left fun ⟨other, hother, heq⟩ =>
        ⟨other, List.mem_append_right _ hother, heq⟩

/-- Every item that tells of events is that of one of them, or reports how many were dropped. -/
theorem Relays.mem (h : sub.Relays policy items events) {item : Item} (hitem : item ∈ items) :
    (∃ event ∈ events, item = sub.itemOf event) ∨ ∃ n, item = .error (.watchLagged n) := by
  cases policy with
  | block =>
    obtain ⟨event, hevent, rfl⟩ := List.mem_map.1 (List.IsPrefix.mem hitem h)
    exact .inl ⟨event, hevent, rfl⟩
  | dropAndSignal =>
    obtain ⟨missed, haccounts⟩ := h
    exact haccounts.mem hitem

/-- An event under the stem begins with the scope, and is shown without it. -/
theorem localizes_itemOf (hnamed : sub.stem = sub.scope.qualify sub.localStem)
    {yielded : List Event} {event : Event} (hevent : event ∈ sub.matching (yielded.map .ok))
    (hcarried : ∀ e ∈ yielded, .ok e ∈ stream) : sub.Localizes stream (sub.itemOf event) := by
  obtain ⟨hmem, hbegins⟩ := List.mem_filter.1 hevent
  obtain ⟨signal, hsignal, hok⟩ := List.mem_filterMap.1 hmem
  obtain ⟨native, hnative, rfl⟩ := List.mem_map.1 hsignal
  obtain rfl : native = event := Option.some.inj hok
  obtain ⟨rest, hrest⟩ := Key.beginsWith_iff.1 hbegins
  have hkey : native.key = sub.scope.qualify (sub.localStem.qualify rest) := by
    rw [← hrest, hnamed]
    exact List.append_assoc ..
  have hshown : sub.itemOf native =
      .ok { native with key := sub.localStem.qualify rest } := by
    have hscope : sub.scope <+: native.key := hkey ▸ List.prefix_append _ _
    rw [itemOf, Key.reveal_of_prefix hscope, hkey, Key.qualify, List.drop_left]
    rfl
  rw [hshown]
  exact .event native rest (hcarried native hnative) hkey

end Subscription

namespace System

variable {s : System} {es : List Episode} {sub : Subscription} {policy : SlowPolicy}
  {Whole : List Signal → Prop} {sent : List Item} {stream : List Signal}

/-- Whatever a subscription has shown of its stream, every item is one that may be sent for it. -/
theorem Shown.localizes {yielded : List Event} {rest : List Signal} {items report : List Item}
    (h : Shown policy Whole s es sub yielded rest items report)
    (hnamed : sub.stem = sub.scope.qualify sub.localStem) :
    ∀ item ∈ items ++ report, sub.Localizes (yielded.map .ok ++ rest) item := by
  intro item hitem
  rcases List.mem_append.1 hitem with htold | hreport
  · rcases h.relays.mem htold with ⟨event, hevent, rfl⟩ | ⟨n, rfl⟩
    · exact Subscription.localizes_itemOf hnamed hevent fun e he =>
        List.mem_append_left _ (List.mem_map_of_mem he)
    · exact .error _ rfl
  · rcases h.once with rfl | ⟨_, reason, rfl, _⟩
    · cases hreport
    · rw [List.mem_singleton.1 hreport]
      exact .error _ rfl

/-- All that is sent for a subscription keeps to its scope. -/
theorem Followed.localizes
    (h : Followed policy (Dispatch.Tells policy Whole) s es sub sent stream)
    (hsupplied : s.Supplied es) (hnamed : sub.stem = sub.scope.qualify sub.localStem) :
    ∀ item ∈ sent, sub.Localizes stream item := by
  rcases h.stands with hworks | hdeparted
  · obtain ⟨yielded, rest, rfl, hshown⟩ := hworks.shown hsupplied
    exact fun item hitem => hshown.localizes hnamed item (List.mem_append_left _ hitem)
  · obtain ⟨yielded, rest, items, report, rfl, rfl, hshown⟩ := hdeparted.shown hsupplied
    exact hshown.localizes hnamed

/-- No scope is ever violated, and no foreign key escapes. A view has a scope, be it one prefix
or the prefixes of several views nested in each other put together.

Whatever signals are put on the feed of a subscription, what is sent for it is no scope
violation, and an event only if its stream carried it under the stem of the subscription in the
scope; the event then has its key without the scope.

Over the store, a read of a key through the view answers no scope violation, and a pair only
under the key that was asked for, which the store held under the full key at some moment of the
call. Every step of every listing through the view, and the rest of a listing read in one call,
answers no scope violation, and only pairs that the store held under the full key at one moment
while the listing was opened. -/
theorem scope_never_violated (settings : Settings) :
    (∀ (early later : List Incident) (d : Dispatcher),
      d ∈ (incurs { settings } early).dispatchers → d.phase = .starting →
      d.subscription.channel < (incurs { settings } early).channels.length →
      let before := incurs { settings } early
      let sub := d.subscription
      sub.stem = sub.scope.qualify sub.localStem ∧
        ∀ item ∈ before.sent sub later,
          sub.Localizes ((before.store.feed sub.feed).queue ++ before.poured sub.feed later) item) ∧
    (∀ (run between : List Move) (scope key : Key) (holdsBroker : Bool) (answer : Answer)
      (t : System),
      let begun := (moves { settings } run).launch (.ask (.get scope key)) holdsBroker
      (begun.1.moves between).takeAnswer begun.2 = some (answer, t) →
        ∃ result early, answer = .found result ∧ early <+: between ∧
          (begun.1.moves early).store.ledger.latest.Vouches scope false result ∧
          ∀ pair, result = .ok (some pair) → pair.key = key) ∧
    ∀ (run between : List Move) (scope stem : Key) (keysOnly holdsBroker : Bool)
      (listing : Listing) (t : System),
      let begun := (moves { settings } run).launch
        (Call.beginList settings scope stem keysOnly .list) holdsBroker
      (begun.1.moves between).takeAnswer begun.2 = some (.listing (.ok listing), t) →
        ∃ early, early <+: between ∧ ∀ r, Reader.Reaches { system := t, listing } r →
          ∀ (holdsBroker : Bool) (more : List Move),
            (∀ r' result, r.next holdsBroker more = some (r', result) →
              (begun.1.moves early).store.ledger.latest.Vouches scope keysOnly result) ∧
            ∀ taken failure, r.collect holdsBroker more = some (taken, failure) →
              (∀ pair ∈ taken, (begun.1.moves early).store.ledger.latest.Holds keysOnly
                (scope.qualify pair.key) pair) ∧
              ∀ e, failure = some e → e.isForeign = false := by
  refine ⟨?watch, ?get, ?list⟩
  case watch =>
    intro early later d hlive hnew hmade before sub
    have hsupplied : before.Supplied (episodes { settings } early) :=
      (supplied_new settings).incurs early
    have hnamed := hsupplied.supplied.named d hlive
    -- a dispatcher that has yet to start tells of nothing, and goes on telling of what it takes
    have htells : Dispatch.Tells before.wiring.policy (before.Ended sub.feed later)
        (before.wiring.dispatchOf d) [] [] :=
      Dispatch.tells_new hnew (hsupplied.supplied.unused d hlive hnew)
    have hfollowed := (hsupplied.followed hlive hmade htells).incurs (Dispatch.lasting_tells _ _)
      hsupplied later fun now soon hrun hended => ⟨now, soon, hrun, hended, rfl⟩
    rw [List.nil_append] at hfollowed
    exact ⟨hnamed, hfollowed.localizes (hsupplied.incurs later) hnamed⟩
  case get =>
    intro run between scope key holdsBroker answer t begun htake
    have hgenuine := genuine_moves (genuine_new settings) run
    have hbooked := booked_moves (genuine_new settings) (booked_new settings) run
    cases seeks_of_answer hgenuine hbooked htake with
    | answers l held result vouched same =>
      obtain ⟨early, hearly, rfl⟩ := held
      exact ⟨result, early, rfl, hearly, vouched, same⟩
  case list =>
    intro run between scope stem keysOnly holdsBroker listing t begun hopened
    have hgenuine := genuine_moves (genuine_new settings) run
    have hbooked := booked_moves (genuine_new settings) (booked_new settings) run
    have hlater := later_moves (genuine_new settings) ⟨[], Ledger.later_new⟩ run
    obtain ⟨early, hearly, hconfined⟩ :=
      Reader.confined_opened hgenuine hbooked hlater hopened
    refine ⟨early, hearly, fun r hreaches holdsBroker more => ?_⟩
    have hreader := hconfined.reaches hreaches
    refine ⟨fun r' result hnext => (hreader.walks hnext).2, fun taken failure hcollect => ?_⟩
    cases hreader.drains hcollect with
    | answers _ _ held own => exact ⟨held, own⟩

/-- What a read answered, with the system behind it. -/
def found? : Answer × System → Option (Option KeyValue)
  | (.found (.ok pair), _) => some pair
  | _ => none

/-- A scope and a stem that overlap with themselves and with each other. Of the events on the
stream only the last begins with both; a read and a listing through the same view show the
stored key without the scope. -/
theorem scope_never_violated_overlapping :
    let scope : Key := ['a', 'a']
    let early : List Incident := [.occur (.move (.openChannel 8 false)),
      .occur (.move (.launch (.ask (.watch scope ['a'] 0)) false)),
      .occur (.move (.poll (.call 0) false))]
    let arrives (key : Key) : Incident := .occur (.signal 0 (.ok
      { kind := .put, key, value := [1], previous := none, revision := 1 }))
    let step : Incident := .occur (.move (.poll (.dispatcher 1) false))
    let later : List Incident := [arrives ['b', 'a'], arrives ['a', 'a', 'b'],
      arrives ['a', 'a', 'a', 'a'], step, step, step, step, step, step]
    let d : Dispatcher :=
      { subscription := { id := 1, localStem := ['a'], stem := ['a', 'a', 'a'], scope,
                          channel := 0, feed := 0 } }
    let before := incurs { settings := {} } early
    let keyOf : Item → Option Key
      | .ok event => some event.key
      | .error _ => none
    let run : List Move := [.ask (.put ['a', 'a', 'a'] [1] none)]
    let polled : List Move := [.poll (.call 0) false]
    let reading := (moves { settings := {} } run).launch (.ask (.get scope ['a'])) false
    let listing := (moves { settings := {} } run).launch
      (Call.beginList {} scope ['a'] false .list) false
    (d ∈ before.dispatchers ∧ d.phase = .starting ∧ 0 < before.channels.length ∧
      (before.sent d.subscription later).map keyOf = [some ['a', 'a']] ∧
      ∀ item ∈ before.sent d.subscription later, d.subscription.Localizes
        ((before.store.feed 0).queue ++ before.poured 0 later) item) ∧
    (∃ answer t, (reading.1.moves polled).takeAnswer reading.2 = some (answer, t) ∧
      found? (answer, t) = some (some ⟨['a'], [1], 1⟩) ∧
      ∃ result early, answer = .found result ∧ early <+: polled ∧
        (reading.1.moves early).store.ledger.latest.Vouches scope false result ∧
        ∀ pair, result = .ok (some pair) → pair.key = ['a']) ∧
    ∃ opened t, (listing.1.moves polled).takeAnswer listing.2 =
        some (.listing (.ok opened), t) ∧
      opened.buffer = [⟨['a', 'a', 'a'], [1], 1⟩] ∧
      ∃ early, early <+: polled ∧ ∀ r, Reader.Reaches { system := t, listing := opened } r →
        ∀ (holdsBroker : Bool) (more : List Move),
          (∀ r' result, r.next holdsBroker more = some (r', result) →
            (listing.1.moves early).store.ledger.latest.Vouches scope false result) ∧
          ∀ taken failure, r.collect holdsBroker more = some (taken, failure) →
            (∀ pair ∈ taken, (listing.1.moves early).store.ledger.latest.Holds false
              (scope.qualify pair.key) pair) ∧
            ∀ e, failure = some e → e.isForeign = false := by
  intro scope early arrives step later d before keyOf run polled reading listing
  obtain ⟨hwatch, hget, hlist⟩ := scope_never_violated {}
  refine ⟨?watch, ?get, ?list⟩
  case watch =>
    have hlive : d ∈ before.dispatchers := by decide +kernel
    have hmade : 0 < before.channels.length := by decide +kernel
    exact ⟨hlive, rfl, hmade, by decide +kernel, (hwatch early later d hlive rfl hmade).2⟩
  case get =>
    have hfound : ((reading.1.moves polled).takeAnswer reading.2).bind found? =
        some (some ⟨['a'], [1], 1⟩) := by decide +kernel
    obtain ⟨⟨answer, t⟩, htake, hanswer⟩ := Option.bind_eq_some_iff.1 hfound
    exact ⟨answer, t, htake, hanswer, hget run polled scope ['a'] false answer t htake⟩
  case list =>
    have hopened : ((listing.1.moves polled).takeAnswer listing.2).bind
        (fun taken => (opened? taken).map (·.1.buffer)) =
          some [⟨['a', 'a', 'a'], [1], 1⟩] := by decide +kernel
    obtain ⟨taken, htake, hmap⟩ := Option.bind_eq_some_iff.1 hopened
    obtain ⟨⟨opened, t⟩, hlisting, hbuffer⟩ := Option.map_eq_some_iff.1 hmap
    rw [opened?_eq_some hlisting] at htake
    exact ⟨opened, t, htake, hbuffer, hlist run polled scope ['a'] false false opened t htake⟩

end System

end KeyBroker
