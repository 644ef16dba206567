import KeyBroker.Proofs.Store.Record
import KeyBroker.Proofs.View.Within

/-!
# A ledger inside another

One ledger mirrors another under a scope if, at an instant, the keys under its scope hold
what the keys of the other hold. Requests with the scope in front of their keys and the
same requests without it keep the two so, and are answered alike; requests that touch no
key under the scope, made of the first alone, do not disturb this. Without deadlines under
the scope also the events are alike.
-/

namespace KeyBroker

/-! ### Requests inside a scope -/

/-- A write with the scope in front of its key. -/
def Write.inside (scope : Key) : Write → Write
  | .put key value => .put (scope.qualify key) value
  | .delete key => .delete (scope.qualify key)

/-- A write with the scope in front of its key is about that key. -/
theorem Write.key_inside (scope : Key) (w : Write) :
    (w.inside scope).key = scope.qualify w.key := by
  cases w <;> rfl

/-- A request with the scope in front of its keys. -/
def Request.inside (scope : Key) : {service : Service} → Request service → Request service
  | _, .put key value ttl => .put (scope.qualify key) value ttl
  | _, .get key => .get (scope.qualify key)
  | _, .delete key under => .delete (scope.qualify key) under
  | _, .range query => .range (query.inside scope)
  | _, .txn writes => .txn (writes.map (·.inside scope))
  | _, .watch stem => .watch (scope.qualify stem)
  | _, .close => .close

/-- A request that touches no key under a scope. -/
def Request.Spares (scope : Key) {service : Service} (request : Request service) : Prop :=
  ∀ key, scope.beginsWith key = true → request.touches key = false

/-- A put spares a scope if its key is not under it. -/
theorem Request.spares_put_iff {scope key : Key} {value : Bytes} {ttl : Option Duration} :
    (Request.put key value ttl).Spares scope ↔ scope.beginsWith key = false := by
  constructor
  · intro h
    rw [← Bool.not_eq_true]
    intro hkey
    have htouched := h key hkey
    rw [touches, decide_eq_true rfl] at htouched
    cases htouched
  · intro hkey k hk
    refine decide_eq_false fun heq => ?_
    rw [← heq, hkey] at hk
    cases hk

/-- The deletion of all keys under a stem spares a scope if neither begins with the other. -/
theorem Request.spares_deletePrefix_iff {scope stem : Key} :
    (Request.delete stem true).Spares scope ↔
      stem.beginsWith scope = false ∧ scope.beginsWith stem = false := by
  constructor
  · intro h
    refine ⟨h scope (Key.beginsWith_iff.2 (List.prefix_refl scope)), ?_⟩
    rw [← Bool.not_eq_true]
    intro hstem
    have htouched := h stem hstem
    rw [touches, Key.beginsWith_iff.2 (List.prefix_refl stem)] at htouched
    cases htouched
  · rintro ⟨hstem, hscope⟩ key hkey
    rw [← Bool.not_eq_true] at hstem hscope ⊢
    intro htouched
    -- two stems of one key are comparable
    rcases List.prefix_or_prefix_of_prefix (Key.beginsWith_iff.1 htouched)
        (Key.beginsWith_iff.1 hkey) with hprefix | hprefix
    · exact hstem (Key.beginsWith_iff.2 hprefix)
    · exact hscope (Key.beginsWith_iff.2 hprefix)

/-- An event with the scope in front of its key. -/
def Event.inside (scope : Key) (event : Event) : Event :=
  { event with key := scope.qualify event.key }

/-- An event without its revision. -/
def Event.undated (event : Event) : Event := { event with revision := 0 }

/-- Events are, but for revisions, others with the scope in front of their keys. -/
def Event.Mirrored (scope : Key) (events events' : List Event) : Prop :=
  events.map (·.undated) = events'.map fun event => (event.inside scope).undated

variable {scope : Key} {service : Service} {request : Request service}

/-- A request inside a scope touches keys under the scope only. -/
theorem Request.beginsWith_of_touches_inside {key : Key}
    (h : (request.inside scope).touches key = true) : scope.beginsWith key = true := by
  cases request with
  | put target value ttl =>
    rw [← of_decide_eq_true h]
    exact Key.beginsWith_qualify scope target
  | delete target under =>
    cases under with
    | false =>
      rw [← of_decide_eq_true h]
      exact Key.beginsWith_qualify scope target
    | true => exact Key.beginsWith_of_qualify h
  | txn writes =>
    obtain ⟨w, hw, hkey⟩ := List.any_eq_true.1 h
    obtain ⟨local', _, rfl⟩ := List.mem_map.1 hw
    rw [← of_decide_eq_true hkey, Write.key_inside]
    exact Key.beginsWith_qualify scope _
  | _ => cases h

/-- A request with the scope in front of its keys touches no key outside the scope. -/
theorem Request.touches_inside_of_foreign {key : Key} (h : scope.beginsWith key = false) :
    (request.inside scope).touches key = false := by
  rw [← Bool.not_eq_true] at h ⊢
  exact fun htouches => h (beginsWith_of_touches_inside htouches)

/-- A request gives a key a value for a limited time exactly if it does so with the scope in front
of both. -/
theorem Request.times_inside (request : Request service) (key : Key) :
    (request.inside scope).times (scope.qualify key) = request.times key := by
  cases request with
  | put target value ttl =>
    cases ttl with
    | none => rfl
    | some ttl => exact decide_eq_decide.2 Key.qualify_inj
  | _ => rfl

/-- Writes with the scope in front leave under the scope what the writes leave. -/
theorem Holdings.writeAll_inside (writes : List Write) {held held' : Holdings}
    (h : ∀ key, held (scope.qualify key) = held' key) (key : Key) :
    held.writeAll (writes.map (·.inside scope)) (scope.qualify key) =
      held'.writeAll writes key := by
  induction writes generalizing held held' with
  | nil => exact h key
  | cons first rest ih =>
    refine @ih (held.write (first.inside scope)) (held'.write first) fun k => ?_
    cases first with
    | put target value => simp only [Write.inside, Holdings.write, Key.qualify_inj, h k]
    | delete target => simp only [Write.inside, Holdings.write, Key.qualify_inj, h k]

/-- Inside a scope a request has the effect that it has elsewhere. -/
theorem Request.effect_inside (request : Request service) (now : Nat) {held held' : Holdings}
    (h : ∀ key, held (scope.qualify key) = held' key) (key : Key) :
    (request.inside scope).effect now held (scope.qualify key) = request.effect now held' key := by
  cases request with
  | put target value ttl =>
    cases ttl with
    | none => simp only [inside, effect, Holdings.write, Key.qualify_inj, h key]
    | some ttl =>
      simp only [inside, effect]
      cases deadlineAfter now ttl with
      | none => exact h key
      | some deadline => simp only [Key.qualify_inj, h key]
  | delete target under =>
    cases under with
    | false => simp only [inside, effect, Holdings.write, Key.qualify_inj, h key]
    | true => simp only [inside, effect, Key.beginsWith_qualify_qualify, h key]
  | txn writes => exact Holdings.writeAll_inside writes h key
  | _ => exact h key

/-- Mirrored events are about keys under the scope. -/
theorem Event.Mirrored.filter_eq {events events' : List Event}
    (h : Event.Mirrored scope events events') :
    (events.filter fun e => scope.beginsWith e.key) = events := by
  rw [List.filter_eq_self]
  intro event hmem
  have hundated : event.undated ∈ events'.map fun event => (event.inside scope).undated := by
    rw [← h]
    exact List.mem_map_of_mem hmem
  obtain ⟨event', _, heq⟩ := List.mem_map.1 hundated
  have hkey : scope.qualify event'.key = event.key := congrArg Event.key heq
  rw [← hkey]
  exact Key.beginsWith_qualify scope _

/-- Mirrored events behind mirrored events are mirrored. -/
theorem Event.Mirrored.append {events events' more more' : List Event}
    (h : Event.Mirrored scope events events') (hmore : Event.Mirrored scope more more') :
    Event.Mirrored scope (events ++ more) (events' ++ more') := by
  rw [Event.Mirrored, List.map_append, List.map_append, h, hmore]

/-! ### Writes -/

/-- The same write keeps two snapshots alike. -/
theorem Snapshot.Mirrors.write {m m' : Snapshot} (h : Mirrors scope m m') (revision revision' : Nat)
    (w : Write) : Mirrors scope (m.write revision (w.inside scope)) (m'.write revision' w) := by
  intro key
  cases w with
  | put target value =>
    simp only [Write.inside, Snapshot.write, KeyMap.get?_insert, Key.qualify_inj]
    split
    · rfl
    · exact h key
  | delete target =>
    simp only [Write.inside, Snapshot.write, KeyMap.get?_erase, Key.qualify_inj]
    split
    · rfl
    · exact h key

namespace Ledger

variable {l l' : Ledger} {now : Nat}

/-- In both ledgers the key held the same before a write. -/
theorem lastValue_mirrored (hbounded : l.Bounded) (hbounded' : l'.Bounded)
    (h : Snapshot.Mirrors scope l.latest l'.latest) (key : Key) :
    (l.versions (scope.qualify key)).lastValue = (l'.versions key).lastValue := by
  rw [hbounded.lastValue_eq, hbounded'.lastValue_eq]
  exact h key

/-- A key is live under the scope exactly if it is in the mirrored ledger. -/
theorem isSome_latest?_mirrored (h : Snapshot.Mirrors scope l.latest l'.latest) (key : Key) :
    (l.latest? (scope.qualify key)).isSome = (l'.latest? key).isSome := by
  have hsame := congrArg Option.isSome (h key)
  rw [Option.isSome_map, Option.isSome_map] at hsame
  rwa [latest?_eq, latest?_eq]

/-- A put tells of the same in mirrored ledgers. -/
theorem write_mirrored (hbounded : l.Bounded) (hbounded' : l'.Bounded)
    (h : Snapshot.Mirrors scope l.latest l'.latest) (key : Key) (value : Bytes)
    (deadline : Option Nat) :
    Event.Mirrored scope [(l.write (scope.qualify key) value deadline).2]
      [(l'.write key value deadline).2] := by
  simp only [Event.Mirrored, List.map_cons, List.map_nil, write, Event.inside, Event.undated,
    lastValue_mirrored hbounded hbounded' h]

/-- A deletion tells of the same in mirrored ledgers. -/
theorem erase_mirrored (hbounded : l.Bounded) (hbounded' : l'.Bounded)
    (h : Snapshot.Mirrors scope l.latest l'.latest) (key : Key) :
    Event.Mirrored scope (l.erase (scope.qualify key)).2 (l'.erase key).2 := by
  have hlive := isSome_latest?_mirrored h key
  unfold erase
  cases hfound : l.latest? (scope.qualify key) with
  | none =>
    rw [hfound] at hlive
    have hnone : l'.latest? key = none := Option.not_isSome_iff_eq_none.1 (by simp [← hlive])
    rw [hnone]
    rfl
  | some found =>
    rw [hfound] at hlive
    obtain ⟨found', hfound'⟩ := Option.isSome_iff_exists.1 hlive.symm
    rw [hfound']
    simp only [Event.Mirrored, List.map_cons, List.map_nil, Event.inside, Event.undated,
      lastValue_mirrored hbounded hbounded' h]

/-- Writes in order tell the same in both ledgers. -/
theorem apply_mirrored (hbounded : l.Bounded) (hbounded' : l'.Bounded)
    (h : Snapshot.Mirrors scope l.latest l'.latest) (writes : List Write) :
    Event.Mirrored scope (l.apply (writes.map (·.inside scope))).2 (l'.apply writes).2 := by
  -- each write tells of what it replaces, so the ledgers have to be mirrored again after it
  induction writes generalizing l l' with
  | nil => rfl
  | cons first rest ih =>
    have hwrite := h.write l.revision l'.revision first
    cases first with
    | put key value =>
      have hamends := amends_write hbounded (scope.qualify key) value none
      have hamends' := amends_write hbounded' key value none
      have hlatest : Snapshot.Mirrors scope (l.write (scope.qualify key) value none).1.latest
          (l'.write key value none).1.latest := by
        rw [hamends.latest, hamends'.latest]
        exact hwrite
      exact (write_mirrored hbounded hbounded' h key value none).append
        (ih hamends.bounded hamends'.bounded hlatest)
    | delete key =>
      have hamends := amends_erase hbounded (scope.qualify key)
      have hamends' := amends_erase hbounded' key
      have hlatest : Snapshot.Mirrors scope (l.erase (scope.qualify key)).1.latest
          (l'.erase key).1.latest := by
        rw [hamends.latest, hamends'.latest]
        exact hwrite
      exact (erase_mirrored hbounded hbounded' h key).append
        (ih hamends.bounded hamends'.bounded hlatest)

/-- Beginning a revision keeps what ledgers hold now mirrored. -/
theorem latest_begin_mirrored (hbounded : l.Bounded) (hbounded' : l'.Bounded)
    (h : Snapshot.Mirrors scope l.latest l'.latest) :
    Snapshot.Mirrors scope l.begin.latest l'.begin.latest := by
  rwa [hbounded.latest_begin, hbounded'.latest_begin]

/-- The deletion of keys tells of the same in mirrored ledgers. -/
theorem deleteKeys_mirrored (hbounded : l.Bounded) (hbounded' : l'.Bounded)
    (h : Snapshot.Mirrors scope l.latest l'.latest) (expiries expiries' : List Event)
    (targets : List Key) :
    ∃ events events', Event.Mirrored scope events events' ∧
      (l.deleteKeys expiries (targets.map scope.qualify)).events = expiries ++ events ∧
      (l'.deleteKeys expiries' targets).events = expiries' ++ events' := by
  cases targets with
  | nil => exact ⟨[], [], rfl, (List.append_nil _).symm, (List.append_nil _).symm⟩
  | cons key rest =>
    have happly := apply_mirrored hbounded.begin hbounded'.begin
      (latest_begin_mirrored hbounded hbounded' h) ((key :: rest).map .delete)
    have hinside : ((key :: rest).map Write.delete).map (·.inside scope) =
        ((key :: rest).map scope.qualify).map .delete := by
      rw [List.map_map, List.map_map]
      rfl
    rw [hinside, ← eraseAll_eq_apply, ← eraseAll_eq_apply] at happly
    exact ⟨_, _, happly, rfl, rfl⟩

/-! ### Ledgers that mirror others -/

/-- At the instant `now` the keys under the scope hold in the first ledger what keys hold in
the second. -/
structure Mirrors (scope : Key) (now : Nat) (l l' : Ledger) : Prop where
  bounded : l.Bounded
  bounded' : l'.Bounded
  holdings : ∀ key, l.holdings now (scope.qualify key) = l'.holdings now key

namespace Mirrors

/-- Ledgers that are mirrored at an instant are mirrored at any later one. -/
theorem later (h : Mirrors scope now l l') {later : Nat} (hle : now ≤ later) :
    Mirrors scope later l l' where
  bounded := h.bounded
  bounded' := h.bounded'
  holdings key := by rw [holdings_later hle, holdings_later hle, h.holdings]

/-- Once the keys are gone whose time is over, the latest values are the same. -/
theorem latest (h : Mirrors scope now l l') :
    Snapshot.Mirrors scope (l.expire now).1.latest (l'.expire now).1.latest := by
  intro key
  have hheld := h.bounded.holdings_expire (Nat.le_refl now)
  have hheld' := h.bounded'.holdings_expire (Nat.le_refl now)
  have hswept := (h.bounded.swept_expire now).latest?_eq (h.bounded.expire now) (scope.qualify key)
  have hswept' := (h.bounded'.swept_expire now).latest?_eq (h.bounded'.expire now) key
  rw [latest?_eq] at hswept hswept'
  rw [hswept, hswept', hheld, hheld', h.holdings]

/-- A request inside the scope and the same request elsewhere have the same effect. -/
theorem serve (h : Mirrors scope now l l') {after after' : Ledger} (hbounded : after.Bounded)
    (hbounded' : after'.Bounded) (request : Request service)
    (hserve : after = (l.serve now (request.inside scope)).1)
    (hserve' : after' = (l'.serve now request).1) : Mirrors scope now after after' where
  bounded := hbounded
  bounded' := hbounded'
  holdings key := by
    rw [hserve, hserve', h.bounded.holdings_serve, h.bounded'.holdings_serve]
    exact request.effect_inside now h.holdings key

/-- A request that spares the scope has no effect under it. -/
theorem spared (h : Mirrors scope now l l') {after : Ledger} (hbounded : after.Bounded)
    (hserve : after = (l.serve now request).1) (hspares : request.Spares scope) :
    Mirrors scope now after l' where
  bounded := hbounded
  bounded' := h.bounded'
  holdings key := by
    have huntouched := hspares _ (Key.beginsWith_qualify scope key)
    rw [hserve, h.bounded.holdings_serve, Request.effect_of_not_touches huntouched, h.holdings]

/-- So has, made of the second ledger, one that touches nothing. -/
theorem spared_right (h : Mirrors scope now l l') {after' : Ledger} (hbounded' : after'.Bounded)
    (hserve' : after' = (l'.serve now request).1) (hspares : request.Spares []) :
    Mirrors scope now l after' where
  bounded := h.bounded
  bounded' := hbounded'
  holdings key := by
    rw [hserve', h.bounded'.holdings_serve, Request.effect_of_not_touches (hspares key rfl),
      h.holdings]

/-! ### Answers -/

/-- Reading a key under the scope finds what reading it in the mirrored ledger finds. -/
theorem get (h : Mirrors scope now l l') (key : Key) :
    (l.get now (scope.qualify key)).result.map (·.undated) =
      (l'.get now key).result.map fun pair => (pair.inside scope).undated := by
  have hdated (l : Ledger) (k : Key) (f : KeyValue → KeyValue)
      (hf : ∀ pair : KeyValue, f pair = f { pair with revision := 0 }) :
      (l.get now k).result.map f =
        (((l.expire now).1.latest.get? k).map (·.2)).map fun value => f ⟨k, value, 0⟩ := by
    simp only [Ledger.get, latest?_eq]
    cases (l.expire now).1.latest.get? k with
    | none => rfl
    | some found => exact congrArg some (hf _)
  have hvalue := h.latest key
  rw [hdated l _ (·.undated) fun _ => rfl,
    hdated l' _ (fun pair => (pair.inside scope).undated) fun _ => rfl, hvalue]
  rfl

/-- Deleting a key under the scope deletes as many keys as deleting it in the mirrored ledger. -/
theorem delete (h : Mirrors scope now l l') (key : Key) :
    (l.delete now (scope.qualify key)).result.deleted = (l'.delete now key).result.deleted := by
  have hlive := isSome_latest?_mirrored h.latest key
  simp only [Ledger.delete, Chronicle.deleted_deleteKeys, hlive]
  split <;> rfl

/-- The live keys under a stem are those of the mirrored ledger with the scope in front. -/
theorem liveUnder (h : Mirrors scope now l l') (stem : Key) :
    (l.expire now).1.liveUnder (scope.qualify stem) =
      ((l'.expire now).1.liveUnder stem).map scope.qualify := by
  rw [liveUnder_eq, liveUnder_eq]
  exact h.latest.keysUnder stem

/-- Deleting all keys under a stem deletes as many as in the mirrored ledger. -/
theorem deletePrefix (h : Mirrors scope now l l') (stem : Key) :
    (l.deletePrefix now (scope.qualify stem)).result.deleted =
      (l'.deletePrefix now stem).result.deleted := by
  simp only [Ledger.deletePrefix, Chronicle.deleted_deleteKeys, h.liveUnder, List.length_map]

/-! ### Events -/

/-- Beyond the deletions of keys whose time is over, both ledgers tell the same of a request. -/
theorem events (h : Mirrors scope now l l') (request : Request service) :
    ∃ swept swept' events events', Event.Mirrored scope events events' ∧
      (∀ event ∈ swept, event.key ∈ l.expired now) ∧
      (∀ event ∈ swept', event.key ∈ l'.expired now) ∧
      (l.serve now (request.inside scope)).2 = swept ++ events ∧
      (l'.serve now request).2 = swept' ++ events' := by
  have hbounded := h.bounded.expire now
  have hbounded' := h.bounded'.expire now
  have hbegin := latest_begin_mirrored hbounded hbounded' h.latest
  -- a request other than a watch and closing begins with a sweep
  have hsweeps {events events' : List Event} (hmirrored : Event.Mirrored scope events events')
      (hserve : (l.serve now (request.inside scope)).2 = (l.expire now).2 ++ events)
      (hserve' : (l'.serve now request).2 = (l'.expire now).2 ++ events') :
      ∃ swept swept' events events', Event.Mirrored scope events events' ∧
        (∀ event ∈ swept, event.key ∈ l.expired now) ∧
        (∀ event ∈ swept', event.key ∈ l'.expired now) ∧
        (l.serve now (request.inside scope)).2 = swept ++ events ∧
        (l'.serve now request).2 = swept' ++ events' :=
    ⟨_, _, events, events', hmirrored, fun _ hmem => (key_of_mem_expire hmem).1,
      fun _ hmem => (key_of_mem_expire hmem).1, hserve, hserve'⟩
  have hnone : (l.expire now).2 = (l.expire now).2 ++ [] ∧
      (l'.expire now).2 = (l'.expire now).2 ++ [] :=
    ⟨(List.append_nil _).symm, (List.append_nil _).symm⟩
  have hnil : Event.Mirrored scope [] [] := rfl
  cases request with
  | put key value ttl =>
    have hwrite := write_mirrored hbounded.begin hbounded'.begin hbegin key value
    cases ttl with
    | none => exact hsweeps (hwrite none) rfl rfl
    | some ttl =>
      simp only [Ledger.serve, Request.inside, Ledger.put] at hsweeps ⊢
      cases hdeadline : deadlineAfter now ttl with
      | none =>
        rw [hdeadline] at hsweeps
        exact hsweeps hnil hnone.1 hnone.2
      | some deadline =>
        rw [hdeadline] at hsweeps
        exact hsweeps (hwrite (some deadline)) rfl rfl
  | get key => exact hsweeps hnil hnone.1 hnone.2
  | range query => exact hsweeps hnil hnone.1 hnone.2
  | delete key under =>
    cases under with
    | false =>
      obtain ⟨events, events', hmirrored, hevents, hevents'⟩ :=
        deleteKeys_mirrored hbounded hbounded' h.latest (l.expire now).2 (l'.expire now).2
          (if ((l'.expire now).1.latest? key).isSome then [key] else [])
      refine hsweeps hmirrored ?_ hevents'
      rw [← hevents]
      have hlive := isSome_latest?_mirrored h.latest key
      simp only [Ledger.serve, Request.inside, Ledger.delete, hlive]
      congr 2
      split <;> rfl
    | true =>
      obtain ⟨events, events', hmirrored, hevents, hevents'⟩ :=
        deleteKeys_mirrored hbounded hbounded' h.latest (l.expire now).2 (l'.expire now).2
          ((l'.expire now).1.liveUnder key)
      refine hsweeps hmirrored ?_ hevents'
      rw [← hevents, ← h.liveUnder]
      rfl
  | txn writes =>
    cases writes with
    | nil => exact hsweeps hnil hnone.1 hnone.2
    | cons first rest =>
      exact hsweeps (apply_mirrored hbounded.begin hbounded'.begin hbegin (first :: rest)) rfl rfl
  | watch stem => exact ⟨[], [], [], [], rfl, by simp, by simp, rfl, rfl⟩
  | close => exact ⟨[], [], [], [], rfl, by simp, by simp, rfl, rfl⟩

/-- Without deadlines both ledgers tell the same of a request. -/
theorem events_of_timeless (h : Mirrors scope now l l')
    (htimeless : ∀ key, l.Timeless (scope.qualify key)) (htimeless' : ∀ key, l'.Timeless key)
    (request : Request service) :
    Event.Mirrored scope
      ((l.serve now (request.inside scope)).2.filter fun e => scope.beginsWith e.key)
      (l'.serve now request).2 := by
  obtain ⟨swept, swept', events, events', hmirrored, hswept, hswept', hserve, hserve'⟩ :=
    h.events request
  have hforeign : (swept.filter fun e => scope.beginsWith e.key) = [] := by
    rw [List.filter_eq_nil_iff]
    intro event hmem hkey
    obtain ⟨rest, hrest⟩ := Key.exists_qualify hkey
    exact (htimeless rest).not_mem_expired now (hrest ▸ hswept event hmem)
  have hnothing : swept' = [] := by
    rw [List.eq_nil_iff_forall_not_mem]
    exact fun event hmem => (htimeless' _).not_mem_expired now (hswept' event hmem)
  rw [hserve, hserve', List.filter_append, hforeign, hnothing, hmirrored.filter_eq]
  exact hmirrored

end Mirrors

/-- A request that spares a scope without deadlines tells nothing of the keys under it. -/
theorem filter_serve_spared (htimeless : ∀ key, l.Timeless (scope.qualify key))
    (hspares : request.Spares scope) (now : Nat) :
    ((l.serve now request).2.filter fun e => scope.beginsWith e.key) = [] := by
  rw [List.filter_eq_nil_iff]
  intro event hmem hkey
  rcases touches_of_mem_serve hmem with htouched | ⟨hexpired, _⟩
  · rw [hspares _ hkey] at htouched
    cases htouched
  · obtain ⟨rest, hrest⟩ := Key.exists_qualify hkey
    exact (htimeless rest).not_mem_expired now (hrest ▸ hexpired)

end Ledger

end KeyBroker
