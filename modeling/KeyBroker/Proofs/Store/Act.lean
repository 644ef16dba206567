import KeyBroker.Store.Basic
import KeyBroker.Proofs.Ledger.Later

/-!
# What can happen to a store

A store is asked requests at given times, its history is compacted, its connection
is cut and restored, and the readers of its feeds read or leave. A run is any
sequence of such acts. A request that is refused changes nothing; of one that is
answered this file says what becomes of the ledger and which events are sent.
-/

namespace KeyBroker

/-- The ledger after a request is carried out, and the events of its commits. -/
def Ledger.serve (l : Ledger) (now : Nat) :
    {service : Service} → Request service → Ledger × List Event
  | _, .put key value ttl => ((l.put now key value ttl).ledger, (l.put now key value ttl).events)
  | _, .get key => ((l.get now key).ledger, (l.get now key).events)
  | _, .delete key false => ((l.delete now key).ledger, (l.delete now key).events)
  | _, .delete key true => ((l.deletePrefix now key).ledger, (l.deletePrefix now key).events)
  | _, .range query => ((l.range now query).ledger, (l.range now query).events)
  | _, .txn writes => ((l.txn now writes).ledger, (l.txn now writes).events)
  | _, .watch _ => (l, [])
  | _, .close => (l, [])

namespace Store

/-- Whether the store carries out a request: it names no empty key, and the store can
be reached or is only asked to close. -/
def answers (s : Store) {service : Service} (request : Request service) : Bool :=
  !request.namesEmptyKey && (decide (service = .close) || s.refusal.isNone)

/-- The events that the store commits for a request. -/
def events (s : Store) (now : Nat) {service : Service} (request : Request service) : List Event :=
  if s.answers request then (s.ledger.serve now request).2 else []

/-- Something that happens to a store. -/
inductive Act where
  | serve (now : Nat) {service : Service} (request : Request service)
  | compact (revision : Nat)
  | setAvailable (available : Bool)
  /-- The reader of a feed takes the oldest signal, if there is one. -/
  | read (feed : Nat)
  /-- The reader of a feed goes away. -/
  | leave (feed : Nat)

/-- The store after an act. -/
def act (s : Store) : Act → Store
  | .serve now request => (s.serve now request).store
  | .compact revision => s.compact revision
  | .setAvailable available => s.setAvailable available
  | .read n =>
    match (s.feed n).read with
    | .signal _ rest => s.onFeed n fun _ => rest
    | _ => s
  | .leave n => s.onFeed n (·.leave)

/-- The events that an act commits. -/
def sent (s : Store) : Act → List Event
  | .serve now request => s.events now request
  | _ => []

/-- The events that acts in order commit. -/
def sentAll (s : Store) : List Act → List Event
  | [] => []
  | act :: rest => s.sent act ++ (s.act act).sentAll rest

/-- The store after acts in order. -/
def after (s : Store) (acts : List Act) : Store := acts.foldl act s

/-- Without acts a store stays as it is. -/
@[simp] theorem after_nil (s : Store) : s.after [] = s := rfl

/-- Acts in order are done one after the other. -/
@[simp] theorem after_cons (s : Store) (a : Act) (acts : List Act) :
    s.after (a :: acts) = (s.act a).after acts := rfl

/-- Acts in two parts are done one part after the other. -/
theorem after_append (s : Store) (acts more : List Act) :
    s.after (acts ++ more) = (s.after acts).after more :=
  List.foldl_append

/-! ### Serving -/

/-- A request that is not carried out fails and changes nothing. -/
theorem serve_of_not_answers {s : Store} (now : Nat) {service : Service}
    {request : Request service} (h : s.answers request = false) :
    ∃ error, s.serve now request = { store := s, reached := [], outcome := .failed error } := by
  unfold serve
  split
  · exact ⟨_, rfl⟩
  · next hkey =>
    simp only [answers, Bool.not_eq_true] at h hkey
    cases hrefusal : s.refusal with
    | none => simp [hkey, hrefusal] at h
    | some error =>
      cases service with
      | close => simp [hkey] at h
      | _ => exact ⟨error, rfl⟩

/-- A request that is carried out is performed, except that closing a closed store does
nothing. -/
theorem serve_of_answers {s : Store} (now : Nat) {service : Service} {request : Request service}
    (h : s.answers request = true) (hclose : service = .close → s.closed = false) :
    s.serve now request = s.perform now request := by
  simp only [answers, Bool.and_eq_true, Bool.not_eq_true', Bool.or_eq_true,
    decide_eq_true_eq, Option.isNone_iff_eq_none] at h
  obtain ⟨hkey, hopen⟩ := h
  unfold serve
  rw [if_neg (by simp [hkey])]
  cases request with
  | close => simp [hclose rfl]
  | _ => simp [hopen.resolve_left (by simp)]

/-- Whoever gets a reply has been answered. -/
theorem answers_of_ok {s : Store} {now : Nat} {service : Service} {request : Request service}
    {reply : service.Reply} (h : (s.serve now request).outcome = .ok reply) :
    s.answers request = true := by
  cases hanswers : s.answers request with
  | true => rfl
  | false =>
    obtain ⟨error, heq⟩ := serve_of_not_answers now hanswers
    rw [heq] at h
    cases h

/-- A store that replies has carried out the request. -/
theorem serve_of_ok {s : Store} {now : Nat} {service : Service} {request : Request service}
    {reply : service.Reply} (hclose : service ≠ .close)
    (h : (s.serve now request).outcome = .ok reply) :
    s.serve now request = s.perform now request :=
  serve_of_answers now (answers_of_ok h) fun heq => absurd heq hclose

/-- Closing a closed store does nothing, and is answered well. -/
theorem serve_close_of_closed {s : Store} (now : Nat) (h : s.closed = true) :
    s.serve now .close = { store := s, reached := [], outcome := .ok () } := by
  simp [serve, Request.namesEmptyKey, h]

/-- A request other than opening a watch and closing sends the events of its commits. -/
theorem serve_eq_emitAll (s : Store) (now : Nat) {service : Service} (request : Request service)
    (hwatch : service ≠ .watch) (hclose : service ≠ .close) :
    ∃ ledger, (s.serve now request).store =
      Store.emitAll { s with ledger } (s.events now request) := by
  cases hanswers : s.answers request with
  | false =>
    obtain ⟨error, heq⟩ := serve_of_not_answers now hanswers
    exact ⟨s.ledger, by simp [heq, events, hanswers, emitAll]⟩
  | true =>
    rw [serve_of_answers now hanswers fun h => absurd h hclose, events, if_pos hanswers]
    cases request with
    | delete key under => cases under <;> exact ⟨_, rfl⟩
    | watch stem => exact absurd rfl hwatch
    | close => exact absurd rfl hclose
    | _ => exact ⟨_, rfl⟩

/-- A watch is opened unless the store cannot be reached. -/
theorem serve_watch (s : Store) (now : Nat) (stem : Key) :
    (∃ error, s.serve now (.watch stem) = { store := s, reached := [], outcome := .failed error }) ∨
      s.serve now (.watch stem) =
        { store := (s.openWatch stem).1, reached := [], outcome := .ok s.feeds.length } := by
  cases hanswers : s.answers (.watch stem) with
  | false => exact .inl (serve_of_not_answers now hanswers)
  | true =>
    rw [serve_of_answers now hanswers fun h => by cases h]
    exact .inr rfl

/-- Opening a watch commits nothing. -/
@[simp] theorem events_watch (s : Store) (now : Nat) (stem : Key) :
    s.events now (.watch stem) = [] := by
  rw [events]
  split <;> rfl

/-- A watch that is answered has opened the next feed, and has done nothing else. -/
theorem serve_watch_of_ok {s : Store} {now : Nat} {stem : Key} {n : Nat}
    (h : (s.serve now (.watch stem)).outcome = .ok n) :
    n = s.feeds.length ∧ s.serve now (.watch stem) =
      { store := (s.openWatch stem).1, reached := [], outcome := .ok n } := by
  rcases serve_watch s now stem with ⟨error, heq⟩ | heq
  · rw [heq] at h
    cases h
  · rw [heq] at h ⊢
    have hn : s.feeds.length = n := Outcome.ok.inj h
    exact ⟨hn.symm, by rw [hn]⟩

/-! ### The ledger of a store -/

/-- Changing a feed leaves the ledger alone. -/
@[simp] theorem ledger_onFeed (s : Store) (n : Nat) (f : Feed → Feed) :
    (s.onFeed n f).ledger = s.ledger := rfl

/-- Sending events leaves the ledger alone. -/
@[simp] theorem ledger_emitAll (s : Store) (events : List Event) :
    (s.emitAll events).ledger = s.ledger := by
  induction events generalizing s with
  | nil => rfl
  | cons event rest ih => exact ih (s.emit event)

/-- Breaking native watches leaves the ledger alone. -/
@[simp] theorem ledger_breakWatches (s : Store) (error : StorageError) :
    (s.breakWatches error).ledger = s.ledger := rfl

/-- Cutting or restoring the connection leaves the ledger alone. -/
@[simp] theorem ledger_setAvailable (s : Store) (available : Bool) :
    (s.setAvailable available).ledger = s.ledger := by
  cases available <;> rfl

/-- A request makes of the ledger what it makes of a ledger by itself. -/
@[simp] theorem ledger_perform (s : Store) (now : Nat) {service : Service}
    (request : Request service) :
    (s.perform now request).store.ledger = (s.ledger.serve now request).1 := by
  cases request with
  | delete key under => cases under <;> simp [perform, adopt, Ledger.serve]
  | _ => simp [perform, adopt, Ledger.serve, openWatch, openFeed]

/-- A request changes the ledger only if it is carried out. -/
theorem ledger_serve (s : Store) (now : Nat) {service : Service} (request : Request service) :
    (s.serve now request).store.ledger =
      if s.answers request then (s.ledger.serve now request).1 else s.ledger := by
  cases hanswers : s.answers request with
  | false =>
    obtain ⟨error, heq⟩ := serve_of_not_answers now hanswers
    simp [heq]
  | true =>
    by_cases hclosed : service = .close ∧ s.closed = true
    · obtain ⟨rfl, hclosed⟩ := hclosed
      cases request
      rw [serve_close_of_closed now hclosed]
      rfl
    · rw [serve_of_answers now hanswers fun h => by simpa [h] using hclosed, ledger_perform,
        if_pos rfl]

/-- A range is answered from the ledger without its expired keys. -/
theorem serve_range_of_ok {s : Store} {now : Nat} {query : RangeQuery} {page : Page}
    (h : (s.serve now (.range query)).outcome = .ok page) :
    (s.serve now (.range query)).store.ledger = (s.ledger.expire now).1 ∧
      (s.ledger.expire now).1.page query = .ok page := by
  have hserve := serve_of_ok (fun heq => by cases heq) h
  rw [hserve] at h ⊢
  exact ⟨ledger_perform s now (.range query), h⟩

/-- Reading a feed leaves the ledger alone. -/
theorem ledger_read (s : Store) (n : Nat) : (s.act (.read n)).ledger = s.ledger := by
  simp only [act]
  split <;> rfl

/-- A request leads to a later ledger. -/
theorem later_serve {s : Store} {l : Ledger} {events : List Event} (h : l.Later s.ledger events)
    (now : Nat) {service : Service} (request : Request service) :
    l.Later (s.serve now request).store.ledger (events ++ s.events now request) := by
  rw [ledger_serve, Store.events]
  split
  · cases request with
    | put key value ttl => exact h.put now key value ttl
    | delete key under => cases under <;> exact (h.expire now).deleteKeys _
    | txn writes => exact h.txn now writes
    | watch stem => simpa [Ledger.serve] using h
    | close => simpa [Ledger.serve] using h
    | _ => exact h.expire now
  · simpa using h

/-- So does every act. -/
theorem later_act {s : Store} {l : Ledger} {events : List Event} (h : l.Later s.ledger events)
    (act : Act) : l.Later (s.act act).ledger (events ++ s.sent act) := by
  cases act with
  | serve now request => exact later_serve h now request
  | compact revision => simpa [sent, Store.act, compact] using h.compact revision
  | setAvailable available => simpa [sent, Store.act] using h
  | read n => simpa [sent, ledger_read] using h
  | leave n => simpa [sent, Store.act] using h

/-- So does every run. -/
theorem later_after {s : Store} {l : Ledger} {events : List Event} (h : l.Later s.ledger events)
    (acts : List Act) : l.Later (s.after acts).ledger (events ++ s.sentAll acts) := by
  induction acts generalizing s events with
  | nil => simpa [sentAll] using h
  | cons act rest ih =>
    rw [sentAll, ← List.append_assoc]
    exact ih (later_act h act)

end Store

end KeyBroker
