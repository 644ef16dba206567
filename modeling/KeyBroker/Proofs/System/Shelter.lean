import KeyBroker.Proofs.Delivery.Block
import KeyBroker.Proofs.Listing.Serving
import KeyBroker.Proofs.Store.History
import KeyBroker.Proofs.System.Effects
import KeyBroker.Proofs.System.Frame
import KeyBroker.Proofs.View.Ledgers

/-!
# Moves that spare a scope

A broker that runs, on a store that can be reached and is neither delayed nor made to fail,
carries out every request in the poll that makes it. If no call under way touches a key
under a scope, and none that does is begun, then no move does: a move reads feeds or
carries out one request that spares the scope.
-/

namespace KeyBroker

/-- A call that touches no key under the scope, and does not close the store. -/
def Call.Spares (scope : Key) (call : Call) : Prop :=
  call.request.Spares scope ∧ call.service ≠ .close

/-- A turn that touches no key under the scope. -/
def Turn.Spares (scope : Key) : Turn → Prop
  | .ask call => call.Spares scope
  | .done _ => True

/-- A move that touches no key under the scope. It neither closes the broker nor tampers with the
store, and lets no time pass. -/
def Move.Spares (scope : Key) : Move → Prop
  | .launch turn _ => turn.Spares scope
  | @Move.ask service request => request.Spares scope ∧ service ≠ .close
  | .pass _ | .close _ | .compact _ | .setAvailable _ | .inject _ _ => False
  | _ => True

/-- A further turn of a call that opens no watch is a read, one that opens a watch opens
another. -/
theorem next_of_answered (u : System) {call next : Call} (reply : Except Error call.service.Reply)
    (hnext : (System.answered u call reply).2 = .ask next) :
    next.reads = true ∨ next.service = .watch := by
  cases call with
  | put | delete | deletePrefix | commit => cases hnext
  | get | list | listAll | next | drain =>
    exact .inl (System.answered_read u rfl reply hnext)
  | watch scope stem channel => cases reply <;> cases hnext
  | watchAll scope channel held stem rest =>
    cases reply with
    | error e => cases hnext
    | ok feed =>
      cases rest with
      | nil => cases hnext
      | cons next' rest =>
        obtain rfl := Turn.ask.inj hnext
        exact .inr rfl
  | close => cases hnext

/-- A further turn of a call touches no key at all. -/
theorem Turn.Spares.of_answered (scope : Key) (u : System) (call : Call)
    (reply : Except Error call.service.Reply) :
    Turn.Spares scope (System.answered u call reply).2 := by
  cases hturn : (System.answered u call reply).2 with
  | done answer => trivial
  | ask next =>
    rcases next_of_answered u reply hturn with hreads | hwatch
    · cases next with
      | get | list | listAll | next | drain => exact ⟨fun _ _ => rfl, fun h => by cases h⟩
      | _ => cases hreads
    · cases next with
      | watch | watchAll => exact ⟨fun _ _ => rfl, fun h => by cases h⟩
      | _ => cases hwatch

/-- Whatever a call goes on with after its first request touches no key under the scope. -/
theorem Turn.Spares.of_resumes {scope : Key} {call : Call} {outcome : Outcome call.service.Reply}
    {turn : Turn} (h : call.Resumes outcome turn) : turn.Spares scope := by
  cases h with
  | ok t reply => exact .of_answered scope t call _
  | failed t error => exact .of_answered scope t call _
  | aborted why => trivial

/-! ### The store that goes on -/

namespace Store

variable {s : Store} {service : Service} {request : Request service}

/-- Sending events does not change why a store refuses requests. -/
theorem refusal_emitAll (s : Store) (events : List Event) :
    (s.emitAll events).refusal = s.refusal := by
  induction events generalizing s with
  | nil => rfl
  | cons event rest ih => exact ih (s.emit event)

/-- Only closing makes a store refuse requests. -/
theorem refusal_serve (s : Store) (now : Nat) (request : Request service)
    (hclose : service ≠ .close) : (s.serve now request).store.refusal = s.refusal := by
  by_cases hwatch : service = .watch
  · subst hwatch
    let .watch stem := request
    rcases serve_watch s now stem with ⟨error, heq⟩ | heq
    · rw [heq]
    · rw [heq]
      rfl
  · obtain ⟨ledger, heq⟩ := serve_eq_emitAll s now request hwatch hclose
    rw [heq, refusal_emitAll]
    rfl

/-- A request changes the ledger as its commits do, or it names an empty key. -/
theorem ledger_serve_cases (hreachable : s.refusal = none) (now : Nat) (request : Request service) :
    (s.serve now request).store.ledger = (s.ledger.serve now request).1 ∧
        s.events now request = (s.ledger.serve now request).2 ∨
      (s.serve now request).store.ledger = s.ledger ∧ s.events now request = [] := by
  rw [ledger_serve, events]
  cases hkey : request.namesEmptyKey with
  | false =>
    rw [answers_of_refusal_none hreachable request hkey]
    exact .inl ⟨rfl, rfl⟩
  | true =>
    have hanswers : s.answers request = false := by
      rw [answers, hkey, Bool.not_true, Bool.false_and]
    rw [hanswers]
    exact .inr ⟨rfl, rfl⟩

/-- A store from which another has come by going on, with the changes that were committed. -/
structure Continues (s : Store) (events : List Event) (after : Store) : Prop where
  reachable : after.refusal = none
  later : s.ledger.Later after.ledger events
  whole : after.ledger.compacted = 0
  watched : ∀ n stem, s.Watched n stem → { feed := n, stem } ∈ after.watchers

end Store

/-- A request leaves the compaction point where it is. -/
theorem Ledger.Bounded.compacted_serve {l : Ledger} (h : l.Bounded) (now : Nat)
    {service : Service} (request : Request service) :
    (l.serve now request).1.compacted = l.compacted := by
  rcases l.serve_cases now request with hserve | ⟨after, events, hcarries, hserve⟩
  · rw [hserve]
  · rw [hserve, ← h.compacted_expire now]
    have hbegin := (h.expire now).begin
    cases hcarries with
    | idle => rfl
    | begun => rfl
    | commit writes touched => exact (Ledger.amends_apply hbegin writes).compacted
    | timed key value deadline touched times =>
      exact (Ledger.amends_write hbegin key value (some deadline)).compacted

/-- What is committed in happenings in two parts is what the one commits, then what the other
commits. -/
theorem committed_append (hs more : List Happening) :
    committed (hs ++ more) = committed hs ++ committed more :=
  List.filterMap_append

/-- What is committed in commits are their events. -/
theorem committed_map (events : List Event) : committed (events.map .committed) = events := by
  rw [committed, List.filterMap_map]
  exact List.filterMap_some

namespace System

variable {s : System} {scope : Key} {m : Move} {c : InFlight} {id : Nat}

/-- Opening a subscription commits nothing. -/
theorem committed_opens (s : System) (scope stem : Key) (channel : Nat) :
    committed (s.opens scope stem channel) = [] := by
  unfold opens
  split <;> rfl

/-- What is committed when the store carries out the request of a call. -/
theorem committed_comesOf (s : System) (call : Call) :
    committed (s.comesOf call) = s.store.events s.instant call.request := by
  have hmore {more : List Happening} (hnone : committed more = []) :
      committed ((s.store.events s.instant call.request).map .committed ++ more) =
        s.store.events s.instant call.request := by
    rw [committed_append, committed_map, hnone, List.append_nil]
  cases call with
  | watch scope stem channel => exact hmore (committed_opens s scope stem channel)
  | watchAll scope channel held stem rest => exact hmore (committed_opens s scope stem channel)
  | _ => exact hmore rfl

/-! ### A system that shelters a scope -/

/-- The broker runs, nothing stands between it and its store, and no call under way touches a
key under the scope. -/
structure Shelters (s : System) (scope : Key) : Prop where
  script : s.script = []
  booked : s.desk.Booked
  running : s.stopped = false
  reachable : s.store.refusal = none
  bounded : s.store.ledger.Bounded
  whole : s.store.ledger.compacted = 0
  calls : ∀ c ∈ s.calls, c.exchange = none ∧ c.call.Spares scope

/-- A new system shelters every scope. -/
theorem shelters_new (settings : Settings) (scope : Key) :
    Shelters { settings } scope where
  script := rfl
  booked := booked_new settings
  running := rfl
  reachable := rfl
  bounded _ _ hv := by cases hv
  whole := rfl
  calls _ hc := by cases hc

/-- The broker runs, and nothing stands between it and its store. -/
structure Prompt (s : System) : Prop where
  script : s.script = []
  booked : s.desk.Booked
  running : s.stopped = false

/-- Nothing stands between a system that shelters a scope and its store. -/
theorem Shelters.prompt (h : s.Shelters scope) : s.Prompt := ⟨h.script, h.booked, h.running⟩

/-- Where nothing stands between a broker and its store no reply is made up. -/
theorem Prompt.genuine (h : s.Prompt) : s.wiring.Genuine := by
  intro line hline
  have hscript : s.wiring.script = [] := h.script
  rw [hscript] at hline
  cases hline

/-- In a system that shelters a scope no reply is made up. -/
theorem Shelters.genuine (h : s.Shelters scope) : s.wiring.Genuine := h.prompt.genuine

/-- A new call is carried out in its first poll. -/
theorem pollCall_eq_act (hscript : s.script = []) (hrunning : s.stopped = false)
    (hfound : s.desk.call? id = some c) (hnew : c.exchange = none) :
    s.pollCall id = s.act c s.now ∧ s.actsOn c = true := by
  have hfind : s.calls.find? (fun c => decide (c.id = id)) = some c := hfound
  have hsame : { s with script := [] } = s := by rw [← hscript]
  have hnext : s.script.next c.call.service = (.forward 0, []) := by
    rw [hscript]
    rfl
  have hgoes : (s.stopped && c.call.endsWithBroker) = false := by rw [hrunning, Bool.false_and]
  constructor
  · simp only [pollCall, hfind, hnew, makeRequest, hgoes, hnext, Bool.false_eq_true, if_false]
    rw [hsame]
  · simp only [actsOn, hrunning, hnew, hscript, Script.next, Bool.false_and, Bool.not_false,
      Bool.true_and]

/-- What a move that spares a scope makes of the store, and what it commits. -/
inductive Tends (s : System) (scope : Key) : List Event → Store → Prop where
  /-- Feeds are read or left. -/
  | feeds (feeds : List Feed) : Tends s scope [] { s.store with feeds }
  | serves {service : Service} (request : Request service) (spares : request.Spares scope)
    (goes : service ≠ .close) :
    Tends s scope (s.store.events s.instant request) (s.store.serve s.instant request).store

/-- What a move that spares a scope makes of a system that shelters it. -/
structure Keeps (s : System) (scope : Key) (m : Move) : Prop where
  frame : (s.move m).frame = s.frame
  tends : s.Tends scope (committed (s.happens m)) (s.move m).store
  calls : ∀ c ∈ (s.move m).calls, c ∈ s.calls ∨ c.exchange = none ∧ c.call.Spares scope

/-- The store that carries out the request of a call becomes what the request makes of it. -/
theorem store_act (s : System) (c : InFlight) (started : Nat) :
    (s.act c started).store = (s.store.serve s.instant c.call.request).store := by
  obtain ⟨turn, hdesk, _⟩ := desk_act s c started
  have hsame := congrArg Desk.store hdesk
  cases turn <;> exact hsame

/-- A poll of a call keeps a scope sheltered. -/
theorem keeps_pollCall (h : s.Shelters scope) (id : Nat) (reportFirst : Bool) :
    s.Keeps scope (.poll (.call id) reportFirst) := by
  cases hfound : s.desk.call? id with
  | none =>
    have hmove : s.move (.poll (.call id) reportFirst) = s := pollCall_of_gone hfound
    constructor
    · rw [hmove]
    · rw [hmove, happens_of_gone hfound]
      exact .feeds s.store.feeds
    · rw [hmove]
      exact fun c hc => .inl hc
  | some c =>
    obtain ⟨hnew, hspares⟩ := h.calls c (Desk.mem_of_call? hfound)
    obtain ⟨hact, hacts⟩ := pollCall_eq_act h.script h.running hfound hnew
    have hmove : s.move (.poll (.call id) reportFirst) = s.act c s.now := hact
    constructor
    · rw [hmove, frame_act]
    · rw [hmove, happens_of_actsOn hfound hacts, committed_comesOf, store_act]
      exact .serves c.call.request hspares.1 hspares.2
    · intro other hother
      rw [hmove] at hother
      rcases mem_calls_act s c s.now hother with hold | ⟨hnext, hresumes⟩
      · exact .inl hold
      · exact .inr ⟨hnext, Turn.Spares.of_resumes hresumes⟩

/-- Moves that do not concern the store leave it as it is, but for its feeds. -/
theorem keeps_of_desk {feeds : List Feed} (hframe : (s.move m).frame = s.frame)
    (hdesk : (s.move m).desk = s.desk.beside { s.store with feeds })
    (hquiet : committed (s.happens m) = []) : s.Keeps scope m where
  frame := hframe
  tends := by
    have hstore : (s.move m).store = { s.store with feeds } := congrArg Desk.store hdesk
    rw [hstore, hquiet]
    exact .feeds feeds
  calls c hc := by
    have hcalls : (s.move m).calls = s.calls := congrArg Desk.calls hdesk
    rw [hcalls] at hc
    exact .inl hc

/-- What changes at most one feed keeps a scope sheltered. -/
theorem keeps_of_feed (n : Nat) (f : Feed → Feed)
    (hmove : s.move m = s ∨ s.move m = { s with store := s.store.onFeed n f })
    (hquiet : committed (s.happens m) = []) : s.Keeps scope m := by
  rcases hmove with hmove | hmove
  · exact keeps_of_desk (congrArg frame hmove) (congrArg desk hmove) hquiet
  · have hdesk : (s.move m).desk =
        s.desk.beside { s.store with feeds := (s.store.onFeed n f).feeds } := congrArg desk hmove
    have hframe : (s.move m).frame = s.frame := by
      rw [hmove]
      rfl
    exact keeps_of_desk hframe hdesk hquiet

/-- Launching a call that touches no key under the scope keeps it sheltered. -/
theorem keeps_launch {turn : Turn} (hspares : turn.Spares scope) (holdsBroker : Bool) :
    s.Keeps scope (.launch turn holdsBroker) := by
  constructor
  · exact frame_launch s turn holdsBroker
  · have hstore : (s.move (.launch turn holdsBroker)).store = s.store := by
      have hsame := congrArg Desk.store (desk_launch s turn holdsBroker)
      cases turn <;> exact hsame
    rw [hstore]
    exact .feeds s.store.feeds
  · intro c hc
    rcases mem_calls_launch s turn holdsBroker hc with hold | ⟨hnew, rfl⟩
    · exact .inl hold
    · exact .inr ⟨hnew, hspares⟩

/-- What a move that spares the scope makes of a system that shelters it. -/
theorem Shelters.keeps (h : s.Shelters scope) (hm : m.Spares scope) : s.Keeps scope m := by
  cases m with
  | poll worker reportFirst =>
    cases worker with
    | call id => exact keeps_pollCall h id reportFirst
    | dispatcher id =>
      obtain ⟨feeds, hdesk⟩ := desk_pollDispatcher s id reportFirst
      exact keeps_of_desk (frame_pollDispatcher s id reportFirst) hdesk rfl
  | launch turn holdsBroker => exact keeps_launch hm holdsBroker
  | take n =>
    obtain ⟨hframe, hwiring, hcalls⟩ := move_take s n
    have hstore : (s.move (.take n)).store = s.store := congrArg Wiring.store hwiring
    refine ⟨hframe, ?_, fun c hc => .inl (hcalls ▸ hc)⟩
    rw [hstore]
    exact .feeds s.store.feeds
  | release => exact keeps_of_desk (frame_release s) (desk_release s) rfl
  | note notices => exact keeps_of_desk (frame_noteAll s notices) (desk_noteAll s notices) rfl
  | ask request =>
    refine ⟨frame_wakeAll _ _, ?_, fun c hc => .inl ?_⟩
    · have hstore : (s.move (.ask request)).store = (s.store.serve s.instant request).store :=
        congrArg Desk.store (desk_wakeReaders _ _)
      rw [hstore, happens, committed_map]
      exact .serves request hm.1 hm.2
    · have hcalls : (s.move (.ask request)).calls = s.calls :=
        congrArg Desk.calls (desk_wakeReaders _ _)
      rwa [hcalls] at hc
  | openChannel capacity held =>
    exact keeps_of_desk (frame_openChannel s capacity held) (desk_openChannel s capacity held) rfl
  | receive n =>
    -- whatever is received was committed before
    have hquiet : committed (s.happens (.receive n)) = [] := by
      simp only [happens, receives]
      split <;> rfl
    exact keeps_of_desk (frame_receive s n) (desk_receive s n) hquiet
  | dropReceiver n => exact keeps_of_desk (frame_wakeAll _ _) (desk_wakeAll _ _) rfl
  | unsubscribe id => exact keeps_of_desk (frame_unsubscribe s id) (desk_unsubscribe s id) rfl
  | readFeed n =>
    refine keeps_of_feed n (fun feed => { feed with queue := feed.queue.tail }) ?_ rfl
    simp only [move]
    split
    · exact .inl rfl
    · exact .inr rfl
  | leaveFeed n =>
    refine keeps_of_feed n (·.leave) ?_ rfl
    simp only [move]
    split
    · exact .inl rfl
    · exact .inr rfl
  | schedule | dropSender => exact keeps_of_desk rfl rfl rfl
  | _ => exact absurd hm id

/-- The ledger goes on by at most one request, which spares the scope. -/
theorem Tends.cases (h : s.Shelters scope) {events : List Event} {store : Store}
    (htends : s.Tends scope events store) :
    store.ledger = s.store.ledger ∧ events = [] ∨
      ∃ (service : Service) (request : Request service), request.Spares scope ∧
        store.ledger = (s.store.ledger.serve s.instant request).1 ∧
        events = (s.store.ledger.serve s.instant request).2 := by
  cases htends with
  | feeds feeds => exact .inl ⟨rfl, rfl⟩
  | serves request spares goes =>
    rcases Store.ledger_serve_cases h.reachable s.instant request with ⟨hledger, hevents⟩ | hnone
    · exact .inr ⟨_, request, spares, hledger, hevents⟩
    · exact .inl hnone

/-- A store that is left alone, or whose feeds are read or left, goes on. -/
theorem Shelters.continues_feeds (h : s.Shelters scope) (feeds : List Feed) :
    s.store.Continues [] { s.store with feeds } where
  reachable := h.reachable
  later := .refl (h.whole ▸ Nat.zero_le _) h.bounded
  whole := h.whole
  watched _ _ hwatched := hwatched.stands

/-- A store that carries out a request other than closing goes on. -/
theorem Shelters.continues_serve (h : s.Shelters scope) {service : Service}
    (request : Request service) (hclose : service ≠ .close) :
    s.store.Continues (s.store.events s.instant request)
      (s.store.serve s.instant request).store where
  reachable := (Store.refusal_serve s.store s.instant request hclose).trans h.reachable
  later := Store.later_serve (.refl (h.whole ▸ Nat.zero_le _) h.bounded) s.instant request
  whole := by
    rcases Store.ledger_serve_cases h.reachable s.instant request with
      ⟨hledger, _⟩ | ⟨hledger, _⟩
    · rw [hledger, h.bounded.compacted_serve, h.whole]
    · rw [hledger, h.whole]
  watched _ _ hwatched := (hwatched.serve s.instant request hclose).1.stands

/-- What a move that spares the scope makes of the store goes on from the store. -/
theorem Tends.continues (h : s.Shelters scope) {events : List Event} {store : Store}
    (htends : s.Tends scope events store) : s.store.Continues events store := by
  cases htends with
  | feeds feeds => exact h.continues_feeds feeds
  | serves request spares goes => exact h.continues_serve request goes

/-- As long as the broker is not closed or dropped, moves that spare a scope keep it sheltered. -/
theorem Shelters.move (h : s.Shelters scope) (hm : m.Spares scope)
    (hrunning : (s.move m).stopped = false) : (s.move m).Shelters scope := by
  have hkeeps := h.keeps hm
  have hcontinues := hkeeps.tends.continues h
  exact {
    script := (congrArg Frame.script hkeeps.frame).trans h.script
    booked := (deals_move h.genuine m).booked h.booked
    running := hrunning
    reachable := hcontinues.reachable
    bounded := hcontinues.later.bounded
    whole := hcontinues.whole
    calls := fun c hc => (hkeeps.calls c hc).elim (h.calls c) id }

/-- A move that spares a scope without deadlines gives it none, and commits nothing under it. -/
theorem Shelters.quiet (h : s.Shelters scope) (hm : m.Spares scope)
    (htimeless : ∀ key, s.store.ledger.Timeless (scope.qualify key)) :
    (∀ key, (s.move m).store.ledger.Timeless (scope.qualify key)) ∧
      ((committed (s.happens m)).filter fun e => scope.beginsWith e.key) = [] := by
  rcases (h.keeps hm).tends.cases h with ⟨hledger, hevents⟩ |
    ⟨_, request, hspares, hledger, hevents⟩
  · rw [hledger, hevents]
    exact ⟨htimeless, rfl⟩
  · rw [hledger, hevents]
    refine ⟨fun key => (htimeless key).serve h.bounded ?_,
      Ledger.filter_serve_spared htimeless hspares s.instant⟩
    exact Request.times_of_not_touches (hspares _ (Key.beginsWith_qualify scope key))

end System

end KeyBroker
