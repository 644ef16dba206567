import KeyBroker.Proofs.System.Desk

/-!
# Systems that differ in one call

Two systems are alike but for a call if they hold the same, save for that call and its
answer, the order of the workers and the journal. No worker and no caller looks at
these: a move of anybody else takes systems that are alike to systems that are alike,
and does the same in both.
-/

namespace KeyBroker.System

/-- The systems hold the same but for call `id`, its answer, the order of the workers and
the journal. -/
structure Alike (id : Nat) (s t : System) : Prop where
  settings : s.settings = t.settings
  now : s.now = t.now
  store : s.store = t.store
  script : s.script = t.script
  stubs : s.stubs = t.stubs
  closing : s.closing = t.closing
  stopped : s.stopped = t.stopped
  holders : s.holders = t.holders
  nextSubscription : s.nextSubscription = t.nextSubscription
  registered : s.registered = t.registered
  dispatchers : s.dispatchers = t.dispatchers
  channels : s.channels = t.channels
  calls : (s.calls.filter fun c => decide (c.id ≠ id)) = t.calls.filter fun c => decide (c.id ≠ id)
  nextCall : s.nextCall = t.nextCall
  finished : (s.finished.filter fun e => decide (e.1 ≠ id)) =
    t.finished.filter fun e => decide (e.1 ≠ id)

variable {id : Nat} {s t u : System}

namespace Alike

/-- A system holds the same as itself. -/
theorem refl (id : Nat) (s : System) : Alike id s s := by
  constructor <;> rfl

/-- Holding the same goes both ways. -/
theorem symm (h : Alike id s t) : Alike id t s where
  settings := h.settings.symm
  now := h.now.symm
  store := h.store.symm
  script := h.script.symm
  stubs := h.stubs.symm
  closing := h.closing.symm
  stopped := h.stopped.symm
  holders := h.holders.symm
  nextSubscription := h.nextSubscription.symm
  registered := h.registered.symm
  dispatchers := h.dispatchers.symm
  channels := h.channels.symm
  calls := h.calls.symm
  nextCall := h.nextCall.symm
  finished := h.finished.symm

/-- Systems that hold the same as a third hold the same. -/
theorem trans (h : Alike id s t) (h' : Alike id t u) : Alike id s u where
  settings := h.settings.trans h'.settings
  now := h.now.trans h'.now
  store := h.store.trans h'.store
  script := h.script.trans h'.script
  stubs := h.stubs.trans h'.stubs
  closing := h.closing.trans h'.closing
  stopped := h.stopped.trans h'.stopped
  holders := h.holders.trans h'.holders
  nextSubscription := h.nextSubscription.trans h'.nextSubscription
  registered := h.registered.trans h'.registered
  dispatchers := h.dispatchers.trans h'.dispatchers
  channels := h.channels.trans h'.channels
  calls := h.calls.trans h'.calls
  nextCall := h.nextCall.trans h'.nextCall
  finished := h.finished.trans h'.finished

/-- Alike systems stay alike if each is replaced by one that is alike. -/
theorem through {s' t' : System} (h : Alike id s t) (hs : Alike id s' s) (ht : Alike id t' t) :
    Alike id s' t' :=
  (hs.trans h).trans ht.symm

/-! ### What nobody looks at -/

/-- Waking a worker matters only for the order of the workers. -/
theorem wake (s : System) (worker : Worker) : Alike id (s.wake worker) s := by
  unfold System.wake
  split <;> exact { refl id s with }

/-- Waking workers matters only for their order. -/
theorem wakeAll (s : System) (workers : List Worker) : Alike id (s.wakeAll workers) s := by
  induction workers generalizing s with
  | nil => exact refl id s
  | cons worker rest ih => exact (ih (s.wake worker)).trans (wake s worker)

/-- Waking the readers of feeds matters only for the order of the workers. -/
theorem wakeReaders (s : System) (feeds : List Nat) : Alike id (s.wakeReaders feeds) s :=
  wakeAll s _

/-- Lines of the log matter only for the journal. -/
theorem noteAll (s : System) (notices : List Notice) : Alike id (s.noteAll notices) s := by
  induction notices generalizing s with
  | nil => exact refl id s
  | cons notice rest ih => exact (ih (s.note notice)).trans { refl id s with }

/-- Observed facts matter only for the journal. -/
theorem observeAll (s : System) (observations : List Observation) :
    Alike id (s.observeAll observations) s := by
  induction observations generalizing s with
  | nil => exact refl id s
  | cons observation rest ih => exact (ih (s.observe observation)).trans { refl id s with }

/-! ### The broker and its subscriptions -/

/-- Stopping the broker marks it as stopped, but for the order of the workers and the journal. -/
theorem stop_eq (s : System) : Alike id s.stop { s with stopped := true } := by
  unfold System.stop
  split
  · next hstopped => exact { refl id s with stopped := hstopped }
  · exact wakeAll _ _

/-- Systems that hold the same still do once the broker is stopped. -/
theorem stop (h : Alike id s t) : Alike id s.stop t.stop := by
  have hstopped : Alike id { s with stopped := true } { t with stopped := true } :=
    { h with stopped := rfl }
  exact hstopped.through (stop_eq s) (stop_eq t)

/-- Letting go of the broker takes one hold away, and stops a broker that nobody holds any more. -/
theorem release_eq (s : System) :
    Alike id s.release
      { s with
        holders := s.holders - 1
        stopped := s.stopped || decide (s.holders - 1 = 0) } := by
  simp only [System.release]
  split
  · next hlast =>
    have hzero : s.holders - 1 = 0 := by
      have hboth := (Bool.and_eq_true _ _).mp hlast
      exact of_decide_eq_true hboth.1
    have hstop := @stop_eq id
      (({ s with holders := s.holders - 1 } : System).note .brokerDropped)
    refine { hstop with stopped := ?_ }
    rw [hstop.stopped, decide_eq_true hzero, Bool.or_true]
  · next hlast =>
    refine { refl id s with holders := rfl, stopped := ?_ }
    cases hstopped : s.stopped with
    | true => simp
    | false =>
      have hmore : ¬ s.holders - 1 = 0 := fun hzero => hlast (by simp [hzero, hstopped])
      simp [hmore]

/-- Systems that hold the same still do once somebody has let go of the broker. -/
theorem release (h : Alike id s t) : Alike id s.release t.release := by
  have hreleased : Alike id
      { s with
        holders := s.holders - 1
        stopped := s.stopped || decide (s.holders - 1 = 0) }
      { t with
        holders := t.holders - 1
        stopped := t.stopped || decide (t.holders - 1 = 0) } :=
    { h with
      holders := by rw [h.holders]
      stopped := by rw [h.stopped, h.holders] }
  exact hreleased.through (release_eq s) (release_eq t)

/-- Systems that hold the same still do after a subscription was ended. -/
theorem unsubscribe (h : Alike id s t) (n : Nat) :
    Alike id (s.unsubscribe n) (t.unsubscribe n) := by
  unfold System.unsubscribe
  have hactive : s.isActive n = t.isActive n := by
    unfold isActive
    rw [h.registered]
  rw [hactive]
  split
  · refine Alike.through ?_ (wake _ _) (wake _ _)
    exact { h with
      registered := by rw [h.registered]
      dispatchers := by rw [h.dispatchers] }
  · exact h

/-- Systems that hold the same still do after subscriptions were ended. -/
theorem unsubscribeAll (h : Alike id s t) (ids : List Nat) :
    Alike id (s.unsubscribeAll ids) (t.unsubscribeAll ids) := by
  induction ids generalizing s t with
  | nil => exact h
  | cons n rest ih => exact ih (h.unsubscribe n)

/-- Systems that hold the same still do after a registration, which has the same number in both. -/
theorem register (h : Alike id s t) (scope localStem : Key) (channel feed : Nat) :
    Alike id (s.register scope localStem channel feed).1
        (t.register scope localStem channel feed).1 ∧
      (s.register scope localStem channel feed).2 =
        (t.register scope localStem channel feed).2 := by
  unfold System.register
  constructor
  · refine Alike.through ?_ (wake _ _) (wake _ _)
    exact { h with
      nextSubscription := by rw [h.nextSubscription]
      registered := by rw [h.registered, h.nextSubscription]
      dispatchers := by rw [h.dispatchers, h.nextSubscription] }
  · simp only [h.nextSubscription]

/-! ### Other calls -/

/-- A call is found in both systems or in none. -/
theorem find? (h : Alike id s t) {n : Nat} (hn : n ≠ id) :
    s.calls.find? (fun c => decide (c.id = n)) = t.calls.find? fun c => decide (c.id = n) := by
  have hs := Desk.find?_filter_ne InFlight.id s.calls id n
  have ht := Desk.find?_filter_ne InFlight.id t.calls id n
  rw [if_neg hn] at hs ht
  rw [← hs, ← ht, h.calls]

/-- Systems that hold the same still do after the end of a call. -/
theorem finish (h : Alike id s t) (c : InFlight) (answer : Answer) :
    Alike id (s.finish c answer) (t.finish c answer) := by
  have hnoted := h.through (noteAll s answer.notices) (noteAll t answer.notices)
  simp only [System.finish]
  generalize s.noteAll answer.notices = s' at hnoted
  generalize t.noteAll answer.notices = t' at hnoted
  have hended : Alike id
      { s' with
        calls := s'.calls.filter fun other => other.id ≠ c.id
        finished := s'.finished ++ [(c.id, answer)] }
      { t' with
        calls := t'.calls.filter fun other => other.id ≠ c.id
        finished := t'.finished ++ [(c.id, answer)] } :=
    { hnoted with
      calls := by
        simp only [List.filter_filter]
        have hcalls := congrArg (List.filter fun other => decide (other.id ≠ c.id)) hnoted.calls
        simpa only [List.filter_filter, Bool.and_comm] using hcalls
      finished := by
        simp only [List.filter_append]
        rw [hnoted.finished] }
  split
  · exact hended.release
  · exact hended

/-- Systems that hold the same still do after a further turn of a call. -/
theorem proceed (h : Alike id s t) (c : InFlight) (turn : Turn) :
    Alike id (s.proceed c turn) (t.proceed c turn) := by
  cases turn with
  | done answer => exact h.finish c answer
  | ask call =>
    let next : InFlight := { c with call, exchange := none }
    have hsame : ((fun other : InFlight => decide (other.id ≠ id)) ∘ fun other =>
        if other.id = c.id then next else other) = fun other => decide (other.id ≠ id) := by
      funext other
      simp only [Function.comp]
      split
      · next heq => rw [heq]
      · rfl
    refine { h with calls := ?_ }
    simp only [System.proceed, List.filter_map]
    rw [hsame, h.calls]

/-- Both systems take the same turn. -/
theorem answered (h : Alike id s t) (call : Call) (reply : Except Error call.service.Reply) :
    Alike id (s.answered call reply).1 (t.answered call reply).1 ∧
      (s.answered call reply).2 = (t.answered call reply).2 := by
  cases call with
  | watch scope stem channel =>
    cases reply with
    | ok feed =>
      have hregister := h.register scope stem channel feed
      refine ⟨hregister.1, ?_⟩
      simp only [System.answered, hregister.2]
    | error e => exact ⟨h, rfl⟩
  | watchAll scope channel held stem rest =>
    cases reply with
    | ok feed =>
      have hregister := h.register scope stem channel feed
      cases rest <;>
      · refine ⟨hregister.1, ?_⟩
        simp only [System.answered, hregister.2]
    | error e => exact ⟨h.unsubscribeAll _, rfl⟩
  | listAll | next | drain => cases reply <;> exact ⟨h, rfl⟩
  | _ => exact ⟨h, rfl⟩

/-- Systems that hold the same still do after the reply to a call. -/
theorem conclude (h : Alike id s t) (c : InFlight) (reply : Except Error c.call.service.Reply) :
    Alike id (s.conclude c reply) (t.conclude c reply) := by
  obtain ⟨hafter, hturn⟩ := h.answered c.call reply
  simp only [System.conclude]
  rw [hturn]
  exact hafter.proceed c _

/-- Systems that hold the same still do after the outcome of a request. -/
theorem settle (h : Alike id s t) (c : InFlight) {started begun : Nat} (hsame : started = begun)
    (outcome : Outcome c.call.service.Reply) :
    Alike id (s.settle c started outcome) (t.settle c begun outcome) := by
  subst hsame
  cases outcome with
  | ok reply =>
    refine Alike.conclude ?_ c (.ok reply)
    exact { h with }
  | failed error =>
    refine Alike.conclude ?_ c (.error (c.call.service.failure error).1)
    exact { h with }
  | aborted why =>
    refine Alike.finish ?_ c (.aborted why)
    exact { h with }

/-- Systems that hold the same still do after the store has carried out a request. -/
theorem act (h : Alike id s t) (c : InFlight) {started begun : Nat} (hsame : started = begun) :
    Alike id (s.act c started) (t.act c begun) := by
  have hserved : s.store.serve (s.now * Duration.millisecond) c.call.request =
      t.store.serve (t.now * Duration.millisecond) c.call.request := by
    rw [h.store, h.now]
  simp only [System.act]
  rw [hserved]
  refine Alike.settle ?_ c hsame _
  refine Alike.through ?_ (wakeReaders _ _) (wakeReaders _ _)
  exact { h with store := rfl }

/-- Systems that hold the same still do when a call waits for its reply. -/
theorem await (h : Alike id s t) (c : InFlight) {due other : Option Nat} (hsame : due = other) :
    Alike id (s.await c due) (t.await c other) := by
  subst hsame
  refine { h with calls := ?_ }
  have hcalls := congrArg (List.filter fun other => decide (other.id ≠ c.id)) h.calls
  simp only [System.await, List.filter_append, List.filter_filter] at hcalls ⊢
  simp only [Bool.and_comm] at hcalls
  simp only [h.now, h.settings, hcalls]

/-- Systems that hold the same still do after the end of a stub. -/
theorem endStub (h : Alike id s t) (name : String) :
    Alike id (s.endStub name) (t.endStub name) := by
  unfold System.endStub
  rw [h.stubs]
  split
  · exact h
  · refine Alike.through ?_ (wakeReaders _ _) (wakeReaders _ _)
    exact { h with store := by rw [h.store], stubs := rfl }

/-- Both systems are given the same reply by a script. -/
theorem fulfil (h : Alike id s t) (service : Service) (planned : service.Planned) :
    Alike id (s.fulfil service planned).1 (t.fulfil service planned).1 ∧
      (s.fulfil service planned).2 = (t.fulfil service planned).2 := by
  cases service with
  | watch =>
    have hended := h.endStub planned
    simp only [System.fulfil, openStub]
    refine ⟨?_, by rw [hended.store]⟩
    exact { hended with
      store := by rw [hended.store]
      stubs := by rw [hended.stubs, hended.store] }
  | _ => exact ⟨h, rfl⟩

/-- Both systems follow the same line of the script. -/
theorem makeRequest (h : Alike id s t) (c : InFlight) :
    Alike id (s.makeRequest c) (t.makeRequest c) := by
  have hstop : (t.stopped && c.call.endsWithBroker) = (s.stopped && c.call.endsWithBroker) := by
    rw [h.stopped]
  simp only [System.makeRequest]
  rw [hstop, ← h.script]
  split
  · exact h.conclude c _
  · generalize s.script.next c.call.service = taken
    obtain ⟨answer, script⟩ := taken
    have hnext : Alike id { s with script } { t with script } := { h with script := rfl }
    cases answer with
    | forward delay =>
      cases delay with
      | zero => exact hnext.act c h.now
      | succ delay =>
        have hdue : some (s.now + (delay + 1)) = some (t.now + (delay + 1)) := by rw [h.now]
        exact hnext.await c hdue
    | hang => exact hnext.await c rfl
    | fail error => exact hnext.settle c h.now (.failed error)
    | reply planned =>
      obtain ⟨hfulfilled, hreply⟩ := hnext.fulfil c.call.service planned
      simp only
      rw [← hreply]
      exact hfulfilled.settle c hfulfilled.now _

/-- Systems that hold the same still do after a call has looked for its reply. -/
theorem checkAnswer (h : Alike id s t) (c : InFlight) (e : Exchange) :
    Alike id (s.checkAnswer c e) (t.checkAnswer c e) := by
  have hstop : (t.stopped && c.call.endsWithBroker) = (s.stopped && c.call.endsWithBroker) := by
    rw [h.stopped]
  have hdue : (e.due.any fun due => decide (due ≤ t.now)) =
      e.due.any fun due => decide (due ≤ s.now) := by rw [h.now]
  have htimeout : t.settings.timeout = s.settings.timeout := by rw [h.settings]
  have hdeadline : (e.deadline ≤ t.now) = (e.deadline ≤ s.now) := by rw [h.now]
  simp only [System.checkAnswer, hstop, hdue, hdeadline, htimeout]
  split
  · refine Alike.conclude ?_ c _
    exact { h with }
  · split
    · exact h.act c rfl
    · split
      · refine Alike.conclude ?_ c _
        exact { h with }
      · exact h

/-- Systems that hold the same but for a call still do after another call was polled. -/
theorem pollCall (h : Alike id s t) {n : Nat} (hn : n ≠ id) :
    Alike id (s.pollCall n) (t.pollCall n) := by
  simp only [System.pollCall]
  rw [← h.find? hn]
  cases s.calls.find? fun c => decide (c.id = n) with
  | none => exact h
  | some c =>
    simp only
    split
    · exact h.makeRequest c
    · exact h.checkAnswer c _

/-! ### Dispatchers -/

/-- Systems that hold the same have the same wiring. -/
theorem wiring (h : Alike id s t) : s.wiring = t.wiring := by
  unfold System.wiring
  rw [h.settings, h.store, h.script, h.stopped, h.nextSubscription, h.registered, h.dispatchers,
    h.channels]

/-- Systems that hold the same have the same channels. -/
theorem channel (h : Alike id s t) (n : Nat) : s.channel n = t.channel n := by
  unfold System.channel
  rw [h.channels]

/-- Systems that hold the same still do after the same change of a channel. -/
theorem onChannel (h : Alike id s t) (n : Nat) (f : Channel → Channel) :
    Alike id (s.onChannel n f) (t.onChannel n f) :=
  { h with channels := by simp only [System.onChannel, h.channels] }

/-- Systems that hold the same still do after the same step of a dispatcher. -/
theorem afterStep (h : Alike id s t) (d : Dispatcher) (step : Dispatch.Step) :
    Alike id (s.afterStep d step) (t.afterStep d step) := by
  unfold System.afterStep
  refine Alike.through ?_ (wakeAll _ _) (wakeAll _ _)
  refine Alike.through ?_ (observeAll _ _) (observeAll _ _)
  refine Alike.through ?_ (noteAll _ _) (noteAll _ _)
  refine Alike.onChannel ?_ _ _
  exact { h with
    store := by simp only [withDispatcher, h.store]
    dispatchers := by simp only [withDispatcher, h.dispatchers] }

/-- Systems that hold the same still do after a dispatcher was polled. -/
theorem pollDispatcher (h : Alike id s t) (n : Nat) (reportFirst : Bool) :
    Alike id (s.pollDispatcher n reportFirst) (t.pollDispatcher n reportFirst) := by
  have hsame : s.dispatcher? n = t.dispatcher? n := by
    unfold dispatcher?
    rw [h.dispatchers]
  cases hfind : s.dispatcher? n with
  | none =>
    rw [hfind] at hsame
    simp only [System.pollDispatcher, hfind, ← hsame]
    exact h
  | some d =>
    rw [hfind] at hsame
    by_cases hcredit : d.credit = 0
    · simp only [System.pollDispatcher, hfind, ← hsame, if_pos hcredit]
      exact { h with dispatchers := by simp only [rest, withDispatcher, h.dispatchers] }
    · rw [pollDispatcher_of_credit hfind hcredit, pollDispatcher_of_credit hsame.symm hcredit,
        ← h.wiring]
      have hafter := h.afterStep d (s.wiring.stepOf d reportFirst)
      simp only
      cases (s.wiring.stepOf d reportFirst).pace with
      | again => exact { hafter with }
      | waiting => exact hafter
      | «over» =>
        exact { hafter with
          registered := congrArg (List.erase · n) hafter.registered
          dispatchers := congrArg
            (List.filter fun other : Dispatcher => decide (other.subscription.id ≠ n))
            hafter.dispatchers
          store := congrArg (Store.onFeed · d.subscription.feed (·.leave)) hafter.store }

/-! ### Moves -/

/-- Systems that hold the same still do after a call was launched. -/
theorem launch (h : Alike id s t) (turn : Turn) (holdsBroker : Bool) :
    Alike id (s.launch turn holdsBroker).1 (t.launch turn holdsBroker).1 := by
  cases turn with
  | done answer =>
    have hnumbered : Alike id { s with nextCall := s.nextCall + 1 }
        { t with nextCall := t.nextCall + 1 } := { h with nextCall := by rw [h.nextCall] }
    have hnoted := hnumbered.through (noteAll _ answer.notices) (noteAll _ answer.notices)
    refine { hnoted with finished := ?_ }
    simp only [System.launch, List.filter_append]
    rw [h.nextCall, h.finished]
  | ask call =>
    simp only [System.launch]
    refine Alike.through ?_ (wake _ _) (wake _ _)
    exact { h with
      nextCall := by rw [h.nextCall]
      holders := by rw [h.holders]
      calls := by
        simp only [List.filter_append]
        rw [h.calls, h.nextCall] }

/-- Taking the answer of a call that has none does nothing. -/
theorem take_eq (s : System) (n : Nat) :
    Alike id (s.move (.take n)) { s with finished := s.finished.filter fun e => e.1 ≠ n } := by
  simp only [move, takeAnswer]
  cases hfind : s.finished.find? fun e => decide (e.1 = n) with
  | some e => exact refl id _
  | none =>
    have hall : (s.finished.filter fun e => decide (e.1 ≠ n)) = s.finished := by
      refine List.filter_eq_self.2 fun e he => ?_
      have hother := List.find?_eq_none.1 hfind e he
      simpa using hother
    exact { refl id s with finished := by simp only [Option.map_none, Option.getD_none, hall] }

/-- Systems that hold the same still do after an answer was taken away. -/
theorem take (h : Alike id s t) (n : Nat) : Alike id (s.move (.take n)) (t.move (.take n)) := by
  refine Alike.through ?_ (take_eq s n) (take_eq t n)
  refine { h with finished := ?_ }
  have hfinished := congrArg (List.filter fun e => decide (e.1 ≠ n)) h.finished
  simpa only [List.filter_filter, Bool.and_comm] using hfinished

/-- Systems that hold the same still do after closing has begun, which goes on in the same way in
both. -/
theorem beginClose (h : Alike id s t) :
    Alike id s.beginClose.1 t.beginClose.1 ∧ s.beginClose.2 = t.beginClose.2 := by
  unfold System.beginClose
  rw [← h.closing]
  split
  · exact ⟨h, rfl⟩
  · refine ⟨Alike.stop ?_, rfl⟩
    exact { h with closing := rfl }

/-- Systems that hold the same still do after the connection was cut or restored. -/
theorem setAvailable (h : Alike id s t) (available : Bool) :
    Alike id (s.setAvailable available) (t.setAvailable available) := by
  have hset : Alike id { s with store := s.store.setAvailable available }
      { t with store := t.store.setAvailable available } := { h with store := by rw [h.store] }
  simp only [System.setAvailable]
  split
  · exact hset
  · exact hset.through (wakeReaders _ _) (wakeReaders _ _)

/-- Systems that hold the same still do after a request made directly to the store. -/
theorem serveDirectly (h : Alike id s t) {service : Service} (request : Request service) :
    Alike id (s.serveDirectly request).1 (t.serveDirectly request).1 := by
  refine Alike.through ?_ (wakeReaders _ _) (wakeReaders _ _)
  exact { h with store := by rw [h.store, h.now] }

/-- Systems that hold the same still do after an item was received. -/
theorem receive (h : Alike id s t) (n : Nat) : Alike id (s.receive n).1 (t.receive n).1 := by
  simp only [System.receive]
  rw [← h.channel n]
  split
  · refine Alike.through ?_ (wakeAll _ _) (wakeAll _ _)
    exact h.onChannel n _
  · exact h

/-- Systems that hold the same have dispatchers on the same feeds. -/
theorem dispatches (h : Alike id s t) (n : Nat) : s.dispatches n = t.dispatches n := by
  unfold System.dispatches
  rw [h.dispatchers]

/-- A move that does not poll the call takes alike systems to alike systems. -/
theorem move (h : Alike id s t) {m : Move}
    (hm : ∀ reportFirst, m ≠ .poll (.call id) reportFirst) : Alike id (s.move m) (t.move m) := by
  cases m with
  | poll worker reportFirst =>
    cases worker with
    | call n =>
      have hn : n ≠ id := fun heq => hm reportFirst (by rw [heq])
      exact h.pollCall hn
    | dispatcher n => exact h.pollDispatcher n reportFirst
  | schedule ready resting => exact { h with }
  | pass moment => exact { h with now := by simp only [System.move, h.now] }
  | launch turn holdsBroker => exact h.launch turn holdsBroker
  | take n => exact h.take n
  | close holdsBroker =>
    obtain ⟨hbegun, hturn⟩ := h.beginClose
    simp only [System.move]
    rw [← hturn]
    exact hbegun.launch _ holdsBroker
  | release => exact h.release
  | note notices => exact h.through (noteAll s notices) (noteAll t notices)
  | ask request => exact h.serveDirectly request
  | compact revision => exact { h with store := by simp only [System.move, h.store] }
  | setAvailable available => exact h.setAvailable available
  | inject line genuine => exact { h with script := by simp only [System.move, h.script] }
  | openChannel capacity held =>
    simp only [System.move, System.openChannel]
    split
    · have hopened := congrArg (· ++ [({ capacity, held } : Channel)]) h.channels
      exact { h with channels := hopened }
    · exact h
  | dropSender n => exact h.onChannel n _
  | receive n => exact h.receive n
  | dropReceiver n =>
    simp only [System.move, System.dropReceiver]
    refine Alike.through ?_ (wakeAll _ _) (wakeAll _ _)
    exact h.onChannel n _
  | unsubscribe n => exact h.unsubscribe n
  | readFeed n =>
    simp only [System.move]
    rw [← h.dispatches n]
    split
    · exact h
    · exact { h with store := by simp only [h.store] }
  | leaveFeed n =>
    simp only [System.move]
    rw [← h.dispatches n]
    split
    · exact h
    · exact { h with store := by simp only [h.store] }

/-! ### What moves do -/

/-- In systems that hold the same the store acts at the same instant. -/
theorem instant (h : Alike id s t) : s.instant = t.instant := by
  unfold System.instant
  rw [h.now]

/-- In systems that hold the same the store carries out the request of a call or does not. -/
theorem actsOn (h : Alike id s t) (c : InFlight) : s.actsOn c = t.actsOn c := by
  unfold System.actsOn
  rw [h.stopped, h.script, h.now]

/-- In systems that hold the same the same comes of a request. -/
theorem comesOf (h : Alike id s t) (call : Call) : s.comesOf call = t.comesOf call := by
  unfold System.comesOf System.opens
  rw [h.instant, h.store, h.nextSubscription]

/-- In systems that hold the same but for a call the same happens in a move, unless it polls that
call. -/
theorem happens (h : Alike id s t) {m : Move}
    (hm : ∀ reportFirst, m ≠ .poll (.call id) reportFirst) : s.happens m = t.happens m := by
  cases m with
  | poll worker reportFirst =>
    cases worker with
    | call n =>
      have hn : n ≠ id := fun heq => hm reportFirst (by rw [heq])
      simp only [System.happens]
      rw [h.find? hn]
      simp only [h.actsOn, h.comesOf]
    | dispatcher n => rfl
  | ask request =>
    simp only [System.happens]
    rw [h.store, h.instant]
  | receive n =>
    simp only [System.happens, receives]
    rw [h.channel n]
  | _ => rfl

end Alike

end KeyBroker.System
