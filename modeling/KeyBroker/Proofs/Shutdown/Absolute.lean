import KeyBroker.Proofs.Shutdown.Endings

/-!
# Shutdown is absolute

Once closing has been asked for or the last holder of the broker has let go, the broker makes
no request but the one for closing, every call but closing is told that the broker is closed,
and every subscription ends without a report that was not due before.
-/

namespace KeyBroker.System

/-- What callers and subscribers meet with on a stopped broker. -/
structure ShutDown (s : System) : Prop where
  /-- Calls under way are refused at their next poll. -/
  underWay : ∀ id c, s.desk.call? id = some c → c.call.endsWithBroker = true → s.Refuses id
  /-- Whatever is asked for later is refused when its call is first polled. -/
  later : ∀ (o : Order) holdsBroker, o.needsBroker = true → o.fits s.settings = true →
    (s.launch (o.turn s) holdsBroker).1.Refuses s.nextCall
  /-- So is a subscription on a channel that the broker makes. -/
  subscribe : ∀ scope stem holdsBroker,
    Channel.capacityAllowed s.settings.bufferSize = true →
      ∃ t n, s.openChannel s.settings.bufferSize false = some (t, n) ∧
        (t.launch (.ask (.watch scope stem n)) holdsBroker).1.Refuses t.nextCall
  requests : ∀ run, ∀ service ∈ s.requestsAll run, service = .close
  /-- At rest nobody is registered, and a channel that nobody outside feeds is closed behind
  the items in it. -/
  atRest : s.AtRest → (∀ c ∈ s.calls, c.call.endsWithBroker = false) →
    s.registered = [] ∧ ∀ n, (s.channel n).held = false →
      s.receiveAll n ((s.channel n).items.length + 1) =
        (s.channel n).items.map (fun e => .item e.2) ++ [.closed]

variable {s : System} {es : List Episode}

/-- On a stopped broker a subscription still gets its channel, and then is refused as closed. -/
theorem Kept.subscribe_of_stopped (h : s.Kept es) (hstopped : s.stopped = true) (scope stem : Key)
    (holdsBroker : Bool) (hcapacity : Channel.capacityAllowed s.settings.bufferSize = true) :
    ∃ t n, s.openChannel s.settings.bufferSize false = some (t, n) ∧
      (t.launch (.ask (.watch scope stem n)) holdsBroker).1.Refuses t.nextCall := by
  let opened : System :=
    { s with channels := s.channels ++ [{ capacity := s.settings.bufferSize, held := false }] }
  refine ⟨opened, s.channels.length, if_pos hcapacity, ?_⟩
  have hbooked : opened.desk.Booked := h.booked
  exact refuses_launch hbooked hstopped (.inl ⟨_, rfl, rfl⟩) holdsBroker

/-- A stopped broker at rest has no subscription left, and each channel yields what is still in it
and then its end. -/
theorem Kept.atRest_of_stopped (h : s.Kept es) (hstopped : s.stopped = true) (hrest : s.AtRest)
    (hcalls : ∀ c ∈ s.calls, c.call.endsWithBroker = false) :
    s.registered = [] ∧ ∀ n, (s.channel n).held = false →
      s.receiveAll n ((s.channel n).items.length + 1) =
        (s.channel n).items.map (fun e => .item e.2) ++ [.closed] := by
  have hdispatchers : s.dispatchers = [] := by
    refine List.eq_nil_iff_forall_not_mem.2 fun d hd => ?_
    have hserves := (hrest.waits hd).1
    rw [hstopped] at hserves
    cases hserves
  refine ⟨?_, fun n hheld => Unfed.receiveAll ⟨hdispatchers, fun c hc hchannel => ?_, hheld⟩⟩
  · rw [h.registered hrest, hdispatchers]
    rfl
  · have hcloses := hcalls c hc
    cases hcall : c.call <;> simp [hcall, Call.endsWithBroker, Call.channel?] at hcloses hchannel

/-- Callers and subscribers meet with a broker that is shut down for good on every stopped broker
that comes of a run. -/
theorem Kept.shutDown (h : s.Kept es) (hstopped : s.stopped = true) : s.ShutDown where
  underWay _ _ hfind hends := refuses_of_stopped h.booked hstopped hfind hends
  later o holdsBroker hneeds hfits :=
    refuses_launch h.booked hstopped (o.turn_of_stopped hstopped hneeds hfits) holdsBroker
  subscribe := h.subscribe_of_stopped hstopped
  requests := h.requestsAll_of_stopped hstopped
  atRest := h.atRest_of_stopped hstopped

/-- Shutdown is absolute. In any run in which calls begin in the ways that there are, closing
is requested at most once, and never if nobody asks for it, and callers are told that the
broker is closed only after it was closed or dropped. From then on it is shut down: whatever
comes, a loss of a feed is reported only for a subscription whose feed was lost while the
broker still served. -/
theorem shutdown_absolute (settings : Settings) (run : List Incident)
    (hordered : Ordered { settings } run) :
    let new : System := { settings }
    let s := new.incurs run
    (s.stopped = true ↔ .shutDown ∈ new.episodes run) ∧
      (s.stopped = true → s.ShutDown ∧
        ∀ i n, Channel.Flows (fun e => e.2.IsReport → e.1 = outsider ∨
            ∃ d ∈ s.dispatchers, d.subscription.id = e.1 ∧
              ∃ before after, run = before ++ after ∧
                (new.incurs before).books.Loses d.subscription)
          (s.channel n) ((s.incur i).channel n)) ∧
      (new.requestsAll run).count .close ≤ 1 ∧
      ((∀ i ∈ run, i.closes = false) → .close ∉ new.requestsAll run) ∧ s.Honest := by
  intro new s
  have hnew : new.Kept [] := kept_new settings
  have hkept : s.Kept (new.episodes run) := kept_incurs settings run
  have hhonest : new.Honest := fun _ hanswer => absurd hanswer List.not_mem_nil
  refine ⟨hkept.exact.stopped, fun hstopped => ⟨hkept.shutDown hstopped, fun i n => ?_⟩,
    hnew.count_requestsAll hordered, fun hnone => ?_, hnew.honest_incurs hhonest hordered⟩
  · refine ((hkept.course i).flows_of_stopped hstopped n).mono fun e hreport hisReport => ?_
    rcases hreport hisReport with houtside | ⟨d, hd, hid, hreports⟩
    · exact .inl houtside
    · rcases hnew.reports_incurs (p := fun _ => False) nofun run hd hreports with hfalse | hloses
      · exact hfalse.elim
      · exact .inr ⟨d, hd, hid, hloses⟩
  · have hcount : (new.requestsAll run).count .close ≤ 0 :=
      count_requestsAll_of_open hordered hnone
    exact List.count_eq_zero.1 (Nat.le_zero.1 hcount)

/-- A watch is opened, a read is under way, and the broker is closed: the read is refused, the
store sees no request but the two for watching and closing, and the channel of the
subscription is closed. -/
theorem shutdown_absolute_reading :
    let call (turn : Turn) : Incident := .occur (.move (.launch turn false))
    let poll (worker : Worker) : Incident := .occur (.move (.poll worker false))
    let run : List Incident := [.occur (.move (.openChannel 1 false)),
      call (.ask (.watch [] ['k'] 0)), poll (.call 0), call (.ask (.get [] ['k'])),
      .occur (.move (.close false)), poll (.call 1), poll (.call 2), poll (.dispatcher 1),
      poll (.dispatcher 1)]
    let new : System := { settings := {} }
    let s := new.incurs run
    Ordered new run ∧ new.requestsAll run = [.watch, .close] ∧ s.stopped = true ∧ s.ShutDown ∧
      s.registered = [] ∧ s.receiveAll 0 1 = [.closed] ∧ s.Honest := by
  intro call poll run new s
  have hordered : Ordered new run := by
    refine ⟨?_, ?_, ?_, ?_, ?_, ?_, ?_, ?_, ?_, trivial⟩ <;> intro turn holdsBroker h <;> cases h
    · exact ⟨.watch [] ['k'] 0, rfl⟩
    · exact ⟨.get [] ['k'], rfl⟩
  obtain ⟨_, hshutDown, _, _, hhonest⟩ := shutdown_absolute {} run hordered
  have hstopped : s.stopped = true := by decide +kernel
  have hcalls : ∀ c ∈ s.calls, c.call.endsWithBroker = false := by decide +kernel
  obtain ⟨hregistered, hreceives⟩ := (hshutDown hstopped).1.atRest (by decide +kernel) hcalls
  have hitems : (s.channel 0).items.length = 0 := by decide +kernel
  have hclosed := hreceives 0 (by decide +kernel)
  rw [List.length_eq_zero_iff.1 hitems] at hclosed
  exact ⟨hordered, by decide +kernel, hstopped, (hshutDown hstopped).1, hregistered, hclosed,
    hhonest⟩

/-- An order for which the machine has no room is never refused: it stops without an answer,
on a closed broker as on an open one. -/
theorem not_refuses_of_not_fits {o : Order} (hbooked : s.desk.Booked)
    (hfits : o.fits s.settings = false) (holdsBroker : Bool) :
    (s.launch (o.turn s) holdsBroker).1.desk.standing s.nextCall =
        some (.done (.aborted .pageBuffer)) ∧
      ¬(s.launch (o.turn s) holdsBroker).1.Refuses s.nextCall := by
  have hturn : o.turn s = .done (.aborted .pageBuffer) := o.turn_of_not_fits hfits
  have hstanding := standing_launch hbooked (o.turn s) holdsBroker
  have hnone : (s.launch (o.turn s) holdsBroker).1.desk.call? s.nextCall = none := by
    rw [desk_launch, hturn]
    exact hbooked.call?_eq_none
  have hcall : (s.launch (o.turn s) holdsBroker).1.calls.find?
      (fun c => decide (c.id = s.nextCall)) = none := hnone
  rw [hturn] at hstanding hcall ⊢
  refine ⟨hstanding, fun hrefuses => ?_⟩
  obtain ⟨answer, hanswer, hfailure⟩ := hrefuses.1
  simp only [pollCall, hcall] at hanswer
  rw [hstanding] at hanswer
  cases hanswer
  cases hfailure

/-- Settings with pages beyond all memory are accepted. A listing then stops without an answer,
as it asks for the memory before anything else, so on a closed broker it is not refused. -/
theorem listing_unrefused_on_closed :
    let settings : Settings := { pageSize := 1152921504606846976 }
    let s := incurs { settings } [.occur (.move (.close false))]
    let o : Order := .listAll [] [] false
    settings.validate = .ok [] ∧ s.stopped = true ∧ o.needsBroker = true ∧
      (s.launch (o.turn s) false).1.desk.standing s.nextCall =
        some (.done (.aborted .pageBuffer)) ∧
      ¬(s.launch (o.turn s) false).1.Refuses s.nextCall := by
  intro settings s o
  have hbooked := (kept_incurs settings [.occur (.move (.close false))]).booked
  have hfits : o.fits s.settings = false := by decide +kernel
  exact ⟨by rfl, by decide +kernel, rfl, not_refuses_of_not_fits hbooked hfits false⟩

end KeyBroker.System
