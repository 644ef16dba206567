import KeyBroker.Proofs.Shutdown.Refusals
import KeyBroker.Proofs.System.Effects
import KeyBroker.Proofs.System.Told
import Mathlib.Data.List.Induction

/-!
# The course of a call for several watches

A call for several watches asks for one after the other. Each one that it gets is registered at
once, under the next number, and the first one that it does not get ends it. So at any time it
has handles for the first stems, and nothing was asked for the stems behind the current one.
-/

namespace KeyBroker.System

variable {s : System} {c : InFlight} {id : Nat} {i : Incident} {scope stem : Key} {channel : Nat}
  {held : List Handle} {rest stems : List Key}

/-- What a call asks of the store for a watch on a stem. -/
def asked (scope stem : Key) : Demand := ⟨.watch, .watch (scope ++ stem)⟩

/-! ### One poll -/

/-- What a poll makes of a call that watches `stem`, has got `held` before, and goes on with
`rest`. -/
inductive WatchesOn (s : System) (c : InFlight) (scope : Key) (channel : Nat)
    (held : List Handle) (stem : Key) (rest : List Key) (s' : System) : Prop where
  | waits (e : Exchange) (found : s'.desk.call? c.id = some { c with exchange := some e })
    (same : s'.nextSubscription = s.nextSubscription)
    (serves : c.exchange = none → s.stopped = false)
  | goesOn (next : Key) (others : List Key) (more : rest = next :: others)
    (found : s'.desk.call? c.id =
      some { c with
        call := .watchAll scope channel (held ++ [{ id := s.nextSubscription, stem }]) next others
        exchange := none })
    (new : s'.nextSubscription = s.nextSubscription + 1) (serves : s.stopped = false)
  | grants (last : rest = [])
    (answer : s'.desk.standing c.id =
      some (.done (.watchingAll (.ok (held ++ [{ id := s.nextSubscription, stem }])))))
    (new : s'.nextSubscription = s.nextSubscription + 1) (serves : s.stopped = false)
  /-- A call for a watch on `stem` alone would be told the same in its place. -/
  | refuses (e : Error)
    (answer : s'.desk.standing c.id = some (.done (.watchingAll (.error e))))
    (same : s'.nextSubscription = s.nextSubscription)
    (closed : s.stopped = true → e = .closed)
    (alone : ((s.inPlace { c with call := .watch scope stem channel }).pollCall
      c.id).desk.standing c.id = some (.done (.watching (.error e))))

/-- A request for a watch is answered, or it fails. -/
theorem told_watch_ne_aborted (s : System) (stem : Key) (endsWithBroker : Bool)
    (exchange : Option Exchange) (why : Abort) :
    s.told (.watch stem) endsWithBroker exchange ≠ .aborted why := by
  have hserve : (s.store.serve s.instant (.watch stem)).outcome.told ≠ .aborted why := by
    rcases Store.serve_watch s.store s.instant stem with ⟨error, heq⟩ | heq <;>
      rw [heq] <;> nofun
  unfold told
  split
  · nofun
  · cases exchange with
    | none =>
      simp only
      split
      · exact hserve
      all_goals nofun
    | some e =>
      simp only
      split
      · exact hserve
      · split <;> nofun

/-- On a stopped broker a call that ends with it is told that the broker is closed. -/
theorem told_of_stopped (hstopped : s.stopped = true) {service : Service}
    (request : Request service) (exchange : Option Exchange) :
    s.told request true exchange = .reply (.error .closed) := by
  simp only [told, hstopped, Bool.and_self, if_true]

/-- What comes before a call goes on gives no number to a subscription. -/
theorem Before.nextSubscription {t : System} (h : s.Before t) :
    t.nextSubscription = s.nextSubscription := by
  obtain ⟨store, script, hwiring⟩ := h.wiring
  exact congrArg Wiring.nextSubscription hwiring

/-- The end of a call gives no number to a subscription. -/
theorem nextSubscription_finish (s : System) (c : InFlight) (answer : Answer) :
    (s.finish c answer).nextSubscription = s.nextSubscription :=
  (strikes_finish s c answer).next

/-- A registration gives one number to a subscription. -/
theorem nextSubscription_register (s : System) (scope stem : Key) (channel feed : Nat) :
    (s.register scope stem channel feed).1.nextSubscription = s.nextSubscription + 1 :=
  congrArg Wiring.nextSubscription (wiring_register s scope stem channel feed)

/-- A poll brings a call for several watches one step further, or ends it. -/
theorem watchesOn_pollCall (hbooked : s.desk.Booked) (hdistinct : s.registered.Nodup)
    (hfound : s.desk.call? c.id = some c)
    (hcall : c.call = .watchAll scope channel held stem rest) :
    s.WatchesOn c scope channel held stem rest (s.pollCall c.id) := by
  obtain ⟨id, call, exchange, holdsBroker⟩ := c
  subst hcall
  obtain ⟨t, hbefore, hheeds⟩ := heeds_pollCall hfound
  have hnext := hbefore.nextSubscription
  generalize hword : s.told _ _ _ = word at hheeds
  -- a stopped broker tells the call that it is closed, so any other word comes from one that serves
  have hserves (hother : word ≠ .reply (.error .closed)) : s.stopped = false :=
    eq_false_of_ne_true fun hstopped =>
      hother (hword.symm.trans (told_of_stopped hstopped (.watch (scope.qualify stem)) exchange))
  generalize s.pollCall id = after at hheeds
  cases hheeds with
  | still waits =>
    obtain ⟨e, rfl⟩ := Option.ne_none_iff_exists'.1 waits
    exact .waits e (by rw [hbefore.desk]; exact hfound) hnext nofun
  | waits fresh due =>
    refine .waits
      { started := t.now, deadline := t.now + t.settings.requestTimeout, due } ?_ hnext
      fun _ => hserves nofun
    rw [desk_await, hbefore.desk]
    exact Desk.call?_wait ..
  | concludes reply =>
    have hstanding := hbefore.standing_conclude hbooked hfound reply
    cases reply with
    -- with a feed the call gets a subscription, and ends if this was the last stem
    | ok feed =>
      have hserved := hserves nofun
      have hregister := (nextSubscription_register t scope stem channel feed).trans
        (congrArg (· + 1) hnext)
      cases rest with
      | nil =>
        refine .grants rfl (hstanding.trans ?_) ?_ hserved
        · rw [← hnext]
          rfl
        · exact (nextSubscription_finish ..).trans hregister
      | cons next others =>
        refine .goesOn next others rfl ?_ hregister hserved
        rw [desk_conclude, hbefore.desk, ← hnext]
        exact (Desk.call?_proceed hfound _ id).trans (if_pos rfl)
    | error e =>
      refine .refuses e hstanding ?_ ?_ ?_
      · refine (nextSubscription_finish ..).trans (Eq.trans ?_ hnext)
        obtain ⟨store, script, hwiring⟩ := hbefore.wiring
        have hregistered : t.registered = s.registered := congrArg Wiring.registered hwiring
        exact (strikes_unsubscribeAll (hregistered ▸ hdistinct) _).next
      · intro hstopped
        by_contra hne
        refine Bool.noConfusion (hstopped.symm.trans (hserves fun h => hne ?_))
        cases h
        rfl
      -- a call for the one stem in its place would have been told the same word
      · obtain ⟨u, halone⟩ := standing_inPlace hbooked hfound (.watch scope stem channel)
        have hsame : s.told (Call.watch scope stem channel).request
            (Call.watch scope stem channel).endsWithBroker exchange = .reply (.error e) := hword
        rw [hsame] at halone
        exact halone
  | aborts why =>
    exact absurd hword (told_watch_ne_aborted s (scope.qualify stem) true exchange why)

/-! ### What a call brings into being -/

/-- The numbers that are given to subscriptions when a call is polled. -/
def begets (s : System) (id : Nat) (i : Incident) : List Nat :=
  if i.polls id then
    List.range' s.nextSubscription ((s.incur i).nextSubscription - s.nextSubscription)
  else []

/-- The numbers that are given to subscriptions when a call is polled in incidents in order. -/
def begetsAll (s : System) (id : Nat) : List Incident → List Nat
  | [] => []
  | i :: run => s.begets id i ++ (s.incur i).begetsAll id run

/-- The numbers given in incidents in two parts are those of the one, then those of the other
after it. -/
theorem begetsAll_append (s : System) (id : Nat) (run more : List Incident) :
    s.begetsAll id (run ++ more) = s.begetsAll id run ++ (s.incurs run).begetsAll id more := by
  induction run generalizing s with
  | nil => rfl
  | cons i run ih =>
    rw [List.cons_append, begetsAll, begetsAll, ih, List.append_assoc]
    rfl

/-- One more incident gives its numbers behind those given before. -/
theorem begetsAll_concat (s : System) (id : Nat) (run : List Incident) (i : Incident) :
    s.begetsAll id (run ++ [i]) = s.begetsAll id run ++ (s.incurs run).begets id i := by
  rw [begetsAll_append, begetsAll, begetsAll, List.append_nil]

/-- In one more incident a call asks what it asks behind what it asked before. -/
theorem asksAll_concat (s : System) (id : Nat) (run : List Incident) (i : Incident) :
    s.asksAll id (run ++ [i]) = s.asksAll id run ++ (s.incurs run).asks id i := by
  rw [asksAll_append, asksAll, asksAll, List.append_nil]

/-- One more incident comes after all others. -/
theorem incurs_concat (s : System) (run : List Incident) (i : Incident) :
    s.incurs (run ++ [i]) = (s.incurs run).incur i :=
  incurs_append s run [i]

/-- A call that is not polled gives no numbers. -/
theorem begets_of_not_polls (h : i.polls id = false) : s.begets id i = [] := by
  simp only [begets, h, Bool.false_eq_true, if_false]

/-- A poll after which the next number is the same has given none. -/
theorem begets_of_same (h : (s.incur i).nextSubscription = s.nextSubscription) :
    s.begets id i = [] := by
  rw [begets, h, Nat.sub_self]
  exact ite_self _

/-- A poll after which the next number is one higher has given that one. -/
theorem begets_of_new (hpolls : i.polls id = true)
    (h : (s.incur i).nextSubscription = s.nextSubscription + 1) :
    s.begets id i = [s.nextSubscription] := by
  rw [begets, if_pos hpolls, h, Nat.add_sub_cancel_left]
  rfl

/-! ### Calls that have ended -/

/-- A call has ended with an answer, which may have been taken away since. -/
structure Answered (s : System) (id : Nat) (answer : Answer) : Prop where
  gone : s.desk.call? id = none
  told : ∀ turn, s.desk.standing id = some turn → turn = .done answer

/-- A call that stands at its answer has ended with it. -/
theorem answered_of_standing {answer : Answer} (h : s.desk.standing id = some (.done answer)) :
    s.Answered id answer where
  gone := Option.isNone_iff_eq_none.1 ((isNone_call?_iff h).2 ⟨answer, rfl⟩)
  told _ hturn := Option.some.inj (hturn.symm.trans h)

/-- A poll of a call that has ended changes nothing. -/
theorem incur_of_gone (hgone : s.desk.call? id = none) (hpolls : i.polls id = true) :
    s.incur i = s := by
  obtain ⟨reportFirst, rfl⟩ := Incident.eq_poll hpolls
  exact pollCall_of_gone hgone

/-- A call that has ended stays so. -/
theorem Answered.incur {answer : Answer} (h : s.Answered id answer) (hbooked : s.desk.Booked)
    (hid : id < s.nextCall) (i : Incident) : (s.incur i).Answered id answer := by
  cases hpolls : i.polls id with
  | true =>
    rw [incur_of_gone h.gone hpolls]
    exact h
  | false =>
    refine ⟨(call?_incur_of_not_polls hid hpolls).trans h.gone, fun turn hturn => ?_⟩
    rcases standing_incur_of_not_polls hbooked hid hpolls with hsame | hnone
    · exact h.told turn (hsame ▸ hturn)
    · cases hnone.symm.trans hturn

/-- A call that has ended gives no numbers. -/
theorem Answered.begets {answer : Answer} (h : s.Answered id answer) (i : Incident) :
    s.begets id i = [] := by
  cases hpolls : i.polls id with
  | true => exact begets_of_same (by rw [incur_of_gone h.gone hpolls])
  | false => exact begets_of_not_polls hpolls

/-- After a call has ended, nothing more comes of it. -/
theorem Answered.append {answer : Answer} {run : List Incident}
    (h : (s.incurs run).Answered id answer) (hbooked : s.desk.Booked) (hid : id < s.nextCall)
    (more : List Incident) :
    (s.incurs (run ++ more)).Answered id answer ∧
      s.asksAll id (run ++ more) = s.asksAll id run ∧
      s.begetsAll id (run ++ more) = s.begetsAll id run := by
  induction more using List.reverseRecOn with
  | nil => exact (List.append_nil run).symm ▸ ⟨h, rfl, rfl⟩
  | append_singleton more i ih =>
    obtain ⟨hstill, hasks, hbegets⟩ := ih
    have hbooked' := booked_incurs hbooked (run ++ more)
    have hid' := Nat.lt_of_lt_of_le hid (nextCall_incurs s (run ++ more))
    rw [← List.append_assoc]
    refine ⟨incurs_concat s (run ++ more) i ▸ hstill.incur hbooked' hid' i, ?_, ?_⟩
    · rw [asksAll_concat, asks_of_gone hstill.gone, List.append_nil, hasks]
    · rw [begetsAll_concat, hstill.begets, List.append_nil, hbegets]

/-! ### The whole course -/

/-- A call for several watches fails in a poll. It has got watches on the stems before `stem`,
and a call for a watch on `stem` alone would have been told the same in its place. For nothing
else has it asked in the run, and not even for `stem` if the broker had stopped by then. -/
inductive FailsAt (s : System) (id : Nat) (scope : Key) (channel : Nat) (stems : List Key)
    (e : Error) : List Incident → Prop where
  | poll (before : List Incident) (reportFirst : Bool) (after : List Incident) (c : InFlight)
    (held : List Handle) (stem : Key) (rest tried : List Key)
    (found : (s.incurs before).desk.call? id = some c)
    (call : c.call = .watchAll scope channel held stem rest)
    (order : held.map (·.stem) ++ stem :: rest = stems)
    (fails : ((s.incurs before).pollCall id).desk.standing id =
      some (.done (.watchingAll (.error e))))
    (alone : (((s.incurs before).inPlace { c with call := .watch scope stem channel }).pollCall
      id).desk.standing id = some (.done (.watching (.error e))))
    (got : held.map (·.id) =
      s.begetsAll id (before ++ .occur (.move (.poll (.call id) reportFirst)) :: after))
    (contacts : tried = [stem] ∨ tried = [] ∧ e = .closed)
    (asks : s.asksAll id (before ++ .occur (.move (.poll (.call id) reportFirst)) :: after) =
      (held.map (·.stem) ++ tried).map (asked scope)) :
    FailsAt s id scope channel stems e
      (before ++ .occur (.move (.poll (.call id) reportFirst)) :: after)

/-- Where a call for watches on `stems` stands after a run, and what came of it. -/
inductive Gathers (s : System) (id : Nat) (scope : Key) (channel : Nat) (stems : List Key)
    (run : List Incident) : Prop where
  | asks (c : InFlight) (held : List Handle) (stem : Key) (rest : List Key)
    (found : (s.incurs run).desk.call? id = some c)
    (call : c.call = .watchAll scope channel held stem rest)
    (order : held.map (·.stem) ++ stem :: rest = stems)
    (got : held.map (·.id) = s.begetsAll id run)
    (asks : s.asksAll id run =
      (held.map (·.stem) ++ if c.exchange.isSome then [stem] else []).map (asked scope))
  | granted (handles : List Handle)
    (ended : (s.incurs run).Answered id (.watchingAll (.ok handles)))
    (order : handles.map (·.stem) = stems) (got : handles.map (·.id) = s.begetsAll id run)
    (asks : s.asksAll id run = stems.map (asked scope))
  | refused (e : Error) (ended : (s.incurs run).Answered id (.watchingAll (.error e)))
    (fails : s.FailsAt id scope channel stems e run)

variable {run : List Incident} {es : List Episode}

/-- A failure stays what it is while nothing more comes of the call. -/
theorem FailsAt.append {e : Error} {more : List Incident}
    (h : s.FailsAt id scope channel stems e run)
    (hasks : s.asksAll id (run ++ more) = s.asksAll id run)
    (hbegets : s.begetsAll id (run ++ more) = s.begetsAll id run) :
    s.FailsAt id scope channel stems e (run ++ more) := by
  cases h with
  | poll before reportFirst after c held stem rest tried found call order fails alone got contacts
      asks =>
    rw [← hbegets, List.append_assoc, List.cons_append] at got
    rw [← hasks, List.append_assoc, List.cons_append] at asks
    rw [List.append_assoc, List.cons_append]
    exact .poll before reportFirst (after ++ more) c held stem rest tried found call order fails
      alone got contacts asks

/-- What a call has asked for once it has been polled with a stem to watch. -/
theorem asks_concat {c : InFlight} {held : List Handle}
    (hfound : (s.incurs run).desk.call? c.id = some c)
    (hcall : c.call = .watchAll scope channel held stem rest) (hpolls : i.polls c.id = true)
    (hasks : s.asksAll c.id run =
      (held.map (·.stem) ++ if c.exchange.isSome then [stem] else []).map (asked scope))
    (hserves : c.exchange = none → (s.incurs run).stopped = false) :
    s.asksAll c.id (run ++ [i]) = (held.map (·.stem) ++ [stem]).map (asked scope) := by
  rw [asksAll_concat, hasks, asks_of_polls hpolls hfound]
  obtain ⟨id, call, exchange, holdsBroker⟩ := c
  subst hcall
  cases exchange with
  | some e => simp
  | none =>
    simp [hserves rfl, asked, Call.request, Key.qualify]

/-- One poll of a call for several watches. -/
theorem Gathers.poll {c : InFlight} (hkept : (s.incurs run).Kept es)
    (hfound : (s.incurs run).desk.call? c.id = some c)
    (hcall : c.call = .watchAll scope channel held stem rest)
    (horder : held.map (·.stem) ++ stem :: rest = stems)
    (hgot : held.map (·.id) = s.begetsAll c.id run)
    (hasks : s.asksAll c.id run =
      (held.map (·.stem) ++ if c.exchange.isSome then [stem] else []).map (asked scope))
    (reportFirst : Bool) :
    s.Gathers c.id scope channel stems
      (run ++ [.occur (.move (.poll (.call c.id) reportFirst))]) := by
  let i : Incident := .occur (.move (.poll (.call c.id) reportFirst))
  have hpolls : i.polls c.id = true := decide_eq_true rfl
  have hafter : s.incurs (run ++ [i]) = (s.incurs run).pollCall c.id := incurs_concat s run i
  have hsame (hnext : ((s.incurs run).pollCall c.id).nextSubscription =
      (s.incurs run).nextSubscription) : held.map (·.id) = s.begetsAll c.id (run ++ [i]) := by
    rw [begetsAll_concat, begets_of_same (i := i) hnext, List.append_nil, hgot]
  have hnew (hnext : ((s.incurs run).pollCall c.id).nextSubscription =
      (s.incurs run).nextSubscription + 1) :
      (held ++ [({ id := (s.incurs run).nextSubscription, stem } : Handle)]).map (·.id) =
        s.begetsAll c.id (run ++ [i]) := by
    rw [begetsAll_concat, begets_of_new hpolls hnext, List.map_append, hgot]
    rfl
  have hasked := asks_concat hfound hcall hpolls hasks
  have hturn := watchesOn_pollCall hkept.booked hkept.exact.distinct hfound hcall
  cases hturn with
  | waits e found same serves =>
    exact .asks { c with exchange := some e } held stem rest (hafter ▸ found) hcall horder
      (hsame same) (hasked serves)
  | goesOn next others more found new serves =>
    refine .asks _ _ next others (hafter ▸ found) rfl ?_ (hnew new) ?_
    · rw [← horder, more]
      simp
    · rw [hasked fun _ => serves]
      simp
  | grants last answer new serves =>
    refine .granted _ (hafter ▸ answered_of_standing answer) ?_ (hnew new) ?_
    · rw [← horder, last]
      simp
    · rw [hasked fun _ => serves, ← horder, last]
  | refuses e answer same closed alone =>
    refine .refused e (hafter ▸ answered_of_standing answer) ?_
    -- a call that is told that the broker is closed before it has asked has not contacted the store
    by_cases hcontacted : c.exchange = none ∧ (s.incurs run).stopped = true
    · obtain ⟨hfresh, hstopped⟩ := hcontacted
      refine .poll run reportFirst [] c held stem rest [] hfound hcall horder answer alone
        (hsame same) (.inr ⟨rfl, closed hstopped⟩) ?_
      rw [asksAll_concat, hasks, asks_of_polls hpolls hfound, hfresh, hstopped, hcall]
      simp [Call.endsWithBroker]
    · refine .poll run reportFirst [] c held stem rest [stem] hfound hcall horder answer alone
        (hsame same) (.inl rfl) (hasked fun hfresh => ?_)
      exact eq_false_of_ne_true fun hstopped => hcontacted ⟨hfresh, hstopped⟩

/-- One incident brings a call for several watches one step further at most. -/
theorem Gathers.concat (h : s.Gathers id scope channel stems run)
    (hkept : (s.incurs run).Kept es) (hid : id < (s.incurs run).nextCall) (i : Incident) :
    s.Gathers id scope channel stems (run ++ [i]) := by
  have hasks (hasks : (s.incurs run).asks id i = []) :
      s.asksAll id (run ++ [i]) = s.asksAll id run := by
    rw [asksAll_concat, hasks, List.append_nil]
  have hbegets (hbegets : (s.incurs run).begets id i = []) :
      s.begetsAll id (run ++ [i]) = s.begetsAll id run := by
    rw [begetsAll_concat, hbegets, List.append_nil]
  cases h with
  | asks c held stem rest found call order got asks =>
    obtain rfl := Desk.id_of_call? found
    cases hpolls : i.polls c.id with
    | true =>
      obtain ⟨reportFirst, rfl⟩ := Incident.eq_poll hpolls
      exact .poll hkept found call order got asks reportFirst
    | false =>
      refine .asks c held stem rest ?_ call order ?_ ?_
      · rw [incurs_concat, call?_incur_of_not_polls hid hpolls, found]
      · rw [hbegets (begets_of_not_polls hpolls), got]
      · rw [hasks (asks_of_not_polls hpolls), asks]
  | granted handles ended order got asks =>
    refine .granted handles ?_ order ?_ ?_
    · exact incurs_concat s run i ▸ ended.incur hkept.booked hid i
    · rw [hbegets (ended.begets i), got]
    · rw [hasks (asks_of_gone ended.gone i), asks]
  | refused e ended fails =>
    refine .refused e ?_
      (fails.append (hasks (asks_of_gone ended.gone i)) (hbegets (ended.begets i)))
    exact incurs_concat s run i ▸ ended.incur hkept.booked hid i

/-- The system in which a call for several watches was just made. -/
def beginWatchAll (s : System) (scope : Key) (channel : Nat) (stems : List Key)
    (holdsBroker : Bool) : System :=
  (s.launch (Call.beginWatchAll scope channel stems) holdsBroker).1

/-- A kept system stays so when a call for several watches is made. -/
theorem Kept.beginWatchAll (hkept : s.Kept es) (scope : Key) (channel : Nat) (stems : List Key)
    (holdsBroker : Bool) : (s.beginWatchAll scope channel stems holdsBroker).Kept es := by
  have hbegun := hkept.incur
    (.occur (.move (.launch (Call.beginWatchAll scope channel stems) holdsBroker)))
  exact List.append_nil es ▸ hbegun

/-- After a call for several watches was made, its number is never given out again. -/
theorem nextCall_beginWatchAll (s : System) (scope : Key) (channel : Nat) (stems : List Key)
    (holdsBroker : Bool) (run : List Incident) :
    s.nextCall < ((s.beginWatchAll scope channel stems holdsBroker).incurs run).nextCall := by
  have hnext := nextCall_launch s (Call.beginWatchAll scope channel stems) holdsBroker
  exact Nat.lt_of_lt_of_le (Nat.lt_of_lt_of_eq (Nat.lt_succ_self _) hnext.symm)
    (nextCall_incurs _ run)

/-- Where a call for several watches stands after any run. -/
theorem gathers_incurs (hkept : s.Kept es) (scope : Key) (channel : Nat) (stems : List Key)
    (holdsBroker : Bool) (run : List Incident) :
    (s.beginWatchAll scope channel stems holdsBroker).Gathers s.nextCall scope channel stems
      run := by
  induction run using List.reverseRecOn with
  | nil =>
    cases stems with
    | nil =>
      have hstanding := standing_launch hkept.booked (.done (.watchingAll (.ok []))) holdsBroker
      exact .granted [] (answered_of_standing hstanding) rfl rfl rfl
    | cons stem rest =>
      have hfound := call?_launch hkept.booked (.watchAll scope channel [] stem rest) holdsBroker
      exact .asks _ [] stem rest hfound rfl rfl rfl rfl
  | append_singleton run i ih =>
    have hbegun := hkept.beginWatchAll scope channel stems holdsBroker
    have hid := nextCall_beginWatchAll s scope channel stems holdsBroker run
    exact ih.concat (hbegun.incurs run) hid i

end KeyBroker.System
