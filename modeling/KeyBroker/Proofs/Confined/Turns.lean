import KeyBroker.Proofs.System.Polls
import KeyBroker.Proofs.System.Told

/-!
# Errors that calls are told

Everything that a call is told about its request is the reply of the store, or an error of
the store, of the time allowed or of a closed broker. None of these says that a key lies
outside a scope: only what the call itself makes of a reply can.
-/

namespace KeyBroker

/-- Whether an error says that a key lies outside the scope of a view. -/
def Error.isForeign : Error → Bool
  | .scopeViolation .. => true
  | _ => false

/-- No failure of the store is reported as a foreign key. -/
theorem Error.isForeign_ofStorage (during : String) (error : StorageError) :
    (Error.ofStorage during error).isForeign = false := by
  cases error <;> rfl

/-- No failure of a request is told to its caller as a foreign key. -/
theorem Service.isForeign_failure (service : Service) (error : StorageError) :
    (service.failure error).1.isForeign = false := by
  cases service with
  | close => rfl
  | _ => exact Error.isForeign_ofStorage _ error

namespace System

variable {s t : System} {c : InFlight} {id : Nat}

/-- What a poll makes of the turn of a call: the call waits on, its request failed on the way, or
the store carried the request out and became `store`. -/
inductive Proceeds (s : System) (call : Call) (store : Store) : Turn → Prop where
  | waits : Proceeds s call store (.ask call)
  | refused (t : System) (e : Error) (own : e.isForeign = false) :
    Proceeds s call store (t.answered call (.error e)).2
  | served (t : System) (reply : call.service.Reply)
    (outcome : (s.store.serve s.instant call.request).outcome = .ok reply)
    (after : store = (s.store.serve s.instant call.request).store) :
    Proceeds s call store (t.answered call (.ok reply)).2
  | aborted (why : Abort)
    (cause : (s.store.serve s.instant call.request).outcome = .aborted why) :
    Proceeds s call store (.done (.aborted why))

/-- A call for which the store carries out no request waits, or is told an error. -/
theorem told_of_quiet (hgenuine : s.wiring.Genuine) (hquiet : s.actsOn c = false) :
    s.told c.call.request c.call.endsWithBroker c.exchange = .nothing ∨
      ∃ e, e.isForeign = false ∧
        s.told c.call.request c.call.endsWithBroker c.exchange = .reply (.error e) := by
  have hreply : ∀ planned, (s.script.next c.call.service).1 ≠ .reply planned :=
    next_ne_reply hgenuine
  unfold told
  unfold actsOn at hquiet
  cases hstop : s.stopped && c.call.endsWithBroker with
  | true => exact .inr ⟨.closed, rfl, rfl⟩
  | false =>
    rw [hstop] at hquiet
    simp only [Bool.not_false, Bool.true_and] at hquiet
    cases hexchange : c.exchange with
    | none =>
      rw [hexchange] at hquiet
      generalize s.script.next c.call.service = taken at hquiet hreply
      obtain ⟨answer, script⟩ := taken
      cases answer with
      | forward delay =>
        cases delay with
        | zero => cases hquiet
        | succ delay => exact .inl rfl
      | hang => exact .inl rfl
      | fail error => exact .inr ⟨_, Service.isForeign_failure _ error, rfl⟩
      | reply planned => exact absurd rfl (hreply planned)
    | some e =>
      rw [hexchange] at hquiet
      simp only [hquiet, Bool.false_eq_true, if_false]
      split
      · exact .inr ⟨_, rfl, rfl⟩
      · exact .inl rfl

/-- Otherwise it is told what the store gave. -/
theorem told_of_acts (hacts : s.actsOn c = true) :
    s.told c.call.request c.call.endsWithBroker c.exchange =
      (s.store.serve s.instant c.call.request).outcome.told := by
  unfold told
  unfold actsOn at hacts
  cases hstop : s.stopped && c.call.endsWithBroker with
  | true => simp [hstop] at hacts
  | false =>
    rw [hstop] at hacts
    simp only [Bool.not_false, Bool.true_and] at hacts
    cases hexchange : c.exchange with
    | none =>
      rw [hexchange] at hacts
      generalize s.script.next c.call.service = taken at hacts
      obtain ⟨answer, script⟩ := taken
      cases answer with
      | forward delay =>
        cases delay with
        | zero => rfl
        | succ delay => cases hacts
      | _ => cases hacts
    | some e =>
      rw [hexchange] at hacts
      simp only [hacts, Bool.false_eq_true, if_false, if_true]

/-! ### Polls -/

/-- A poll brings a call further, or leaves it where it stands. -/
theorem proceeds_pollCall (hgenuine : s.wiring.Genuine) (hbooked : s.desk.Booked)
    (hfound : s.desk.call? c.id = some c) :
    ∃ turn, (s.pollCall c.id).desk.standing c.id = some turn ∧
      s.Proceeds c.call (s.pollCall c.id).store turn := by
  obtain ⟨t, -, hstanding⟩ := standing_told hbooked hfound
  refine ⟨_, hstanding, ?_⟩
  cases hacts : s.actsOn c with
  | false =>
    rcases told_of_quiet hgenuine hacts with hword | ⟨e, hown, hword⟩
    · rw [hword]
      exact .waits
    · rw [hword]
      exact .refused t e hown
  | true =>
    have hstore : (s.pollCall c.id).store =
        (s.store.serve s.instant c.call.request).store := by
      have hpolled := polled_pollCall hgenuine hfound
      generalize s.pollCall c.id = polled at hpolled
      cases hpolled with
      | idle quiet | waits _ _ _ quiet | fails _ _ _ _ quiet => cases hacts.symm.trans quiet
      | acts script fewer started => exact store_act { s with script } c started
    rw [told_of_acts hacts]
    cases houtcome : (s.store.serve s.instant c.call.request).outcome with
    | ok reply => exact .served t reply houtcome hstore
    | failed error => exact .refused t _ (Service.isForeign_failure _ error)
    | aborted why => exact .aborted why houtcome

/-! ### Runs -/

/-- What holds of the turn of a call, and goes on to hold however a poll brings the call
further, holds of its turn after the run. -/
theorem standing_proceeds {P : Turn → Prop} {turn : Turn} {run : List Move}
    (hgenuine : s.wiring.Genuine) (hbooked : s.desk.Booked) (hid : id < s.nextCall)
    (hstart : ∀ turn, s.desk.standing id = some turn → P turn)
    (hstep : ∀ early m call turn, early ++ [m] <+: run → P (.ask call) →
      (s.moves early).Proceeds call (s.moves (early ++ [m])).store turn → P turn)
    (hturn : (s.moves run).desk.standing id = some turn) : P turn := by
  -- from the first move: the property of the turns is handed on, and a move that does not poll the
  -- call leaves its turn as it is
  induction run generalizing s with
  | nil => exact hstart turn hturn
  | cons m run ih =>
    have hmove : s.incur (.occur (.move m)) = s.move m := rfl
    have hnext := nextCall_incur s (.occur (.move m))
    refine ih (hgenuine.changes (changes_move hgenuine m))
      ((stirs_incur s (.occur (.move m))).booked hbooked) (Nat.lt_of_lt_of_le hid hnext)
      (fun next hstands => ?_) (fun early later call next hearly hcall hproceeds => ?_) hturn
    · cases hpolls : Incident.polls id (.occur (.move m)) with
      | false =>
        rcases standing_incur_of_not_polls hbooked hid hpolls with hsame | hnone
        · exact hstart next (hsame ▸ hstands)
        · cases hnone.symm.trans hstands
      | true =>
        obtain ⟨reportFirst, heq⟩ := Incident.eq_poll hpolls
        cases heq
        cases hfound : s.desk.call? id with
        | none =>
          have hidle : s.pollCall id = s := pollCall_of_gone hfound
          exact hstart next (by rw [← hstands]; exact congrArg (·.desk.standing id) hidle.symm)
        | some c =>
          obtain rfl := Desk.id_of_call? hfound
          obtain ⟨turn, hpolled, hproceeds⟩ := proceeds_pollCall hgenuine hbooked hfound
          obtain rfl := Option.some.inj (hpolled.symm.trans hstands)
          have hfirst : [] ++ [Move.poll (.call c.id) reportFirst] <+:
              .poll (.call c.id) reportFirst :: run := List.prefix_append [_] run
          exact hstep [] _ c.call turn hfirst (hstart _ (standing_of_call? hfound)) hproceeds
    · have hlater : (m :: early) ++ [later] <+: m :: run := List.cons_prefix_cons.2 ⟨rfl, hearly⟩
      exact hstep (m :: early) later call next hlater hcall hproceeds

/-- What holds of the first turn of a call, and goes on to hold however the call proceeds, holds
of its answer. -/
theorem answer_proceeds {P : Turn → Prop} {turn : Turn} {holdsBroker : Bool}
    {between : List Move} {answer : Answer} (hgenuine : s.wiring.Genuine)
    (hbooked : s.desk.Booked) (hstart : P turn)
    (hstep : ∀ early m call next, early ++ [m] <+: between → P (.ask call) →
      ((s.launch turn holdsBroker).1.moves early).Proceeds call
        ((s.launch turn holdsBroker).1.moves (early ++ [m])).store next → P next)
    (h : ((s.launch turn holdsBroker).1.moves between).takeAnswer (s.launch turn holdsBroker).2 =
      some (answer, t)) :
    P (.done answer) ∧
      t = s.moves (.launch turn holdsBroker :: (between ++ [.take s.nextCall])) := by
  have hgenuine' := hgenuine.changes (changes_move hgenuine (.launch turn holdsBroker))
  have hbooked' := (stirs_incur s (.occur (.move (.launch turn holdsBroker)))).booked hbooked
  have hid : s.nextCall < (s.launch turn holdsBroker).1.nextCall :=
    Nat.lt_of_lt_of_eq (Nat.lt_succ_self _) (nextCall_launch ..).symm
  rw [launch_id] at h
  obtain ⟨hstanding, rfl⟩ := standing_of_takeAnswer (booked_moves hgenuine' hbooked' between) h
  refine ⟨standing_proceeds hgenuine' hbooked' hid (fun first hfirst => ?_) hstep hstanding, ?_⟩
  · have hlaunched := standing_launch hbooked turn holdsBroker
    exact Option.some.inj (hlaunched.symm.trans hfirst) ▸ hstart
  · rw [moves_cons, moves_append]
    rfl

end System

end KeyBroker
