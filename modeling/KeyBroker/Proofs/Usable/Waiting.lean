import KeyBroker.Proofs.Retrying.Plea

/-!
# Calls that wait for their answers

A call that has made its request waits no longer than the time allowed. The poll that
finds the time over ends the wait, whatever the store does and whatever a script says.
Until its answer is taken away, a call stands at a request or at that answer.
-/

namespace KeyBroker

/-- A request was answered in some way, or the store stopped at a limit of the machine. -/
inductive System.Reacts (s : System) (call : Call) : Turn → Prop where
  | answered (t : System) (reply : Except Error call.service.Reply) :
    Reacts s call (t.answered call reply).2
  | aborted (why : Abort)
    (cause : (s.store.serve s.instant call.request).outcome = .aborted why) :
    Reacts s call (.done (.aborted why))

/-- What a poll of a call makes of the desk. -/
inductive System.Looks (s : System) (c : InFlight) : Desk → Prop where
  /-- The wait is not over. -/
  | early {e : Exchange} (exchange : c.exchange = some e) (early : s.now < e.deadline) :
    Looks s c s.desk
  /-- The wait begins. -/
  | waits (store : Store) (due : Option Nat) (fresh : c.exchange = none) :
    Looks s c ((s.desk.beside store).wait
      { c with
        exchange := some
          { started := s.now, deadline := s.now + s.settings.requestTimeout, due } })
  | goesOn (store : Store) (turn : Turn) (reacts : s.Reacts c.call turn) :
    Looks s c ((s.desk.beside store).proceed c turn)

/-- What an incident makes of the desk. -/
inductive System.Stirs (s : System) (i : Incident) : Desk → Prop where
  | spares (store : Store) : Stirs s i (s.desk.beside store)
  | begins (turn : Turn) (holdsBroker : Bool) : Stirs s i (s.desk.begin turn holdsBroker)
  | takes (id : Nat) (take : i = .occur (.move (.take id))) : Stirs s i (s.desk.take id)
  | looks (c : InFlight) (found : s.desk.call? c.id = some c) {d : Desk} (looks : s.Looks c d) :
    Stirs s i d

namespace Desk

/-- After a further turn the calls under way are those of before, or one that has its request to
make. -/
theorem mem_proceed {d : Desk} {c other : InFlight} {turn : Turn}
    (h : other ∈ (d.proceed c turn).calls) : other ∈ d.calls ∨ other.exchange = none := by
  cases turn with
  | done answer => exact .inl (List.mem_filter.1 h).1
  | ask call =>
    obtain ⟨old, hold, rfl⟩ := List.mem_map.1 h
    split
    · exact .inr rfl
    · exact .inl hold

/-- A call that waits is still the call of its number. -/
theorem call?_wait (d : Desk) (c : InFlight) : (d.wait c).call? c.id = some c := by
  simp only [wait, call?, List.find?_append, find?_filter_ne, if_true, Option.none_or]
  simp

/-- Taking an answer away leaves all other calls where they stand. -/
theorem standing_take_of_ne (d : Desk) {taken id : Nat} (h : id ≠ taken) :
    (d.take taken).standing id = d.standing id := by
  simp only [take, standing, call?, find?_filter_ne, if_neg h]

end Desk

namespace System

variable {s t : System} {c : InFlight} {i : Incident} {d : Desk} {id : Nat}

/-! ### Polls -/

/-- A reply that a call is told is one of the ways in which a poll leaves the desk. -/
theorem looks_conclude (hdesk : t.desk = s.desk) (reply : Except Error c.call.service.Reply) :
    s.Looks c (t.conclude c reply).desk := by
  rw [desk_conclude, hdesk]
  exact .goesOn s.store _ (.answered t reply)

/-- A call reacts to any outcome of its request; it stops only where the store does. -/
theorem Reacts.of_resumes {call : Call} {outcome : Outcome call.service.Reply} {turn : Turn}
    (h : call.Resumes outcome turn)
    (hcause : ∀ why, outcome = .aborted why →
      (s.store.serve s.instant call.request).outcome = .aborted why) :
    s.Reacts call turn := by
  cases h with
  | ok t reply => exact .answered t _
  | failed t error => exact .answered t _
  | aborted why => exact .aborted why (hcause why rfl)

/-- An outcome other than a stop at a limit is one of the ways in which a poll leaves the desk. -/
theorem looks_settle {store : Store} (hdesk : t.desk = s.desk.beside store) (started : Nat)
    {outcome : Outcome c.call.service.Reply} (hdecided : ∀ why, outcome ≠ .aborted why) :
    s.Looks c (t.settle c started outcome).desk := by
  obtain ⟨turn, hsettle, hresumes⟩ := desk_settle t c started outcome
  rw [hsettle, hdesk]
  exact .goesOn store turn (.of_resumes hresumes fun why h => absurd h (hdecided why))

/-- A request that the store carries out is one of the ways in which a poll leaves the desk. -/
theorem looks_act (script : Script) (started : Nat) :
    s.Looks c ({ s with script }.act c started).desk := by
  obtain ⟨turn, hdesk, hresumes⟩ := desk_act { s with script } c started
  rw [hdesk]
  exact .goesOn _ turn (.of_resumes hresumes fun _ h => h)

/-- Making a request is one of the ways in which a poll leaves the desk. -/
theorem looks_makeRequest (hfresh : c.exchange = none) : s.Looks c (s.makeRequest c).desk := by
  simp only [makeRequest]
  split
  · exact looks_conclude rfl _
  · generalize s.script.next c.call.service = taken
    obtain ⟨answer, script⟩ := taken
    cases answer with
    | forward delay =>
      cases delay with
      | zero => exact looks_act script s.now
      | succ delay => exact .waits s.store _ hfresh
    | hang => exact .waits s.store _ hfresh
    | fail error =>
      have hdesk : ({ s with script } : System).desk = s.desk.beside s.store := rfl
      exact looks_settle hdesk _ fun _ h => by cases h
    | reply planned =>
      let fulfilled := fulfil { s with script } c.call.service planned
      have hdesk : fulfilled.1.desk = s.desk.beside fulfilled.1.store :=
        (before_fulfil { s with script } c.call.service planned).desk
      exact looks_settle hdesk _ fun _ h => by cases h

/-- Looking for a reply is one of the ways in which a poll leaves the desk. -/
theorem looks_checkAnswer {e : Exchange} (hexchange : c.exchange = some e) :
    s.Looks c (s.checkAnswer c e).desk := by
  simp only [checkAnswer]
  split
  · refine looks_conclude ?_ _
    rfl
  · split
    · exact looks_act s.script e.started
    · split
      · refine looks_conclude ?_ _
        rfl
      · next hearly => exact .early hexchange (Nat.lt_of_not_le hearly)

/-- A poll looks after the call, whatever the script says. -/
theorem looks_pollCall (hfound : s.desk.call? c.id = some c) :
    s.Looks c (s.pollCall c.id).desk := by
  have hfind : s.calls.find? (fun other => decide (other.id = c.id)) = some c := hfound
  simp only [pollCall, hfind]
  cases hexchange : c.exchange with
  | none => exact looks_makeRequest hexchange
  | some e => exact looks_checkAnswer hexchange

/-- Every move stirs the desk in one of the ways that there are. -/
theorem stirs_move {m : Move} : s.Stirs (.occur (.move m)) (s.move m).desk := by
  have hspares (h : m.sparesCalls = true) : s.Stirs (.occur (.move m)) (s.move m).desk := by
    obtain ⟨store, hdesk⟩ := s.desk_move h
    rw [hdesk]
    exact .spares store
  cases m with
  | poll worker reportFirst =>
    cases worker with
    | dispatcher id => exact hspares rfl
    | call id =>
      cases hfind : s.desk.call? id with
      | none =>
        simp only [move, pollCall_of_gone hfind]
        exact .spares s.store
      | some c =>
        obtain rfl := Desk.id_of_call? hfind
        exact .looks c hfind (looks_pollCall hfind)
  | launch turn holdsBroker =>
    simp only [move, desk_launch]
    exact .begins turn holdsBroker
  | take id =>
    simp only [move, takeAnswer]
    cases s.finished.find? _ with
    | none => exact .spares s.store
    | some => exact .takes id rfl
  | close holdsBroker =>
    simp only [move, desk_launch, desk_beginClose]
    exact .begins _ holdsBroker
  | _ => exact hspares rfl

/-- Every incident stirs the desk in one of the ways that there are. -/
theorem stirs_incur (s : System) (i : Incident) : s.Stirs i (s.incur i).desk := by
  cases i with
  | occur o =>
    cases o with
    | move m => exact stirs_move
    | signal n signal => exact .spares (s.store.onFeed n (·.push signal))
    | _ => exact .spares s.store
  | plan line => exact .spares s.store
  | finish n => exact .spares (s.store.onFeed n (·.finish))

/-! ### The clock -/

/-- The end of a stub leaves the frame alone. -/
theorem frame_endStub (s : System) (name : String) : (s.endStub name).frame = s.frame := by
  unfold endStub
  split
  · rfl
  · exact frame_wakeAll _ _

/-- Preparing a planned reply leaves the frame alone. -/
theorem frame_fulfil (s : System) (service : Service) (planned : service.Planned) :
    (s.fulfil service planned).1.frame = s.frame := by
  cases service with
  | watch => exact frame_endStub s planned
  | _ => rfl

/-- Beginning to close leaves the frame alone. -/
theorem frame_beginClose (s : System) : s.beginClose.1.frame = s.frame := by
  have hstop (u : System) : u.stop.frame = u.frame := by
    unfold stop
    split
    · rfl
    · exact frame_wakeAll _ _
  unfold beginClose
  split
  · rfl
  · exact hstop _

/-- Cutting or restoring the connection leaves the frame alone. -/
theorem frame_setAvailable (s : System) (available : Bool) :
    (s.setAvailable available).frame = s.frame := by
  cases available with
  | true => rfl
  | false => exact frame_wakeAll _ _

/-- A poll of a call leaves the settings and the clock alone. -/
theorem clock_pollCall (s : System) (id : Nat) :
    (s.pollCall id).settings = s.settings ∧ (s.pollCall id).now = s.now := by
  have hclock {t u : System} (h : u.frame = t.frame)
      (hsame : t.settings = s.settings ∧ t.now = s.now) :
      u.settings = s.settings ∧ u.now = s.now :=
    ⟨(congrArg Frame.settings h).trans hsame.1, (congrArg Frame.now h).trans hsame.2⟩
  simp only [pollCall]
  split
  · exact ⟨rfl, rfl⟩
  · next c _ =>
    split
    · simp only [makeRequest]
      split
      · exact hclock (frame_conclude s c _) ⟨rfl, rfl⟩
      · generalize s.script.next c.call.service = taken
        obtain ⟨answer, script⟩ := taken
        cases answer with
        | forward delay =>
          cases delay with
          | zero => exact hclock (frame_act { s with script } c s.now) ⟨rfl, rfl⟩
          | succ delay => exact ⟨rfl, rfl⟩
        | hang => exact ⟨rfl, rfl⟩
        | fail error => exact hclock (frame_conclude _ c _) ⟨rfl, rfl⟩
        | reply planned =>
          have hfulfil := frame_fulfil { s with script } c.call.service planned
          exact hclock ((frame_conclude _ c _).trans hfulfil) ⟨rfl, rfl⟩
    · next e _ =>
      simp only [checkAnswer]
      split
      · exact hclock (frame_conclude _ c _) ⟨rfl, rfl⟩
      · split
        · exact hclock (frame_act s c e.started) ⟨rfl, rfl⟩
        · split
          · exact hclock (frame_conclude _ c _) ⟨rfl, rfl⟩
          · exact ⟨rfl, rfl⟩

/-- No move changes the settings, and the clock only goes forward. -/
theorem clock_move (s : System) (m : Move) :
    (s.move m).settings = s.settings ∧ s.now ≤ (s.move m).now := by
  have hclock {u : System} (h : u.frame = s.frame) : u.settings = s.settings ∧ s.now ≤ u.now :=
    ⟨congrArg Frame.settings h, Nat.le_of_eq (congrArg Frame.now h).symm⟩
  cases m with
  | poll worker reportFirst =>
    cases worker with
    | call id => exact (clock_pollCall s id).imp_right fun h => Nat.le_of_eq h.symm
    | dispatcher id => exact hclock (frame_pollDispatcher s id reportFirst)
  | pass moment => exact ⟨rfl, Nat.le_max_left _ _⟩
  | launch turn holdsBroker => exact hclock (frame_launch s turn holdsBroker)
  | take id => exact hclock (move_take s id).1
  | close holdsBroker => exact hclock ((frame_launch _ _ holdsBroker).trans (frame_beginClose s))
  | release => exact hclock (frame_release s)
  | note notices => exact hclock (frame_noteAll s notices)
  | ask request => exact hclock (frame_wakeAll _ _)
  | setAvailable available => exact hclock (frame_setAvailable s available)
  | openChannel capacity held => exact hclock (frame_openChannel s capacity held)
  | receive n => exact hclock (frame_receive s n)
  | dropReceiver n => exact hclock (frame_wakeAll _ _)
  | unsubscribe id => exact hclock (frame_unsubscribe s id)
  | readFeed n | leaveFeed n =>
    simp only [move]
    split <;> exact ⟨rfl, Nat.le_refl _⟩
  | _ => exact ⟨rfl, Nat.le_refl _⟩

/-- No incident changes the settings, and the clock only goes forward. -/
theorem clock_incur (s : System) (i : Incident) :
    (s.incur i).settings = s.settings ∧ s.now ≤ (s.incur i).now := by
  cases i with
  | occur o =>
    cases o with
    | move m => exact clock_move s m
    | _ => exact ⟨rfl, Nat.le_refl _⟩
  | _ => exact ⟨rfl, Nat.le_refl _⟩

/-- In a run the settings stay as they are, and the clock does not go back. -/
theorem clock_incurs (s : System) (run : List Incident) :
    (s.incurs run).settings = s.settings ∧ s.now ≤ (s.incurs run).now := by
  induction run generalizing s with
  | nil => exact ⟨rfl, Nat.le_refl _⟩
  | cons i run ih =>
    obtain ⟨hsettings, hnow⟩ := clock_incur s i
    obtain ⟨hlater, hlate⟩ := ih (s.incur i)
    exact ⟨hlater.trans hsettings, Nat.le_trans hnow hlate⟩

/-! ### Waits -/

/-- No wait goes beyond the time allowed from now on. -/
def InTime (s : System) : Prop :=
  ∀ c ∈ s.calls, ∀ e, c.exchange = some e → e.deadline ≤ s.now + s.settings.requestTimeout

/-- Waits that begin now end in time, and the others already did. -/
theorem Stirs.mem_calls (h : s.Stirs i d) {other : InFlight} (hother : other ∈ d.calls) :
    other ∈ s.calls ∨ ∀ e, other.exchange = some e →
      e.deadline ≤ s.now + s.settings.requestTimeout := by
  cases h with
  | spares store => exact .inl hother
  | begins turn holdsBroker =>
    cases turn with
    | done answer => exact .inl hother
    | ask call =>
      rcases List.mem_append.1 hother with hold | hnew
      · exact .inl hold
      · rw [List.mem_singleton.1 hnew]
        exact .inr nofun
  | takes id take => exact .inl hother
  | looks c found looks =>
    cases looks with
    | early exchange early => exact .inl hother
    | waits store due fresh =>
      rcases List.mem_append.1 hother with hold | hnew
      · exact .inl (List.mem_filter.1 hold).1
      · rw [List.mem_singleton.1 hnew]
        refine .inr fun e he => ?_
        obtain rfl := Option.some.inj he
        exact Nat.le_refl _
    | goesOn store turn reacts =>
      exact (Desk.mem_proceed hother).imp_right fun hnone e he => by simp [hnone] at he

/-- No incident makes a wait go beyond the time allowed. -/
theorem InTime.incur (h : s.InTime) (i : Incident) : (s.incur i).InTime := by
  obtain ⟨hsettings, hnow⟩ := clock_incur s i
  intro c hc e he
  rw [hsettings]
  have hbound : e.deadline ≤ s.now + s.settings.requestTimeout := by
    rcases (stirs_incur s i).mem_calls hc with hold | hnew
    · exact h c hold e he
    · exact hnew e he
  omega

/-- No incidents make a wait go beyond the time allowed. -/
theorem InTime.incurs (h : s.InTime) (run : List Incident) : (s.incurs run).InTime := by
  induction run generalizing s with
  | nil => exact h
  | cons i run ih => exact ih (h.incur i)

/-- In no run does a wait go beyond the time allowed. -/
theorem inTime_incurs (settings : Settings) (run : List Incident) :
    (incurs { settings } run).InTime := by
  have hnew : InTime { settings } := fun _ hc => absurd hc List.not_mem_nil
  exact hnew.incurs run

/-! ### Where a call stands -/

/-- No incident takes a number of a call back. -/
theorem Stirs.nextCall_le (h : s.Stirs i d) : s.nextCall ≤ d.nextCall := by
  cases h with
  | begins turn holdsBroker => cases turn <;> exact Nat.le_succ _
  | looks c found looks =>
    cases looks with
    | goesOn store turn reacts => cases turn <;> exact Nat.le_refl _
    | _ => exact Nat.le_refl _
  | _ => exact Nat.le_refl _

/-- A call stands where it stood, or it has reacted, or its answer was taken away. -/
theorem Stirs.standing (h : s.Stirs i d) (hbooked : s.desk.Booked) (hid : id < s.nextCall) :
    d.standing id = s.desk.standing id ∨
      (∃ call turn, s.desk.standing id = some (.ask call) ∧ s.Reacts call turn ∧
        d.standing id = some turn) ∨
      i = .occur (.move (.take id)) ∧ d.standing id = none := by
  cases h with
  | spares store => exact .inl rfl
  | begins turn holdsBroker =>
    have hne : id ≠ s.desk.nextCall := Nat.ne_of_lt hid
    rw [hbooked.standing_begin, if_neg hne]
    exact .inl rfl
  | takes taken take =>
    by_cases hsame : id = taken
    · subst hsame
      exact (s.desk.standing_take id id).imp_right fun hnone => .inr ⟨take, hnone⟩
    · exact .inl (s.desk.standing_take_of_ne hsame)
  | looks c found looks =>
    cases looks with
    | early exchange early => exact .inl rfl
    | waits store due fresh =>
      have hfound : (s.desk.beside store).call? c.id = some c := found
      exact .inl (Desk.standing_wait hfound _ id)
    | goesOn store turn reacts =>
      rw [(hbooked.beside store).standing_proceed found]
      split
      · next heq =>
        refine .inr (.inl ⟨c.call, turn, ?_, reacts, rfl⟩)
        rw [heq, Desk.standing, found]
      · exact .inl rfl

/-- A booked desk stays booked in an incident. -/
theorem Stirs.booked (h : s.Stirs i d) (hbooked : s.desk.Booked) : d.Booked := by
  cases h with
  | spares store => exact hbooked.beside store
  | begins turn holdsBroker => exact hbooked.begin turn holdsBroker
  | takes id take => exact hbooked.take id
  | looks c found looks =>
    cases looks with
    | early exchange early => exact hbooked
    | waits store due fresh => exact (hbooked.beside store).wait found _
    | goesOn store turn reacts => exact (hbooked.beside store).proceed found turn

/-- A booked desk stays booked through incidents in order. -/
theorem booked_incurs (hbooked : s.desk.Booked) (run : List Incident) :
    (s.incurs run).desk.Booked := by
  induction run generalizing s with
  | nil => exact hbooked
  | cons i run ih => exact ih ((stirs_incur s i).booked hbooked)

/-- What holds of the turn of a call, and goes on to hold with each reaction, holds of its turn
after incidents. -/
theorem standing_incurs {P : Turn → Prop} {run : List Incident} {turn : Turn}
    (hbooked : s.desk.Booked) (hid : id < s.nextCall)
    (hstart : ∀ turn, s.desk.standing id = some turn → P turn)
    (hreacts : ∀ (u : System) call turn, u.now ≤ (s.incurs run).now → P (.ask call) →
      u.Reacts call turn → P turn)
    (hturn : (s.incurs run).desk.standing id = some turn) : P turn := by
  induction run generalizing s with
  | nil => exact hstart turn hturn
  | cons i run ih =>
    have hstirs := stirs_incur s i
    have hlater : s.now ≤ (s.incurs (i :: run)).now := (clock_incurs s (i :: run)).2
    refine ih (hstirs.booked hbooked) (Nat.lt_of_lt_of_le hid hstirs.nextCall_le)
      (fun next hnext => ?_) hreacts hturn
    rcases hstirs.standing hbooked hid with
      hsame | ⟨call, reaction, hcall, hreaction, hafter⟩ | ⟨_, hnone⟩
    · exact hstart next (hsame ▸ hnext)
    · obtain rfl := Option.some.inj (hafter.symm.trans hnext)
      exact hreacts s call reaction hlater (hstart _ hcall) hreaction
    · cases hnone.symm.trans hnext

/-- A call is there until its answer is taken away. -/
theorem isSome_standing_incurs {run : List Incident} (hbooked : s.desk.Booked)
    (hid : id < s.nextCall) (hkept : .occur (.move (.take id)) ∉ run)
    (hthere : (s.desk.standing id).isSome) : ((s.incurs run).desk.standing id).isSome := by
  induction run generalizing s with
  | nil => exact hthere
  | cons i run ih =>
    have hstirs := stirs_incur s i
    refine ih (hstirs.booked hbooked) (Nat.lt_of_lt_of_le hid hstirs.nextCall_le)
      (fun h => hkept (List.mem_cons_of_mem _ h)) ?_
    rcases hstirs.standing hbooked hid with hsame | ⟨_, turn, _, _, hafter⟩ | ⟨htake, _⟩
    · exact hsame ▸ hthere
    · exact Option.isSome_of_eq_some hafter
    · exact absurd (htake ▸ List.mem_cons_self) hkept

/-! ### Answers in time -/

/-- A call is looked after, as much time passes as its request is allowed, and it is looked
after again. -/
def patiently (s : System) (id : Nat) : List Incident :=
  [.occur (.move (.poll (.call id) false)),
    .occur (.move (.pass (s.now + s.settings.requestTimeout))),
    .occur (.move (.poll (.call id) false))]

/-- A call with one request ends with the first reaction. -/
theorem Reacts.done {call : Call} {turn : Turn} (h : s.Reacts call turn)
    (hsingle : call.single = true ∨ call = .close) : ∃ answer, turn = .done answer := by
  cases h with
  | aborted why => exact ⟨_, rfl⟩
  | answered t reply =>
    cases call with
    | next | watch => cases reply <;> exact ⟨_, rfl⟩
    | listAll | drain | watchAll => simp [Call.single, Call.brief] at hsingle
    | _ => exact ⟨_, rfl⟩

/-- Once its wait is over, a call with one request has an answer. -/
theorem answered_of_overdue (hbooked : s.desk.Booked) (hfound : s.desk.call? c.id = some c)
    (hsingle : c.call.single = true ∨ c.call = .close) {e : Exchange}
    (hexchange : c.exchange = some e) (hover : e.deadline ≤ s.now) :
    ∃ answer, (s.pollCall c.id).desk.standing c.id = some (.done answer) := by
  have hlooks := looks_pollCall hfound
  generalize (s.pollCall c.id).desk = d at hlooks
  cases hlooks with
  | early exchange early =>
    obtain rfl := Option.some.inj (hexchange.symm.trans exchange)
    omega
  | waits store due fresh => cases hexchange.symm.trans fresh
  | goesOn store turn reacts =>
    obtain ⟨answer, rfl⟩ := reacts.done hsingle
    refine ⟨answer, ?_⟩
    rw [(hbooked.beside store).standing_proceed hfound, if_pos rfl]

/-- A poll answers a call with one request, or leaves it waiting no longer than allowed. -/
theorem answered_or_waits (hbooked : s.desk.Booked) (htime : s.InTime)
    (hfound : s.desk.call? c.id = some c) (hsingle : c.call.single = true ∨ c.call = .close) :
    (∃ answer, (s.pollCall c.id).desk.standing c.id = some (.done answer)) ∨
      ∃ e, (s.pollCall c.id).desk.call? c.id = some { c with exchange := some e } ∧
        e.deadline ≤ s.now + s.settings.requestTimeout := by
  have hlooks := looks_pollCall hfound
  generalize (s.pollCall c.id).desk = d at hlooks
  cases hlooks with
  | @early e exchange early =>
    refine .inr ⟨e, ?_, htime c (Desk.mem_of_call? hfound) e exchange⟩
    rw [hfound, ← exchange]
  | waits store due fresh => exact .inr ⟨_, Desk.call?_wait _ _, Nat.le_refl _⟩
  | goesOn store turn reacts =>
    obtain ⟨answer, rfl⟩ := reacts.done hsingle
    refine .inl ⟨answer, ?_⟩
    rw [(hbooked.beside store).standing_proceed hfound, if_pos rfl]

/-- A call with one request has its answer when the time allowed has passed. -/
theorem answered_patiently (hbooked : s.desk.Booked) (htime : s.InTime)
    (hthere : (s.desk.standing id).isSome)
    (hsingle : ∀ call, s.desk.standing id = some (.ask call) →
      call.single = true ∨ call = .close) :
    ∃ answer, (s.incurs (s.patiently id)).desk.standing id = some (.done answer) := by
  -- once the call has its answer, nothing here takes it away
  have hstays {u : System} {answer : Answer} (moment : Nat)
      (h : u.desk.standing id = some (.done answer)) :
      ((u.move (.pass moment)).pollCall id).desk.standing id = some (.done answer) := by
    have hpass : (u.move (.pass moment)).desk.standing id = some (.done answer) := h
    rw [pollCall_of_answered hpass, hpass]
  have hrun : s.incurs (s.patiently id) =
      ((s.pollCall id).move (.pass (s.now + s.settings.requestTimeout))).pollCall id := rfl
  rw [hrun]
  cases hfound : s.desk.call? id with
  | none =>
    obtain ⟨turn, hturn⟩ := Option.isSome_iff_exists.1 hthere
    obtain ⟨answer, rfl⟩ := (isNone_call?_iff hturn).1 (by rw [hfound]; rfl)
    rw [pollCall_of_gone hfound]
    exact ⟨answer, hstays _ hturn⟩
  | some c =>
    obtain rfl := Desk.id_of_call? hfound
    have hcall := hsingle c.call (standing_ask hfound)
    rcases answered_or_waits hbooked htime hfound hcall with
      ⟨answer, hanswer⟩ | ⟨e, hwaits, hdeadline⟩
    · exact ⟨answer, hstays _ hanswer⟩
    · let u : System := (s.pollCall c.id).move (.pass (s.now + s.settings.requestTimeout))
      have hover : e.deadline ≤ u.now := Nat.le_trans hdeadline (Nat.le_max_right _ _)
      have hbooked' : u.desk.Booked :=
        (stirs_incur s (.occur (.move (.poll (.call c.id) false)))).booked hbooked
      exact answered_of_overdue (s := u) (c := { c with exchange := some e }) hbooked' hwaits hcall
        rfl hover

end System

end KeyBroker
