import KeyBroker.Proofs.Store.Revisions
import KeyBroker.Proofs.Usable.Waiting

/-!
# What accepted settings are good for

Settings are accepted when none of their numbers is zero. On a broker with such settings
every call comes to an answer, and the only ones that stop at a limit of the machine are
listings whose pages are beyond all memory and subscriptions whose channel is beyond what
can be counted: these two numbers have no upper bound in the check.
-/

namespace KeyBroker

/-- Whether an answer is only that the call has stopped at a limit of the machine. -/
def Answer.aborts : Answer → Bool
  | .aborted _ => true
  | _ => false

/-- The deadline that a call sets is one that the clock can count up to from `now`. -/
def Call.Timely (now : Nat) : Call → Prop
  | .put _ _ _ (some ttl) => (deadlineAfter now ttl).isSome = true
  | _ => True

/-- A call that may still stop at no limit of the machine, or has not. -/
inductive Turn.Safe (now : Nat) : Turn → Prop where
  | ask {call : Call} (timely : call.Timely now) : Safe now (.ask call)
  | done {answer : Answer} (whole : answer.aborts = false) : Safe now (.done answer)

namespace Plea

/-- The deadline that is asked for is one that the clock can count up to from `now`. -/
def Timely (now : Nat) : Plea → Prop
  | .order (.put _ _ _ (some ttl)) => (deadlineAfter now ttl).isSome = true
  | _ => True

/-- Whether the machine has room for what is set up for a plea. -/
def fits (settings : Settings) : Plea → Bool
  | .order o => o.fits settings
  | .subscribe .. => settings.bufferSize ≤ Channel.capacityLimit
  | .close => true

/-- Whether a plea comes to one request. -/
def single : Plea → Bool
  | .order o => o.single
  | _ => true

/-- What is asked for can be begun. Whatever happens then, it does not stop at a limit of the
machine, if the clock can count up to its deadline. With one request to make, it has its
answer when the time allowed has passed, if nobody has taken that away. -/
def Usable (s : System) (p : Plea) : Prop :=
  ∃ t turn, p.begin s = some (t, turn) ∧
    ∀ (holdsBroker : Bool) (between : List Incident),
      let later := (t.launch turn holdsBroker).1.incurs between
      (p.Timely later.instant →
        ∀ answer after, later.takeAnswer t.nextCall = some (answer, after) →
          answer.aborts = false) ∧
      (p.single = true → .occur (.move (.take t.nextCall)) ∉ between →
        ∃ answer after, (later.incurs (later.patiently t.nextCall)).takeAnswer t.nextCall =
          some (answer, after))

end Plea

/-! ### The limits of the machine -/

/-- A deadline that the clock can count up to from a later instant is one that it can count up to
from now. -/
theorem deadlineAfter_of_le {now later : Nat} {ttl : Duration} (hle : now ≤ later)
    (h : (deadlineAfter later ttl).isSome = true) : (deadlineAfter now ttl).isSome = true := by
  unfold deadlineAfter at h ⊢
  split at h
  · next hlater => rw [if_pos (by omega)]; rfl
  · cases h

/-- The store only stops at the deadline of a put. -/
theorem Store.outcome_ne_aborted {s : Store} {now : Nat} {service : Service}
    {request : Request service} (hput : service ≠ .put) (why : Abort) :
    (s.serve now request).outcome ≠ .aborted why := by
  intro haborted
  cases hanswers : s.answers request with
  | false =>
    obtain ⟨error, heq⟩ := serve_of_not_answers now hanswers
    rw [heq] at haborted
    cases haborted
  | true =>
    by_cases hclosed : service = .close ∧ s.closed = true
    · obtain ⟨rfl, hclosed⟩ := hclosed
      cases request
      rw [serve_close_of_closed now hclosed] at haborted
      cases haborted
    rw [serve_of_answers now hanswers fun h => by simpa [h] using hclosed] at haborted
    cases request with
    | put => exact absurd rfl hput
    | range query =>
      simp only [perform, adopt, Ledger.range, Ledger.page] at haborted
      split at haborted
      · cases haborted
      · split at haborted
        · cases haborted
        · split at haborted <;> cases haborted
    | delete key under => cases under <;> cases haborted
    | _ => cases haborted

namespace System

variable {s t : System} {call : Call} {turn : Turn} {now : Nat}

/-! ### Reactions -/

/-- Reading on in a listing stops at no limit of the machine. -/
theorem safe_continueDrain (now : Nat) (listing : Listing) (taken : List KeyValue) :
    (Call.continueDrain listing taken).Safe now := by
  unfold Call.continueDrain
  split
  · exact .done rfl
  · simp only
    split
    · exact .ask trivial
    · exact .done rfl

/-- What is made of a reply is no stop. -/
theorem safe_answered (t : System) (call : Call) (reply : Except Error call.service.Reply)
    (now : Nat) : (t.answered call reply).2.Safe now := by
  cases call with
  | listAll listing =>
    cases reply with
    | ok page => exact safe_continueDrain now _ _
    | error e => exact .done rfl
  | drain listing taken =>
    cases reply with
    | ok page =>
      simp only [answered, Call.drainPage]
      split
      · exact .done rfl
      · exact safe_continueDrain now _ _
    | error e => exact .done rfl
  | watchAll scope channel held stem rest =>
    cases reply with
    | ok feed =>
      cases rest with
      | nil => exact .done rfl
      | cons next rest => exact .ask trivial
    | error e => exact .done rfl
  | next | watch => cases reply <;> exact .done rfl
  | _ => exact .done rfl

/-- A call that sets no deadline beyond the clock reacts without a stop. -/
theorem Reacts.safe (h : s.Reacts call turn) (htimely : call.Timely now) (hle : s.instant ≤ now) :
    turn.Safe now := by
  cases h with
  | answered t reply => exact safe_answered t call reply now
  | aborted why cause =>
    exfalso
    cases call with
    | put scope key value ttl =>
      obtain ⟨_, _, duration, rfl, hbeyond⟩ := Store.outcome_put_eq_aborted_iff.1 cause
      have hwithin := deadlineAfter_of_le hle htimely
      rw [hbeyond] at hwithin
      cases hwithin
    | _ => exact Store.outcome_ne_aborted (by nofun) why cause

/-- With room for what is set up, an order begins without a stop. -/
theorem safe_turn {o : Order} (hfits : o.fits s.settings = true)
    (htimely : (Plea.order o).Timely now) : (o.turn s).Safe now := by
  cases o with
  | put scope key value ttl =>
    simp only [Order.turn, Call.beginPut]
    split
    · exact .done rfl
    · cases ttl <;> exact .ask htimely
  | delete scope key =>
    simp only [Order.turn, Call.beginDelete]
    split
    · exact .done rfl
    · exact .ask trivial
  | list scope stem keysOnly | listAll scope stem keysOnly =>
    have hbuffer : pageBufferFits s.settings.pageSize = true := hfits
    simp only [Order.turn, Call.beginList, hbuffer, if_true]
    exact .ask trivial
  | next listing =>
    simp only [Order.turn, Call.beginNext]
    split
    · exact .ask trivial
    · exact .done rfl
  | collect listing => exact safe_continueDrain now listing []
  | commit batch =>
    simp only [Order.turn, Call.beginCommit]
    split
    · exact .done rfl
    · exact .ask trivial
  | watchAll scope channel stems =>
    cases stems with
    | nil => exact .done rfl
    | cons stem rest => exact .ask trivial
  | _ => exact .ask trivial

/-! ### Calls that are usable -/

section Launched

variable {holdsBroker : Bool} {between : List Incident} {stands : Turn}

/-- The desk after a launch is in order, and has the new call on it. -/
theorem launched (hbooked : t.desk.Booked) (turn : Turn) (holdsBroker : Bool) :
    (t.launch turn holdsBroker).1.desk.Booked ∧
      t.nextCall < (t.launch turn holdsBroker).1.nextCall ∧
      (t.launch turn holdsBroker).1.desk.standing t.nextCall = some turn := by
  refine ⟨?_, ?_, standing_launch hbooked turn holdsBroker⟩
  · rw [desk_launch]
    exact hbooked.begin turn holdsBroker
  · exact Nat.lt_of_lt_of_eq (Nat.lt_succ_self _) (nextCall_launch t turn holdsBroker).symm

/-- What holds of a turn as it is launched, and goes on to hold with each reaction, holds
whatever happens. -/
theorem standing_launched {P : Turn → Prop} (hbooked : t.desk.Booked) (hstart : P turn)
    (hreacts : ∀ (u : System) call reaction,
      u.now ≤ ((t.launch turn holdsBroker).1.incurs between).now → P (.ask call) →
        u.Reacts call reaction → P reaction)
    (hstands : ((t.launch turn holdsBroker).1.incurs between).desk.standing t.nextCall =
      some stands) : P stands := by
  obtain ⟨hbooked', hid, hbegun⟩ := launched hbooked turn holdsBroker
  refine standing_incurs hbooked' hid (fun first hfirst => ?_) hreacts hstands
  obtain rfl := Option.some.inj (hbegun.symm.trans hfirst)
  exact hstart

/-- A call that begins without a stop goes on without one while the clock can count up to its
deadline. -/
theorem safe_launched (hbooked : t.desk.Booked)
    (hsafe : turn.Safe ((t.launch turn holdsBroker).1.incurs between).instant)
    (hstands : ((t.launch turn holdsBroker).1.incurs between).desk.standing t.nextCall =
      some stands) :
    stands.Safe ((t.launch turn holdsBroker).1.incurs between).instant := by
  refine standing_launched hbooked hsafe (fun u call reaction hnow hcall hreacts => ?_) hstands
  cases hcall with
  | ask timely => exact hreacts.safe timely (Nat.mul_le_mul_right _ hnow)

/-- A call with one request goes on with that request until it is over. -/
theorem single_launched (hbooked : t.desk.Booked)
    (hsingle : ∀ call, turn = .ask call → call.single = true ∨ call = .close)
    (hstands : ((t.launch turn holdsBroker).1.incurs between).desk.standing t.nextCall =
      some stands) : ∀ call, stands = .ask call → call.single = true ∨ call = .close := by
  let P (turn : Turn) : Prop := ∀ call, turn = .ask call → call.single = true ∨ call = .close
  refine standing_launched (P := P) hbooked hsingle (fun u call reaction _ hcall hreacts => ?_)
    hstands
  obtain ⟨answer, rfl⟩ := hreacts.done (hcall call rfl)
  nofun

end Launched

/-- What begins without a stop, with a call that is safe as long as its deadline can be
counted, is usable. -/
theorem usable_of_begin {p : Plea} (hbegin : p.begin s = some (t, turn)) (hbooked : t.desk.Booked)
    (htime : t.InTime) (hsafe : ∀ now, p.Timely now → turn.Safe now)
    (hsingle : p.single = true → ∀ call, turn = .ask call → call.single = true ∨ call = .close) :
    p.Usable s := by
  refine ⟨t, turn, hbegin, fun holdsBroker between => ?_⟩
  obtain ⟨hbooked', hid, hbegun⟩ := launched hbooked turn holdsBroker
  have hlater := booked_incurs hbooked' between
  constructor
  · intro htimely answer after hanswer
    have hstands := (standing_of_takeAnswer hlater hanswer).1
    cases safe_launched hbooked (hsafe _ htimely) hstands with
    | done whole => exact whole
  · intro honce hkept
    have hthere := isSome_standing_incurs hbooked' hid hkept (Option.isSome_of_eq_some hbegun)
    have hpatient := (htime.incur (.occur (.move (.launch turn holdsBroker)))).incurs between
    obtain ⟨answer, hanswer⟩ := answered_patiently hlater hpatient hthere fun call hcall =>
      single_launched hbooked (hsingle honce) hcall call rfl
    exact ⟨answer, _, takeAnswer_of_standing hanswer⟩

/-- A plea that comes to an abort at once is not usable. -/
theorem not_usable_of_aborts {p : Plea} {why : Abort}
    (hbegin : p.begin s = some (s, .done (.aborted why))) (hbooked : s.desk.Booked)
    (htimely : ∀ now, p.Timely now) : ¬ p.Usable s := by
  rintro ⟨t, turn, hbegin', husable⟩
  obtain ⟨rfl, rfl⟩ := Prod.mk.inj (Option.some.inj (hbegin.symm.trans hbegin'))
  have hstands := standing_launch hbooked (.done (.aborted why)) false
  have haborts := (husable false []).1 (htimely _) _ _ (takeAnswer_of_standing hstands)
  cases haborts

/-- Accepted settings leave room for at least one item in a channel. -/
theorem bufferSize_pos {settings : Settings} {notices : List Notice}
    (haccepted : settings.validate = .ok notices) : 0 < settings.bufferSize := by
  refine Nat.pos_of_ne_zero fun hzero => ?_
  simp only [Settings.validate, hzero] at haccepted
  split at haccepted
  · cases haccepted
  · split at haccepted <;> cases haccepted

/-- A subscription is usable if its channel can be counted. -/
theorem usable_subscribe_iff (hbooked : s.desk.Booked) (htime : s.InTime)
    (hpos : 0 < s.settings.bufferSize) (scope stem : Key) :
    (Plea.subscribe scope stem).Usable s ↔
      (Plea.subscribe scope stem).fits s.settings = true := by
  let opened : System :=
    { s with channels := s.channels ++ [{ capacity := s.settings.bufferSize, held := false }] }
  cases hfits : (Plea.subscribe scope stem).fits s.settings with
  | true =>
    have hlimit : s.settings.bufferSize ≤ Channel.capacityLimit := of_decide_eq_true hfits
    have hallowed : Channel.capacityAllowed s.settings.bufferSize = true := by
      simp [Channel.capacityAllowed, hpos, hlimit]
    have hopens : s.openChannel s.settings.bufferSize false = some (opened, s.channels.length) :=
      if_pos hallowed
    have hbegin : (Plea.subscribe scope stem).begin s =
        some (opened, .ask (.watch scope stem s.channels.length)) := by
      simp only [Plea.begin, hopens, Option.map_some]
    have hbooked' : opened.desk.Booked := hbooked
    refine iff_of_true (usable_of_begin hbegin hbooked' htime ?_ ?_) rfl
    · exact fun now _ => .ask trivial
    · exact fun _ call hturn => .inl (Turn.ask.inj hturn ▸ rfl)
  | false =>
    have hlimit : ¬ s.settings.bufferSize ≤ Channel.capacityLimit := of_decide_eq_false hfits
    have hopens : s.openChannel s.settings.bufferSize false = none :=
      if_neg (by simp [Channel.capacityAllowed, hlimit])
    refine iff_of_false ?_ nofun
    rintro ⟨t, turn, hbegin, _⟩
    simp [Plea.begin, hopens] at hbegin

/-- Closing is always usable. -/
theorem usable_close (hbooked : s.desk.Booked) (htime : s.InTime) : Plea.close.Usable s := by
  have hdesk := desk_beginClose s
  have hframe := frame_beginClose s
  have htime' : s.beginClose.1.InTime := by
    rw [InTime, show s.beginClose.1.calls = s.calls from congrArg Desk.calls hdesk,
      show s.beginClose.1.now = s.now from congrArg Frame.now hframe,
      show s.beginClose.1.settings = s.settings from congrArg Frame.settings hframe]
    exact htime
  have hbegin : Plea.close.begin s = some (s.beginClose.1, s.beginClose.2) := rfl
  refine usable_of_begin hbegin (hdesk ▸ hbooked) htime' ?_ ?_
  · intro now _
    unfold beginClose
    split
    · exact .done rfl
    · exact .ask trivial
  · intro _ call hturn
    unfold beginClose at hturn
    split at hturn <;> cases hturn
    exact .inr rfl

/-- So are orders, if the machine has room for what they set up. -/
theorem usable_order_iff (hbooked : s.desk.Booked) (htime : s.InTime) (o : Order) :
    (Plea.order o).Usable s ↔ o.fits s.settings = true := by
  cases hfits : o.fits s.settings with
  | true =>
    refine iff_of_true (usable_of_begin rfl hbooked htime (fun now => safe_turn hfits) ?_) rfl
    exact fun honce call hturn => .inl (o.asks_of_turn honce hturn).single
  | false =>
    have hbegin : (Plea.order o).begin s = some (s, .done (.aborted .pageBuffer)) := by
      simp only [Plea.begin, Order.turn_of_not_fits hfits]
    refine iff_of_false (not_usable_of_aborts hbegin hbooked ?_) nofun
    cases o <;> first | exact fun _ => trivial | cases hfits

/-- Whatever has happened, what is asked of a broker with accepted settings is usable just if
the machine has room for what is set up for it. -/
theorem accepted_usable_iff (settings : Settings) {notices : List Notice}
    (haccepted : settings.validate = .ok notices) (run : List Incident) (p : Plea) :
    p.Usable (incurs { settings } run) ↔ p.fits settings = true := by
  have hsettings : (incurs { settings } run).settings = settings := (clock_incurs _ run).1
  have hbooked := booked_incurs (booked_new settings) run
  have htime := inTime_incurs settings run
  have hpos := bufferSize_pos haccepted
  cases p with
  | order o =>
    have husable := usable_order_iff hbooked htime o
    rwa [hsettings] at husable
  | subscribe scope stem =>
    have husable := usable_subscribe_iff hbooked htime (hsettings.symm ▸ hpos) scope stem
    rwa [hsettings] at husable
  | close => exact iff_of_true (usable_close hbooked htime) rfl

/-- With the default settings a put can be counted on, also on a broker that is closed. -/
theorem accepted_usable_iff_closed :
    (Settings.validate {} = .ok []) ∧
      (Plea.order (.put [] ['k'] [1] (some (.ofSecs 5)))).Usable
        (incurs { settings := {} } [.occur (.move (.close false))]) :=
  ⟨rfl, (accepted_usable_iff {} rfl [.occur (.move (.close false))] _).2 rfl⟩

/-- Settings with pages beyond all memory are accepted, and so are settings with channels beyond
what can be counted. With the first a listing stops at once without an answer, and with the
second no channel can be made for a subscription. -/
theorem accepted_settings_unusable :
    let pages : Settings := { pageSize := 1152921504606846976 }
    let channels : Settings := { bufferSize := 2305843009213693952 }
    pages.validate = .ok [] ∧ channels.validate = .ok [.largeBuffer 2305843009213693952] ∧
      (Order.listAll [] [] false).turn { settings := pages } = .done (.aborted .pageBuffer) ∧
      ¬ (Plea.order (.listAll [] [] false)).Usable { settings := pages } ∧
      (Plea.subscribe [] []).begin { settings := channels } = none ∧
      ¬ (Plea.subscribe [] []).Usable { settings := channels } := by
  intro pages channels
  have hlisting := usable_order_iff (booked_new pages) (inTime_incurs pages [])
    (.listAll [] [] false)
  have hsubscription := usable_subscribe_iff (booked_new channels) (inTime_incurs channels [])
    (by decide +kernel) [] []
  have hcapacity : Channel.capacityAllowed channels.bufferSize = false := by decide +kernel
  refine ⟨rfl, rfl, Order.turn_of_not_fits (by decide +kernel), ?_, ?_, ?_⟩
  · exact fun husable => absurd (hlisting.1 husable) (by decide +kernel)
  · simp only [Plea.begin, openChannel, hcapacity]
    rfl
  · exact fun husable => absurd (hsubscription.1 husable) (by decide +kernel)

end System

end KeyBroker
