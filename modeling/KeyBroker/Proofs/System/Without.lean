import KeyBroker.Proofs.System.Fates

/-!
# A run without one call

The run in which a call is not made has all the moves of the other run but the polls of
this call. Something may be put in the place of each request of it that the store carries
out, and whoever would have made the call keeps hold of the broker for as long as the call
did. If what is put there does to the store what the request does, the two runs come to
the same but for the call.
-/

namespace KeyBroker

namespace System

variable {id : Nat} {s t : System} {c : InFlight} {st : Fated} {run : List Fated}

/-! ### Runs without a call -/

/-- What remains of a poll of call `id` once the call is not made: `left` if the store
carries its request out in this poll, and if the call ends, its hold on the broker does. -/
def remains (s : System) (id : Nat) (left : List Move) (st : Fated) : List Move :=
  match s.desk.call? id with
  | none => []
  | some c =>
    (if (s.under st).actsOn c then left else []) ++
      if c.holdsBroker && ((s.fate st).desk.call? id).isNone then [.release] else []

/-- A run with `left` in place of each request of call `id` that the store carries out. -/
def without (s : System) (id : Nat) (left : List Move) : List Fated → List Fated
  | [] => []
  | st :: run =>
    (if st.polls id then (s.remains id left st).map .plain else [st]) ++
      (s.fate st).without id left run

/-- The system in which whoever would make a call only takes its number, and hold of the
broker if the call does. -/
def spare (s : System) (turn : Turn) (holdsBroker : Bool) : System :=
  { s with
    nextCall := s.nextCall + 1
    holders := (s.launch turn holdsBroker).1.holders }

/-- The answer that a call has, if it has ended and nobody took the answer away. -/
def answer? (s : System) (id : Nat) : Option Answer :=
  (s.finished.find? fun e => decide (e.1 = id)).map (·.2)

/-- The answer that a call gets in the course of a run. -/
def answerOf (s : System) (id : Nat) : List Fated → Option Answer
  | [] => s.answer? id
  | st :: run => (s.answer? id).or ((s.fate st).answerOf id run)

/-- Two runs come to the same but for call `id`. -/
structure Matches (id : Nat) (s : System) (run : List Fated) (t : System) (other : List Fated) :
    Prop where
  alike : Alike id (s.fates run) (t.fates other)
  happenings : s.fatedHappenings run = t.fatedHappenings other

/-- Two runs that come to the same in each of two parts come to the same. -/
theorem Matches.append {more late : List Fated} {other : List Fated}
    (h : Matches id s run t other) (h' : Matches id (s.fates run) more (t.fates other) late) :
    Matches id s (run ++ more) t (other ++ late) where
  alike := by
    rw [fates_append, fates_append]
    exact h'.alike
  happenings := by
    rw [fatedHappenings_append, fatedHappenings_append, h.happenings, h'.happenings]

/-- A move that does not poll the call is made in both runs. -/
theorem Matches.other (h : Alike id s t) (hother : st.polls id = false) :
    Matches id s [st] t [st] := by
  obtain ⟨halike, hhappens⟩ := h.fate hother
  exact ⟨halike, congrArg (· ++ []) hhappens⟩

/-! ### The call while others move -/

/-- A call that waits leaves all others as they are. -/
theorem call?_wait_of_ne (d : Desk) {n : Nat} (hn : n ≠ c.id) :
    (d.wait c).call? n = d.call? n := by
  simp only [Desk.wait, Desk.call?, List.find?_append, Desk.find?_filter_ne, if_neg hn,
    List.find?_cons, List.find?_nil, decide_eq_false (Ne.symm hn), Option.or_none]

/-- A further turn of a call leaves all others as they are. -/
theorem call?_proceed_of_ne {d : Desk} (hc : d.call? c.id = some c) (turn : Turn) {n : Nat}
    (hn : n ≠ c.id) : (d.proceed c turn).call? n = d.call? n := by
  cases turn with
  | ask call => rw [Desk.call?_proceed hc, if_neg hn]
  | done answer =>
    have hfind := Desk.find?_filter_ne InFlight.id d.calls c.id n
    rw [if_neg hn] at hfind
    exact hfind

/-- A new call leaves all others as they are. -/
theorem call?_begin_of_ne (d : Desk) (turn : Turn) (holdsBroker : Bool) {n : Nat}
    (hn : n ≠ d.nextCall) : (d.begin turn holdsBroker).call? n = d.call? n := by
  cases turn with
  | done answer => rfl
  | ask call =>
    simp only [Desk.begin, Desk.call?, List.find?_append, List.find?_cons, List.find?_nil,
      decide_eq_false (Ne.symm hn), Option.or_none]

/-- A poll of a call leaves all others as they are. -/
theorem call?_pollCall_of_ne (hgenuine : s.wiring.Genuine) {n : Nat} (hn : id ≠ n) :
    (s.pollCall n).desk.call? id = s.desk.call? id := by
  cases hfind : s.calls.find? fun c => decide (c.id = n) with
  | none => simp only [pollCall, hfind]
  | some c =>
    have hid : c.id = n := Desk.id_of_call? (d := s.desk) hfind
    have hfound : s.desk.call? c.id = some c := by
      rw [hid]
      exact hfind
    have hne : id ≠ c.id := by
      rw [hid]
      exact hn
    generalize hafter : s.pollCall n = after
    have hpolled : s.Polled c after := by
      rw [← hafter]
      exact polled_pollCall hgenuine hfind
    cases hpolled with
    | idle quiet => rfl
    | waits script fewer due quiet =>
      exact call?_wait_of_ne (c := { c with exchange := some _ }) s.desk hne
    | fails script fewer journal error quiet =>
      rw [desk_conclude]
      exact call?_proceed_of_ne hfound _ hne
    | acts script fewer started acts =>
      obtain ⟨turn, hdesk, _⟩ := desk_act { s with script } c started
      rw [hdesk]
      let store := (s.store.serve s.instant c.call.request).store
      have hfound' : (s.desk.beside store).call? c.id = some c := hfound
      exact call?_proceed_of_ne hfound' turn hne

/-- A move that does not poll the call leaves it where it is. -/
theorem call?_move_of_ne (hgenuine : s.wiring.Genuine) (hid : id < s.nextCall) {m : Move}
    (hm : ∀ reportFirst, m ≠ .poll (.call id) reportFirst) :
    (s.move m).desk.call? id = s.desk.call? id := by
  have hsame {u : System} {store : Store} (h : u.desk = s.desk.beside store) :
      u.desk.call? id = s.desk.call? id := by
    rw [h]
    rfl
  -- a new call has a number of its own
  have hne : id ≠ s.desk.nextCall := Nat.ne_of_lt hid
  cases m with
  | poll worker reportFirst =>
    cases worker with
    | call n => exact call?_pollCall_of_ne hgenuine fun h => hm reportFirst (by rw [h])
    | dispatcher n =>
      obtain ⟨store, hdesk⟩ := desk_pollDispatcher s n reportFirst
      exact hsame hdesk
  | launch turn holdsBroker =>
    simp only [move, desk_launch]
    exact call?_begin_of_ne s.desk turn holdsBroker hne
  | take n =>
    simp only [move, takeAnswer]
    cases s.finished.find? _ <;> rfl
  | close holdsBroker =>
    have hdesk : s.beginClose.1.desk = s.desk := by
      unfold beginClose
      split
      · rfl
      · exact desk_stop _
    simp only [move, desk_launch, hdesk]
    exact call?_begin_of_ne s.desk _ holdsBroker hne
  | release => exact hsame (desk_release s)
  | note notices => exact hsame (desk_noteAll s notices)
  | ask request => exact hsame (desk_wakeReaders _ _)
  | setAvailable available => exact hsame (desk_setAvailable s available)
  | openChannel capacity held =>
    simp only [move, openChannel]
    split <;> rfl
  | receive n =>
    simp only [move, receive]
    split
    · rw [desk_wakeAll]
      rfl
    · rfl
  | dropReceiver n =>
    simp only [move, dropReceiver, desk_wakeAll]
    rfl
  | unsubscribe n => exact hsame (desk_unsubscribe s n)
  | readFeed n =>
    simp only [move]
    split <;> rfl
  | leaveFeed n =>
    simp only [move]
    split <;> rfl
  | _ => rfl

/-- A move that does not poll a call leaves it as it is. -/
theorem call?_fate_of_ne (hid : id < s.nextCall) (hother : st.polls id = false) :
    (s.fate st).desk.call? id = s.desk.call? id := by
  refine call?_move_of_ne (genuine_under s st) hid fun reportFirst hmove => ?_
  simp [Fated.polls, hmove] at hother

/-- No move takes a number of a call back. -/
theorem nextCall_fate (s : System) (st : Fated) : s.nextCall ≤ (s.fate st).nextCall :=
  (deals_move (genuine_under s st) st.move).nextCall_le

/-! ### The call itself -/

/-- A call that was launched is no longer under way exactly if it has its answer. -/
theorem isNone_call?_iff {turn : Turn} (h : s.desk.standing id = some turn) :
    (s.desk.call? id).isNone = true ↔ ∃ answer, turn = .done answer := by
  unfold Desk.standing at h
  cases hcall : s.desk.call? id with
  | some c =>
    rw [hcall] at h
    obtain rfl := Option.some.inj h
    simp
  | none =>
    rw [hcall] at h
    obtain ⟨e, _, rfl⟩ := Option.map_eq_some_iff.1 h
    simp

/-- A call that stands at its answer has it. -/
theorem answer?_of_standing {answer : Answer} (h : s.desk.standing id = some (.done answer)) :
    s.answer? id = some answer := by
  have hnone := (isNone_call?_iff h).2 ⟨answer, rfl⟩
  unfold Desk.standing at h
  rw [Option.isNone_iff_eq_none.1 hnone] at h
  obtain ⟨e, he, hanswer⟩ := Option.map_eq_some_iff.1 h
  obtain rfl := Turn.done.inj hanswer
  have hfind : s.finished.find? (fun e => decide (e.1 = id)) = some e := he
  rw [answer?, hfind]
  rfl

/-- A call under way has no answer. -/
theorem answer?_of_call? (hs : s.InOrder) (hfound : s.desk.call? id = some c) :
    s.answer? id = none := by
  have hnone := hs.booked.unanswered (Desk.mem_of_call? hfound)
  rw [Desk.id_of_call? hfound] at hnone
  have hfind : s.finished.find? (fun e => decide (e.1 = id)) = none := hnone
  rw [answer?, hfind]
  rfl

/-- A call under way has its request to make. -/
theorem standing_of_call? (hfound : s.desk.call? id = some c) :
    s.desk.standing id = some (.ask c.call) := by
  rw [Desk.standing, hfound]

/-- A poll of a call that is not under way does nothing. -/
theorem fate_of_gone (hs : s.InOrder) (hpolls : st.polls id = true)
    (hnone : s.desk.call? id = none) : s.fate st = s := by
  have hgone : (s.under st).desk.call? id = none := hnone
  have hsame : { s with script := [] } = s := by rw [← hs.script]
  rw [fate_of_polls s hpolls, pollCall_of_gone hgone]
  exact hsame

/-- A poll of a call that has ended may be left out. -/
theorem Matches.gone (h : Alike id s t) (hs : s.InOrder) (hpolls : st.polls id = true)
    (hnone : s.desk.call? id = none) (left : List Move) :
    Matches id s [st] t ((s.remains id left st).map .plain) := by
  have hremains : s.remains id left st = [] := by rw [remains, hnone]
  rw [hremains]
  constructor
  · rw [fates_cons, fate_of_gone hs hpolls hnone]
    exact h
  · simp only [fatedHappenings, happens_of_polls s hpolls, hnone, Option.elim_none,
      List.append_nil, List.map_nil]

/-- What `left` leaves in the place of a request that the store carries out. -/
structure Replaces (id : Nat) (s : System) (call : Call) (t : System) (left : List Move) :
    Prop where
  alike : Alike id (s.carriedOut call) (t.fates (left.map .plain))
  happenings : s.comesOf call = t.fatedHappenings (left.map .plain)

/-- What stands for the end of a call: a release, if the call held the broker. -/
theorem alike_ended {ended : Bool} {turn : Turn}
    (hended : ended = true ↔ ∃ answer, turn = .done answer) (hscript : s.script = [])
    (c : InFlight) :
    Alike id { s.leftBy c turn with script := [] }
        (s.fates ((if c.holdsBroker && ended then [Move.release] else []).map .plain)) ∧
      s.fatedHappenings
        ((if c.holdsBroker && ended then [Move.release] else []).map .plain) = [] := by
  have hplain : Alike id { s with script := [] } s :=
    { Alike.refl id s with script := hscript.symm }
  cases turn with
  | ask call =>
    have hnot : ended = false := by
      cases ended with
      | false => rfl
      | true =>
        obtain ⟨answer, hturn⟩ := hended.1 rfl
        cases hturn
    rw [hnot, Bool.and_false]
    exact ⟨hplain, rfl⟩
  | done answer =>
    rw [hended.2 ⟨answer, rfl⟩, Bool.and_true]
    simp only [leftBy]
    cases c.holdsBroker with
    | false => exact ⟨hplain, rfl⟩
    | true =>
      refine ⟨?_, rfl⟩
      have hunder : s.under (.plain .release) = s := by
        have hsame : { s with script := [] } = s := by rw [← hscript]
        exact hsame
      simp only [if_true, List.map_cons, List.map_nil, fates, List.foldl_cons, List.foldl_nil, fate]
      rw [hunder]
      exact Alike.refl id _

/-- A poll of a call that opens no watch takes it to its next turn, and leaves what stands
for its request and a release where the call ends. -/
theorem Matches.poll (h : Alike id s t) (hs : s.InOrder) (hpolls : st.polls id = true)
    (hfound : s.desk.call? id = some c) (hwatch : c.call.service ≠ .watch) :
    ∃ turn, (s.under st).Advances c (s.fate st) turn ∧
      ∀ left, ((s.under st).actsOn c = true → Replaces id s c.call t left) →
        Matches id s [st] t ((s.remains id left st).map .plain) := by
  have hid : c.id = id := Desk.id_of_call? hfound
  subst hid
  have hpolled : (s.under st).Polled c ((s.under st).pollCall c.id) :=
    polled_pollCall (genuine_under s st) hfound
  obtain ⟨turn, hadvances⟩ := hpolled.advances hs.booked hfound hwatch
  have hfate := fate_of_polls s hpolls
  have hadvances' : (s.under st).Advances c (s.fate st) turn := by
    rw [hfate]
    exact ⟨hadvances.stands, hadvances.resumes, hadvances.quiet, hadvances.alike⟩
  refine ⟨turn, hadvances', fun left hreplaces => ?_⟩
  -- what stands for the request, and the system once it was carried out, if that happens in this
  -- poll
  let acted : List Move := if (s.under st).actsOn c then left else []
  let carried : System := if (s.under st).actsOn c then s.carriedOut c.call else s
  have hacted : Alike c.id carried (t.fates (acted.map .plain)) := by
    simp only [acted, carried]
    split
    · next hacts => exact (hreplaces hacts).alike
    · exact h
  have hhappens : (if (s.under st).actsOn c then s.comesOf c.call else []) =
      t.fatedHappenings (acted.map .plain) := by
    simp only [acted]
    split
    · next hacts => exact (hreplaces hacts).happenings
    · rfl
  have hcarried : Alike c.id (s.fate st) { carried.leftBy c turn with script := [] } := by
    refine Alike.trans hadvances'.alike ?_
    have hscript := @alike_leftBy_script c.id carried c turn st.script
    refine Alike.trans ?_ hscript
    simp only [carried]
    split <;> exact Alike.refl c.id _
  have hscript : (t.fates (acted.map .plain)).script = [] := by
    rw [← hacted.script]
    simp only [carried]
    split <;> exact hs.script
  have hiff := isNone_call?_iff hadvances'.stands
  obtain ⟨hended, hquiet⟩ := @alike_ended c.id _ _ turn hiff hscript c
  -- both runs then let go of the broker if the call has ended
  have hleft : Alike c.id { carried.leftBy c turn with script := [] }
      { (t.fates (acted.map .plain)).leftBy c turn with script := [] } :=
    { hacted.leftBy c turn with script := rfl }
  have hremains : (s.remains c.id left st).map Fated.plain = acted.map .plain ++
      (if c.holdsBroker && ((s.fate st).desk.call? c.id).isNone then [Move.release]
        else []).map .plain := by
    simp only [remains, hfound, List.map_append, acted]
  rw [hremains]
  constructor
  · rw [fates_append]
    exact (hcarried.trans hleft).trans hended
  · rw [fatedHappenings_append, hquiet, List.append_nil, ← hhappens]
    simp only [fatedHappenings, happens_of_polls s hpolls, hfound, Option.elim_some,
      List.append_nil]

/-- Steps that match are followed by runs that match. -/
theorem Matches.cons {left : List Move}
    (first : Matches id s [st] t
      (if st.polls id then (s.remains id left st).map .plain else [st]))
    (rest : Matches id (s.fate st) run
      (t.fates (if st.polls id then (s.remains id left st).map .plain else [st]))
      ((s.fate st).without id left run)) :
    Matches id s (st :: run) t (s.without id left (st :: run)) :=
  first.append rest

/-- If `left` stands for the request of every call that may be under way, then it does so
throughout the run. -/
theorem matches_without {P : Call → Prop} {left : List Move}
    (hwatch : ∀ call, P call → call.service ≠ .watch)
    (hturn : ∀ u call reply next, P call → (System.answered u call reply).2 = .ask next → P next)
    (hleft : ∀ u v call, P call → u.script = [] → Alike id u v → Replaces id u call v left)
    (h : Alike id s t) (hs : s.InOrder) (hid : id < s.nextCall)
    (hcall : ∀ c, s.desk.call? id = some c → P c.call) (run : List Fated) :
    Matches id s run t (s.without id left run) := by
  -- the invariant is that the two runs come to the same so far, and that the call under way, if
  -- there is one, is of the kind that `left` stands for
  induction run generalizing s t with
  | nil => exact ⟨h, rfl⟩
  | cons st run ih =>
    have hid' : id < (s.fate st).nextCall := Nat.lt_of_lt_of_le hid (nextCall_fate s st)
    cases hpolls : st.polls id with
    | false =>
      have first := Matches.other h hpolls
      refine Matches.cons (by rwa [hpolls]) ?_
      rw [hpolls]
      refine ih first.alike (hs.fate st) hid' fun c hc => hcall c ?_
      rwa [call?_fate_of_ne hid hpolls] at hc
    | true =>
      cases hfound : s.desk.call? id with
      | none =>
        have first := Matches.gone h hs hpolls hfound left
        refine Matches.cons (by rwa [hpolls]) ?_
        rw [hpolls]
        refine ih first.alike (hs.fate st) hid' fun c hc => ?_
        rw [fate_of_gone hs hpolls hfound] at hc
        exact hcall c hc
      | some c =>
        have hP := hcall c hfound
        obtain ⟨turn, hadvances, hmatches⟩ := Matches.poll h hs hpolls hfound (hwatch _ hP)
        have first := hmatches left fun _ => hleft s t c.call hP hs.script h
        refine Matches.cons (by rwa [hpolls]) ?_
        rw [hpolls]
        refine ih first.alike (hs.fate st) hid' fun c' hc' => ?_
        have hstands := hadvances.stands
        rw [Desk.id_of_call? hfound, standing_of_call? hc'] at hstands
        obtain rfl := Option.some.inj hstands
        -- a further request is of that kind again
        rcases hadvances.ask with hsame | ⟨u, reply, hnext⟩
        · rwa [hsame]
        · exact hturn u c.call reply c'.call hP hnext

/-- Once a call has ended, runs go on alike. -/
theorem matches_ended (h : Alike id s t) (hs : s.InOrder) (hid : id < s.nextCall)
    (hnone : s.desk.call? id = none) (left : List Move) (run : List Fated) :
    Matches id s run t (s.without id left run) := by
  refine matches_without (P := fun _ => False) (fun _ => False.elim)
    (fun _ _ _ _ => False.elim) (fun _ _ _ => False.elim) h hs hid (fun c hc => ?_) run
  rw [hnone] at hc
  cases hc

end System

end KeyBroker
