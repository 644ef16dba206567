import KeyBroker.Proofs.System.Shelter

/-!
# Calls that are made at once

A caller launches a call, polls it and takes its answer away. Where the broker runs and
nothing stands between it and its store, this is all that a call with one request takes: it
leaves behind what the store made of the request, and nothing else.
-/

namespace KeyBroker

/-- A call that makes one request and opens no watch. -/
def Call.brief : Call → Bool
  | .put .. | .get .. | .delete .. | .deletePrefix .. | .list .. | .next .. | .commit .. => true
  | _ => false

/-- A call that makes one request and opens no watch asks neither for a watch nor for closing. -/
theorem Call.service_of_brief {call : Call} (hbrief : call.brief = true) :
    call.service ≠ .watch ∧ call.service ≠ .close := by
  cases call <;> simp_all [brief]

/-- A call with one request is over with the first reply. -/
theorem Call.done_of_brief {call : Call} (hbrief : call.brief = true) (u : System)
    (reply : Except Error call.service.Reply) :
    ∃ answer, (System.answered u call reply).2 = .done answer := by
  cases call with
  | put | get | delete | deletePrefix | list | commit => exact ⟨_, rfl⟩
  | next listing => cases reply <;> exact ⟨_, rfl⟩
  | _ => cases hbrief

/-- A call that makes one request has its answer once the store has given an outcome. -/
theorem Call.Resumes.done {call : Call} (hbrief : call.brief = true)
    {outcome : Outcome call.service.Reply} {turn : Turn} (h : call.Resumes outcome turn) :
    ∃ answer, turn = .done answer := by
  cases h with
  | ok t reply => exact Call.done_of_brief hbrief t _
  | failed t error => exact Call.done_of_brief hbrief t _
  | aborted why => exact ⟨_, rfl⟩

/-- A turn that is over, or a call with one request. -/
def Turn.Brief : Turn → Prop
  | .ask call => call.brief = true
  | .done _ => True

namespace System

variable {s : System} {scope : Key} {turn : Turn}

/-- The moves of a caller who makes a call. -/
def making (s : System) (turn : Turn) : List Move :=
  [.launch turn false, .poll (.call s.nextCall) false, .take s.nextCall]

/-- The answer that the caller takes away. -/
def made? (s : System) (turn : Turn) : Option Answer :=
  (s.moves [.launch turn false, .poll (.call s.nextCall) false]).answer? s.nextCall

/-- What comes of a call that is made at once. -/
structure Makes (s : System) (turn : Turn) (answer : Answer) (store : Store)
    (hs : List Happening) : Prop where
  answer : s.made? turn = some answer
  frame : (s.moves (s.making turn)).frame = s.frame
  wiring : (s.moves (s.making turn)).wiring = { s.wiring with store }
  calls : (s.moves (s.making turn)).calls = s.calls
  happenings : s.happenings (s.making turn) = hs

/-- A turn that is over makes nothing but its answer. -/
theorem Prompt.makes_done (h : s.Prompt) (answer : Answer) :
    s.Makes (.done answer) answer s.store [] := by
  let begun : System := (s.launch (.done answer) false).1
  have hstanding : begun.desk.standing s.nextCall = some (.done answer) :=
    standing_launch h.booked (.done answer) false
  have hpoll : begun.pollCall s.nextCall = begun := pollCall_of_answered hstanding
  have hmoves : s.moves (s.making (.done answer)) = begun.move (.take s.nextCall) :=
    congrArg (System.move · (.take s.nextCall)) hpoll
  have hnone : begun.desk.call? s.nextCall = none :=
    Option.isNone_iff_eq_none.1 ((isNone_call?_iff hstanding).2 ⟨answer, rfl⟩)
  obtain ⟨hframe, hwiring, hcalls⟩ := move_take begun s.nextCall
  constructor
  · have hmade : s.moves [.launch (.done answer) false, .poll (.call s.nextCall) false] = begun :=
      hpoll
    rw [made?, hmade]
    exact answer?_of_standing hstanding
  · rw [hmoves, hframe]
    exact frame_launch s (.done answer) false
  · rw [hmoves, hwiring]
    exact wiring_launch s (.done answer) false
  · rw [hmoves, hcalls]
    exact congrArg Desk.calls (desk_launch s (.done answer) false)
  · have hquiet : begun.happens (.poll (.call s.nextCall) false) = [] := happens_of_gone hnone false
    simp only [making, happenings, List.append_nil]
    exact congrArg ([] ++ ·) (congrArg (· ++ []) hquiet)

/-- A call without a hold on the broker takes none away. -/
theorem leftBy_of_not_holds (s : System) {c : InFlight} (h : c.holdsBroker = false) (turn : Turn) :
    s.leftBy c turn = s := by
  cases turn with
  | ask call => rfl
  | done answer => simp only [leftBy, h, Bool.false_eq_true, if_false]

/-- Nothing but what the store has carried out is left of a new call for everybody else. -/
theorem alike_act_new {t : System} {c : InFlight} (hgenuine : t.wiring.Genuine)
    (hbooked : t.desk.Booked) (hfound : t.desk.call? c.id = some c)
    (hpoll : t.pollCall c.id = t.act c t.now) (hacts : t.actsOn c = true)
    (hholds : c.holdsBroker = false) (hwatch : c.call.service ≠ .watch) :
    Alike c.id (t.act c t.now) (t.carriedOut c.call) := by
  have hpolled := polled_pollCall hgenuine hfound
  rw [hpoll] at hpolled
  obtain ⟨turn, hadvances⟩ := hpolled.advances hbooked hfound hwatch
  have halike := hadvances.alike
  rw [hacts, if_pos rfl, leftBy_of_not_holds _ hholds] at halike
  have hafter : (t.act c t.now).script = t.script := congrArg Frame.script (frame_act t c t.now)
  exact { halike with script := hafter }

/-- A call with one request does not subscribe. -/
theorem comesOf_of_brief (s : System) {call : Call} (hbrief : call.brief = true) :
    s.comesOf call = (s.store.events s.instant call.request).map .committed := by
  cases call with
  | watch | watchAll => cases hbrief
  | _ => exact List.append_nil _

/-- From `s` on a call has begun, which the next poll of it carries out. -/
structure Launched (s begun : System) (c : InFlight) : Prop where
  frame : begun.frame = s.frame
  wiring : begun.wiring = s.wiring
  calls : begun.calls = s.calls ++ [c]
  booked : begun.desk.Booked
  found : begun.desk.call? c.id = some c
  poll : begun.pollCall c.id = begun.act c begun.now
  acts : begun.actsOn c = true

/-- On a broker with nothing in the way a launched call is there to be carried out. -/
theorem Prompt.launched (h : s.Prompt) (call : Call) :
    Launched s (s.launch (.ask call) false).1 { id := s.nextCall, call } := by
  let c : InFlight := { id := s.nextCall, call }
  let begun : System := (s.launch (.ask call) false).1
  have hframe : begun.frame = s.frame := frame_launch s (.ask call) false
  have hwiring : begun.wiring = s.wiring := wiring_launch s (.ask call) false
  have hdesk : begun.desk = s.desk.begin (.ask call) false := desk_launch s (.ask call) false
  have hfound : begun.desk.call? c.id = some c := call?_launch h.booked call false
  have hscript : begun.script = [] := (congrArg Frame.script hframe).trans h.script
  have hrunning : begun.stopped = false := (congrArg Wiring.stopped hwiring).trans h.running
  obtain ⟨hpoll, hacts⟩ := pollCall_eq_act hscript hrunning hfound rfl
  exact ⟨hframe, hwiring, congrArg Desk.calls hdesk, hdesk ▸ h.booked.begin (.ask call) false,
    hfound, hpoll, hacts⟩

/-- The broker after a new call has begun and the store has carried out its request. -/
def acting (s : System) (call : Call) : System :=
  let begun := (s.launch (.ask call) false).1
  begun.act { id := s.nextCall, call } begun.now

/-- What a caller is left with when the first request of its call was the last. -/
structure Carried (s : System) (call : Call) (answer : Answer) : Prop where
  answer : s.made? (.ask call) = some answer
  frame : (s.moves (s.making (.ask call))).frame = s.frame
  wiring : (s.moves (s.making (.ask call))).wiring = (s.acting call).wiring
  calls : (s.moves (s.making (.ask call))).calls = s.calls
  happenings : s.happenings (s.making (.ask call)) =
    (s.launch (.ask call) false).1.comesOf call

/-- A call whose first request was the last leaves its caller with its answer. -/
theorem Prompt.carried (h : s.Prompt) {call : Call} {answer : Answer} {store : Store}
    (hact : (s.acting call).desk =
      ((s.launch (.ask call) false).1.desk.beside store).proceed { id := s.nextCall, call }
        (.done answer)) :
    s.Carried call answer := by
  let c : InFlight := { id := s.nextCall, call }
  let begun : System := (s.launch (.ask call) false).1
  have hbegun : Launched s begun c := h.launched call
  have hmade : s.moves [.launch (.ask call) false, .poll (.call s.nextCall) false] =
      s.acting call := hbegun.poll
  have hmoves : s.moves (s.making (.ask call)) = (s.acting call).move (.take c.id) :=
    congrArg (System.move · (.take c.id)) hbegun.poll
  obtain ⟨htframe, htwiring, htcalls⟩ := move_take (s.acting call) c.id
  refine ⟨?_, ?_, ?_, ?_, ?_⟩
  · have hproceed := (hbegun.booked.beside store).standing_proceed hbegun.found (.done answer) c.id
    rw [if_pos rfl] at hproceed
    rw [made?, hmade]
    exact answer?_of_standing ((congrArg (Desk.standing · c.id) hact).trans hproceed)
  · rw [hmoves, htframe]
    exact (frame_act begun c begun.now).trans hbegun.frame
  · rw [hmoves, htwiring]
  · have hleft : (s.acting call).calls = begun.calls.filter fun other => other.id ≠ c.id :=
      congrArg Desk.calls hact
    have hold : (s.calls.filter fun other => decide (other.id ≠ c.id)) = s.calls := by
      rw [List.filter_eq_self]
      exact fun other hother => decide_eq_true (Nat.ne_of_lt (h.booked.calls other hother))
    rw [hmoves, htcalls, hleft, hbegun.calls, List.filter_append, hold]
    simp
  · have hall : s.happenings (s.making (.ask call)) =
        [] ++ (begun.happens (.poll (.call c.id) false) ++ ([] ++ [])) := rfl
    rw [hall, happens_of_actsOn hbegun.found hbegun.acts, List.nil_append, List.nil_append,
      List.append_nil]

/-- A call with one request makes what the store makes of the request. -/
theorem Prompt.makes_ask (h : s.Prompt) {call : Call} (hbrief : call.brief = true) :
    ∃ answer, call.Resumes (s.store.serve s.instant call.request).outcome (.done answer) ∧
      s.Makes (.ask call) answer (s.store.serve s.instant call.request).store
        ((s.store.events s.instant call.request).map .committed) := by
  let c : InFlight := { id := s.nextCall, call }
  let begun : System := (s.launch (.ask call) false).1
  have hbegun : Launched s begun c := h.launched call
  have hstore : begun.store = s.store := congrArg Wiring.store hbegun.wiring
  have hnow : begun.now = s.now := congrArg Frame.now hbegun.frame
  have hinstant : begun.instant = s.instant := by rw [instant, instant, hnow]
  obtain ⟨turn, hact, hresumes⟩ := desk_act begun c begun.now
  obtain ⟨answer, rfl⟩ := hresumes.done hbrief
  rw [hstore, hinstant] at hresumes
  have hcarried := h.carried hact
  refine ⟨answer, hresumes, hcarried.answer, hcarried.frame, ?_, hcarried.calls, ?_⟩
  · have halike := alike_act_new (hbegun.wiring ▸ h.genuine) hbegun.booked hbegun.found hbegun.poll
      hbegun.acts rfl (Call.service_of_brief hbrief).1
    have hserved : (begun.carriedOut call).wiring =
        { begun.wiring with store := (begun.store.serve begun.instant call.request).store } := rfl
    rw [hstore, hinstant, hbegun.wiring] at hserved
    exact (hcarried.wiring.trans halike.wiring).trans hserved
  · rw [hcarried.happenings, comesOf_of_brief begun hbrief, hstore, hinstant]

/-- A call that is made at once leaves the store that its request leaves. -/
theorem Makes.store {answer : Answer} {store : Store} {hs : List Happening}
    (hmakes : s.Makes turn answer store hs) : (s.moves (s.making turn)).store = store :=
  congrArg Wiring.store hmakes.wiring

/-- A call with one request leaves behind a store that has gone on. -/
theorem Shelters.makes (h : s.Shelters scope) (hbrief : turn.Brief) :
    ∃ answer store events, s.Makes turn answer store (events.map .committed) ∧
      s.store.Continues events store := by
  cases turn with
  | done answer => exact ⟨answer, s.store, [], h.prompt.makes_done answer, h.continues_feeds _⟩
  | ask call =>
    obtain ⟨answer, _, hmakes⟩ := h.prompt.makes_ask hbrief
    exact ⟨answer, _, _, hmakes, h.continues_serve call.request (Call.service_of_brief hbrief).2⟩

/-- A call that was made at once leaves the system sheltered. -/
theorem Makes.shelters {answer : Answer} {store : Store} {hs : List Happening}
    (hmakes : s.Makes turn answer store hs) (h : s.Shelters scope) {events : List Event}
    (hcontinues : s.store.Continues events store) : (s.moves (s.making turn)).Shelters scope where
  script := (congrArg Frame.script hmakes.frame).trans h.script
  booked := booked_moves h.genuine h.booked _
  running := (congrArg Wiring.stopped hmakes.wiring).trans h.running
  reachable := hmakes.store ▸ hcontinues.reachable
  bounded := hmakes.store ▸ hcontinues.later.bounded
  whole := hmakes.store ▸ hcontinues.whole
  calls c hc := h.calls c (hmakes.calls ▸ hc)

end System

end KeyBroker
