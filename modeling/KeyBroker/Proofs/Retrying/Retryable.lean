import KeyBroker.Proofs.Retrying.Relief

/-!
# Errors that tell to try again

An error that tells to try again is right about what can be asked for again of a store that is
still there. But it goes by the kind of the failure only: it says the same of a store that was
closed for good, of a batch that is committed by now, of a broker that is closed already, and of
a listing whose snapshot is gone.
-/

namespace KeyBroker.System

variable {s : System} {p : Plea} {c : InFlight} {answer : Answer} {es : List Episode} {wait : Nat}

/-- What can be asked for again is asked for again as it was. -/
theorem Stumbles.again_eq (h : s.Stumbles p c answer) (hbooked : s.desk.Booked)
    (hrepeatable : p.repeatable = true) : p.again answer = p := by
  cases p with
  | order o =>
    have hasks := o.asks_of_turn h.began.1 h.began.2.1
    obtain ⟨t, e, hturn⟩ := h.failed hbooked
    generalize c.call = call at hasks hturn
    cases hasks with
    | next needsPage =>
      obtain rfl := Turn.done.inj hturn
      rfl
    | commit => cases hrepeatable
    | _ => rfl
  | _ => rfl

/-- A plea that can be made more than once comes to a call for the same, with nothing in its
way. -/
theorem Stumbles.begins (h : s.Stumbles p c answer) (hkept : s.Kept es)
    (hgenuine : s.wiring.Genuine) (hrepeatable : p.repeatable = true) (wait : Nat) :
    ∃ t call, p.begin (s.recovered c.id wait) = some (t, .ask call) ∧ t.Prompt ∧
      t.store = (s.recovered c.id wait).store ∧ call.single = true ∧
      (call.Formed s.store.ledger) ∧
        (call.Feasible t ↔ c.call.Feasible (s.recovered c.id wait)) := by
  have hsettings : (s.recovered c.id wait).settings = s.settings :=
    (settings_recovered s c.id wait).trans (settings_pollCall hgenuine h.found)
  have hformed := h.began.formed hrepeatable
  cases p with
  | close => cases hrepeatable
  | order o =>
    have hasks := o.asks_of_turn h.began.1 h.began.2.1
    have hprompt := h.prompt hkept hgenuine (Call.endsWithBroker_of_single hasks.single) wait
    refine ⟨_, c.call, ?_, hprompt, rfl, hasks.single, hformed, Iff.rfl⟩
    rw [← hsettings] at hasks
    exact congrArg (fun turn => some (_, turn)) (hasks.turn hrepeatable)
  | subscribe scope stem =>
    obtain ⟨hcapacity, n, hcall⟩ := h.began
    have hprompt := h.prompt hkept hgenuine (hcall ▸ rfl) wait
    let opened : System :=
      { s.recovered c.id wait with
        channels := (s.recovered c.id wait).channels ++
          [{ capacity := (s.recovered c.id wait).settings.bufferSize, held := false }] }
    have hopens : (s.recovered c.id wait).openChannel
        (s.recovered c.id wait).settings.bufferSize false =
          some (opened, (s.recovered c.id wait).channels.length) :=
      if_pos (hsettings ▸ hcapacity)
    refine ⟨opened, .watch scope stem (s.recovered c.id wait).channels.length, ?_,
      { hprompt with }, rfl, rfl, Call.formed_of_named rfl nofun, ?_⟩
    · simp only [Plea.begin, hopens, Option.map_some]
    · rw [hcall]
      exact Iff.rfl

/-- A batch and a broker are left as they were by what can be asked of them only once. -/
theorem Stumbles.not_succeeds (h : s.Stumbles p c answer) (hkept : s.Kept es)
    (hrepeatable : p.repeatable = false) : ¬ (p.again answer).Succeeds (s.recovered c.id wait) := by
  rintro ⟨t, call, again, hbegin, _⟩
  cases p with
  | subscribe => cases hrepeatable
  | close =>
    have hclosing : (s.recovered c.id wait).closing = true := by
      rw [closing_recovered]
      exact closing_course (hkept.course (.occur (.move (.poll (.call c.id) false)))) h.began.2
    have hdone : (s.recovered c.id wait).beginClose =
        (s.recovered c.id wait, .done (.closed (.ok ()))) := if_pos hclosing
    simp [Plea.again, Plea.begin, hdone] at hbegin
  | order o =>
    have hasks := o.asks_of_turn h.began.1 h.began.2.1
    obtain ⟨t', e, hturn⟩ := h.failed hkept.booked
    generalize c.call = call' at hasks hturn
    cases hasks with
    | commit committed =>
      obtain rfl := Turn.done.inj hturn
      have hdone := Call.beginCommit_of_committed committed (s.recovered c.id wait).stopped
      simp [Plea.again, Order.again, Plea.begin, Order.turn, hdone] at hbegin
    | _ => cases hrepeatable

/-- An error that tells to try again is right just if the same can be asked for again of a store
that was not closed. A call fails with such an error, in any run, and the caller waits for
relief. Asked for again, the same succeeds just if it is neither a commit nor closing, the store
was not closed for good, a deadline is within the range of the clock, and a listing still has
its snapshot. -/
theorem retry_succeeds_iff (settings : Settings) (run : List Move) (p : Plea) (c : InFlight)
    (answer : Answer) (wait : Nat) (h : (moves { settings } run).Stumbles p c answer) :
    let later := (moves { settings } run).recovered c.id wait
    (p.again answer).Succeeds later ↔
      p.repeatable = true ∧ later.store.closed = false ∧ c.call.Feasible later := by
  intro later
  have hgenuine := genuine_moves (genuine_new settings) run
  have hkept : (moves { settings } run).Kept _ := kept_moves settings run
  obtain ⟨_, hlater⟩ := later_moves (genuine_new settings) ⟨[], Ledger.later_new⟩ run
  cases hrepeatable : p.repeatable with
  | false => exact iff_of_false (h.not_succeeds hkept hrepeatable) nofun
  | true =>
    obtain ⟨t, call, hbegin, hprompt, hstore, hsingle, hformed, hfeasible⟩ :=
      h.begins hkept hgenuine hrepeatable wait
    obtain ⟨_, hgrown⟩ := later_recovered hgenuine hlater.floor hlater.bounded c.id wait
    have hachieves := hprompt.achieves_iff hsingle (hstore ▸ hformed.mono hgrown.revision)
      (hstore ▸ hgrown.floor) (hstore ▸ hgrown.bounded)
    rw [hstore, refusal_recovered, hfeasible] at hachieves
    rw [h.again_eq hkept.booked hrepeatable, eq_self, true_and, ← hachieves]
    constructor
    · rintro ⟨t', call', again, hbegin', hachieves'⟩
      obtain ⟨rfl, hturn⟩ := Prod.mk.inj (Option.some.inj (hbegin.symm.trans hbegin'))
      obtain rfl := Turn.ask.inj hturn
      exact ⟨again, hachieves'⟩
    · rintro ⟨again, hachieves'⟩
      exact ⟨t, call, again, hbegin, hachieves'⟩

/-- A put fails as the connection is cut, and succeeds once it is restored. -/
theorem retry_succeeds_iff_put :
    let put : Order := .put [] ['k'] [1] none
    let run : List Move :=
      [.setAvailable false, .launch (.ask (.put [] ['k'] [1] none)) false]
    let c : InFlight := { id := 0, call := .put [] ['k'] [1] none }
    let answer : Answer :=
      .written (.error (.storeUnavailable "put" (.unavailable "backend unreachable")))
    let s := moves { settings := {} } run
    s.Stumbles (.order put) c answer ∧ (Plea.order put).Succeeds (s.recovered 0 0) := by
  intro put run c answer s
  have hstumbles : s.Stumbles (.order put) c answer :=
    ⟨rfl, ⟨rfl, rfl, nofun⟩, rfl, ⟨_, rfl, rfl⟩, nofun⟩
  exact ⟨hstumbles, (retry_succeeds_iff {} run _ c answer 0 hstumbles).2 ⟨rfl, rfl, trivial⟩⟩

/-- The store is closed for good, and a get is told to try again, which never succeeds. -/
theorem retry_never_succeeds_on_closed_store :
    let get : Order := .get [] ['k']
    let run : List Move := [.ask .close, .launch (.ask (.get [] ['k'])) false]
    let c : InFlight := { id := 0, call := .get [] ['k'] }
    let answer : Answer := .found (.error (.storeUnavailable "get" .closed))
    let s := moves { settings := {} } run
    s.Stumbles (.order get) c answer ∧
      ∀ wait, ¬ ((Plea.order get).again answer).Succeeds (s.recovered 0 wait) := by
  intro get run c answer s
  refine ⟨⟨rfl, ⟨rfl, rfl, nofun⟩, rfl, ⟨_, rfl, rfl⟩, nofun⟩, ?_⟩
  rintro wait ⟨t, call, again, hbegin, hachieves⟩
  obtain ⟨rfl, hturn⟩ := Prod.mk.inj (Option.some.inj hbegin)
  obtain rfl := Turn.ask.inj hturn
  have hrefusal : (s.recovered 0 wait).store.refusal = some .closed := rfl
  cases hrefusal.symm.trans (hachieves.reachable nofun)

end KeyBroker.System
