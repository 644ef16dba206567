import KeyBroker.Proofs.Register.Leaving
import KeyBroker.Proofs.Together.Course

/-!
# A call for several watches that fails

A call for several watches that fails gives back those that it has got. They are off the
register at once and for good, whatever their dispatchers are doing, and these end as soon as
they are polled. For the register, nothing else comes of the call.
-/

namespace KeyBroker.System

open Episode (Lives book bookAll mem_bookAll_iff mem_foldl_book)
open Books (Off)

variable {s : System} {id n : Nat} {i : Incident} {scope : Key} {channel : Nat}
  {stems : List Key} {run : List Incident} {es : List Episode}

/-! ### Numbers -/

/-- No incident takes the number of a subscription back. -/
theorem nextSubscription_incur (hkept : s.Kept es) (i : Incident) :
    s.nextSubscription ≤ (s.incur i).nextSubscription :=
  (hkept.course i).next_le

/-- Incidents in order take no number of a subscription back. -/
theorem nextSubscription_incurs (hkept : s.Kept es) (run : List Incident) :
    s.nextSubscription ≤ (s.incurs run).nextSubscription := by
  induction run generalizing s es with
  | nil => exact Nat.le_refl _
  | cons i run ih =>
    exact Nat.le_trans (nextSubscription_incur hkept i) (ih (hkept.incur i))

/-- The numbers that a poll gives are those between the next number before and after it. -/
theorem mem_begets (hkept : s.Kept es) (hn : n ∈ s.begets id i) :
    s.nextSubscription ≤ n ∧ n < (s.incur i).nextSubscription := by
  have hrises := nextSubscription_incur hkept i
  unfold begets at hn
  split at hn
  · have hrange := List.mem_range'_1.1 hn
    omega
  · cases hn

/-- Numbers that are given out in a run were not given out before it. -/
theorem mem_begetsAll (hkept : s.Kept es) (hn : n ∈ s.begetsAll id run) :
    s.nextSubscription ≤ n ∧ n < (s.incurs run).nextSubscription := by
  induction run generalizing s es with
  | nil => cases hn
  | cons i run ih =>
    have hfirst := nextSubscription_incur hkept i
    have hrest := nextSubscription_incurs (hkept.incur i) run
    rcases List.mem_append.1 hn with hn | hn
    · have hnow := mem_begets hkept hn
      exact ⟨hnow.1, Nat.lt_of_lt_of_le hnow.2 hrest⟩
    · have hlater := ih (hkept.incur i) hn
      exact ⟨Nat.le_trans hfirst hlater.1, hlater.2⟩

/-- Numbers are given out in rising order. -/
theorem pairwise_begetsAll (hkept : s.Kept es) (id : Nat) (run : List Incident) :
    (s.begetsAll id run).Pairwise (· < ·) := by
  induction run generalizing s es with
  | nil => exact .nil
  | cons i run ih =>
    refine List.pairwise_append.2 ⟨?_, ih (hkept.incur i), fun n hn m hm => ?_⟩
    · unfold begets
      split
      · exact List.pairwise_lt_range'
      · exact .nil
    · exact Nat.lt_of_lt_of_le (mem_begets hkept hn).2 (mem_begetsAll (hkept.incur i) hm).1

/-! ### What comes of the call for the register -/

/-- What incidents bring upon subscriptions, but for those in which a call is polled. -/
def elsewhere (s : System) (id : Nat) : List Incident → List Episode
  | [] => []
  | i :: run => (if i.polls id then [] else s.befalls i) ++ (s.incur i).elsewhere id run

/-- One more incident brings its episodes behind those brought before. -/
theorem episodes_concat (s : System) (run : List Incident) (i : Incident) :
    s.episodes (run ++ [i]) = s.episodes run ++ (s.incurs run).befalls i := by
  induction run generalizing s with
  | nil => exact List.append_nil _
  | cons first run ih =>
    rw [List.cons_append, episodes, episodes, ih, List.append_assoc]
    rfl

/-- One more incident counts as elsewhere unless it polls the call. -/
theorem elsewhere_concat (s : System) (id : Nat) (run : List Incident) (i : Incident) :
    s.elsewhere id (run ++ [i]) =
      s.elsewhere id run ++ if i.polls id then [] else (s.incurs run).befalls i := by
  induction run generalizing s with
  | nil => exact List.append_nil _
  | cons first run ih =>
    rw [List.cons_append, elsewhere, elsewhere, ih, List.append_assoc]
    rfl

/-- In a poll of a call for several watches the caller gets what is opened, and gives back what
the call has got, if it fails. At most the broker goes away with the call. -/
theorem answers_watchAll {c : InFlight} {held : List Handle} {stem : Key} {rest : List Key}
    (hbooked : s.desk.Booked) (hdistinct : s.registered.Nodup)
    (hfound : s.desk.call? c.id = some c)
    (hcall : c.call = .watchAll scope channel held stem rest) (reportFirst : Bool) :
    ∃ back shut,
      s.answers c =
        (s.begets c.id (.occur (.move (.poll (.call c.id) reportFirst)))).map .opened ++ back ++
          shut ∧
      (back = [] ∨ back = held.map fun handle => .unsubscribed handle.id) ∧
      (shut = [] ∨ shut = [.shutDown]) := by
  let i : Incident := .occur (.move (.poll (.call c.id) reportFirst))
  have hpolls : i.polls c.id = true := decide_eq_true rfl
  have hsame (h : (s.pollCall c.id).nextSubscription = s.nextSubscription) :
      s.begets c.id i = [] := begets_of_same h
  have hnew (h : (s.pollCall c.id).nextSubscription = s.nextSubscription + 1) :
      s.begets c.id i = [s.nextSubscription] := begets_of_new hpolls h
  -- what a poll brings upon subscriptions can be read off the turn that it leads to
  have hanswers {turn : Turn} (hstanding : s.turnOf c = some turn) :
      ∃ shut, s.answers c = turn.brings held ++ shut ∧ (shut = [] ∨ shut = [.shutDown]) := by
    have hhandles : (Turn.ask c.call).handles = held := by rw [hcall]; rfl
    refine ⟨if turn.isDone && c.holdsBroker && s.holders ≤ 1 then [.shutDown] else [], ?_, ?_⟩
    · simp only [answers, hstanding, Option.elim_some, hhandles]
    · split
      · exact .inr rfl
      · exact .inl rfl
  cases watchesOn_pollCall hbooked hdistinct hfound hcall with
  | waits e found same serves =>
    have hturn : s.turnOf c = some (.ask c.call) := by rw [turnOf, Desk.standing, found]
    obtain ⟨shut, hbrings, hshut⟩ := hanswers hturn
    refine ⟨[], shut, ?_, .inl rfl, hshut⟩
    rw [hbrings, hsame same]
    simp [hcall, Turn.brings, Turn.handles, Turn.givesBack]
  | goesOn next others more found new serves =>
    have hturn : s.turnOf c = some (.ask (.watchAll scope channel
        (held ++ [{ id := s.nextSubscription, stem }]) next others)) := by
      rw [turnOf, Desk.standing, found]
    obtain ⟨shut, hbrings, hshut⟩ := hanswers hturn
    refine ⟨[], shut, ?_, .inl rfl, hshut⟩
    rw [hbrings, hnew new]
    simp [Turn.brings, Turn.handles, Turn.givesBack]
  | grants last answer new serves =>
    obtain ⟨shut, hbrings, hshut⟩ := hanswers answer
    refine ⟨[], shut, ?_, .inl rfl, hshut⟩
    rw [hbrings, hnew new]
    simp [Turn.brings, Turn.handles, Turn.givesBack]
  | refuses e answer same closed alone =>
    obtain ⟨shut, hbrings, hshut⟩ := hanswers answer
    refine ⟨_, shut, ?_, .inr rfl, hshut⟩
    rw [hbrings, hsame same]
    simp [Turn.brings, Turn.handles, Turn.givesBack]

/-- Episodes that do not concern a subscription leave it in the book or out of it. -/
theorem mem_foldl_book_of_others {open' : List Nat}
    (hothers : ∀ e ∈ es, e ≠ .opened n ∧ e.ends n = false) :
    n ∈ es.foldl book open' ↔ n ∈ open' := by
  rw [mem_foldl_book]
  refine ⟨fun h => ?_, fun h => .inl ⟨h, fun e he => (hothers e he).2⟩⟩
  rcases h with ⟨hmem, -⟩ | hlives
  · exact hmem
  · exact absurd rfl (hothers _ (Episode.opened_of_lives hlives)).1

variable {t : System} {holdsBroker : Bool}

/-- What a poll of a call for several watches brings upon subscriptions. -/
theorem befalls_of_polls (run : List Incident) (hkept : t.Kept es)
    (hstart : s = t.beginWatchAll scope channel stems holdsBroker)
    (hpolls : i.polls t.nextCall = true) :
    ∃ back shut,
      (s.incurs run).befalls i = ((s.incurs run).begets t.nextCall i).map .opened ++ back ++ shut ∧
      (∀ e ∈ back, ∃ n ∈ s.begetsAll t.nextCall run, e = .unsubscribed n) ∧
      (shut = [] ∨ shut = [.shutDown]) := by
  subst hstart
  have hnow := (hkept.beginWatchAll scope channel stems holdsBroker).incurs run
  obtain ⟨reportFirst, rfl⟩ := Incident.eq_poll hpolls
  cases gathers_incurs hkept scope channel stems holdsBroker run with
  | asks c held stem rest found call order got asks =>
    have hid := Desk.id_of_call? found
    obtain ⟨back, shut, hanswers, hback, hshut⟩ := answers_watchAll hnow.booked
      hnow.exact.distinct (hid ▸ found) call reportFirst
    rw [hid] at hanswers
    refine ⟨back, shut, ?_, fun e he => ?_, hshut⟩
    · simp only [befalls, affects, found, Option.elim_some, hanswers]
    · rcases hback with rfl | rfl
      · cases he
      · obtain ⟨handle, hhandle, rfl⟩ := List.mem_map.1 he
        exact ⟨handle.id, got ▸ List.mem_map_of_mem hhandle, rfl⟩
  | granted _ ended | refused _ ended =>
    refine ⟨[], [], ?_, List.forall_mem_nil _, .inl rfl⟩
    rw [ended.begets]
    simp only [befalls, affects, ended.gone, Option.elim_none]
    rfl

/-- Polls of a call for several watches do not concern the subscriptions that it does not
get. -/
theorem concerns_of_polls (hkept : t.Kept es)
    (hstart : s = t.beginWatchAll scope channel stems holdsBroker)
    (hpolls : i.polls t.nextCall = true) (hn : n ∉ s.begetsAll t.nextCall (run ++ [i])) :
    ∀ e ∈ (s.incurs run).befalls i, e ≠ .opened n ∧ e.ends n = false := by
  obtain ⟨back, shut, hbefalls, hback, hshut⟩ := befalls_of_polls run hkept hstart hpolls
  rw [begetsAll_concat, List.mem_append, not_or] at hn
  rw [hbefalls]
  refine List.forall_mem_append.2 ⟨List.forall_mem_append.2 ⟨fun e he => ?_, fun e he => ?_⟩, ?_⟩
  · obtain ⟨m, hm, rfl⟩ := List.mem_map.1 he
    exact ⟨fun heq => hn.2 (Episode.opened.inj heq ▸ hm), rfl⟩
  · obtain ⟨m, hm, rfl⟩ := hback e he
    exact ⟨nofun, decide_eq_false fun heq => hn.1 (heq ▸ hm)⟩
  · rcases hshut with rfl | rfl
    · nofun
    · exact List.forall_mem_singleton.2 ⟨nofun, rfl⟩

/-- Subscriptions that a call for several watches does not get live by what befalls them while
the call is not polled. -/
theorem lives_elsewhere (hkept : t.Kept es) (scope : Key) (channel : Nat) (stems : List Key)
    (holdsBroker : Bool) (run : List Incident)
    (hn : n ∉ (t.beginWatchAll scope channel stems holdsBroker).begetsAll t.nextCall run) :
    Lives (es ++ (t.beginWatchAll scope channel stems holdsBroker).episodes run) n ↔
      Lives (es ++ (t.beginWatchAll scope channel stems holdsBroker).elsewhere t.nextCall run)
        n := by
  generalize hstart : t.beginWatchAll scope channel stems holdsBroker = s at hn ⊢
  induction run using List.reverseRecOn with
  | nil => exact Iff.rfl
  | append_singleton run i ih =>
    have hbefore : n ∉ s.begetsAll t.nextCall run := fun hmem =>
      hn (begetsAll_concat s t.nextCall run i ▸ List.mem_append_left _ hmem)
    have hsofar := ih hbefore
    rw [← mem_bookAll_iff, ← mem_bookAll_iff] at hsofar ⊢
    rw [episodes_concat, elsewhere_concat, ← List.append_assoc, ← List.append_assoc,
      Episode.bookAll_append, Episode.bookAll_append _ (ite _ _ _)]
    split
    · next hpolls =>
      rw [mem_foldl_book_of_others (concerns_of_polls hkept hstart.symm hpolls hn)]
      exact hsofar
    · rw [mem_foldl_book, mem_foldl_book, hsofar]

/-! ### The failure -/

/-- A call for several watches has failed with `e` in the course of `during`, and whatever
happens after it, nothing comes of the call. -/
structure Undone (s : System) (past : List Episode) (id : Nat) (scope : Key) (channel : Nat)
    (stems : List Key) (e : Error) (during after : List Incident) : Prop where
  fails : s.FailsAt id scope channel stems e (during ++ after)
  /-- The call itself keeps the channel open no more. -/
  finished : ∀ c ∈ (s.incurs (during ++ after)).calls, c.id ≠ id
  unlisted : ∀ n ∈ s.begetsAll id during, n ∉ (s.incurs (during ++ after)).registered
  /-- A dispatcher that has ended keeps the channel open no more. -/
  ends : ∀ n ∈ s.begetsAll id during,
    (s.incurs (during ++ after)).AtRest ∨
      3 ≤ after.countP (fun i => decide (i.polled? = some n)) →
    ∀ d ∈ (s.incurs (during ++ after)).dispatchers, d.subscription.id ≠ n
  others : (s.incurs (during ++ after)).AtRest → ∀ n, n ∉ s.begetsAll id during →
    (n ∈ (s.incurs (during ++ after)).registered ↔
      Lives (past ++ s.elsewhere id (during ++ after)) n ∧
        .shutDown ∉ past ++ s.episodes (during ++ after))

/-- A call for several watches that fails takes those off the register that it has got. -/
theorem FailsAt.off {e : Error} (hkept : t.Kept es)
    (hstart : s = t.beginWatchAll scope channel stems holdsBroker)
    (h : s.FailsAt t.nextCall scope channel stems e run) (hn : n ∈ s.begetsAll t.nextCall run) :
    (s.incurs run).books.Off n 3 := by
  subst hstart
  cases h with
  | poll before reportFirst after c held stem rest tried found call order fails alone got =>
    have hbegun := hkept.beginWatchAll scope channel stems holdsBroker
    have hnow := hbegun.incurs before
    -- all that the call has got, it had got before it failed
    have hheld : held.map (·.id) =
        (t.beginWatchAll scope channel stems holdsBroker).begetsAll t.nextCall before := by
      cases gathers_incurs hkept scope channel stems holdsBroker before with
      | asks c' held' stem' rest' found' call' order' got' =>
        obtain rfl := Option.some.inj (found.symm.trans found')
        obtain ⟨-, -, rfl, -⟩ := Call.watchAll.inj (call.symm.trans call')
        exact got'
      | granted _ ended | refused _ ended => cases found.symm.trans ended.gone
    have hstrikes := strikes_of_failsWatch hnow.booked hnow.exact.distinct found fails rfl
    rw [call] at hstrikes
    have hmem : n ∈ held.map (·.id) := got ▸ hn
    have hpolled : ((t.beginWatchAll scope channel stems holdsBroker).incurs before |>.pollCall
        t.nextCall).books.Off n 3 := by
      refine ⟨hstrikes.next.symm ▸ (mem_begetsAll hbegun (hheld ▸ hmem)).2, fun hlisted => ?_,
        fun d _ _ => d.rounds_le⟩
      have hregistered := hstrikes.registered ▸ hlisted
      exact of_decide_eq_true (List.mem_filter.1 hregistered).2 hmem
    have hkept' := hnow.incur (.occur (.move (.poll (.call t.nextCall) reportFirst)))
    rw [incurs_append]
    exact (off_incurs hkept' hpolled after).mono (Nat.sub_le _ _)

/-- Nothing comes of a call for several watches that fails. -/
theorem undone_of_refused {past : List Episode} (hkept : t.Kept past) {e : Error}
    {during : List Incident}
    (hrefused : ((t.beginWatchAll scope channel stems holdsBroker).incurs during).desk.standing
      t.nextCall = some (.done (.watchingAll (.error e)))) (after : List Incident) :
    (t.beginWatchAll scope channel stems holdsBroker).Undone past t.nextCall scope channel stems e
      during after := by
  have hgathers := gathers_incurs hkept scope channel stems holdsBroker during
  have hbegun := hkept.beginWatchAll scope channel stems holdsBroker
  have hid := nextCall_beginWatchAll t scope channel stems holdsBroker []
  have hlives (n : Nat) := lives_elsewhere (n := n) hkept scope channel stems holdsBroker
    (during ++ after)
  generalize hstart : t.beginWatchAll scope channel stems holdsBroker = s at *
  have hnow := hbegun.incurs during
  have hlater := hbegun.incurs (during ++ after)
  have hended := answered_of_standing hrefused
  have hfails : s.FailsAt t.nextCall scope channel stems e during := by
    cases hgathers with
    | asks c held stem rest found => cases found.symm.trans hended.gone
    | granted handles ended => cases ended.told _ hrefused
    | refused e' ended fails =>
      cases ended.told _ hrefused
      exact fails
  obtain ⟨hstill, hasks, hbegets⟩ := hended.append hbegun.booked hid after
  have hoff (n : Nat) (hn : n ∈ s.begetsAll t.nextCall during) :=
    hfails.off hkept hstart.symm hn
  have hunlisted (n : Nat) (hn : n ∈ s.begetsAll t.nextCall during) :
      n ∉ (s.incurs (during ++ after)).registered := by
    rw [incurs_append]
    exact (off_incurs hnow (hoff n hn) after).unlisted
  refine ⟨hfails.append hasks hbegets, fun c hc heq => ?_, hunlisted,
    fun n hn hsettled d hd heq => ?_, fun hrest n hn => ?_⟩
  · have hnone := List.find?_eq_none.1 hstill.gone c hc
    exact hnone (decide_eq_true heq)
  · rcases hsettled with hrest | hpolled
    · refine hunlisted n hn ?_
      rw [hlater.registered hrest, ← heq]
      exact List.mem_map_of_mem hd
    · rw [incurs_append] at hd
      exact gone_of_polled hnow (hoff n hn).known (hoff n hn).unlisted hpolled d hd heq
  · rw [hlater.mem_registered hrest, hlives n (hbegets.symm ▸ hn)]

end KeyBroker.System
