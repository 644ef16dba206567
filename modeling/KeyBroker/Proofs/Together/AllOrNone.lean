import KeyBroker.Proofs.Together.Granted

/-!
# All watches or none

Whatever a store and its script do while a call for several watches is under way, the call ends
with all the watches that it asked for or with none of them.
-/

namespace KeyBroker.System

variable {s t : System} {n : Nat} {i : Incident} {scope : Key} {channel : Nat}
  {stems : List Key} {handles : List Handle} {run : List Incident} {es : List Episode}
  {holdsBroker : Bool}

/-- The caller gets a handle for every number that is given out when its call is polled. -/
theorem opened_of_begets (hkept : t.Kept es)
    (hstart : s = t.beginWatchAll scope channel stems holdsBroker)
    (hn : n ∈ (s.incurs run).begets t.nextCall i) : .opened n ∈ (s.incurs run).befalls i := by
  cases hpolls : i.polls t.nextCall with
  | false =>
    rw [begets_of_not_polls hpolls] at hn
    cases hn
  | true =>
    obtain ⟨back, shut, hbefalls, -⟩ := befalls_of_polls run hkept hstart hpolls
    rw [hbefalls, List.append_assoc]
    exact List.mem_append_left _ (List.mem_map_of_mem hn)

/-- Every number that a call for several watches has given to a subscription is that of one opened
in the run. -/
theorem opened_of_begetsAll (hkept : t.Kept es)
    (hstart : s = t.beginWatchAll scope channel stems holdsBroker)
    (hn : n ∈ s.begetsAll t.nextCall run) : .opened n ∈ s.episodes run := by
  induction run using List.reverseRecOn with
  | nil => cases hn
  | append_singleton run i ih =>
    rw [episodes_concat]
    rw [begetsAll_concat] at hn
    rcases List.mem_append.1 hn with hn | hn
    · exact List.mem_append_left _ (ih hn)
    · exact List.mem_append_right _ (opened_of_begets hkept hstart hn)

/-- A call for several watches has been granted: every stem was asked for once, and there is a
handle for each of them, in their order, with a number of its own. -/
structure Granted (s : System) (past : List Episode) (id : Nat) (scope : Key) (stems : List Key)
    (handles : List Handle) (during : List Incident) : Prop where
  order : handles.map (·.stem) = stems
  numbers : handles.map (·.id) = s.begetsAll id during
  rising : (handles.map (·.id)).Pairwise (· < ·)
  opened : ∀ handle ∈ handles, .opened handle.id ∈ s.episodes during
  /-- Whenever all dispatchers are at rest, it is registered until it has ended. -/
  listed : ∀ after, (s.incurs (during ++ after)).AtRest → ∀ handle ∈ handles,
    (handle.id ∈ (s.incurs (during ++ after)).registered ↔
      Episode.Lives (past ++ s.episodes (during ++ after)) handle.id ∧
        .shutDown ∉ past ++ s.episodes (during ++ after))
  asks : ∀ after, s.asksAll id (during ++ after) = stems.map (asked scope)

/-- A call for several watches that ends without an error has been granted. -/
theorem granted_of_answer (hkept : t.Kept es)
    (hanswer : ((t.beginWatchAll scope channel stems holdsBroker).incurs run).desk.standing
      t.nextCall = some (.done (.watchingAll (.ok handles)))) :
    (t.beginWatchAll scope channel stems holdsBroker).Granted es t.nextCall scope stems handles
      run := by
  have hgathers := gathers_incurs hkept scope channel stems holdsBroker run
  have hbegun := hkept.beginWatchAll scope channel stems holdsBroker
  have hid := nextCall_beginWatchAll t scope channel stems holdsBroker []
  generalize hstart : t.beginWatchAll scope channel stems holdsBroker = s at *
  have hended := answered_of_standing hanswer
  cases hgathers with
  | asks c held stem rest found => cases found.symm.trans hended.gone
  | refused e ended => cases ended.told _ hanswer
  | granted granted ended order got asks =>
    cases ended.told _ hanswer
    refine ⟨order, got, ?_, fun handle hhandle => ?_, fun after hrest handle _ => ?_,
      fun after => ?_⟩
    · rw [got]
      exact pairwise_begetsAll hbegun t.nextCall run
    · exact opened_of_begetsAll hkept hstart.symm (got ▸ List.mem_map_of_mem hhandle)
    · exact (hbegun.incurs (run ++ after)).mem_registered hrest handle.id
    · rw [(hended.append hbegun.booked hid after).2.1, asks]

/-- Behind every handle of a call for several watches that was granted there is a subscription
with a feed of its own. It was opened in the course of the call, and from then on it is supplied
with its own copies. -/
structure Provided (s : System) (scope : Key) (channel : Nat) (handles : List Handle)
    (during : List Move) : Prop where
  behind : ∃ subs : List Subscription,
    subs.map (fun sub => { id := sub.id, stem := sub.localStem }) = handles ∧
    (subs.map (·.feed)).Pairwise (· < ·) ∧
    ∀ sub ∈ subs,
      sub.scope = scope ∧ sub.stem = scope ++ sub.localStem ∧ sub.channel = channel ∧
      ∃ first later, during = first ++ later ∧ (s.moves first).Opened sub ∧
        (∃ before, s.happenings first = before ++ [.opened sub]) ∧
        ∀ after, (s.moves during).Supplies sub ((s.moves first).happenings later) after

/-- Behind a call for several watches that ends without an error there are subscriptions for all
its handles. -/
theorem provided_of_answer (hsupplied : t.Supplied es) (hgenuine : t.wiring.Genuine)
    (hsound : t.wiring.Sound) {during : List Move}
    (hanswer : ((t.beginWatchAll scope channel stems holdsBroker).moves during).desk.standing
      t.nextCall = some (.done (.watchingAll (.ok handles)))) :
    (t.beginWatchAll scope channel stems holdsBroker).Provided scope channel handles during := by
  obtain ⟨subs, hbacked⟩ :=
    backed_of_standing hsupplied.toKept hgenuine hsound holdsBroker rfl hanswer
  have hbegun := hsupplied.incur
    (.occur (.move (.launch (Call.beginWatchAll scope channel stems) holdsBroker)))
  have hwiring : (t.beginWatchAll scope channel stems holdsBroker).wiring = t.wiring :=
    wiring_launch t _ holdsBroker
  refine ⟨subs, hbacked.handles, hbacked.feeds, fun sub hsub => ?_⟩
  have hopened := hbacked.opened sub hsub
  exact ⟨hopened.inScope, hopened.stem, hopened.onChannel,
    supplies_of_openedIn hbegun (hwiring ▸ hgenuine) (hwiring ▸ hsound) hopened⟩

/-- A call for several watches gets all of them or none. Let a call be made after any run, with
any stems, and then let anything happen. Once the call has an answer, either this is the error
that a call for the first stem it could not get would have been told, and nothing comes of the
call; or it has a handle for every stem. If nobody has made up a reply, what is then committed
under a stem goes to a feed that the handle has for itself, and from there is delivered under the
blocking policy, for each handle once. -/
theorem watches_all_or_none (settings : Settings) (scope : Key) (channel : Nat)
    (stems : List Key) (holdsBroker : Bool) :
    (∀ early during : List Incident,
      let t := incurs { settings } early
      let s := t.beginWatchAll scope channel stems holdsBroker
      ∀ answer, (s.incurs during).desk.standing t.nextCall = some (.done answer) →
        (∃ e, answer = .watchingAll (.error e) ∧ ∀ after,
          s.Undone (episodes { settings } early) t.nextCall scope channel stems e during after) ∨
        ∃ handles, answer = .watchingAll (.ok handles) ∧
          s.Granted (episodes { settings } early) t.nextCall scope stems handles during) ∧
    ∀ early during : List Move,
      let t := moves { settings } early
      let s := t.beginWatchAll scope channel stems holdsBroker
      ∀ handles, (s.moves during).desk.standing t.nextCall =
          some (.done (.watchingAll (.ok handles))) →
        s.Provided scope channel handles during := by
  refine ⟨?_, ?_⟩
  · intro early during t s answer hanswer
    have hkept : t.Kept (episodes { settings } early) := kept_incurs settings early
    cases gathers_incurs hkept scope channel stems holdsBroker during with
    | asks c held stem rest found =>
      cases found.symm.trans (answered_of_standing hanswer).gone
    | refused e ended =>
      cases ended.told _ hanswer
      exact .inl ⟨e, rfl, undone_of_refused hkept hanswer⟩
    | granted handles ended =>
      cases ended.told _ hanswer
      exact .inr ⟨handles, rfl, granted_of_answer hkept hanswer⟩
  · intro early during t s handles hanswer
    have hsupplied := (supplied_new settings).incurs (asIncidents early)
    rw [incurs_asIncidents] at hsupplied
    have hgenuine := genuine_new settings
    have hsound := ((changes_moves hgenuine early).sound (Wiring.sound_new settings)).1
    exact provided_of_answer hsupplied (genuine_moves hgenuine early) hsound hanswer

/-- Somebody watches the same stem. A call that gets one watch and fails for the next leaves only
the earlier subscription, though a step of its own stands in line for room. When its stems are
all granted, the same one twice, all three subscriptions are supplied. -/
theorem watches_all_or_none_same_stem :
    let poll (worker : Worker) : Move := .poll worker false
    let early : List Move := [.openChannel 1 false, .launch (.ask (.watch ['v'] ['a'] 0)) false,
      poll (.call 0), poll (.dispatcher 1)]
    let s := (moves { settings := {} } early).beginWatchAll ['v'] 0 [['a'], ['a'], ['a', 'b']] false
    let down : StorageError := .unavailable "down"
    let fails : List Move := [.inject ⟨.watch, .forward 0⟩ rfl, .inject ⟨.watch, .fail down⟩ rfl,
      poll (.call 1), poll (.dispatcher 2), .ask (.put ['v', 'a'] [] none), poll (.dispatcher 1),
      poll (.dispatcher 2), poll (.call 1)]
    let later : List Move := [poll (.dispatcher 2), poll (.dispatcher 2), poll (.dispatcher 1)]
    let grants : List Move := [poll (.call 1), poll (.call 1), poll (.call 1)]
    let handles : List Handle := [⟨2, ['a']⟩, ⟨3, ['a']⟩, ⟨4, ['a', 'b']⟩]
    (s.Undone (episodes { settings := {} } (asIncidents early)) 1 ['v'] 0
        [['a'], ['a'], ['a', 'b']] (.storeUnavailable "watch" down) (asIncidents fails)
        (asIncidents later) ∧
      (s.moves (fails ++ later)).AtRest ∧ (s.moves (fails ++ later)).registered = [1]) ∧
    s.Granted (episodes { settings := {} } (asIncidents early)) 1 ['v']
        [['a'], ['a'], ['a', 'b']] handles (asIncidents grants) ∧
      s.Provided ['v'] 0 handles grants := by
  intro poll early s down fails later grants handles
  have hnumber : (moves { settings := {} } early).nextCall = 1 := by decide +kernel
  have hfails : (s.moves fails).desk.standing 1 =
      some (.done (.watchingAll (.error (.storeUnavailable "watch" down)))) := by
    unfold s fails early poll down
    rfl
  have hgrants : (s.moves grants).desk.standing 1 =
      some (.done (.watchingAll (.ok handles))) := by
    unfold s grants early poll handles
    rfl
  obtain ⟨htold, hgranted⟩ := watches_all_or_none {} ['v'] 0 [['a'], ['a'], ['a', 'b']] false
  replace htold := htold (asIncidents early)
  simp only [incurs_asIncidents, hnumber] at htold
  refine ⟨⟨?_, by decide +kernel, by decide +kernel⟩, ?_, ?_⟩
  · rcases htold (asIncidents fails) _ (incurs_asIncidents s fails ▸ hfails) with
      ⟨e, he, hundone⟩ | ⟨_, hne, _⟩
    · cases he
      exact hundone (asIncidents later)
    · cases hne
  · rcases htold (asIncidents grants) _ (incurs_asIncidents s grants ▸ hgrants) with
      ⟨_, hne, _⟩ | ⟨_, heq, h⟩
    · cases hne
    · cases heq
      exact h
  · refine hgranted early grants handles ?_
    rw [hnumber]
    exact hgrants

end KeyBroker.System
