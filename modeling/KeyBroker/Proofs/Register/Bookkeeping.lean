import KeyBroker.Metrics
import KeyBroker.Proofs.Register.Silence

/-!
# Watch bookkeeping

At rest, the register has the subscriptions that were opened and have not ended, and the
counters agree with it. In every state numbers are new, subscriptions come and go without
touching each other, and a failed watch leaves nothing behind.
-/

namespace KeyBroker

namespace Wiring

/-- Some subscriptions are taken off the register, and all others stay as they are. -/
structure Strikes (w w' : Wiring) (ids : List Nat) : Prop where
  next : w'.nextSubscription = w.nextSubscription
  registered : w'.registered = w.registered.filter fun id => decide (id ∉ ids)
  others : ∀ d : Dispatcher, d.subscription.id ∉ ids → (d ∈ w'.dispatchers ↔ d ∈ w.dispatchers)

variable {w w' w'' : Wiring} {ids more : List Nat}

/-- Where the register, the numbers and the dispatchers are the same, nothing was taken off. -/
theorem strikes_none (hnext : w'.nextSubscription = w.nextSubscription)
    (hregistered : w'.registered = w.registered) (hdispatchers : w'.dispatchers = w.dispatchers) :
    Strikes w w' [] where
  next := hnext
  registered := by
    rw [hregistered]
    exact (List.filter_eq_self.2 fun _ _ => rfl).symm
  others d _ := by rw [hdispatchers]

/-- Subscriptions taken off one after the other are taken off together. -/
theorem Strikes.trans (h : Strikes w w' ids) (h' : Strikes w' w'' more) :
    Strikes w w'' (ids ++ more) where
  next := h'.next.trans h.next
  registered := by
    rw [h'.registered, h.registered, List.filter_filter]
    refine List.filter_congr fun id _ => ?_
    rw [Bool.and_comm]
    simp [not_or]
  others d hd := by
    rw [List.mem_append, not_or] at hd
    rw [h'.others d hd.2, h.others d hd.1]

/-- Unsubscribing takes one subscription off the register, if it is there. -/
theorem strikes_unsubscribe (hdistinct : w.registered.Nodup) (id : Nat) :
    Strikes w (w.unsubscribe id) [id] := by
  unfold unsubscribe
  by_cases hmem : id ∈ w.registered
  · rw [if_pos hmem]
    refine ⟨rfl, ?_, fun d hd => ?_⟩
    · simp only [hdistinct.erase_eq_filter]
      refine List.filter_congr fun other _ => ?_
      by_cases heq : other = id <;> simp [heq]
    · have hne : d.subscription.id ≠ id := by simpa using hd
      simp only [List.mem_map]
      constructor
      · rintro ⟨other, hother, heq⟩
        split at heq
        · next hid =>
          subst heq
          exact absurd hid hne
        · exact heq ▸ hother
      · intro hd
        exact ⟨d, hd, if_neg hne⟩
  · rw [if_neg hmem]
    refine ⟨rfl, ?_, fun _ _ => Iff.rfl⟩
    refine (List.filter_eq_self.2 fun other hother => ?_).symm
    exact decide_eq_true fun heq => hmem (List.mem_singleton.1 heq ▸ hother)

end Wiring

/-- Whether a call for subscriptions has failed. -/
def Turn.failsWatch : Turn → Bool
  | .done (.watching (.error _)) | .done (.watchingAll (.error _)) => true
  | _ => false

/-- The numbers of the subscriptions that a call has got so far. -/
def Call.heldIds (call : Call) : List Nat := (Turn.ask call).handles.map (·.id)

namespace System

open Episode (Lives Left)
open Wiring (Strikes)

variable {s t : System} {c : InFlight} {es : List Episode}

/-! ### Failed watches -/

/-- Unsubscribing several subscriptions takes them off the register, and no others. -/
theorem strikes_unsubscribeAll (hdistinct : s.registered.Nodup) (ids : List Nat) :
    Strikes s.wiring (s.unsubscribeAll ids).wiring ids := by
  induction ids generalizing s with
  | nil => exact Wiring.strikes_none rfl rfl rfl
  | cons id rest ih =>
    have hfirst : Strikes s.wiring (s.unsubscribe id).wiring [id] := by
      rw [wiring_unsubscribe]
      exact Wiring.strikes_unsubscribe hdistinct id
    have hstill : (s.unsubscribe id).registered.Nodup := by
      have hregistered : (s.unsubscribe id).registered = _ := hfirst.registered
      rw [hregistered]
      exact List.filter_sublist.nodup hdistinct
    exact hfirst.trans (ih hstill)

/-- A call that ends takes nothing off the register. -/
theorem strikes_finish (s : System) (c : InFlight) (answer : Answer) :
    Strikes s.wiring (s.finish c answer).wiring [] := by
  have hrelease (s : System) : Strikes s.wiring s.release.wiring [] := by
    simp only [release]
    split
    · rw [wiring_stop]
      exact Wiring.strikes_none rfl rfl rfl
    · exact Wiring.strikes_none rfl rfl rfl
  have hnotes : Strikes s.wiring (s.noteAll answer.notices).wiring [] := by
    rw [wiring_noteAll]
    exact Wiring.strikes_none rfl rfl rfl
  simp only [finish]
  split
  · exact hnotes.trans (hrelease { s.noteAll answer.notices with
      calls := (s.noteAll answer.notices).calls.filter fun other => other.id ≠ c.id
      finished := (s.noteAll answer.notices).finished ++ [(c.id, answer)] })
  · exact hnotes

/-- A call that fails to open a subscription gives back those that it has got, if it is one
for several. -/
theorem answered_of_failsWatch (s : System) (call : Call) (reply : Except Error call.service.Reply)
    (h : (s.answered call reply).2.failsWatch = true) :
    (s.answered call reply).1 =
      s.unsubscribeAll (if (s.answered call reply).2.givesBack then call.heldIds else []) := by
  have hother (hheld : call.heldIds = []) (hsame : (s.answered call reply).1 = s) :
      (s.answered call reply).1 =
        s.unsubscribeAll (if (s.answered call reply).2.givesBack then call.heldIds else []) := by
    rw [hheld, ite_self, hsame]
    rfl
  cases call with
  | watch scope stem channel =>
    cases reply with
    | ok feed => cases h
    | error e => rfl
  | watchAll scope channel held stem rest =>
    cases reply with
    | ok feed => cases rest <;> cases h
    | error e => rfl
  | listAll | next | drain => cases reply <;> exact hother rfl rfl
  | _ => exact hother rfl rfl

/-- A poll in which a call fails to open a subscription takes those off the register that the
call has got, and changes nothing else about subscriptions. -/
theorem strikes_of_failsWatch (hbooked : s.desk.Booked) (hdistinct : s.registered.Nodup)
    {id : Nat} {turn : Turn} (hfind : s.desk.call? id = some c)
    (hstanding : (s.pollCall id).desk.standing id = some turn) (hfails : turn.failsWatch = true) :
    Strikes s.wiring (s.pollCall id).wiring (if turn.givesBack then c.call.heldIds else []) := by
  have hid := Desk.id_of_call? hfind
  subst hid
  have hpoll := responds_pollCall hfind
  generalize s.pollCall c.id = s' at hpoll hstanding
  rcases hpoll with ⟨rfl, _⟩ | hresponds
  · rw [standing_ask hfind] at hstanding
    cases hstanding
    cases hfails
  cases hresponds with
  | waits before due =>
    rw [before.standing_await hfind] at hstanding
    cases hstanding
    cases hfails
  | @aborts t before why =>
    rw [before.standing_aborted hbooked hfind] at hstanding
    cases hstanding
    cases hfails
  | @concludes t before reply honest =>
    rw [before.standing_conclude hbooked hfind] at hstanding
    cases hstanding
    obtain ⟨store, script, hwiring⟩ := before.wiring
    have hbefore : Strikes s.wiring t.wiring [] := by
      rw [hwiring]
      exact Wiring.strikes_none rfl rfl rfl
    have hregistered : t.registered = s.registered := congrArg Wiring.registered hwiring
    have hanswered := answered_of_failsWatch t c.call reply hfails
    have hgivesBack := strikes_unsubscribeAll (hregistered ▸ hdistinct)
      (if (t.answered c.call reply).2.givesBack then c.call.heldIds else [])
    rw [← hanswered] at hgivesBack
    have hends : Strikes (t.answered c.call reply).1.wiring (t.conclude c reply).wiring [] := by
      simp only [conclude]
      cases hturn : (t.answered c.call reply).2 with
      | ask call => rw [hturn] at hfails; cases hfails
      | done answer => exact strikes_finish _ c answer
    simpa using (hbefore.trans hgivesBack).trans hends

/-! ### Bookkeeping -/

/-- What the register and the counters show at rest. -/
structure Shows (s : System) (es : List Episode) : Prop where
  active : ∀ id, s.isActive id = true ↔ Lives es id ∧ .shutDown ∉ es
  size : ∃ ids : List Nat, ids.Nodup ∧ (∀ id, id ∈ ids ↔ Lives es id ∧ .shutDown ∉ es) ∧
    s.activeWatches = ids.length
  gauge : (Metrics.watchSamples s.journal).head? =
    some ("kv_broker_active_watch_streams", (s.activeWatches : Int))
  /-- The dispatcher of a subscriber that has left is gone, and its sender with it. -/
  released : ∀ id, Left es id → ∀ d ∈ s.dispatchers, d.subscription.id ≠ id

/-- How the register is kept in every state. -/
structure Orderly (s : System) (es : List Episode) : Prop where
  /-- Numbers are given out in rising order, so none is given out twice. -/
  rising : (es.filterMap Episode.opened?).Pairwise (· < ·)
  alone : ∀ id, Strikes s.wiring (s.unsubscribe id).wiring [id]
  refused : ∀ c id e, s.desk.call? id = some c →
    (s.pollCall id).desk.standing id = some (.done (.watching (.error e))) →
      Strikes s.wiring (s.pollCall id).wiring []
  refusedAll : ∀ c id e, s.desk.call? id = some c →
    (s.pollCall id).desk.standing id = some (.done (.watchingAll (.error e))) →
      Strikes s.wiring (s.pollCall id).wiring c.call.heldIds
  /-- Nothing but the report of a lost feed is sent for a subscriber that has left. -/
  quiet : ∀ id, Left es id → ∀ i n, Channel.Flows (fun e => e.1 = id → e.2.IsReport)
    (s.channel n) ((s.incur i).channel n)

/-- The register is kept in order in every state of a run. -/
theorem Kept.orderly (h : s.Kept es) : s.Orderly es where
  rising := h.exact.rising
  alone id := by
    rw [wiring_unsubscribe]
    exact Wiring.strikes_unsubscribe h.exact.distinct id
  refused c id e hfind hstanding :=
    strikes_of_failsWatch h.booked h.exact.distinct hfind hstanding rfl
  refusedAll c id e hfind hstanding :=
    strikes_of_failsWatch h.booked h.exact.distinct hfind hstanding rfl
  quiet id hleft i n := h.exact.quiet hleft (h.course i) n

/-- At rest nobody was told to stop, and all dispatchers have begun. -/
theorem AtRest.waits (hrest : s.AtRest) {d : Dispatcher} (hd : d ∈ s.dispatchers) :
    s.stopped = false ∧ d.cancelled = false ∧ d.phase ≠ .starting := by
  have hwaiting := Dispatch.of_waiting (d := s.wiring.dispatchOf d) (hrest d hd false)
  have hstop : s.stopped = false ∧ d.cancelled = false := Bool.or_eq_false_iff.1 hwaiting.1
  exact ⟨hstop.1, hstop.2, hwaiting.2⟩

/-- At rest those are registered that have a dispatcher, in the same order. -/
theorem Kept.registered (h : s.Kept es) (hrest : s.AtRest) :
    s.registered = s.dispatchers.map (·.subscription.id) := by
  have hkept : s.dispatchers.filter (fun d => !d.cancelled) = s.dispatchers :=
    List.filter_eq_self.2 fun d hd => by rw [(hrest.waits hd).2.1]; rfl
  have hlisted : s.registered = Dispatcher.roster s.dispatchers := h.exact.listed
  rw [hlisted, Dispatcher.roster, hkept]

/-- At rest a subscription is registered exactly if it was opened, has not ended by itself, and
the broker is not shut down. -/
theorem Kept.mem_registered (h : s.Kept es) (hrest : s.AtRest) (id : Nat) :
    id ∈ s.registered ↔ Lives es id ∧ .shutDown ∉ es := by
  cases hstopped : s.stopped with
  | true =>
    have hshut : .shutDown ∈ es := h.exact.stopped.1 hstopped
    refine iff_of_false (fun hmem => ?_) fun hlives => hlives.2 hshut
    rw [h.registered hrest] at hmem
    obtain ⟨d, hd, _⟩ := List.mem_map.1 hmem
    rw [(hrest.waits hd).1] at hstopped
    cases hstopped
  | false =>
    have hshut : .shutDown ∉ es := fun hshut => by
      have hstill : s.stopped = true := h.exact.stopped.2 hshut
      rw [hstill] at hstopped
      cases hstopped
    have hcurrent : s.registered = Episode.bookAll es := h.exact.current hstopped
    rw [hcurrent, Episode.mem_bookAll_iff]
    exact ⟨fun hlives => ⟨hlives, hshut⟩, And.left⟩

/-- What the register and the counters show at rest is what the episodes of the run say. -/
theorem Kept.shows (h : s.Kept es) (hrest : s.AtRest) : s.Shows es where
  active id := by
    rw [isActive, decide_eq_true_eq]
    exact h.mem_registered hrest id
  size := ⟨s.registered, h.exact.distinct, h.mem_registered hrest, rfl⟩
  gauge := by
    have hall : s.dispatchers.countP (fun d => decide (d.phase ≠ .starting)) =
        s.dispatchers.length :=
      List.countP_eq_length.2 fun d hd => decide_eq_true (hrest.waits hd).2.2
    have hcounted : (s.journal.count .dispatchBegun : Int) - s.journal.count .dispatchEnded =
        s.dispatchers.countP (fun d => decide (d.phase ≠ .starting)) := h.exact.counted
    rw [activeWatches, h.registered hrest, List.length_map, ← hall, ← hcounted]
    rfl
  released id hleft d hd hid := by
    have hmem : d.subscription.id ∈ s.registered := by
      rw [h.registered hrest]
      exact List.mem_map_of_mem hd
    rw [h.mem_registered hrest, hid] at hmem
    exact hleft.not_lives h.exact.rising hmem.1

/-- Watch bookkeeping is exact. After any run, numbers have only risen, subscriptions come and
go without touching each other, a failed watch leaves nothing behind, and nothing but the
report of a lost feed is sent for a subscriber that has left. Whenever all dispatchers are at
rest, those subscriptions are registered whose caller got a handle and that have not ended
since: by the subscriber, with the broker, by the report of their lost feed, or for want of a
receiver. The counters show how many these are. -/
theorem bookkeeping_exact (settings : Settings) (run : List Incident) :
    let s := incurs { settings } run
    let es := episodes { settings } run
    s.Orderly es ∧ (s.AtRest → s.Shows es) := by
  intro s es
  have hkept : s.Kept es := kept_incurs settings run
  exact ⟨hkept.orderly, hkept.shows⟩

/-- Three subscriptions share a channel. The first subscriber leaves, the feed of the third
ends and this is reported, so only the second is registered at rest. -/
theorem bookkeeping_exact_three :
    let watch (stem : Key) : Incident := .occur (.move (.launch (.ask (.watch [] stem 0)) false))
    let answer (id : Nat) : Incident := .occur (.move (.poll (.call id) false))
    let step (id : Nat) : Incident := .occur (.move (.poll (.dispatcher id) false))
    let run : List Incident := [.occur (.move (.openChannel 2 false)), watch ['a'], answer 0,
      watch ['b'], answer 1, watch ['c'], answer 2, step 2, step 2, step 3, step 3,
      .occur (.move (.unsubscribe 1)), step 1, step 1, .finish 2, step 3, step 3]
    let s := incurs { settings := {} } run
    let es := episodes { settings := {} } run
    s.AtRest ∧ es = [.opened 1, .opened 2, .opened 3, .unsubscribed 1, .reported 3] ∧
      s.Orderly es ∧ s.Shows es ∧ s.isActive 2 = true ∧ s.activeWatches = 1 := by
  intro watch answer step run s es
  have hrest : s.AtRest := by decide +kernel
  have hes : es = [.opened 1, .opened 2, .opened 3, .unsubscribed 1, .reported 3] := by
    decide +kernel
  obtain ⟨horderly, hshows⟩ := bookkeeping_exact {} run
  exact ⟨hrest, hes, horderly, hshows hrest, by decide +kernel, by decide +kernel⟩

end System

end KeyBroker
