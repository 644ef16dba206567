import KeyBroker.Proofs.Following.Meanwhile
import KeyBroker.Proofs.Independence.Outlet
import KeyBroker.Proofs.Register.Silence

/-!
# Every subscription has a feed of its own

In every run, whatever the script makes up, subscriptions read different feeds, nobody stands
in line before a channel with room, and a dispatcher is told to stop only when its subscriber
unsubscribes.
-/

namespace KeyBroker

namespace Books

open Episode (Left)

variable {b b' : Books} {past es : List Episode}

/-- Every dispatcher has a subscription that was opened, and one that was told to stop has a
subscriber that left. -/
structure Bidden (b : Books) (past : List Episode) : Prop where
  opened : ∀ d ∈ b.wiring.dispatchers, .opened d.subscription.id ∈ past
  left : ∀ d ∈ b.wiring.dispatchers, d.cancelled = true → Left past d.subscription.id

namespace Bidden

/-- Nobody is told to stop. -/
theorem keep (h : b.Bidden past) (es : List Episode)
    (hsame : ∀ d' ∈ b'.wiring.dispatchers, ∃ d ∈ b.wiring.dispatchers,
      d'.subscription = d.subscription ∧ (d'.cancelled = true → d.cancelled = true)) :
    b'.Bidden (past ++ es) where
  opened d' hd' := by
    obtain ⟨d, hd, hsub, _⟩ := hsame d' hd'
    exact hsub ▸ List.mem_append_left _ (h.opened d hd)
  left d' hd' hcancelled := by
    obtain ⟨d, hd, hsub, hbefore⟩ := hsame d' hd'
    exact hsub ▸ (h.left d hd (hbefore hcancelled)).append es

/-- Unsubscribing tells a dispatcher to stop whose subscriber has left by that. -/
theorem unsubscribe (h : b.Bidden past) (id : Nat) :
    Bidden { b with wiring := b.wiring.unsubscribe id } (past ++ [.unsubscribed id]) := by
  simp only [Wiring.unsubscribe]
  split
  · constructor
    · intro d' hd'
      obtain ⟨d, hd, rfl⟩ := List.mem_map.1 hd'
      split <;> exact List.mem_append_left _ (h.opened d hd)
    · intro d' hd' hcancelled
      obtain ⟨d, hd, rfl⟩ := List.mem_map.1 hd'
      split
      · next hid => exact ⟨past, [], by rw [hid], h.opened d hd⟩
      · next hid =>
        rw [if_neg hid] at hcancelled
        exact (h.left d hd hcancelled).append _
  · exact h.keep _ fun d hd => ⟨d, hd, rfl, fun hstop => hstop⟩

/-- A change of the books that no dispatcher makes keeps dispatchers bidden. -/
theorem shift (h : b.Bidden past) (hshift : Shift b es b') : b'.Bidden (past ++ es) := by
  cases hshift with
  | around beside => exact h.keep [] fun d hd => ⟨d, beside.dispatchers ▸ hd, rfl, id⟩
  | register scope localStem channel feed =>
    constructor
    · intro d hd
      rcases List.mem_append.1 hd with hd | hd
      · exact List.mem_append_left _ (h.opened d hd)
      · rw [List.mem_singleton.1 hd]
        exact List.mem_append_right _ (List.mem_singleton.2 rfl)
    · intro d hd hcancelled
      rcases List.mem_append.1 hd with hd | hd
      · exact (h.left d hd hcancelled).append _
      · rw [List.mem_singleton.1 hd] at hcancelled
        cases hcancelled
  | unsubscribe id => exact h.unsubscribe id
  | stop closing grows => exact h.keep _ fun d hd => ⟨d, hd, rfl, id⟩

/-- Changes of the books in order keep dispatchers bidden. -/
theorem shifts (h : b.Bidden past) (hshifts : Shifts b es b') : b'.Bidden (past ++ es) := by
  induction hshifts generalizing past with
  | nil => rwa [List.append_nil]
  | cons first _ ih =>
    rw [← List.append_assoc]
    exact ih (h.shift first)

/-- What one incident does to the books keeps dispatchers bidden. -/
theorem course (h : b.Bidden past) (hcourse : Course b es b') : b'.Bidden (past ++ es) := by
  cases hcourse with
  | shifts shifts => exact h.shifts shifts
  | dispatch d reportFirst works =>
    obtain ⟨hsub, hcancelled⟩ := Wiring.stepOf_dispatcher b.wiring d reportFirst
    refine h.keep _ fun d' hd' => ?_
    rcases Wiring.mem_dispatch hd' hsub with ⟨rfl, _⟩ | ⟨hold, _⟩
    · exact ⟨d, works, hsub, fun hstop => hcancelled ▸ hstop⟩
    · exact ⟨d', hold, rfl, id⟩
  | rest d works =>
    refine h.keep [] fun d' hd' => ?_
    obtain ⟨other, hother, rfl⟩ := List.mem_map.1 hd'
    split
    · exact ⟨d, works, rfl, id⟩
    · exact ⟨other, hother, rfl, id⟩

end Bidden

end Books

namespace Wiring

variable {w w' : Wiring} {d : Dispatcher}

/-- What holds of the feeds and channels of every wiring in a run. -/
structure Supplied (w : Wiring) : Prop where
  numbered : ∀ d ∈ w.dispatchers, 0 < d.subscription.id
  /-- A stem is the one that the subscriber gave, in its scope. -/
  named : ∀ d ∈ w.dispatchers,
    d.subscription.stem = d.subscription.scope.qualify d.subscription.localStem
  feeds : (w.subscriptions.map (·.feed)).Nodup
  opened : ∀ d ∈ w.dispatchers, d.subscription.feed < w.store.feeds.length
  tight : ∀ n, (w.channel n).Tight
  /-- A dispatcher that has not begun has dropped nothing. -/
  unused : ∀ d ∈ w.dispatchers, d.phase = .starting → d.missed = 0

/-- The wiring of a new system has no feeds and no channels to look after. -/
theorem supplied_new (settings : Settings) : (System.wiring { settings }).Supplied where
  numbered _ hd := by cases hd
  named _ hd := by cases hd
  feeds := .nil
  opened _ hd := by cases hd
  tight _ := tight_of_unmade (Nat.zero_le _)
  unused _ hd := by cases hd

/-- A dispatcher is an old one, where it was, or the one that was entered. -/
theorem Meanwhile.mem_dispatchers (h : w.Meanwhile w') {d' : Dispatcher}
    (hd' : d' ∈ w'.dispatchers) :
    (∃ d ∈ w.dispatchers, d'.Resembles d) ∨
      d'.missed = 0 ∧ w.Enters w' d'.subscription := by
  obtain ⟨new, ⟨f, hdispatchers, hf⟩, hnew⟩ := h.dispatchers
  rw [hdispatchers] at hd'
  rcases List.mem_append.1 hd' with hd' | hd'
  · obtain ⟨d, hd, rfl⟩ := List.mem_map.1 hd'
    exact .inl ⟨d, hd, (hf d hd).1⟩
  · rcases hnew with rfl | ⟨sub, rfl, henters⟩
    · cases hd'
    · rw [List.mem_singleton.1 hd']
      exact .inr ⟨rfl, henters⟩

/-- While no dispatcher takes a step at most one subscription comes in, on a feed opened for it. -/
theorem Meanwhile.subscriptions (h : w.Meanwhile w') :
    w'.subscriptions = w.subscriptions ∨
      ∃ sub, w'.subscriptions = w.subscriptions ++ [sub] ∧ w.Opens w' sub.feed := by
  obtain ⟨new, ⟨f, hdispatchers, hf⟩, hnew⟩ := h.dispatchers
  have hkept : (w.dispatchers.map f).map (·.subscription) = w.subscriptions := by
    rw [List.map_map, Wiring.subscriptions]
    exact List.map_congr_left fun d hd => (hf d hd).1.subscription
  rcases hnew with rfl | ⟨sub, rfl, _, _, hopens⟩
  · exact .inl (by rw [Wiring.subscriptions, hdispatchers, List.append_nil, hkept])
  · refine .inr ⟨sub, ?_, hopens⟩
    rw [Wiring.subscriptions, hdispatchers, List.map_append, hkept, List.map_singleton]

/-- A supplied wiring stays so while no dispatcher takes a step. -/
theorem Supplied.meanwhile (h : w.Supplied) (hpositive : 0 < w.nextSubscription)
    (hmeanwhile : w.Meanwhile w') : w'.Supplied where
  numbered d' hd' := by
    rcases hmeanwhile.mem_dispatchers hd' with ⟨d, hd, hlike⟩ | ⟨_, henters⟩
    · rw [hlike.subscription]
      exact h.numbered d hd
    · rw [henters.number]
      exact hpositive
  named d' hd' := by
    rcases hmeanwhile.mem_dispatchers hd' with ⟨d, hd, hlike⟩ | ⟨_, henters⟩
    · rw [hlike.subscription]
      exact h.named d hd
    · exact henters.stem
  feeds := by
    rcases hmeanwhile.subscriptions with hsame | ⟨sub, hnew, hopens⟩
    · rw [hsame]
      exact h.feeds
    · rw [hnew, List.map_append]
      refine nodup_concat h.feeds fun n hn => ?_
      obtain ⟨other, hother, rfl⟩ := List.mem_map.1 hn
      obtain ⟨d, hd, rfl⟩ := List.mem_map.1 hother
      exact Nat.lt_of_lt_of_le (h.opened d hd) hopens.later
  opened d' hd' := by
    rcases hmeanwhile.mem_dispatchers hd' with ⟨d, hd, hlike⟩ | ⟨_, henters⟩
    · rw [hlike.subscription]
      exact Nat.lt_of_lt_of_le (h.opened d hd) hmeanwhile.grows
    · exact henters.opens.opened
  tight n := by
    by_cases hn : n < w.channels.length
    · exact (hmeanwhile.tended n hn).tight (h.tight n)
    · exact hmeanwhile.tight n (Nat.le_of_not_lt hn)
  unused d' hd' hphase := by
    rcases hmeanwhile.mem_dispatchers hd' with ⟨d, hd, hlike⟩ | ⟨hmissed, _⟩
    · rw [hlike.missed]
      exact h.unused d hd (hlike.phase ▸ hphase)
    · exact hmissed

/-- No step of a dispatcher enters a subscription. -/
theorem subscriptions_dispatch
    (hids : ∀ other ∈ w.dispatchers, other.subscription.id = d.subscription.id → other = d)
    (reportFirst : Bool) : (w.dispatch d reportFirst).subscriptions.Sublist w.subscriptions := by
  obtain ⟨hsub, _⟩ := stepOf_dispatcher w d reportFirst
  have hkept : (w.withDispatcher (w.stepOf d reportFirst).dispatcher).subscriptions =
      w.subscriptions := by
    simp only [Wiring.subscriptions, withDispatcher, List.map_map, hsub]
    refine List.map_congr_left fun other hother => ?_
    simp only [Function.comp]
    split
    · next hid => rw [hsub, hids other hother hid]
    · rfl
  rw [← hkept]
  simp only [dispatch]
  split
  · exact List.filter_sublist.map _
  · exact List.Sublist.refl _

/-- A step of a dispatcher opens no feed and makes no channel. -/
theorem length_dispatch (w : Wiring) (d : Dispatcher) (reportFirst : Bool) :
    (w.dispatch d reportFirst).store.feeds.length = w.store.feeds.length ∧
      (w.dispatch d reportFirst).channels.length = w.channels.length := by
  simp only [dispatch]
  split <;> simp [endDispatcher, withDispatcher, onChannel, Store.onFeed]

/-- A channel after a step is the one of the dispatcher as the step leaves it, or untouched. -/
theorem tended_dispatch (w : Wiring) (d : Dispatcher) (reportFirst : Bool) (n : Nat) :
    (w.channel n).Tended ((w.dispatch d reportFirst).channel n) := by
  rw [channel_dispatch]
  split
  · next hn =>
    obtain ⟨rfl, _⟩ := hn
    exact Dispatch.tended_step (w.dispatchOf d) _ _ _
  · exact .refl _

/-- A supplied wiring stays so in a step of a dispatcher. -/
theorem Supplied.dispatch (h : w.Supplied) (hd : d ∈ w.dispatchers)
    (hids : ∀ other ∈ w.dispatchers, other.subscription.id = d.subscription.id → other = d)
    (reportFirst : Bool) : (w.dispatch d reportFirst).Supplied := by
  obtain ⟨hsub, _⟩ := stepOf_dispatcher w d reportFirst
  obtain ⟨hlength, _⟩ := length_dispatch w d reportFirst
  have hmem {d' : Dispatcher} (hd' : d' ∈ (w.dispatch d reportFirst).dispatchers) :
      ∃ old ∈ w.dispatchers, d'.subscription = old.subscription := by
    rcases mem_dispatch hd' hsub with ⟨rfl, _⟩ | ⟨hold, _⟩
    · exact ⟨d, hd, hsub⟩
    · exact ⟨d', hold, rfl⟩
  exact {
    numbered := fun d' hd' => by
      obtain ⟨old, hold, heq⟩ := hmem hd'
      rw [heq]
      exact h.numbered old hold
    named := fun d' hd' => by
      obtain ⟨old, hold, heq⟩ := hmem hd'
      rw [heq]
      exact h.named old hold
    feeds := ((subscriptions_dispatch hids reportFirst).map _).nodup h.feeds
    opened := fun d' hd' => by
      obtain ⟨old, hold, heq⟩ := hmem hd'
      rw [heq, hlength]
      exact h.opened old hold
    tight := fun n => (tended_dispatch w d reportFirst n).tight (h.tight n)
    unused := fun d' hd' hphase => by
      rcases mem_dispatch hd' hsub with ⟨rfl, _⟩ | ⟨hold, _⟩
      · rw [phase_stepOf] at hphase
        exact absurd hphase (Dispatch.begun_step (w.dispatchOf d) _ _ _)
      · exact h.unused d' hold hphase }

end Wiring

namespace System

variable {s : System} {es : List Episode}

/-- What holds of every system after a run, with what has befallen subscriptions in it. -/
structure Supplied (s : System) (es : List Episode) : Prop extends s.Kept es where
  supplied : s.wiring.Supplied
  bidden : s.books.Bidden es

/-- A new system, in which nothing has befallen a subscription, is supplied. -/
theorem supplied_new (settings : Settings) : Supplied { settings } [] where
  toKept := kept_new settings
  supplied := Wiring.supplied_new settings
  bidden := ⟨nofun, nofun⟩

/-- A supplied system stays so in an incident, with what befalls subscriptions in it. -/
theorem Supplied.incur (h : s.Supplied es) (i : Incident) :
    (s.incur i).Supplied (es ++ s.befalls i) where
  toKept := h.toKept.incur i
  supplied := by
    cases hstepper : s.stepper? i with
    | none => exact h.supplied.meanwhile h.exact.positive (h.toKept.meanwhile hstepper)
    | some step =>
      obtain ⟨hd, hwiring⟩ := wiring_of_stepper hstepper
      rw [hwiring]
      exact h.supplied.dispatch hd (fun other hother hid => h.exact.eq_of_id hother hd hid) step.2
  bidden := h.bidden.course (h.toKept.course i)

/-- A supplied system stays so in incidents in order. -/
theorem Supplied.incurs (h : s.Supplied es) (run : List Incident) :
    (s.incurs run).Supplied (es ++ s.episodes run) := by
  induction run generalizing s es with
  | nil => exact (List.append_nil es).symm ▸ h
  | cons i run ih =>
    have hrest := ih (h.incur i)
    rw [List.append_assoc] at hrest
    exact hrest

end System

end KeyBroker
