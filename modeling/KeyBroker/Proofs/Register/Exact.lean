import KeyBroker.Proofs.Register.Endings
import KeyBroker.Proofs.Register.Incidents

/-!
# The register against the episodes

The register lists the dispatchers that nobody told to stop, and until the broker is stopped
these are the subscriptions that live by what has befallen them. Numbers rise, so no number
is given out twice, and the journal counts the dispatchers that have begun.
-/

namespace KeyBroker

/-! ### Dispatchers in a list -/

namespace Dispatcher

/-- The numbers of the dispatchers that were not told to stop. -/
def roster (dispatchers : List Dispatcher) : List Nat :=
  (dispatchers.filter fun d => !d.cancelled).map (·.subscription.id)

/-- The dispatchers after that of subscription `id` was told to stop. -/
def cancel (dispatchers : List Dispatcher) (id : Nat) : List Dispatcher :=
  dispatchers.map fun d => if d.subscription.id = id then { d with cancelled := true } else d

variable {dispatchers before after : List Dispatcher} {d d' : Dispatcher}

/-- The roster of dispatchers in two lists is that of the first, then that of the second. -/
theorem roster_append (before after : List Dispatcher) :
    roster (before ++ after) = roster before ++ roster after := by
  simp [roster]

/-- A number is on the roster if a dispatcher has it that was not told to stop. -/
theorem mem_roster {id : Nat} :
    id ∈ roster dispatchers ↔ ∃ d ∈ dispatchers, d.cancelled = false ∧ d.subscription.id = id := by
  simp [roster, and_assoc]

/-- Telling a dispatcher to stop takes its number off the roster. -/
theorem roster_cancel (dispatchers : List Dispatcher) (id : Nat) :
    roster (cancel dispatchers id) =
      (roster dispatchers).filter fun other => decide (other ≠ id) := by
  induction dispatchers with
  | nil => rfl
  | cons d rest ih =>
    simp only [roster, cancel, List.map_cons, List.filter_cons] at ih ⊢
    by_cases hid : d.subscription.id = id <;> cases hcancelled : d.cancelled <;>
      simp [hid, hcancelled, ih]

/-- Removing a dispatcher takes its number off the roster. -/
theorem roster_remove (dispatchers : List Dispatcher) (id : Nat) :
    roster (dispatchers.filter fun d => decide (d.subscription.id ≠ id)) =
      (roster dispatchers).filter fun other => decide (other ≠ id) := by
  simp only [roster, List.filter_map, List.filter_filter]
  refine congrArg _ (List.filter_congr fun d _ => ?_)
  rw [Bool.and_comm]
  rfl

/-- Telling a dispatcher to stop leaves all numbers as they are. -/
theorem ids_cancel (dispatchers : List Dispatcher) (id : Nat) :
    (cancel dispatchers id).map (·.subscription.id) = dispatchers.map (·.subscription.id) := by
  rw [cancel, List.map_map]
  refine List.map_congr_left fun d _ => ?_
  simp only [Function.comp_apply]
  split <;> rfl

/-- Telling a dispatcher to stop leaves the number of those that have begun as it is. -/
theorem begun_cancel (dispatchers : List Dispatcher) (id : Nat) :
    (cancel dispatchers id).countP (fun d => decide (d.phase ≠ .starting)) =
      dispatchers.countP fun d => decide (d.phase ≠ .starting) := by
  rw [cancel, List.countP_map]
  refine List.countP_congr fun d _ => ?_
  simp only [Function.comp_apply]
  split <;> exact Iff.rfl

/-- One of the dispatchers stands among others with other numbers. -/
theorem exists_split (hids : (dispatchers.map (·.subscription.id)).Nodup) (hd : d ∈ dispatchers) :
    ∃ before after, dispatchers = before ++ d :: after ∧
      ∀ other ∈ before ++ after, other.subscription.id ≠ d.subscription.id := by
  obtain ⟨before, after, rfl⟩ := List.append_of_mem hd
  refine ⟨before, after, rfl, fun other hother heq => ?_⟩
  have hperm : (before ++ d :: after).Perm (d :: (before ++ after)) := List.perm_middle
  have hnodup := (hperm.map (·.subscription.id)).nodup_iff.1 hids
  rw [List.map_cons, List.nodup_cons] at hnodup
  exact hnodup.1 (heq ▸ List.mem_map_of_mem hother)

end Dispatcher

namespace Wiring

variable {w : Wiring} {before after : List Dispatcher} {d d' : Dispatcher}

/-- A dispatcher is replaced in its place, if no other has its number. -/
theorem dispatchers_withDispatcher (hsplit : w.dispatchers = before ++ d :: after)
    (hothers : ∀ other ∈ before ++ after, other.subscription.id ≠ d.subscription.id)
    (hsub : d'.subscription = d.subscription) :
    (w.withDispatcher d').dispatchers = before ++ d' :: after := by
  have hsame {others : List Dispatcher} (h : ∀ other ∈ others, other ∈ before ++ after) :
      (others.map fun other =>
        if other.subscription.id = d'.subscription.id then d' else other) = others := by
    refine (List.map_congr_left fun other hother => ?_).trans (List.map_id others)
    rw [hsub, if_neg (hothers other (h other hother)), id]
  simp only [withDispatcher, hsplit, List.map_append, List.map_cons, hsub, if_true]
  rw [← hsub, hsame fun other h => List.mem_append_left after h,
    hsame fun other h => List.mem_append_right before h]

end Wiring

namespace Books

open Dispatcher (roster cancel exists_split roster_append)
open Episode (bookAll opened?)

/-- The books agree with what has befallen subscriptions. -/
structure Exact (b : Books) (es : List Episode) : Prop where
  ids : (b.wiring.dispatchers.map (·.subscription.id)).Nodup
  fresh : ∀ d ∈ b.wiring.dispatchers, d.subscription.id < b.wiring.nextSubscription
  /-- The register lists the dispatchers that were not told to stop. -/
  listed : b.wiring.registered = roster b.wiring.dispatchers
  /-- Numbers are given out in rising order. -/
  rising : (es.filterMap opened?).Pairwise (· < ·)
  given : ∀ id ∈ es.filterMap opened?, 0 < id ∧ id < b.wiring.nextSubscription
  positive : 0 < b.wiring.nextSubscription
  stopped : b.wiring.stopped = true ↔ .shutDown ∈ es
  closing : b.closing = true → .shutDown ∈ es
  /-- Until the broker is stopped, the register lists the subscriptions that live. -/
  current : b.wiring.stopped = false → b.wiring.registered = bookAll es
  counted : b.running = b.wiring.dispatchers.countP fun d => decide (d.phase ≠ .starting)

variable {b b' : Books} {es more : List Episode}

/-- No subscription is registered twice. -/
theorem Exact.distinct (h : b.Exact es) : b.wiring.registered.Nodup := by
  rw [h.listed, roster]
  exact (List.filter_sublist.map _).nodup h.ids

/-- Dispatchers with the same number are the same. -/
theorem Exact.eq_of_id (h : b.Exact es) {d d' : Dispatcher} (hd : d ∈ b.wiring.dispatchers)
    (hd' : d' ∈ b.wiring.dispatchers) (hid : d.subscription.id = d'.subscription.id) : d = d' := by
  refine Wiring.eq_of_nodup (f := fun sub => sub.id) ?_ hd hd' hid
  rw [Wiring.subscriptions, List.map_map]
  exact h.ids

/-- Striking a number off the register once leaves it nowhere on it. -/
theorem Exact.erase_eq (h : b.Exact es) (id : Nat) :
    b.wiring.registered.erase id =
      b.wiring.registered.filter fun other => decide (other ≠ id) := by
  rw [h.distinct.erase_eq_filter]
  refine List.filter_congr fun other _ => ?_
  by_cases heq : other = id <;> simp [heq]

/-- The books of a new broker agree with nothing having happened. -/
theorem exact_new (settings : Settings) : (System.books { settings }).Exact [] where
  ids := .nil
  fresh _ hd := by cases hd
  listed := rfl
  rising := .nil
  given _ hid := by cases hid
  positive := Nat.one_pos
  stopped := by simp [System.books, System.wiring]
  closing := nofun
  current _ := rfl
  counted := rfl

/-! ### Changes -/

/-- The books stay exact in what concerns neither the register nor the dispatchers. -/
theorem Exact.around (h : b.Exact es) (beside : b.Beside b') : b'.Exact es where
  ids := beside.dispatchers ▸ h.ids
  fresh := by
    rw [beside.dispatchers, beside.next]
    exact h.fresh
  listed := by rw [beside.registered, beside.dispatchers, h.listed]
  rising := h.rising
  given := by
    rw [beside.next]
    exact h.given
  positive := beside.next ▸ h.positive
  stopped := beside.stopped ▸ h.stopped
  closing := beside.closing ▸ h.closing
  current := by
    rw [beside.stopped, beside.registered]
    exact h.current
  counted := by rw [beside.running, beside.dispatchers, h.counted]

/-- The books stay exact in a registration, which opens the next subscription. -/
theorem Exact.register (h : b.Exact es) (scope localStem : Key) (channel feed : Nat) :
    Exact { b with wiring := b.wiring.register scope localStem channel feed }
      (es ++ [.opened b.wiring.nextSubscription]) where
  ids := by
    simp only [Wiring.register, List.map_append, List.map_cons, List.map_nil]
    refine Wiring.nodup_concat h.ids fun id hid => ?_
    obtain ⟨d, hd, rfl⟩ := List.mem_map.1 hid
    exact h.fresh d hd
  fresh d hd := by
    rcases List.mem_append.1 hd with hd | hd
    · exact Nat.lt_succ_of_lt (h.fresh d hd)
    · rw [List.mem_singleton.1 hd]
      exact Nat.lt_succ_self _
  listed := by
    simp only [Wiring.register, roster_append, h.listed]
    rfl
  rising := by
    rw [List.filterMap_append, List.pairwise_append]
    refine ⟨h.rising, List.pairwise_singleton _ _, fun id hid new hnew => ?_⟩
    rw [List.mem_singleton.1 hnew]
    exact (h.given id hid).2
  given id hid := by
    simp only [Wiring.register]
    rw [List.filterMap_append] at hid
    rcases List.mem_append.1 hid with hid | hid
    · obtain ⟨hpositive, hlt⟩ := h.given id hid
      exact ⟨hpositive, Nat.lt_succ_of_lt hlt⟩
    · rw [List.mem_singleton.1 hid]
      exact ⟨h.positive, Nat.lt_succ_self _⟩
  positive := Nat.succ_pos _
  stopped := by simpa [Wiring.register] using h.stopped
  closing hclosing := List.mem_append_left _ (h.closing hclosing)
  current hstopped := by
    simp only [Wiring.register, Episode.bookAll_append, h.current hstopped]
    rfl
  counted := by
    simp only [Wiring.register, List.countP_append, h.counted]
    simp

/-- An episode about one subscription neither opens one nor stops the broker. -/
theorem filterMap_opened_concat {e : Episode} (h : e.opened? = none) :
    (es ++ [e]).filterMap opened? = es.filterMap opened? := by
  simp [List.filterMap_append, h]

/-- The books stay exact when a subscriber leaves. -/
theorem Exact.unsubscribe (h : b.Exact es) (id : Nat) :
    Exact { b with wiring := b.wiring.unsubscribe id } (es ++ [.unsubscribed id]) := by
  have hes : (es ++ [Episode.unsubscribed id]).filterMap opened? = es.filterMap opened? :=
    filterMap_opened_concat rfl
  have hbooked : bookAll (es ++ [.unsubscribed id]) =
      (bookAll es).filter fun other => decide (other ≠ id) := by
    rw [Episode.bookAll_append]
    refine List.filter_congr fun other _ => ?_
    simp [Episode.ends, eq_comm]
  have hshut : Episode.shutDown ∈ es ++ [.unsubscribed id] ↔ .shutDown ∈ es := by simp
  unfold Wiring.unsubscribe
  -- who is not registered cannot leave: then nothing changes, and nobody is struck off the books
  by_cases hmem : id ∈ b.wiring.registered
  · rw [if_pos hmem]
    exact {
      ids := (Dispatcher.ids_cancel b.wiring.dispatchers id).symm ▸ h.ids
      fresh := by
        intro d hd
        have hid : d.subscription.id ∈
            (cancel b.wiring.dispatchers id).map (·.subscription.id) := List.mem_map_of_mem hd
        rw [Dispatcher.ids_cancel] at hid
        obtain ⟨old, hold, heq⟩ := List.mem_map.1 hid
        exact heq ▸ h.fresh old hold
      listed := by
        refine (h.erase_eq id).trans ?_
        rw [h.listed]
        exact (Dispatcher.roster_cancel b.wiring.dispatchers id).symm
      rising := hes.symm ▸ h.rising
      given := by rw [hes]; exact h.given
      positive := h.positive
      stopped := by rw [hshut]; exact h.stopped
      closing := fun hclosing => List.mem_append_left _ (h.closing hclosing)
      current := fun hstopped => by
        rw [hbooked, ← h.current hstopped]
        exact h.erase_eq id
      counted := by
        rw [h.counted]
        exact congrArg _ (Dispatcher.begun_cancel b.wiring.dispatchers id).symm }
  · rw [if_neg hmem]
    exact { h with
      rising := hes.symm ▸ h.rising
      given := by rw [hes]; exact h.given
      stopped := by rw [hshut]; exact h.stopped
      closing := fun hclosing => List.mem_append_left _ (h.closing hclosing)
      current := fun hstopped => by
        rw [hbooked, ← h.current hstopped]
        refine (List.filter_eq_self.2 fun other hother => ?_).symm
        exact decide_eq_true fun heq => hmem (heq ▸ hother) }

/-- The books stay exact when the broker is shut down. -/
theorem Exact.stop (h : b.Exact es) (closing : Bool) :
    Exact { b with wiring := { b.wiring with stopped := true }, closing } (es ++ [.shutDown]) := by
  have hes : (es ++ [Episode.shutDown]).filterMap opened? = es.filterMap opened? :=
    filterMap_opened_concat rfl
  exact { h with
    rising := hes.symm ▸ h.rising
    given := by rw [hes]; exact h.given
    stopped := by simp
    closing := fun _ => by simp
    current := nofun }

/-- A dispatcher goes on with its subscription and its orders. -/
theorem Exact.replace (h : b.Exact es) {d d' : Dispatcher} (hd : d ∈ b.wiring.dispatchers)
    (hsub : d'.subscription = d.subscription) (hcancelled : d'.cancelled = d.cancelled)
    {running : Int} (hrunning : running + (if d.phase = .starting then 0 else 1) =
      b.running + if d'.phase = .starting then 0 else 1) :
    Exact { b with wiring := b.wiring.withDispatcher d', running } es := by
  obtain ⟨before, after, hsplit, hothers⟩ := exists_split h.ids hd
  have hafter := Wiring.dispatchers_withDispatcher hsplit hothers hsub
  have hids := h.ids
  have hlisted := h.listed
  have hcounted := h.counted
  rw [hsplit] at hids hlisted hcounted
  exact { h with
    ids := by
      rw [hafter]
      simpa [hsub] using hids
    fresh := by
      rw [hafter]
      intro other hother
      rcases List.mem_append.1 hother with hother | hother
      · exact h.fresh other (hsplit ▸ List.mem_append_left _ hother)
      · rcases List.mem_cons.1 hother with rfl | hother
        · exact hsub ▸ h.fresh d hd
        · exact h.fresh other (hsplit ▸ List.mem_append_right _ (List.mem_cons_of_mem _ hother))
    listed := by
      rw [hafter]
      refine hlisted.trans ?_
      simp only [roster, List.filter_append, List.filter_cons, hcancelled]
      split <;> simp [hsub]
    counted := by
      rw [hafter]
      simp only [List.countP_append, List.countP_cons] at hcounted ⊢
      by_cases hbefore : d.phase = .starting <;> by_cases hnow : d'.phase = .starting <;>
        simp [hbefore, hnow] at hcounted hrunning ⊢ <;> omega }

/-- A dispatcher ends, and if nobody told it to stop, this shows. -/
theorem Exact.remove (h : b.Exact es) {d : Dispatcher} (hd : d ∈ b.wiring.dispatchers)
    (hbegun : d.phase ≠ .starting) (feed : Nat) {ending : List Episode}
    (hending : ending = [] ∨ ending = [.reported d.subscription.id] ∨
      ending = [.abandoned d.subscription.id])
    (hshows : ending = [] → b.wiring.stopped = true ∨ d.cancelled = true) :
    Exact
      { b with
        wiring := b.wiring.endDispatcher d.subscription.id feed
        running := b.running - 1 }
      (es ++ ending) := by
  have hes : (es ++ ending).filterMap opened? = es.filterMap opened? := by
    rcases hending with rfl | rfl | rfl <;> simp [List.filterMap_append, opened?]
  have hshut : Episode.shutDown ∈ es ++ ending ↔ .shutDown ∈ es := by
    rcases hending with rfl | rfl | rfl <;> simp
  exact {
    ids := (List.filter_sublist.map _).nodup h.ids
    fresh := fun other hother => h.fresh other (List.mem_filter.1 hother).1
    listed := by
      refine (h.erase_eq _).trans ?_
      rw [h.listed]
      exact (Dispatcher.roster_remove b.wiring.dispatchers d.subscription.id).symm
    rising := hes.symm ▸ h.rising
    given := by rw [hes]; exact h.given
    positive := h.positive
    stopped := by rw [hshut]; exact h.stopped
    closing := fun hclosing => List.mem_append_left _ (h.closing hclosing)
    current := by
      intro hstopped
      have hstill : b.wiring.stopped = false := hstopped
      simp only [Wiring.endDispatcher]
      rw [Episode.bookAll_append, ← h.current hstopped]
      rcases hending with rfl | rfl | rfl
      -- an end without an episode: the dispatcher was told to stop, so it is not on the roster any
      -- more
      · have hcancelled : d.cancelled = true := by simpa [hstill] using hshows rfl
        refine List.erase_of_not_mem fun hmem => ?_
        rw [h.listed, Dispatcher.mem_roster] at hmem
        obtain ⟨other, hother, hnot, hid⟩ := hmem
        rw [h.eq_of_id hother hd hid, hcancelled] at hnot
        cases hnot
      all_goals
        rw [h.erase_eq]
        refine List.filter_congr fun other _ => ?_
        simp [Episode.ends, eq_comm]
    counted := by
      -- numbers are unique, so exactly one dispatcher goes
      obtain ⟨before, after, hsplit, hothers⟩ := exists_split h.ids hd
      have hcounted := h.counted
      have hkept : b.wiring.dispatchers.filter
          (fun other => decide (other.subscription.id ≠ d.subscription.id)) = before ++ after := by
        have hall : (before ++ after).filter
            (fun other => decide (other.subscription.id ≠ d.subscription.id)) = before ++ after :=
          List.filter_eq_self.2 fun other hother => decide_eq_true (hothers other hother)
        rw [hsplit, List.filter_append, List.filter_cons]
        rw [List.filter_append] at hall
        simpa using hall
      simp only [Wiring.endDispatcher]
      rw [hkept]
      rw [hsplit, List.countP_append, List.countP_cons_of_pos (by simpa using hbegun)] at hcounted
      rw [List.countP_append, hcounted]
      omega }

/-- The books stay exact in a step of a dispatcher, with what the step brings upon its
subscription. -/
theorem Exact.dispatch (h : b.Exact es) {d : Dispatcher} (hd : d ∈ b.wiring.dispatchers)
    (reportFirst : Bool) :
    (b.dispatch d reportFirst).Exact (es ++ b.wiring.endings d reportFirst) := by
  obtain ⟨hsub, hcancelled⟩ := Wiring.stepOf_dispatcher b.wiring d reportFirst
  have hbegun : (b.wiring.stepOf d reportFirst).dispatcher.phase ≠ .starting := by
    rw [Wiring.phase_stepOf]
    exact Dispatch.begun_step (b.wiring.dispatchOf d) _ _ reportFirst
  have hrunning : b.running + (if d.phase = .starting then 1 else 0) +
      (if d.phase = .starting then 0 else 1) =
        b.running +
          if (b.wiring.stepOf d reportFirst).dispatcher.phase = .starting then 0 else 1 := by
    rw [if_neg hbegun]
    split <;> omega
  -- first the dispatcher is replaced by itself as the step leaves it, then it is removed if it is
  -- over
  have hreplace := h.replace hd hsub hcancelled hrunning
  obtain ⟨hgoesOn, hends⟩ := (b.wiring.dispatchOf d).endings_step b.wiring.policy
    (b.wiring.stopped || d.cancelled) reportFirst
  have hcases := (b.wiring.dispatchOf d).endings_cases b.wiring.policy
    (b.wiring.stopped || d.cancelled) reportFirst
  cases hpace : (b.wiring.stepOf d reportFirst).pace with
  | «over» =>
    have hmem : (b.wiring.stepOf d reportFirst).dispatcher ∈
        (b.wiring.withDispatcher (b.wiring.stepOf d reportFirst).dispatcher).dispatchers :=
      List.mem_map.2 ⟨d, hd, by rw [hsub, if_pos rfl]⟩
    have hshows : b.wiring.endings d reportFirst = [] → b.wiring.stopped = true ∨
        (b.wiring.stepOf d reportFirst).dispatcher.cancelled = true := by
      intro hnone
      have hstop : (b.wiring.stopped || d.cancelled) ≠ false := fun hstop => hends hpace hstop hnone
      rw [hcancelled, ← Bool.or_eq_true]
      exact eq_true_of_ne_false hstop
    have hremove := hreplace.remove hmem hbegun d.subscription.feed
      (by rw [hsub]; exact hcases) hshows
    rw [hsub] at hremove
    simp only [Books.dispatch, Wiring.dispatch, Books.counted, hpace]
    exact { hremove with
      counted := by
        have hcounted := hremove.counted
        simp only [if_true]
        rw [← Int.add_sub_assoc]
        exact hcounted }
  | _ =>
    have hnone : b.wiring.endings d reportFirst = [] :=
      hgoesOn fun hover => by
        have hover' : (b.wiring.stepOf d reportFirst).pace = .over := hover
        rw [hpace] at hover'
        cases hover'
    rw [hnone, List.append_nil]
    simp only [Books.dispatch, Wiring.dispatch, Books.counted, hpace]
    exact { hreplace with
      counted := by
        have hcounted := hreplace.counted
        simp only [reduceCtorEq, if_false, Int.sub_zero]
        exact hcounted }

/-- The books stay exact in a change that no dispatcher makes, with its episodes. -/
theorem Exact.shift (h : b.Exact es) (hshift : Shift b more b') : b'.Exact (es ++ more) := by
  cases hshift with
  | around beside => exact (List.append_nil es).symm ▸ h.around beside
  | register scope localStem channel feed => exact h.register scope localStem channel feed
  | unsubscribe id => exact h.unsubscribe id
  | stop closing grows => exact h.stop closing

/-- The books stay exact in such changes in order, with all their episodes. -/
theorem Exact.shifts (h : b.Exact es) (hshifts : Shifts b more b') : b'.Exact (es ++ more) := by
  induction hshifts generalizing es with
  | nil => exact (List.append_nil es).symm ▸ h
  | cons first _ ih =>
    rw [← List.append_assoc]
    exact ih (h.shift first)

/-- The books stay exact. -/
theorem Exact.course (h : b.Exact es) (hcourse : Course b more b') : b'.Exact (es ++ more) := by
  cases hcourse with
  | shifts shifts => exact h.shifts shifts
  | dispatch d reportFirst works => exact h.dispatch works reportFirst
  | rest d works =>
    have hsub : d.refreshed.subscription = d.subscription := rfl
    exact (List.append_nil es).symm ▸ h.replace works hsub rfl rfl

end Books

namespace System

open Books (Course)

variable {s : System} {es : List Episode}

/-! ### Runs -/

/-- What holds of every system after a run, with what has befallen subscriptions in it. -/
structure Kept (s : System) (es : List Episode) : Prop where
  exact : s.books.Exact es
  booked : s.desk.Booked

/-- A new system is kept, with nothing having befallen a subscription. -/
theorem kept_new (settings : Settings) : Kept { settings } [] where
  exact := Books.exact_new settings
  booked := booked_new settings

/-- A broker of which closing was asked is stopped. -/
theorem Kept.closing (h : s.Kept es) (hclosing : s.closing = true) : s.stopped = true :=
  h.exact.stopped.2 (h.exact.closing hclosing)

/-- An incident does to the books of a kept system what one incident may do to them. -/
theorem Kept.course (h : s.Kept es) (i : Incident) :
    Course s.books (s.befalls i) (s.incur i).books :=
  course_incur h.booked h.closing i

/-- A kept system stays so in an incident, with what befalls subscriptions in it. -/
theorem Kept.incur (h : s.Kept es) (i : Incident) : (s.incur i).Kept (es ++ s.befalls i) where
  exact := h.exact.course (h.course i)
  booked := by
    cases i with
    | occur o =>
      cases o with
      | move m =>
        by_cases hpoll : ∃ id reportFirst, m = .poll (.call id) reportFirst
        · obtain ⟨id, reportFirst, rfl⟩ := hpoll
          simp only [System.incur, occur, move]
          cases hfind : s.desk.call? id with
          | none =>
            rw [pollCall_of_gone hfind]
            exact h.booked
          | some c =>
            have hid := Desk.id_of_call? hfind
            subst hid
            rcases responds_pollCall hfind with ⟨hsame, _⟩ | hresponds
            · rw [hsame]
              exact h.booked
            · exact hresponds.booked h.booked hfind
        · exact (deals_move_of_ne fun id reportFirst heq => hpoll ⟨id, reportFirst, heq⟩).booked
            h.booked
      | signal n signal => exact h.booked.beside _
      | _ => exact h.booked
    | plan line => exact h.booked
    | finish n => exact h.booked.beside _

/-- A kept system stays so in incidents in order. -/
theorem Kept.incurs (h : s.Kept es) (run : List Incident) :
    (s.incurs run).Kept (es ++ s.episodes run) := by
  induction run generalizing s es with
  | nil => exact (List.append_nil es).symm ▸ h
  | cons i run ih =>
    have hrest := ih (h.incur i)
    rw [List.append_assoc] at hrest
    exact hrest

/-- Every run from a new system is kept, with the episodes that it brings upon subscriptions. -/
theorem kept_incurs (settings : Settings) (run : List Incident) :
    (incurs { settings } run).Kept (episodes { settings } run) :=
  (kept_new settings).incurs run

end System

end KeyBroker
