import KeyBroker.Proofs.Delivery.Block
import KeyBroker.Proofs.System.Shelter

/-!
# Watches that nobody breaks

Nothing breaks the native watches of a broker that runs, on a store that can be reached.
Under the blocking policy a subscription then runs until its dispatcher ends: what has
been received is the beginning of what is owed, and all of it once no item is on the way.
-/

namespace KeyBroker

namespace Wiring

variable {w w' : Wiring} {hs : List Happening} {sub : Subscription} {got owed : List Item}

/-- A subscription runs, or its dispatcher has ended. -/
inductive Attended (w : Wiring) (sub : Subscription) (got owed : List Item) : Prop where
  | runs (d : Dispatcher) (events : List Event) (runs : w.Runs sub got owed d events) :
    Attended w sub got owed
  | ended (none : ∀ d ∈ w.dispatchers, d.subscription.id ≠ sub.id)
    (ends : w.Ends sub got owed) : Attended w sub got owed

/-- A watch that still stands was not broken. -/
theorem Follows.attended (h : w.Follows sub got owed)
    (hstands : { feed := sub.feed, stem := sub.stem } ∈ w.store.watchers) :
    w.Attended sub got owed := by
  cases h with
  | runs d events runs => exact .runs d events runs
  | ended none ends => exact .ended none ends
  | broken none old => exact absurd hstands none

/-- A subscription whose dispatcher has ended gets none again. -/
theorem Ends.none_changes (h : w.Ends sub got owed)
    (hnone : ∀ d ∈ w.dispatchers, d.subscription.id ≠ sub.id) (hchanges : Changes w hs w') :
    ∀ d ∈ w'.dispatchers, d.subscription.id ≠ sub.id := by
  induction hchanges generalizing got owed with
  | nil => exact hnone
  | cons first _ ih => exact ih (h.change first) (first.not_mem h.old hnone)

/-- A subscription stays attended through changes that break no native watch. -/
theorem Attended.changes (h : w.Attended sub got owed) (hsound : w.Sound)
    (hpolicy : w.policy = .block) (hchanges : Changes w hs w')
    (hunbroken : ∀ n stem, w.store.Watched n stem → { feed := n, stem } ∈ w'.store.watchers) :
    w'.Attended sub (got ++ sub.got hs) (owed ++ sub.owed hs) := by
  cases h with
  | runs d events runs =>
    exact (Follows.runs d events runs |>.changes hsound hpolicy hchanges).attended
      (hunbroken _ _ runs.watched)
  | ended none ends => exact .ended (ends.none_changes none hchanges) (ends.changes hchanges)

end Wiring

namespace System

variable {s : System} {sub : Subscription} {got owed : List Item}

/-- A registered subscription of which no item is on the way to its receiver. -/
structure Idles (s : System) (sub : Subscription) : Prop where
  registered : sub.id ∈ s.registered
  received : (s.channel sub.channel).received = true
  channel : s.queued sub = []
  hand : ∀ d ∈ s.dispatchers, d.subscription = sub → d.phase.held = []
  feed : (s.store.feed sub.feed).queue = []

/-- What was received of a subscription is the beginning of what is owed, and all of it when no
item is on the way. -/
structure Delivers (s : System) (sub : Subscription) (got owed : List Item) : Prop where
  front : got <+: owed
  all : s.Idles sub → got = owed

/-- To an attended subscription is delivered what is owed, from the front, and all of it once
nothing is on the way. -/
theorem delivers_of_attended (hsound : s.wiring.Sound) (h : s.wiring.Attended sub got owed) :
    s.Delivers sub got owed := by
  cases h with
  | runs d events runs =>
    refine ⟨(List.prefix_append _ _).trans runs.front, fun hidle => ?_⟩
    have hkept : ¬ s.wiring.Lost sub := fun hlost => by
      have hgone : (s.channel sub.channel).received = false := hlost.2
      rw [hidle.received] at hgone
      cases hgone
    have hqueued : s.wiring.queued sub = [] := hidle.channel
    have hread : events = [] := by
      have hqueue := runs.queue
      have hempty : (s.wiring.store.feed sub.feed).queue = [] := hidle.feed
      rw [hempty] at hqueue
      exact List.map_eq_nil_iff.1 hqueue.symm
    have hall := runs.all hkept
    rw [hqueued, hidle.hand d runs.works runs.subscription, hread, List.append_nil] at hall
    exact (List.append_nil got).symm.trans hall
  | ended none ends =>
    refine ⟨(List.prefix_append _ _).trans ends.front, fun hidle => ?_⟩
    obtain ⟨other, hother, hid⟩ := List.mem_map.1 (hsound.served _ hidle.registered)
    obtain ⟨d, hd, rfl⟩ := List.mem_map.1 hother
    exact absurd hid (none d hd)

/-- A call that opens a subscription leaves its watch standing. -/
theorem stands_of_comesOf {call : Call} (hopened : .opened sub ∈ s.comesOf call) :
    { feed := sub.feed, stem := sub.stem } ∈
      (s.store.serve s.instant call.request).store.watchers := by
  have hmem := (List.mem_append.1 hopened).resolve_left fun hcommitted => by
    obtain ⟨event, _, heq⟩ := List.mem_map.1 hcommitted
    cases heq
  have hwatch {scope stem : Key} {channel : Nat} (hmem : .opened sub ∈ s.opens scope stem channel) :
      { feed := sub.feed, stem := sub.stem } ∈
        (s.store.serve s.instant (.watch (scope.qualify stem))).store.watchers := by
    unfold opens at hmem
    split at hmem
    · next feed hok =>
      obtain ⟨rfl, hserve⟩ := Store.serve_watch_of_ok hok
      obtain rfl := Happening.opened.inj (List.mem_singleton.1 hmem)
      rw [hserve]
      exact List.mem_append_right _ List.mem_cons_self
    · cases hmem
  cases call with
  | watch scope stem channel => exact hwatch hmem
  | watchAll scope channel held stem rest => exact hwatch hmem
  | _ => exact absurd hmem List.not_mem_nil

/-- So does a move. -/
theorem Shelters.stands_of_opened {scope : Key} (h : s.Shelters scope) {m : Move}
    (hopened : .opened sub ∈ s.happens m) : (s.move m).Stands sub := by
  cases m with
  | poll worker reportFirst =>
    cases worker with
    | dispatcher id => cases hopened
    | call id =>
      cases hfound : s.desk.call? id with
      | none =>
        rw [happens_of_gone hfound] at hopened
        cases hopened
      | some c =>
        obtain ⟨hact, hacts⟩ := pollCall_eq_act h.script h.running hfound
          (h.calls c (Desk.mem_of_call? hfound)).1
        have hstore : (s.move (.poll (.call id) reportFirst)).store =
            (s.store.serve s.instant c.call.request).store :=
          (congrArg System.store hact).trans (store_act s c s.now)
        rw [happens_of_actsOn hfound hacts] at hopened
        rw [Stands, hstore]
        exact stands_of_comesOf hopened
  | ask request =>
    obtain ⟨event, _, heq⟩ := List.mem_map.1 hopened
    cases heq
  | receive n =>
    simp only [happens, receives] at hopened
    split at hopened
    · cases hopened
    · cases List.mem_singleton.1 hopened
  | _ => cases hopened

end System

end KeyBroker
