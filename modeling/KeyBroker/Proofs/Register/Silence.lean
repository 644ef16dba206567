import KeyBroker.Proofs.Register.Exact

/-!
# Subscribers that have left

Once a subscriber has unsubscribed, its dispatcher is told to stop, or the whole broker is.
From then on it sends neither events nor reports of dropped events, whatever happens.
-/

namespace KeyBroker

/-- The loss of a feed is reported. -/
def Item.IsReport (item : Item) : Prop :=
  ∃ stem reason, item = .error (.watchStreamBroken stem reason)

namespace Episode

/-- A subscription was opened, and then its subscriber left. -/
def Left (es : List Episode) (id : Nat) : Prop :=
  ∃ before after, es = before ++ .unsubscribed id :: after ∧ .opened id ∈ before

variable {es : List Episode} {id : Nat}

/-- A subscriber that has left stays gone whatever comes after. -/
theorem Left.append (h : Left es id) (more : List Episode) : Left (es ++ more) id := by
  obtain ⟨before, after, rfl, hopened⟩ := h
  exact ⟨before, after ++ more, by simp, hopened⟩

/-- A subscription that lives was opened. -/
theorem opened_of_lives (h : Lives es id) : .opened id ∈ es := by
  obtain ⟨before, after, rfl, _⟩ := h
  simp

/-- A subscription that was left does not live again, as its number is not given out twice. -/
theorem Left.not_lives (h : Left es id) (hrising : (es.filterMap opened?).Pairwise (· < ·)) :
    ¬Lives es id := by
  obtain ⟨before, after, rfl, hopened⟩ := h
  rw [← mem_bookAll_iff, bookAll_append, List.foldl_cons, mem_foldl_book]
  rintro (⟨hmem, _⟩ | hlives)
  · rw [mem_book] at hmem
    simp [ends] at hmem
  · rw [List.filterMap_append, List.pairwise_append] at hrising
    have hbefore : id ∈ before.filterMap opened? := List.mem_filterMap.2 ⟨_, hopened, rfl⟩
    have hafter : id ∈ (.unsubscribed id :: after).filterMap opened? :=
      List.mem_filterMap.2 ⟨_, List.mem_cons_of_mem _ (opened_of_lives hlives), rfl⟩
    exact Nat.lt_irrefl id (hrising.2.2 id hbefore id hafter)

end Episode

/-- What a step of a dispatcher adds to channels. -/
theorem Wiring.flows_dispatch {w : Wiring} {d : Dispatcher} {reportFirst : Bool}
    {allowed : Nat × Item → Prop} {items : List Item}
    (hgains : Channel.Gains (w.channel d.subscription.channel)
      (w.stepOf d reportFirst).after.channel d.subscription.id items)
    (hallowed : ∀ item ∈ items, allowed (d.subscription.id, item)) (n : Nat) :
    Channel.Flows allowed (w.channel n) ((w.dispatch d reportFirst).channel n) := by
  rw [channel_dispatch]
  split
  · next hn =>
    obtain ⟨rfl, _⟩ := hn
    refine ⟨_, items.map (d.subscription.id, ·), List.suffix_refl _, hgains.items_eq, ?_⟩
    intro e he
    obtain ⟨item, hitem, rfl⟩ := List.mem_map.1 he
    exact hallowed item hitem
  · exact .of_same rfl

namespace Books

open Episode (Left Lives)

variable {b b' : Books} {es more : List Episode} {id : Nat}

/-- The dispatcher of a subscriber that has left is to stop. -/
theorem Exact.stops (h : b.Exact es) (hleft : Left es id) {d : Dispatcher}
    (hd : d ∈ b.wiring.dispatchers) (hid : d.subscription.id = id) :
    (b.wiring.stopped || d.cancelled) = true := by
  cases hstopped : b.wiring.stopped with
  | true => rfl
  | false =>
    cases hcancelled : d.cancelled with
    | true => rfl
    | false =>
      have hmem : id ∈ Dispatcher.roster b.wiring.dispatchers :=
        Dispatcher.mem_roster.2 ⟨d, hd, hcancelled, hid⟩
      rw [← h.listed, h.current hstopped, Episode.mem_bookAll_iff] at hmem
      exact absurd hmem (hleft.not_lives h.rising)

/-- The number of a subscription whose subscriber left is one from one on, as all are. -/
theorem Exact.positive_of_left (h : b.Exact es) (hleft : Left es id) : 0 < id := by
  obtain ⟨before, after, rfl, hopened⟩ := hleft
  refine (h.given id (List.mem_filterMap.2 ⟨.opened id, ?_, rfl⟩)).1
  exact List.mem_append_left _ hopened

/-- What may be sent for a subscriber that has left. -/
def Quiet (id : Nat) (e : Nat × Item) : Prop := e.1 = id → e.2.IsReport

/-- Whatever happens, nothing but the report of a lost feed is sent for a subscriber that has
left. -/
theorem Exact.quiet (h : b.Exact es) (hleft : Left es id) (hcourse : Course b more b') (n : Nat) :
    Channel.Flows (Quiet id) (b.wiring.channel n) (b'.wiring.channel n) := by
  cases hcourse with
  | shifts shifts =>
    refine (shifts.flows n).mono fun e hothers heq => ?_
    have hpositive := h.positive_of_left hleft
    rw [← heq, hothers] at hpositive
    cases hpositive
  | rest d works => exact .of_same rfl
  | dispatch d reportFirst works =>
    by_cases hid : d.subscription.id = id
    · obtain ⟨items, hkeeps, hreports⟩ :=
        (b.wiring.dispatchOf d).keeps_step_of_stop b.wiring.policy reportFirst
      rw [← h.stops hleft works hid] at hkeeps
      refine Wiring.flows_dispatch hkeeps.channel (fun item hitem _ => ?_) n
      obtain ⟨reason, _, rfl⟩ := hreports item hitem
      exact ⟨_, _, rfl⟩
    · obtain ⟨items, hkeeps⟩ := Wiring.keeps_stepOf b.wiring d reportFirst
      exact Wiring.flows_dispatch hkeeps.channel (fun _ _ heq => absurd heq hid) n

end Books

end KeyBroker
