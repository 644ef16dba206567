import KeyBroker.Proofs.Independence.Actions

/-!
# Subscriptions are independent

Two runs of a broker are the same to a subscriber who does the same in both, however the
others differ: in both, what is shown settles to the same core before every action.
-/

namespace KeyBroker.Subscriber

variable {a b : Subscriber} {c : Core}

/-- Two subscribers who show the same core and do the same are told the same. -/
theorem Shows.observes_eq {run run' : List Stage} (ha : a.Shows c) (hb : b.Shows c)
    (hplan : run.map (·.action) = run'.map (·.action)) (hproper : a.Proper run)
    (hproper' : b.Proper run') : a.observes run = b.observes run' := by
  induction run generalizing a b c run' with
  | nil =>
    obtain rfl := List.map_eq_nil_iff.1 hplan.symm
    rfl
  | cons stage rest ih =>
    cases run' with
    | nil => cases hplan
    | cons stage' rest' =>
      obtain ⟨aside, action⟩ := stage
      obtain ⟨aside', action'⟩ := stage'
      obtain ⟨rfl, hrest⟩ : action = action' ∧
          rest.map (·.action) = rest'.map (·.action) := List.cons.inj hplan
      obtain ⟨hallowed, hrunning, hstill, hlater⟩ := hproper
      obtain ⟨hallowed', hrunning', hstill', hlater'⟩ := hproper'
      obtain ⟨last, hsettles, hshows⟩ := ha.settles hallowed hrunning hstill
      obtain ⟨last', hsettles', hshows'⟩ := hb.settles hallowed' hrunning' hstill'
      -- both cores come to rest, and there is one core only in which they can
      obtain rfl : last = last' := hsettles.unique hsettles'
      have hseen : (a.besides aside).observed action = (b.besides aside').observed action :=
        (hshows.observed_eq action).trans (hshows'.observed_eq action).symm
      have hnext := ih (hshows.after action) (hshows'.after action) hrest hlater hlater'
      rw [observes, observes]
      exact congrArg₂ List.cons hseen hnext

/-- Every call of a run is answered. -/
theorem Shows.all_answered {run : List Stage} (h : a.Shows c) (hproper : a.Proper run) :
    ∀ seen ∈ a.observes run, seen.response ≠ .answered none := by
  induction run generalizing a c with
  | nil => exact fun _ hseen => nomatch hseen
  | cons stage rest ih =>
    obtain ⟨hallowed, hrunning, hstill, hlater⟩ := hproper
    obtain ⟨last, _, hshows⟩ := h.settles hallowed hrunning hstill
    intro seen hseen
    rcases List.mem_cons.1 hseen with rfl | hseen
    · exact hshows.answers stage.action
    · exact ih (hshows.after stage.action) hlater seen hseen

/-- Subscriptions on channels of their own do not disturb each other. Whatever the policy for
slow subscribers, let two runs do the same to the keys and with the subscription of one
subscriber, and let others do anything else, differently in each: subscribe on channels of
their own through any view and to any stem, receive or not, unsubscribe, and drop their
receivers. If the broker runs and every action finds everything still, all that the subscriber
receives, losses with their counts included, and the answer of every call and request with the
revision after it are the same in both runs, and every call is answered. -/
theorem subscriptions_independent (settings : Settings) (run run' : List Stage)
    (hplan : run.map (·.action) = run'.map (·.action))
    (hproper : (new settings).Proper run) (hproper' : (new settings).Proper run') :
    (new settings).observes run = (new settings).observes run' ∧
      ∀ seen ∈ (new settings).observes run, seen.response ≠ .answered none :=
  ⟨(shows_new settings).observes_eq (shows_new settings) hplan hproper hproper',
    (shows_new settings).all_answered hproper⟩

/-- A subscriber who falls behind is told of two lost events, alone as well as beside one who
subscribed to the same keys before and never receives, and one who comes and goes. -/
theorem subscriptions_independent_stalled :
    let settings : Settings := { slowPolicy := .dropAndSignal }
    let put (value : UInt8) : Action := .call (.ask (.put [] ['a', 'x'] [value] none)) rfl
    let step (id : Nat) : Move := .poll (.dispatcher id) false
    let watch (channel call : Nat) : List Move := [.openChannel 1 false,
      .launch (.ask (.watch [] ['a'] channel)) false, .poll (.call call) false]
    let subscribe : Action := .subscribe [] ['a'] 1 false
    let run : List Stage := [⟨[], subscribe⟩, ⟨[step 1], put 1⟩, ⟨[step 1], put 2⟩,
      ⟨[step 1], put 3⟩, ⟨[step 1], .receive⟩, ⟨[], put 4⟩, ⟨[step 1], .receive⟩]
    let run' : List Stage := [⟨watch 0 0 ++ [step 1], subscribe⟩, ⟨[step 2], put 1⟩,
      ⟨[step 1, step 2], put 2⟩, ⟨watch 2 3 ++ [step 3, step 2, step 1], put 3⟩,
      ⟨[step 3, step 1, step 2, .unsubscribe 3, step 3], .receive⟩, ⟨[.dropReceiver 0], put 4⟩,
      ⟨[step 1, step 2], .receive⟩]
    let lag (seen : Observed) : Option Nat :=
      match seen.response with
      | .received (some (.item (.error (.watchLagged n)))) => some n
      | _ => none
    run.map (·.action) = run'.map (·.action) ∧ (new settings).Proper run ∧
      (new settings).Proper run' ∧ (new settings).observes run = (new settings).observes run' ∧
      ((new settings).observes run').map lag = [none, none, none, none, none, none, some 2] := by
  intro settings put step watch subscribe run run' lag
  have hproper : (new settings).Proper run := by decide +kernel
  have hproper' : (new settings).Proper run' := by decide +kernel
  obtain ⟨hsame, _⟩ := subscriptions_independent settings run run' rfl hproper hproper'
  exact ⟨rfl, hproper, hproper', hsame, by decide +kernel⟩

end KeyBroker.Subscriber
