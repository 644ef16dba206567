import KeyBroker.Proofs.System.Moves

/-!
# What a poll of a call does

A poll makes the request of a call or looks whether its answer is there, and in both
cases one of four things comes of it: the call goes on waiting, it begins to wait, it
ends or goes on without the store, or the store carries out its request. Only the
last touches the store.
-/

namespace KeyBroker.System

/-- What comes of a poll of the call `c`. -/
inductive Polled (s : System) (c : InFlight) : System → Prop where
  | idle (quiet : s.actsOn c = false) : Polled s c s
  | waits (script : Script) (fewer : ∀ line ∈ script, line ∈ s.script) (due : Option Nat)
    (quiet : s.actsOn c = false) : Polled s c ({ s with script }.await c due)
  /-- The broker has stopped, the wait was too long, or the script has an error. -/
  | fails (script : Script) (fewer : ∀ line ∈ script, line ∈ s.script) (journal : Journal)
    (error : Error) (quiet : s.actsOn c = false) :
    Polled s c ({ s with script, journal }.conclude c (.error error))
  | acts (script : Script) (fewer : ∀ line ∈ script, line ∈ s.script) (started : Nat)
    (acts : s.actsOn c = true) : Polled s c ({ s with script }.act c started)

variable {s : System} {c : InFlight}

/-- Making its request is one of the things that come of a poll of a call. -/
theorem polled_makeRequest (hgenuine : s.wiring.Genuine) (hexchange : c.exchange = none) :
    Polled s c (s.makeRequest c) := by
  simp only [makeRequest]
  cases hstop : s.stopped && c.call.endsWithBroker with
  | true =>
    refine .fails s.script (fun _ h => h) s.journal .closed ?_
    simp only [actsOn, hstop, Bool.not_true, Bool.false_and]
  | false =>
    have hfewer : ∀ line ∈ (s.script.next c.call.service).2, line ∈ s.script :=
      fun line => mem_of_mem_next
    have hreply : ∀ planned, (s.script.next c.call.service).1 ≠ .reply planned :=
      next_ne_reply hgenuine
    cases hnext : s.script.next c.call.service with
    | mk answer script =>
      rw [hnext] at hfewer hreply
      cases answer with
      | forward delay =>
        cases delay with
        | zero =>
          refine .acts script hfewer s.now ?_
          simp only [actsOn, hexchange, hstop, hnext, Bool.not_false, Bool.true_and]
        | succ delay =>
          refine .waits script hfewer _ ?_
          simp only [actsOn, hexchange, hnext, Bool.and_false]
      | hang =>
        refine .waits script hfewer _ ?_
        simp only [actsOn, hexchange, hnext, Bool.and_false]
      | fail error =>
        refine .fails script hfewer _ _ ?_
        simp only [actsOn, hexchange, hnext, Bool.and_false]
      | reply planned => exact absurd rfl (hreply planned)

/-- Looking for its reply is one of the things that come of a poll of a call. -/
theorem polled_checkAnswer {e : Exchange} (hexchange : c.exchange = some e) :
    Polled s c (s.checkAnswer c e) := by
  have hacts : s.actsOn c =
      (!(s.stopped && c.call.endsWithBroker) && e.due.any (· ≤ s.now)) := by
    simp only [actsOn, hexchange]
  simp only [checkAnswer]
  cases hstop : s.stopped && c.call.endsWithBroker with
  | true =>
    refine .fails s.script (fun _ h => h) _ _ ?_
    rw [hacts, hstop]
    rfl
  | false =>
    rw [hstop] at hacts
    cases hdue : e.due.any fun due => decide (due ≤ s.now) with
    | true =>
      refine .acts s.script (fun _ h => h) e.started ?_
      rw [hacts, hdue]
      rfl
    | false =>
      have hquiet : s.actsOn c = false := by
        rw [hacts, hdue]
        rfl
      simp only [Bool.false_eq_true, if_false]
      split
      · exact .fails s.script (fun _ h => h) _ _ hquiet
      · exact .idle hquiet

/-- A poll of a call under way comes to one of the four. -/
theorem polled_pollCall (hgenuine : s.wiring.Genuine) {id : Nat}
    (hfind : s.calls.find? (fun c => decide (c.id = id)) = some c) :
    Polled s c (s.pollCall id) := by
  simp only [pollCall, hfind]
  cases hexchange : c.exchange with
  | none => exact polled_makeRequest hgenuine hexchange
  | some e => exact polled_checkAnswer hexchange

end KeyBroker.System
