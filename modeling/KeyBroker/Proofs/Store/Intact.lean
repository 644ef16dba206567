import KeyBroker.Proofs.Ledger.Intact
import KeyBroker.Proofs.Store.Act

/-!
# The shape of a store

Whatever a store is asked, in whatever order and at whatever times, its ledger keeps its
shape, and without a connection no native watch is open. A request that fails changes
nothing, or leaves a revision begun with nothing written at it, so the shape outlives
failures.
-/

namespace KeyBroker

namespace Ledger

/-- Every request that names no empty key keeps the shape. -/
theorem Intact.serve {l : Ledger} (h : l.Intact) (now : Nat) {service : Service}
    {request : Request service}
    (hnamed : request.namesEmptyKey = false) : (l.serve now request).1.Intact := by
  cases request with
  | put key value ttl => exact h.put now (by simpa [Request.namesEmptyKey] using hnamed) value ttl
  | delete key under => cases under <;> exact (h.expire now).deleteKeys _ _
  | txn writes =>
    exact h.txn now fun w hw => by
      simp only [Request.namesEmptyKey, List.any_eq_false, List.isEmpty_iff] at hnamed
      exact hnamed w hw
  | watch stem => exact h
  | close => exact h
  | _ => exact h.expire now

end Ledger

namespace Store

/-- The shape of a store. -/
structure Intact (s : Store) : Prop where
  ledger : s.ledger.Intact
  /-- Closed or cut off, the store has no native watch open. -/
  unwatched : s.closed = true ∨ s.available = false → s.watchers = []

/-- A new store has the right shape. -/
theorem Intact.empty : Intact {} where
  ledger := .empty
  unwatched h := by rcases h with h | h <;> cases h

/-- Sending events opens no native watch. -/
theorem watchers_emitAll {s : Store} (h : s.watchers = []) (events : List Event) :
    (s.emitAll events).watchers = [] := by
  induction events generalizing s with
  | nil => exact h
  | cons event rest ih => exact ih (by simp [emit, h])

/-- Sending events neither closes a store nor cuts its connection. -/
theorem standing_emitAll (s : Store) (events : List Event) :
    (s.emitAll events).closed = s.closed ∧ (s.emitAll events).available = s.available := by
  induction events generalizing s with
  | nil => exact ⟨rfl, rfl⟩
  | cons event rest ih => exact ih (s.emit event)

namespace Intact

variable {s : Store}

/-- A watch is only opened on a store that is open and can be reached; closing breaks
every watch. -/
theorem unwatched_serve (h : s.Intact) (now : Nat) {service : Service} (request : Request service)
    (hcut : (s.serve now request).store.closed = true ∨
      (s.serve now request).store.available = false) :
    (s.serve now request).store.watchers = [] := by
  by_cases hwatch : service = .watch
  · subst hwatch
    cases hanswers : s.answers request with
    | false =>
      obtain ⟨error, heq⟩ := serve_of_not_answers now hanswers
      rw [heq] at hcut ⊢
      exact h.unwatched hcut
    | true =>
      rw [serve_of_answers now hanswers fun h => by cases h] at hcut
      obtain ⟨⟩ := request
      simp only [answers, Request.namesEmptyKey, refusal] at hanswers
      rcases hcut with hclosed | havailable
      · simp [show s.closed = true from hclosed] at hanswers
      · have : s.available = false := havailable
        cases hclosed : s.closed <;> simp [hclosed, this] at hanswers
  · by_cases hclose : service = .close
    · subst hclose
      obtain ⟨⟩ := request
      cases hclosed : s.closed with
      | true =>
        rw [serve_close_of_closed now hclosed]
        exact h.unwatched (.inl hclosed)
      | false =>
        rw [serve_of_answers now (by simp [answers, Request.namesEmptyKey]) fun _ => hclosed]
        rfl
    · obtain ⟨ledger, heq⟩ := serve_eq_emitAll s now request hwatch hclose
      obtain ⟨hclosed, havailable⟩ := standing_emitAll { s with ledger } (s.events now request)
      rw [heq] at hcut ⊢
      rw [hclosed, havailable] at hcut
      exact @watchers_emitAll { s with ledger } (h.unwatched hcut) _

/-- A request keeps the shape of a store. -/
theorem serve (h : s.Intact) (now : Nat) {service : Service} (request : Request service) :
    (s.serve now request).store.Intact where
  ledger := by
    rw [ledger_serve]
    split
    · next hanswers =>
      simp only [answers, Bool.and_eq_true, Bool.not_eq_true'] at hanswers
      exact h.ledger.serve now hanswers.1
    · exact h.ledger
  unwatched := h.unwatched_serve now request

/-- An act keeps the shape of a store. -/
theorem act (h : s.Intact) (act : Act) : (s.act act).Intact := by
  cases act with
  | serve now request => exact h.serve now request
  | compact revision => exact ⟨h.ledger.compact revision, h.unwatched⟩
  | setAvailable available =>
    refine ⟨by simpa [Store.act] using h.ledger, fun hcut => ?_⟩
    cases available with
    | false => rfl
    | true => exact h.unwatched (.inl (hcut.resolve_right (by simp [Store.act, setAvailable])))
  | read n =>
    simp only [Store.act]
    split
    · exact ⟨h.ledger, h.unwatched⟩
    · exact h
  | leave n => exact ⟨h.ledger, h.unwatched⟩

/-- Acts in order keep the shape of a store. -/
theorem after (h : s.Intact) (acts : List Act) : (s.after acts).Intact := by
  induction acts generalizing s with
  | nil => exact h
  | cons act rest ih => exact ih (h.act act)

end Intact

/-- Every run of a fresh store keeps its shape. So compaction never looks for the first
version of an empty history, whatever its point, and finds there the version visible at
the point, if there is one; and the last version of each key is the one visible now. -/
theorem shape_kept (acts : List Act) :
    (after {} acts).Intact ∧
      ∀ e ∈ (after {} acts).ledger.keys.entries,
        e.2.countP (·.revision ≤ (after {} acts).ledger.compacted) ≤ 1 ∧
        e.2.visible? (after {} acts).ledger.revision = e.2.getLast? ∧
        ∀ point, ∃ first rest, e.2.since point = first :: rest ∧
          ∀ v, e.2.visible? point = some v → v = first := by
  have h : (after {} acts).Intact := Intact.empty.after acts
  refine ⟨h, fun e he => ⟨(h.ledger.histories e he).countP_le_one,
    h.ledger.visible?_eq_getLast? he, fun point => ?_⟩⟩
  exact Versions.exists_since_eq_cons point (h.ledger.inhabited e he)

end Store

end KeyBroker
