import KeyBroker.Proofs.Store.Feed

/-!
# The stream of a watch

The stream of a native watch is all that its reader has read and may still read. Until
the watch is broken or given up, whatever happens to the store, the stream carries
the events under the stem of the watch in the order of their commits.
-/

namespace KeyBroker

namespace Store

/-- The signal that an act takes from feed `n`, if it does. -/
def taken (s : Store) (n : Nat) : Act → List Signal
  | .read m => if m = n then (s.feed n).queue.take 1 else []
  | _ => []

/-- The signals that acts in order take from feed `n`. -/
def takenAll (s : Store) (n : Nat) : List Act → List Signal
  | [] => []
  | act :: rest => s.taken n act ++ (s.act act).takenAll n rest

/-- All signals of feed `n` through acts in order: those taken and those left. -/
def stream (s : Store) (n : Nat) (acts : List Act) : List Signal :=
  s.takenAll n acts ++ ((s.after acts).feed n).queue

/-- Whether an act leaves a native watch on feed `n` alone. Losing the connection and
closing the store break it, and its reader may give it up. -/
def Act.spares (n : Nat) : Act → Bool
  | .serve _ .close => false
  | .setAvailable available => available
  | .leave m => m != n
  | _ => true

variable {s : Store} {n : Nat} {stem : Key}

/-! ### One act -/

/-- A watch goes on when a signal is read, and the signal is taken from its feed. -/
theorem Watched.read (h : s.Watched n stem) (m : Nat) :
    (s.act (.read m)).Watched n stem ∧
      s.taken n (.read m) ++ ((s.act (.read m)).feed n).queue = (s.feed n).queue := by
  rw [act_read]
  refine ⟨h.onFeed m fun _ => ⟨h.fed, h.attended⟩, ?_⟩
  by_cases hm : m = n
  · subst hm
    rw [feed_onFeed_self h.opened, taken, if_pos rfl, ← List.drop_one]
    exact List.take_append_drop 1 _
  · rw [feed_onFeed_of_ne hm, taken, if_neg hm]
    rfl

/-- Through an act that spares it, a watch goes on, and its feed gets the events of the
act under its stem. -/
theorem Watched.act (h : s.Watched n stem) {act : Act} (hspares : act.spares n) :
    (s.act act).Watched n stem ∧ s.taken n act ++ ((s.act act).feed n).queue =
      (s.feed n).queue ++ ((s.sent act).filter fun e => stem.beginsWith e.key).map .ok := by
  cases act with
  | serve now request =>
    refine h.serve now _ ?_
    rintro rfl
    let .close := request
    cases hspares
  | compact revision =>
    exact ⟨{ h with }, (List.append_nil _).symm⟩
  | setAvailable available =>
    have hup : available = true := hspares
    subst hup
    exact ⟨{ h with }, (List.append_nil _).symm⟩
  | read m => simpa [sent] using h.read m
  | leave m =>
    have hm : m ≠ n := by simpa [Act.spares] using hspares
    exact ⟨h.onFeed m fun heq => absurd heq hm,
      by simp [taken, sent, Store.act, feed_onFeed_of_ne hm]⟩

/-! ### A run -/

/-- Through acts that spare the watch, its stream is what the feed held already and then
the events under the stem, in the order of their commits. -/
theorem Watched.stream_eq (h : s.Watched n stem) {acts : List Act}
    (hspares : ∀ act ∈ acts, act.spares n) :
    s.stream n acts =
      (s.feed n).queue ++ ((s.sentAll acts).filter fun e => stem.beginsWith e.key).map .ok := by
  induction acts generalizing s with
  | nil => simp [stream, takenAll, sentAll]
  | cons act rest ih =>
    obtain ⟨hact, hqueue⟩ := h.act (hspares act List.mem_cons_self)
    have hrest := ih hact fun a ha => hspares a (List.mem_cons_of_mem _ ha)
    calc s.stream n (act :: rest)
        = s.taken n act ++ (s.act act).stream n rest := List.append_assoc _ _ _
      _ = (s.taken n act ++ ((s.act act).feed n).queue) ++
            (((s.act act).sentAll rest).filter fun e => stem.beginsWith e.key).map .ok := by
          rw [hrest, List.append_assoc]
      _ = _ := by
          rw [hqueue, sentAll, List.filter_append, List.map_append, List.append_assoc]

end Store

end KeyBroker
