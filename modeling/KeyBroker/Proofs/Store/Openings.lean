import KeyBroker.Proofs.Store.Feed
import KeyBroker.Proofs.Store.Intact

/-!
# How many native watches are open

A reader that goes away tells the store nothing: its watch stays on the list until an
event under the stem comes by, or until every watch is broken. So the store counts the
watches that are neither broken nor given up, and beside them those given up that no
event has come upon. On a stem nobody writes under, the list grows with each watch that
is opened and dropped.
-/

namespace KeyBroker

namespace Store

/-- Whether an act breaks every native watch. -/
def Act.breaks : Act → Bool
  | .serve _ .close => true
  | .setAvailable available => !available
  | _ => false

/-- Whether an act takes the reader of feed `n` away. -/
def Act.leaves (n : Nat) : Act → Bool
  | .leave m => m == n
  | _ => false

/-- The native watch that an act opens. -/
def opened (s : Store) : Act → Option Watcher
  | .serve now (.watch stem) =>
    match (s.serve now (.watch stem)).outcome with
    | .ok feed => some { feed, stem }
    | _ => none
  | _ => none

/-- The events that acts commit while nobody reads feed `n`. -/
def unheard (s : Store) (n : Nat) : List Act → List Event
  | [] => []
  | act :: rest =>
    (if (s.feed n).attended then [] else s.sent act) ++ (s.act act).unheard n rest

/-- A native watch that a run opens, with the store just after that and the acts since. -/
structure Opening where
  watcher : Watcher
  since : Store
  acts : List Act

namespace Opening

/-- Whether the watch was broken: the connection was lost or the store closed. -/
def broken (o : Opening) : Bool := o.acts.any Act.breaks

/-- Whether the holder of the stream dropped it. -/
def dropped (o : Opening) : Bool := o.acts.any (Act.leaves o.watcher.feed)

/-- Whether an event under the stem was committed after the stream was dropped. -/
def noticed (o : Opening) : Bool :=
  (o.since.unheard o.watcher.feed o.acts).any fun e => o.watcher.stem.beginsWith e.key

/-- Whether the watch is neither broken nor given up. -/
def kept (o : Opening) : Bool := !o.broken && !o.dropped

/-- Whether the watch was given up and is still on the list. -/
def lingers (o : Opening) : Bool := !o.broken && o.dropped && !o.noticed

end Opening

/-- The native watches that acts in order open. -/
def openings (s : Store) : List Act → List Opening
  | [] => []
  | act :: rest =>
    (s.opened act).toList.map (fun watcher => { watcher, since := s.act act, acts := rest }) ++
      (s.act act).openings rest

variable {s : Store} {n : Nat}

/-! ### Who reads -/

/-- A signal on a feed takes its reader neither away nor back. -/
@[simp] theorem attended_push (feed : Feed) (signal : Signal) :
    (feed.push signal).attended = feed.attended := by
  unfold Feed.push
  split <;> rfl

/-- Sending an event takes no reader away. -/
theorem attended_emit (h : n < s.feeds.length) (event : Event) :
    ((s.emit event).feed n).attended = (s.feed n).attended := by
  rw [feed_emit h]
  split <;> simp

/-- Sending events takes no reader away. -/
theorem attended_emitAll (h : n < s.feeds.length) (events : List Event) :
    ((s.emitAll events).feed n).attended = (s.feed n).attended := by
  induction events generalizing s with
  | nil => rfl
  | cons event rest ih => rw [emitAll, ih (by simpa using h), attended_emit h]

/-- Opening a native watch takes no reader away. -/
theorem attended_openWatch (h : n < s.feeds.length) (stem : Key) :
    ((s.openWatch stem).1.feed n).attended = (s.feed n).attended := by
  simp [openWatch, openFeed, feed, List.getElem?_append_left h]

/-- Breaking native watches takes no reader away. -/
theorem attended_breakWatches (h : n < s.feeds.length) (error : StorageError) :
    ((s.breakWatches error).feed n).attended = (s.feed n).attended := by
  simp only [breakWatches, feed, List.getD_eq_getElem?_getD, List.getElem?_mapIdx,
    List.getElem?_eq_getElem h, Option.map_some, Option.getD_some]
  split <;> simp [Feed.finish]

/-- A request takes no reader away. -/
theorem attended_serve (h : n < s.feeds.length) (now : Nat) {service : Service}
    (request : Request service) :
    ((s.serve now request).store.feed n).attended = (s.feed n).attended := by
  by_cases hwatch : service = .watch
  · subst hwatch
    let .watch stem := request
    rcases serve_watch s now stem with ⟨error, heq⟩ | heq
    · rw [heq]
    · rw [heq]
      exact attended_openWatch h stem
  by_cases hclose : service = .close
  · subst hclose
    let .close := request
    cases hclosed : s.closed with
    | true => rw [serve_close_of_closed now hclosed]
    | false =>
      rw [serve_of_answers now rfl fun _ => hclosed]
      exact attended_breakWatches (s := { s with closed := true }) h .closed
  obtain ⟨ledger, heq⟩ := serve_eq_emitAll s now request hwatch hclose
  rw [heq]
  exact attended_emitAll (s := { s with ledger }) h _

/-- A feed is read until its reader leaves. -/
theorem attended_act (h : n < s.feeds.length) (act : Act) :
    ((s.act act).feed n).attended = ((s.feed n).attended && !act.leaves n) := by
  cases act with
  | serve now request => simpa [Act.leaves, Store.act] using attended_serve h now request
  | compact revision => simp [Act.leaves, Store.act, compact, feed]
  | setAvailable available =>
    cases available with
    | true => simp [Act.leaves, Store.act, setAvailable, feed]
    | false =>
      have hbroken := attended_breakWatches (s := { s with available := false }) h
        (.unavailable "connection lost")
      rw [show (Act.setAvailable false).leaves n = false from rfl, Bool.not_false, Bool.and_true]
      exact hbroken
  | read m =>
    rw [act_read]
    by_cases hm : m = n
    · subst hm
      simp [feed_onFeed_self h, Act.leaves]
    · simp [feed_onFeed_of_ne hm, Act.leaves]
  | leave m =>
    by_cases hm : m = n
    · subst hm
      simp [Store.act, feed_onFeed_self h, Act.leaves, Feed.leave]
    · simp [Store.act, feed_onFeed_of_ne hm, Act.leaves, hm]

/-- A feed still has its reader after acts if none of them took the reader away. -/
theorem attended_after (h : n < s.feeds.length) (acts : List Act) :
    ((s.after acts).feed n).attended = ((s.feed n).attended && !acts.any (Act.leaves n)) := by
  induction acts generalizing s with
  | nil => simp
  | cons act rest ih =>
    have hgrows := (onlyNew_act s act).grows
    rw [after_cons, ih (by omega), attended_act h, List.any_cons, Bool.not_or, Bool.and_assoc]

/-- As long as somebody reads a feed, no event goes by unheard. -/
theorem unheard_of_attended (h : n < s.feeds.length) (acts : List Act)
    (hattended : ((s.after acts).feed n).attended = true) : s.unheard n acts = [] := by
  induction acts generalizing s with
  | nil => rfl
  | cons act rest ih =>
    have hgrows := (onlyNew_act s act).grows
    have hnow : (s.feed n).attended = true := by
      rw [attended_after h] at hattended
      exact (Bool.and_eq_true_iff.1 hattended).1
    rw [unheard, if_pos hnow, ih (by omega) hattended, List.append_nil]

/-! ### The list of watches -/

/-- Whether an act, which breaks nothing, leaves a watch on the list. -/
def keeps (s : Store) (act : Act) (w : Watcher) : Bool :=
  (s.feed w.feed).attended || !(s.sent act).any fun e => w.stem.beginsWith e.key

/-- Of the watches that events are about, those that nobody reads are struck off. -/
theorem watchers_emitAll_eq (h : s.Numbered) (events : List Event) :
    (s.emitAll events).watchers = s.watchers.filter fun w =>
      (s.feed w.feed).attended || !events.any fun e => w.stem.beginsWith e.key := by
  induction events generalizing s with
  | nil => exact (List.filter_eq_self.2 fun w _ => by simp).symm
  | cons event rest ih =>
    have hnumbered : (s.emit event).Numbered :=
      (onlyNew_emitAll s [event]).numbered h
    rw [emitAll, ih hnumbered]
    simp only [show (s.emit event).watchers = s.watchers.filter fun w =>
      !w.stem.beginsWith event.key || (s.feed w.feed).attended from rfl, List.filter_filter]
    refine List.filter_congr fun w hw => ?_
    rw [attended_emit (h w hw), List.any_cons]
    cases (s.feed w.feed).attended <;> cases w.stem.beginsWith event.key <;> simp

/-- A store opens a watch exactly if it answers the request. -/
theorem opened_watch (s : Store) (now : Nat) (stem : Key) :
    (s.serve now (.watch stem)).store = s ∧ s.opened (.serve now (.watch stem)) = none ∨
      (s.serve now (.watch stem)).store = (s.openWatch stem).1 ∧
        s.opened (.serve now (.watch stem)) = some { feed := s.feeds.length, stem } := by
  rcases serve_watch s now stem with ⟨error, heq⟩ | heq
  · exact .inl ⟨by rw [heq], by simp [opened, heq]⟩
  · exact .inr ⟨by rw [heq], by simp [opened, heq]⟩

/-- Only a request for a watch opens a native watch. -/
theorem opened_of_ne {service : Service} (h : service ≠ .watch) (now : Nat)
    (request : Request service) : s.opened (.serve now request) = none := by
  cases request with
  | watch stem => exact absurd rfl h
  | _ => rfl

/-- What an act makes of the list: a break empties it, and otherwise watches are struck
off and the one that is opened comes last. -/
theorem watchers_act (hintact : s.Intact) (hnumbered : s.Numbered) (act : Act) :
    (s.act act).watchers =
      if act.breaks then [] else s.watchers.filter (s.keeps act) ++ (s.opened act).toList := by
  have hquiet : ∀ act, s.sent act = [] → s.watchers.filter (s.keeps act) = s.watchers := by
    intro act hsent
    exact List.filter_eq_self.2 fun w _ => by simp [keeps, hsent]
  cases act with
  | compact revision =>
    simp [hquiet (.compact revision) rfl, Act.breaks, opened, Store.act, compact]
  | setAvailable available =>
    cases available with
    | true => simp [hquiet (.setAvailable true) rfl, Act.breaks, opened, Store.act, setAvailable]
    | false => rfl
  | read m => simp [hquiet (.read m) rfl, Act.breaks, opened, act_read, onFeed]
  | leave m => simp [hquiet (.leave m) rfl, Act.breaks, opened, Store.act, onFeed]
  | @serve now service request =>
    by_cases hwatch : service = .watch
    · subst hwatch
      cases request with
      | watch stem =>
        have hkept := hquiet (.serve now (.watch stem)) (events_watch s now stem)
        rw [hkept, if_neg (by simp [Act.breaks]), Store.act]
        rcases opened_watch s now stem with ⟨heq, hopened⟩ | ⟨heq, hopened⟩
        · simp [heq, hopened]
        · rw [heq, hopened]
          rfl
    by_cases hclose : service = .close
    · subst hclose
      cases request with
      | close =>
        -- a store that was closed before has no watches any more
        have hempty : (s.serve now .close).store.watchers = [] := by
          cases hclosed : s.closed with
          | true =>
            rw [serve_close_of_closed now hclosed]
            exact hintact.unwatched (.inl hclosed)
          | false =>
            rw [serve_of_answers now rfl fun _ => hclosed]
            rfl
        exact hempty
    obtain ⟨ledger, heq⟩ := serve_eq_emitAll s now request hwatch hclose
    have hbreaks : (Act.serve now request).breaks = false := by
      cases request with
      | close => exact absurd rfl hclose
      | _ => rfl
    have hfilter := watchers_emitAll_eq (s := { s with ledger }) hnumbered (s.events now request)
    rw [hbreaks, opened_of_ne hwatch, Store.act, heq, hfilter]
    exact (List.append_nil _).symm

/-! ### Counting -/

/-- Whether a watch stays on the list through acts in order. -/
def stays (s : Store) (acts : List Act) (w : Watcher) : Bool :=
  !acts.any Act.breaks && !(s.unheard w.feed acts).any fun e => w.stem.beginsWith e.key

/-- A watch stays on the list if it stays through the first act and through the others after it. -/
theorem stays_cons (s : Store) (act : Act) (rest : List Act) (w : Watcher) :
    s.stays (act :: rest) w = (!act.breaks && s.keeps act w && (s.act act).stays rest w) := by
  cases hattended : (s.feed w.feed).attended <;> cases hbreaks : act.breaks <;>
    simp [stays, unheard, keeps, hattended, hbreaks, Bool.and_left_comm]

/-- An act that breaks every watch opens none. -/
theorem opened_of_breaks (s : Store) {act : Act} (h : act.breaks = true) : s.opened act = none := by
  cases act with
  | serve now request => exact opened_of_ne (by rintro rfl; cases request; cases h) now request
  | _ => rfl

/-- The watches that stay are those that outlast the act and stay from then on. -/
theorem countP_stays_act (hintact : s.Intact) (hnumbered : s.Numbered) (act : Act)
    (rest : List Act) :
    (s.act act).watchers.countP ((s.act act).stays rest) =
      s.watchers.countP (s.stays (act :: rest)) +
        (s.opened act).toList.countP ((s.act act).stays rest) := by
  rw [watchers_act hintact hnumbered, funext fun w => stays_cons s act rest w]
  cases hbreaks : act.breaks with
  | true => simp [opened_of_breaks s hbreaks]
  | false => simp [List.countP_append, List.countP_filter, Bool.and_comm]

/-- After a run the list has the watches that were on it and have stayed, and those opened
since that have stayed. -/
theorem watchCount_after (hintact : s.Intact) (hnumbered : s.Numbered) (acts : List Act) :
    (s.after acts).watchCount = s.watchers.countP (s.stays acts) +
      (s.openings acts).countP fun o => o.since.stays o.acts o.watcher := by
  induction acts generalizing s with
  | nil =>
    rw [List.countP_eq_length.2 fun w _ => by simp [stays, unheard]]
    simp [watchCount, openings]
  | cons act rest ih =>
    have hopened : ((s.opened act).toList.map fun watcher =>
          ({ watcher, since := s.act act, acts := rest } : Opening)).countP
          (fun o => o.since.stays o.acts o.watcher) =
        (s.opened act).toList.countP ((s.act act).stays rest) := by
      rw [List.countP_map]
      rfl
    rw [after_cons, ih (hintact.act act) ((onlyNew_act s act).numbered hnumbered),
      countP_stays_act hintact hnumbered act rest, openings, List.countP_append, hopened,
      Nat.add_assoc]

/-! ### Kept and lingering watches -/

/-- A watch is opened with a reader, on a feed of the store. -/
theorem Numbered.opened (h : s.Numbered) {act : Act} {w : Watcher} (hw : s.opened act = some w) :
    w.feed < (s.act act).feeds.length ∧ ((s.act act).feed w.feed).attended = true := by
  cases act with
  | @serve now service request =>
    by_cases hwatch : service = .watch
    · subst hwatch
      let .watch stem := request
      rcases opened_watch s now stem with ⟨_, hopened⟩ | ⟨heq, hopened⟩
      · rw [hopened] at hw
        cases hw
      · obtain ⟨hwatched, _⟩ := h.watched_openWatch stem
        obtain rfl : { feed := s.feeds.length, stem } = w := Option.some.inj (hopened.symm.trans hw)
        rw [Store.act, heq]
        exact ⟨hwatched.opened, hwatched.attended⟩
    · rw [opened_of_ne hwatch] at hw
      cases hw
  | _ => cases hw

/-- Every native watch that a run opens has a feed of its own, which was opened with it and has
its reader. -/
theorem Numbered.openings (h : s.Numbered) {acts : List Act} {o : Opening}
    (ho : o ∈ s.openings acts) :
    o.watcher.feed < o.since.feeds.length ∧
      (o.since.feed o.watcher.feed).attended = true := by
  induction acts generalizing s with
  | nil => cases ho
  | cons act rest ih =>
    rcases List.mem_append.1 ho with hnow | hlater
    · obtain ⟨w, hw, rfl⟩ := List.mem_map.1 hnow
      exact h.opened (Option.mem_toList.1 hw)
    · exact ih ((onlyNew_act s act).numbered h) hlater

/-- An event comes upon a watch without its reader only after the reader left. -/
theorem Numbered.dropped_of_noticed (h : s.Numbered) {acts : List Act} {o : Opening}
    (ho : o ∈ s.openings acts) (hnoticed : o.noticed = true) : o.dropped = true := by
  obtain ⟨hlt, hattended⟩ := h.openings ho
  cases hdropped : o.dropped with
  | true => rfl
  | false =>
    have hread : ((o.since.after o.acts).feed o.watcher.feed).attended = true := by
      rw [attended_after hlt, hattended, Bool.true_and, Bool.not_eq_true']
      exact hdropped
    simp [Opening.noticed, unheard_of_attended hlt o.acts hread] at hnoticed

/-- The watches that stay on the list are those that are kept and those that linger. -/
theorem Numbered.countP_stays (h : s.Numbered) (acts : List Act) :
    (s.openings acts).countP (fun o => o.since.stays o.acts o.watcher) =
      (s.openings acts).countP Opening.kept + (s.openings acts).countP Opening.lingers := by
  have hstays : ∀ o : Opening, o.since.stays o.acts o.watcher = (!o.broken && !o.noticed) :=
    fun _ => rfl
  rw [List.countP_eq_countP_filter_add _ _ fun o : Opening => !o.dropped, List.countP_filter,
    List.countP_filter]
  congr 1
  · refine List.countP_congr fun o ho => ?_
    have hdropped := h.dropped_of_noticed ho
    rw [hstays, Opening.kept]
    cases hb : o.broken <;> cases hd : o.dropped <;> cases hn : o.noticed <;> simp_all
  · refine List.countP_congr fun o ho => ?_
    rw [hstays, Opening.lingers]
    cases o.broken <;> cases o.dropped <;> cases o.noticed <;> simp

/-! ### A stem nobody writes under -/

/-- Opens a watch on `stem` and drops it, as often as said; feeds are numbered from
`first`. -/
def dropping (stem : Key) (first : Nat) : Nat → List Act
  | 0 => []
  | rounds + 1 =>
    .serve 0 (.watch stem) :: .leave first :: dropping stem (first + 1) rounds

/-- The number of watches on `stem`. -/
def countOn (s : Store) (stem : Key) : Nat := s.watchers.countP (·.stem == stem)

/-- Every round leaves one more watch on the list. -/
theorem countOn_dropping (h : s.refusal = none) (stem : Key) (rounds : Nat) :
    (s.after (dropping stem s.feeds.length rounds)).countOn stem = s.countOn stem + rounds := by
  induction rounds generalizing s with
  | zero => rfl
  | succ rounds ih =>
    have hanswers : s.answers (.watch stem) = true := by simp [answers, Request.namesEmptyKey, h]
    have hopen : s.act (.serve 0 (.watch stem)) = (s.openWatch stem).1 := by
      rw [act, serve_of_answers 0 hanswers fun heq => by cases heq]
      rfl
    let next := (s.openWatch stem).1.act (.leave s.feeds.length)
    have hlength : next.feeds.length = s.feeds.length + 1 := by
      simp [next, act, openWatch, openFeed]
    have hcount : next.countOn stem = s.countOn stem + 1 := by
      simp [next, act, onFeed, openWatch, openFeed, countOn]
    rw [dropping, after_cons, hopen, after_cons, ← hlength, ih (s := next) h, hcount]
    omega

/-- A watch stays on the list as long as nothing breaks it and no event is about it. -/
theorem countOn_after (hintact : s.Intact) (hnumbered : s.Numbered) {stem : Key} {acts : List Act}
    (hbreaks : ∀ act ∈ acts, act.breaks = false)
    (hstill : ∀ e ∈ s.sentAll acts, stem.beginsWith e.key = false) :
    s.countOn stem ≤ (s.after acts).countOn stem := by
  induction acts generalizing s with
  | nil => exact Nat.le_refl _
  | cons act rest ih =>
    have hsent : (s.sent act).any (fun e => stem.beginsWith e.key) = false := by
      simpa using fun e he => hstill e (List.mem_append_left _ he)
    have hact : s.countOn stem ≤ (s.act act).countOn stem := by
      rw [countOn, countOn, watchers_act hintact hnumbered, hbreaks act List.mem_cons_self,
        if_neg Bool.false_ne_true, List.countP_append, List.countP_filter]
      refine Nat.le_add_right_of_le (List.countP_mono_left fun w _ hw => ?_)
      rw [eq_of_beq hw]
      simp [keeps, eq_of_beq hw, hsent]
    have hrest := ih (hintact.act act) ((onlyNew_act s act).numbered hnumbered)
      (fun a ha => hbreaks a (List.mem_cons_of_mem _ ha))
      fun e he => hstill e (List.mem_append_right _ he)
    exact Nat.le_trans hact hrest

/-- The store counts the native watches that are neither broken nor dropped, and those
dropped that no event under their stem has come upon since; so the count is that of the
open streams exactly if every dropped stream is broken or noticed. On a stem nobody
writes under, streams that are opened and dropped pile up without bound. -/
theorem watches_counted (acts : List Act) :
    (after {} acts).watchCount = (openings {} acts).countP Opening.kept +
        (openings {} acts).countP Opening.lingers ∧
      ((after {} acts).watchCount = (openings {} acts).countP Opening.kept ↔
        ∀ o ∈ openings {} acts, o.dropped → o.broken ∨ o.noticed) ∧
      ((after {} acts).refusal = none → ∀ stem rounds later,
        (∀ act ∈ later, act.breaks = false) →
        (∀ e ∈ ((after {} acts).after
            (dropping stem (after {} acts).feeds.length rounds)).sentAll later,
          stem.beginsWith e.key = false) →
        rounds ≤ ((after {} acts).after
          (dropping stem (after {} acts).feeds.length rounds ++ later)).watchCount) := by
  have hnew : Numbered {} := fun _ hw => by cases hw
  have hcount : (after {} acts).watchCount = (openings {} acts).countP Opening.kept +
      (openings {} acts).countP Opening.lingers := by
    have hafter := watchCount_after .empty hnew acts
    rw [hnew.countP_stays] at hafter
    simpa using hafter
  refine ⟨hcount, ?_, ?_⟩
  · rw [hcount, Nat.add_eq_left, List.countP_eq_zero]
    refine forall₂_congr fun o _ => ?_
    unfold Opening.lingers
    cases o.broken <;> cases o.dropped <;> cases o.noticed <;> simp
  · intro hopen stem rounds later hbreaks hstill
    have hpiled := countOn_dropping hopen stem rounds
    have hintact := (Intact.empty.after acts).after
      (dropping stem (after {} acts).feeds.length rounds)
    have hnumbered := ((onlyNew_after {} acts).trans
      (onlyNew_after _ (dropping stem (after {} acts).feeds.length rounds))).numbered hnew
    have hlater := countOn_after hintact hnumbered hbreaks hstill
    rw [after_append]
    calc rounds
        ≤ ((after {} acts).after
            (dropping stem (after {} acts).feeds.length rounds)).countOn stem := by omega
      _ ≤ _ := hlater
      _ ≤ _ := List.countP_le_length

/-- A stream on `a` is opened and dropped; after a further call the store still counts it,
although no stream is open. -/
theorem dropped_watch_counted :
    let acts : List Act := [.serve 0 (.watch ['a']), .leave 0, .serve 0 (.get ['x'])]
    (after {} acts).watchCount = 1 ∧ (openings {} acts).countP Opening.kept = 0 := by
  decide

end Store

end KeyBroker
