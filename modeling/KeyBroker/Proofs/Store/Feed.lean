import KeyBroker.Proofs.Store.Act

/-!
# What a watch puts on its feed

As long as a native watch stands and somebody reads its feed, the feed gets every
event under the stem of the watch, once and in order, and nothing else. A feed has
one watch at most, since feeds are numbered as they are opened.
-/

namespace KeyBroker

namespace Store

/-- Every watch sends to a feed that has been opened. -/
def Numbered (s : Store) : Prop := ∀ w ∈ s.watchers, w.feed < s.feeds.length

/-- Every watch of the store `s'` is one of `s`, or sends to a feed that has been opened
since. -/
structure OnlyNew (s s' : Store) : Prop where
  grows : s.feeds.length ≤ s'.feeds.length
  watchers : ∀ w ∈ s'.watchers,
    w ∈ s.watchers ∨ s.feeds.length ≤ w.feed ∧ w.feed < s'.feeds.length

/-- A native watch on `stem` stands, and both ends of its feed are there. -/
structure Watched (s : Store) (n : Nat) (stem : Key) : Prop where
  stands : { feed := n, stem } ∈ s.watchers
  /-- No watch on another stem sends to the feed. -/
  only : ∀ w ∈ s.watchers, w.feed = n → w.stem = stem
  opened : n < s.feeds.length
  fed : (s.feed n).fed = true
  attended : (s.feed n).attended = true

variable {s : Store} {n : Nat} {stem : Key}

/-! ### Feeds by their number -/

/-- A feed that was opened is in its place. -/
theorem feed_of_lt {s : Store} (h : n < s.feeds.length) : s.feeds[n]? = some (s.feed n) := by
  rw [feed, List.getD_eq_getElem?_getD, List.getElem?_eq_getElem h]
  rfl

/-- Changing a feed opens none. -/
@[simp] theorem length_onFeed (s : Store) (m : Nat) (f : Feed → Feed) :
    (s.onFeed m f).feeds.length = s.feeds.length := by
  simp [onFeed]

/-- Changing a feed leaves the others alone. -/
theorem feed_onFeed_of_ne {m : Nat} (h : m ≠ n) (f : Feed → Feed) :
    (s.onFeed m f).feed n = s.feed n := by
  simp [feed, onFeed, h]

/-- Changing a feed changes it, if it was opened. -/
theorem feed_onFeed_self (h : n < s.feeds.length) (f : Feed → Feed) :
    (s.onFeed n f).feed n = f (s.feed n) := by
  simp [feed, onFeed, h]

/-- Changes that come to the same on a feed come to the same on its store. -/
theorem onFeed_congr {f g : Feed → Feed} (h : f (s.feed n) = g (s.feed n)) :
    s.onFeed n f = s.onFeed n g := by
  have hfeeds : s.feeds.modify n f = s.feeds.modify n g := by
    refine List.ext_getElem? fun m => ?_
    rw [List.getElem?_modify, List.getElem?_modify]
    by_cases hm : n = m
    · subst hm
      by_cases hn : n < s.feeds.length
      · simp [feed_of_lt hn, h]
      · simp [List.getElem?_eq_none (Nat.le_of_not_lt hn)]
    · simp [hm]
  rw [onFeed, hfeeds, onFeed]

/-- Reading takes the oldest signal from the feed, if there is one. -/
theorem act_read (s : Store) (n : Nat) :
    s.act (.read n) = s.onFeed n fun feed => { feed with queue := feed.queue.tail } := by
  simp only [act, Feed.read]
  cases hqueue : (s.feed n).queue with
  | nil =>
    have hsame : (s.onFeed n fun feed => { feed with queue := feed.queue.tail }) = s.onFeed n id :=
      onFeed_congr <| by
        rw [hqueue, List.tail_nil, ← hqueue]
        rfl
    rw [hsame, onFeed, List.modify_id]
    cases (s.feed n).fed <;> simp
  | cons signal rest => exact onFeed_congr (by simp [hqueue])

/-! ### Sending -/

/-- Sending an event opens no feed. -/
@[simp] theorem length_emit (s : Store) (event : Event) :
    (s.emit event).feeds.length = s.feeds.length := by
  simp [emit]

/-- An event goes to the feeds of those watches that it is about, and to no others. -/
theorem feed_emit (h : n < s.feeds.length) (event : Event) :
    (s.emit event).feed n =
      if n ∈ (s.concerned event).map (·.feed) then (s.feed n).push (.ok event) else s.feed n := by
  simp [emit, feed, h]

/-- Sending an event adds no native watch. -/
theorem watchers_emit_sublist (s : Store) (event : Event) :
    (s.emit event).watchers.Sublist s.watchers :=
  List.filter_sublist

/-- An event under the stem goes to the end of the feed, and any other passes by. -/
theorem Watched.emit (h : s.Watched n stem) (event : Event) :
    (s.emit event).Watched n stem ∧ ((s.emit event).feed n).queue =
      (s.feed n).queue ++ if stem.beginsWith event.key then [.ok event] else [] := by
  have hconcerned : n ∈ (s.concerned event).map (·.feed) ↔ stem.beginsWith event.key = true := by
    constructor
    · intro hmem
      obtain ⟨w, hw, hfeed⟩ := List.mem_map.1 hmem
      obtain ⟨hw, hbegins⟩ := List.mem_filter.1 hw
      rwa [h.only w hw hfeed] at hbegins
    · intro hbegins
      exact List.mem_map.2 ⟨_, List.mem_filter.2 ⟨h.stands, hbegins⟩, rfl⟩
  have hfeed := feed_emit h.opened event
  have hattended : ((s.emit event).feed n).attended = true := by
    rw [hfeed]
    split <;> simp [Feed.push, h.attended]
  have hfed : ((s.emit event).feed n).fed = true := by
    rw [hfeed]
    split <;> simp [Feed.push, h.attended, h.fed]
  refine ⟨⟨?_, ?_, ?_, hfed, hattended⟩, ?_⟩
  · exact List.mem_filter.2 ⟨h.stands, by simp [h.attended]⟩
  · intro w hw
    exact h.only w ((watchers_emit_sublist s event).subset hw)
  · rw [length_emit]
    exact h.opened
  · rw [hfeed]
    by_cases hbegins : stem.beginsWith event.key = true
    · simp [hconcerned.2 hbegins, hbegins, Feed.push, h.attended]
    · rw [if_neg fun hmem => hbegins (hconcerned.1 hmem), if_neg hbegins, List.append_nil]

/-- Of the events sent in order, those under the stem go to the end of the feed. -/
theorem Watched.emitAll (h : s.Watched n stem) (events : List Event) :
    (s.emitAll events).Watched n stem ∧ ((s.emitAll events).feed n).queue =
      (s.feed n).queue ++ (events.filter fun e => stem.beginsWith e.key).map .ok := by
  induction events generalizing s with
  | nil => exact ⟨h, by simp [Store.emitAll]⟩
  | cons event rest ih =>
    obtain ⟨hfirst, hqueue⟩ := h.emit event
    obtain ⟨hrest, hlast⟩ := ih hfirst
    refine ⟨hrest, ?_⟩
    rw [Store.emitAll, hlast, hqueue, List.append_assoc, List.filter_cons]
    split <;> rfl

/-! ### Watches in the course of time -/

namespace OnlyNew

/-- A store left alone has no new native watches. -/
theorem refl (s : Store) : OnlyNew s s := ⟨Nat.le_refl _, fun _ hw => .inl hw⟩

/-- New watches in two parts send to feeds opened in both together. -/
theorem trans {s s' s'' : Store} (h : OnlyNew s s') (h' : OnlyNew s' s'') : OnlyNew s s'' := by
  have hgrows := h.grows
  have hgrows' := h'.grows
  constructor
  · omega
  · intro w hw
    rcases h'.watchers w hw with hw | ⟨hlow, hhigh⟩
    · rcases h.watchers w hw with hw | ⟨hlow, hhigh⟩
      · exact .inl hw
      · exact .inr ⟨hlow, by omega⟩
    · exact .inr ⟨by omega, hhigh⟩

/-- A store whose watches send to opened feeds, with only new ones added, still has no others. -/
theorem numbered {s s' : Store} (h : OnlyNew s s') (hs : s.Numbered) : s'.Numbered := by
  intro w hw
  rcases h.watchers w hw with hw | ⟨_, hlt⟩
  · have hbefore := hs w hw
    have hgrows := h.grows
    omega
  · exact hlt

/-- A watch that is gone does not come back. -/
theorem not_mem {s s' : Store} (h : OnlyNew s s') {w : Watcher} (hw : w ∉ s.watchers)
    (hlt : w.feed < s.feeds.length) : w ∉ s'.watchers := by
  intro hmem
  rcases h.watchers w hmem with hmem | ⟨hle, _⟩
  · exact hw hmem
  · omega

end OnlyNew

/-- Sending events adds no native watch. -/
theorem onlyNew_emitAll (s : Store) (events : List Event) : OnlyNew s (s.emitAll events) := by
  induction events generalizing s with
  | nil => exact .refl s
  | cons event rest ih =>
    have hfirst : OnlyNew s (s.emit event) := {
      grows := Nat.le_of_eq (length_emit s event).symm
      watchers := fun w hw => .inl ((watchers_emit_sublist s event).subset hw) }
    exact hfirst.trans (ih (s.emit event))

/-- Opening a native watch adds it with a feed of its own. -/
theorem onlyNew_openWatch (s : Store) (stem : Key) : OnlyNew s (s.openWatch stem).1 := by
  have hlength : (s.openWatch stem).1.feeds.length = s.feeds.length + 1 := List.length_append
  constructor
  · omega
  · intro w hw
    rcases List.mem_append.1 hw with hw | hw
    · exact .inl hw
    · rw [List.mem_singleton.1 hw]
      exact .inr ⟨Nat.le_refl _, hlength ▸ Nat.lt_succ_self _⟩

/-- Breaking native watches adds none. -/
theorem onlyNew_breakWatches (s : Store) (error : StorageError) :
    OnlyNew s (s.breakWatches error) where
  grows := by simp [breakWatches]
  watchers _ hw := by cases hw

/-- Changing a feed adds no native watch. -/
theorem onlyNew_onFeed (s : Store) (n : Nat) (f : Feed → Feed) : OnlyNew s (s.onFeed n f) where
  grows := Nat.le_of_eq (length_onFeed s n f).symm
  watchers _ hw := .inl hw

/-- Cutting or restoring the connection adds no native watch. -/
theorem onlyNew_setAvailable (s : Store) (available : Bool) :
    OnlyNew s (s.setAvailable available) := by
  cases available with
  | true => exact ⟨Nat.le_refl _, fun _ hw => .inl hw⟩
  | false =>
    have hbroken := onlyNew_breakWatches { s with available := false }
      (.unavailable "connection lost")
    exact ⟨hbroken.grows, hbroken.watchers⟩

/-- A request adds a native watch only with a feed of its own. -/
theorem onlyNew_serve (s : Store) (now : Nat) {service : Service} (request : Request service) :
    OnlyNew s (s.serve now request).store := by
  by_cases hwatch : service = .watch
  · subst hwatch
    let .watch stem := request
    rcases serve_watch s now stem with ⟨error, heq⟩ | heq
    · rw [heq]
      exact .refl s
    · rw [heq]
      exact onlyNew_openWatch s stem
  by_cases hclose : service = .close
  · subst hclose
    let .close := request
    cases hclosed : s.closed with
    | true =>
      rw [serve_close_of_closed now hclosed]
      exact .refl s
    | false =>
      rw [serve_of_answers now rfl fun _ => hclosed]
      have hbroken := onlyNew_breakWatches { s with closed := true } .closed
      exact ⟨hbroken.grows, hbroken.watchers⟩
  obtain ⟨ledger, heq⟩ := serve_eq_emitAll s now request hwatch hclose
  rw [heq]
  have hemit := onlyNew_emitAll { s with ledger } (s.events now request)
  exact ⟨hemit.grows, hemit.watchers⟩

/-- An act adds a native watch only with a feed of its own. -/
theorem onlyNew_act (s : Store) (act : Act) : OnlyNew s (s.act act) := by
  cases act with
  | serve now request => exact onlyNew_serve s now request
  | compact revision => exact ⟨Nat.le_refl _, fun _ hw => .inl hw⟩
  | setAvailable available => exact onlyNew_setAvailable s available
  | read n =>
    rw [act_read]
    exact onlyNew_onFeed s n _
  | leave n => exact onlyNew_onFeed s n _

/-- Acts in order add native watches only with feeds of their own. -/
theorem onlyNew_after (s : Store) (acts : List Act) : OnlyNew s (s.after acts) := by
  induction acts generalizing s with
  | nil => exact .refl s
  | cons act rest ih => exact (onlyNew_act s act).trans (ih (s.act act))

/-! ### Opening -/

/-- A watch stands as soon as it is opened, on a feed without signals. -/
theorem Numbered.watched_openWatch (h : s.Numbered) (stem : Key) :
    (s.openWatch stem).1.Watched s.feeds.length stem ∧
      ((s.openWatch stem).1.feed s.feeds.length).queue = [] := by
  have hfeed : (s.openWatch stem).1.feed s.feeds.length = {} := by
    simp [Store.openWatch, openFeed, feed]
  refine ⟨⟨by simp [Store.openWatch, openFeed], ?_, by simp [Store.openWatch, openFeed],
    ?_, ?_⟩, ?_⟩
  · intro w hw hfeed
    rcases List.mem_append.1 hw with hw | hw
    · have hlt := h w hw
      omega
    · rw [List.mem_singleton.1 hw]
  all_goals rw [hfeed]

/-! ### Other changes -/

/-- A watch goes on when a feed changes, as long as its own feed keeps both ends. -/
theorem Watched.onFeed (h : s.Watched n stem) (m : Nat) {f : Feed → Feed}
    (hf : m = n → (f (s.feed n)).fed = true ∧ (f (s.feed n)).attended = true) :
    (s.onFeed m f).Watched n stem := by
  have hends : ((s.onFeed m f).feed n).fed = true ∧ ((s.onFeed m f).feed n).attended = true := by
    by_cases hm : m = n
    · subst hm
      rw [feed_onFeed_self h.opened]
      exact hf rfl
    · rw [feed_onFeed_of_ne hm]
      exact ⟨h.fed, h.attended⟩
  exact ⟨h.stands, h.only, (length_onFeed s m f).symm ▸ h.opened, hends.1, hends.2⟩

/-- Opening another feed leaves a watch as it is. -/
theorem Watched.openFeed (h : s.Watched n stem) :
    s.openFeed.1.Watched n stem ∧ s.openFeed.1.feed n = s.feed n := by
  have hfeed : s.openFeed.1.feed n = s.feed n := by
    simp [Store.openFeed, feed, List.getElem?_append_left h.opened]
  refine ⟨⟨h.stands, h.only, ?_, hfeed ▸ h.fed, hfeed ▸ h.attended⟩, hfeed⟩
  exact List.length_append ▸ Nat.lt_add_right _ h.opened

/-- So does opening another watch. -/
theorem Watched.openWatch (h : s.Watched n stem) (other : Key) :
    (s.openWatch other).1.Watched n stem ∧ (s.openWatch other).1.feed n = s.feed n := by
  obtain ⟨hopened, hfeed⟩ := h.openFeed
  refine ⟨⟨List.mem_append_left _ h.stands, ?_, hopened.opened, hopened.fed, hopened.attended⟩,
    hfeed⟩
  intro w hw hn
  rcases List.mem_append.1 hw with hw | hw
  · exact h.only w hw hn
  · have hlt := h.opened
    rw [List.mem_singleton.1 hw] at hn
    exact absurd hn (Nat.ne_of_gt hlt)

/-- Through a request that does not close the store, a watch goes on, and its feed gets
the events of the request under its stem. -/
theorem Watched.serve (h : s.Watched n stem) (now : Nat) {service : Service}
    (request : Request service) (hclose : service ≠ .close) :
    (s.serve now request).store.Watched n stem ∧
      ((s.serve now request).store.feed n).queue =
        (s.feed n).queue ++
          ((s.events now request).filter fun e => stem.beginsWith e.key).map .ok := by
  by_cases hwatch : service = .watch
  · subst hwatch
    let .watch other := request
    rw [events_watch, List.filter_nil, List.map_nil, List.append_nil]
    rcases serve_watch s now other with ⟨error, heq⟩ | heq
    · rw [heq]
      exact ⟨h, rfl⟩
    · rw [heq]
      obtain ⟨hopened, hfeed⟩ := h.openWatch other
      exact ⟨hopened, congrArg Feed.queue hfeed⟩
  obtain ⟨ledger, heq⟩ := serve_eq_emitAll s now request hwatch hclose
  rw [heq]
  exact Watched.emitAll (s := { s with ledger }) { h with } _

end Store

end KeyBroker
