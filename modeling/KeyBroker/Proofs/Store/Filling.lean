import KeyBroker.Proofs.Store.Feed

/-!
# Feeds that are filled

Whatever a store is asked, it only fills the feeds it has opened: signals go to their ends
and their sending sides go away. It takes nothing out of a feed, puts nothing in front, and
does not send its reader away. New feeds come after all others.
-/

namespace KeyBroker

/-- The feed after its sender filled it. -/
structure Feed.Fills (feed feed' : Feed) : Prop where
  queue : feed.queue <+: feed'.queue
  attended : feed'.attended = feed.attended
  /-- A sending side that has gone away does not come back. -/
  fed : feed'.fed = true → feed.fed = true

namespace Feed.Fills

variable {feed feed' feed'' : Feed}

/-- A feed left alone was filled with nothing. -/
theorem refl (feed : Feed) : feed.Fills feed := ⟨List.prefix_refl _, rfl, id⟩

/-- A feed filled twice was filled. -/
theorem trans (h : feed.Fills feed') (h' : feed'.Fills feed'') : feed.Fills feed'' where
  queue := h.queue.trans h'.queue
  attended := h'.attended.trans h.attended
  fed hfed := h.fed (h'.fed hfed)

/-- A signal fills a feed. -/
theorem push (feed : Feed) (signal : Signal) : feed.Fills (feed.push signal) := by
  unfold Feed.push
  split
  · exact ⟨List.prefix_append _ _, rfl, id⟩
  · exact refl feed

/-- The end of its sender puts nothing on a feed. -/
theorem finish (feed : Feed) : feed.Fills feed.finish := ⟨List.prefix_refl _, rfl, nofun⟩

end Feed.Fills

namespace Store

/-- The store after it filled its feeds and opened more. -/
structure Fills (s s' : Store) : Prop where
  grows : s.feeds.length ≤ s'.feeds.length
  feeds : ∀ n < s.feeds.length, (s.feed n).Fills (s'.feed n)

namespace Fills

variable {s s' s'' : Store}

/-- A store with the same feeds has filled them with nothing. -/
theorem of_feeds (h : s'.feeds = s.feeds) : s.Fills s' where
  grows := Nat.le_of_eq (by rw [h])
  feeds n _ := by
    rw [feed, feed, h]
    exact .refl _

/-- A store left alone has filled its feeds with nothing. -/
theorem refl (s : Store) : s.Fills s := of_feeds rfl

/-- A store that filled its feeds twice has filled them. -/
theorem trans (h : s.Fills s') (h' : s'.Fills s'') : s.Fills s'' where
  grows := Nat.le_trans h.grows h'.grows
  feeds n hn := (h.feeds n hn).trans (h'.feeds n (Nat.lt_of_lt_of_le hn h.grows))

/-- A store that fills one feed has filled its feeds. -/
theorem onFeed (s : Store) (m : Nat) {f : Feed → Feed} (hf : (s.feed m).Fills (f (s.feed m))) :
    s.Fills (s.onFeed m f) where
  grows := Nat.le_of_eq (length_onFeed s m f).symm
  feeds n hn := by
    by_cases hm : m = n
    · subst hm
      rw [feed_onFeed_self hn]
      exact hf
    · rw [feed_onFeed_of_ne hm]
      exact .refl _

/-- Opening a feed fills none. -/
theorem openFeed (s : Store) : s.Fills s.openFeed.1 where
  grows := by simp [Store.openFeed]
  feeds n hn := by
    have hsame : s.openFeed.1.feed n = s.feed n := by
      simp [Store.openFeed, feed, List.getD_eq_getElem?_getD, List.getElem?_append_left hn]
    rw [hsame]
    exact .refl _

/-- Opening a native watch fills no feed. -/
theorem openWatch (s : Store) (stem : Key) : s.Fills (s.openWatch stem).1 :=
  (openFeed s).trans (of_feeds rfl)

/-- An event fills the feeds that it goes to. -/
theorem emit (s : Store) (event : Event) : s.Fills (s.emit event) where
  grows := Nat.le_of_eq (length_emit s event).symm
  feeds n hn := by
    rw [feed_emit hn]
    split
    · exact .push _ _
    · exact .refl _

/-- Events fill the feeds that they go to. -/
theorem emitAll (s : Store) (events : List Event) : s.Fills (s.emitAll events) := by
  induction events generalizing s with
  | nil => exact refl s
  | cons event rest ih => exact (emit s event).trans (ih (s.emit event))

/-- Breaking native watches fills their feeds with the error. -/
theorem breakWatches (s : Store) (error : StorageError) : s.Fills (s.breakWatches error) where
  grows := by simp [Store.breakWatches]
  feeds n hn := by
    have hfeed : (s.breakWatches error).feed n =
        if n ∈ s.watchers.map (·.feed) then ((s.feed n).push (.error error)).finish
        else s.feed n := by
      simp [Store.breakWatches, feed, hn]
    rw [hfeed]
    split
    · exact (Feed.Fills.push _ _).trans (.finish _)
    · exact .refl _

/-- Cutting the connection fills the feeds of native watches with the error. -/
theorem setAvailable (s : Store) (available : Bool) : s.Fills (s.setAvailable available) := by
  cases available with
  | true => exact of_feeds rfl
  | false =>
    have hcut : s.Fills { s with available := false } := of_feeds rfl
    exact hcut.trans (breakWatches _ _)

/-- Whatever it is asked, a store only fills its feeds. -/
theorem serve (s : Store) (now : Nat) {service : Service} (request : Request service) :
    s.Fills (s.serve now request).store := by
  by_cases hwatch : service = .watch
  · subst hwatch
    obtain ⟨⟩ := request
    rcases serve_watch s now _ with ⟨error, heq⟩ | heq
    · rw [heq]
      exact refl s
    · rw [heq]
      exact openWatch s _
  · by_cases hclose : service = .close
    · subst hclose
      obtain ⟨⟩ := request
      cases hclosed : s.closed with
      | true =>
        rw [serve_close_of_closed now hclosed]
        exact refl s
      | false =>
        rw [serve_of_answers now (by simp [answers, Request.namesEmptyKey]) fun _ => hclosed]
        have hclosing : s.Fills { s with closed := true } := of_feeds rfl
        exact hclosing.trans (breakWatches _ _)
    · obtain ⟨ledger, heq⟩ := serve_eq_emitAll s now request hwatch hclose
      have hledger : s.Fills { s with ledger } := of_feeds rfl
      rw [heq]
      exact hledger.trans (emitAll _ _)

end Fills

/-- A feed that was just opened is empty, and both its ends are there. -/
theorem feed_openFeed (s : Store) : s.openFeed.1.feed s.openFeed.2 = {} := by
  simp [openFeed, feed]

end Store

end KeyBroker
