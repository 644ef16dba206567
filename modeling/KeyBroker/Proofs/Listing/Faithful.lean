import KeyBroker.Proofs.Listing.Reader

/-!
# Listings of a snapshot

The pairs that a listing yields are the first ones of what the store held under its
stem at the revision of the listing, whatever is committed, expires or is compacted
meanwhile. A listing that comes to its end has yielded them all. It can only fail for
want of a page, and while the broker serves only because its revision was compacted
away.
-/

namespace KeyBroker

/-- What holds of every reader of the snapshot `m` of `revision`, when the listing was opened on
`stem` through a view of `scope`. -/
structure Reader.Faithful (r : Reader) (m : Snapshot) (revision : Nat) (scope stem : Key)
    (keysOnly : Bool) : Prop where
  pinned : r.listing.revision = revision
  /-- As long as the revision can be read, the store holds the snapshot. -/
  kept : r.system.store.ledger.compacted ≤ revision → r.system.store.ledger.snapshot revision = m
  /-- The pairs yielded are the first ones of the snapshot. -/
  yields : r.yielded <+: Listing.whole m scope stem keysOnly
  /-- Their keys are the same with and without values. -/
  keys : r.yielded.map (·.key) <+: (m.listed scope stem).map (·.key)
  /-- Whatever happens during a step, it answers the next pair, or fails for want of a page and
  changes nothing. -/
  next : ∀ holdsBroker between r' result, r.next holdsBroker between = some (r', result) →
    (∃ replies, r.listing.next replies = some (r'.listing, result, [])) ∧
      (result = .ok (Listing.whole m scope stem keysOnly)[r.yielded.length]? ∨
        (∃ e, result = .error e) ∧ r.listing.needsPage = true ∧ r'.listing = r.listing ∧
          r'.yielded = r.yielded)
  /-- A listing that comes to its end has yielded everything. -/
  ends : ∀ holdsBroker between r', r.next holdsBroker between = some (r', .ok none) →
    r.yielded = Listing.whole m scope stem keysOnly
  /-- When the broker serves, a step is answered with its first poll, and fails only if it needs
  a page of a revision that was compacted away. -/
  serves : r.system.Serves → ∀ holdsBroker reportFirst, ∃ r' result,
    r.next holdsBroker [.poll (.call r.system.nextCall) reportFirst] = some (r', result) ∧
      result =
        if r.listing.needsPage = true ∧ revision < r.system.store.ledger.compacted then
          .error (.snapshotCompacted revision r.system.store.ledger.compacted)
        else .ok (Listing.whole m scope stem keysOnly)[r.yielded.length]?
  /-- All further steps in one call answer what they answer one by one with the same replies of
  the store. Without a failure that is the rest of the snapshot. -/
  collect : ∀ holdsBroker between taken failure,
    r.collect holdsBroker between = some (taken, failure) →
      (∃ replies, r.listing.Iterates replies taken failure) ∧
        r.yielded ++ taken <+: Listing.whole m scope stem keysOnly ∧
        (failure = none → r.yielded ++ taken = Listing.whole m scope stem keysOnly)
  /-- When the broker serves, that call is answered after finitely many polls, and fails only if
  the rest needs a page of a revision that was compacted away. -/
  collects : r.system.Serves → ∀ holdsBroker reportFirst, ∃ polls taken,
    r.collect holdsBroker (.replicate polls (.poll (.call r.system.nextCall) reportFirst)) =
      some (taken,
        if r.listing.more = true ∧ revision < r.system.store.ledger.compacted then
          some (.snapshotCompacted revision r.system.store.ledger.compacted)
        else none)

namespace Reader

/-- The pair after the first ones is the first of the rest. -/
theorem getElem?_length_of_append {first rest whole : List KeyValue} (h : first ++ rest = whole) :
    whole[first.length]? = rest.head? := by
  rw [← h, List.getElem?_append_right (Nat.le_refl _), Nat.sub_self, List.head?_eq_getElem?]

/-- A reader that is sound with all that the snapshot has to yield is faithful to the snapshot. -/
theorem Sound.faithful {r : Reader} {l : Ledger} {scope stem : Key} {keysOnly : Bool}
    (h : r.Sound l (Listing.whole l.latest scope stem keysOnly)) :
    r.Faithful l.latest l.revision scope stem keysOnly where
  pinned := h.revision
  kept hlow := by
    obtain ⟨_, hlater⟩ := h.later
    exact hlater.past l.revision hlow (Nat.le_refl _)
  yields := h.account ▸ List.prefix_append _ _
  keys := by
    have hyields : r.yielded <+: Listing.whole l.latest scope stem keysOnly :=
      h.account ▸ List.prefix_append _ _
    have hkeys := hyields.map (·.key)
    rwa [Listing.keys_whole] at hkeys
  next holdsBroker between r' result hnext := by
    obtain ⟨hsteps, hreplies, hyielded, _⟩ := h.steps hnext
    refine ⟨hreplies, ?_⟩
    rw [getElem?_length_of_append h.account]
    generalize hlater : r'.listing = later at hsteps
    cases hsteps with
    | answers => exact .inl rfl
    | fails e needs => exact .inr ⟨⟨e, rfl⟩, needs, rfl, hyielded.trans (List.append_nil _)⟩
  ends holdsBroker between r' hnext := by
    obtain ⟨hsteps, _⟩ := h.steps hnext
    have hend := hsteps.remaining_eq_nil rfl
    rw [← h.account, hend, List.append_nil]
  serves hserves holdsBroker reportFirst := by
    rw [getElem?_length_of_append h.account]
    exact h.serves hserves reportFirst
  collect holdsBroker between taken failure hcollect := by
    cases h.collect hcollect with
    | answers read front all =>
      rw [← h.account]
      refine ⟨⟨_, read⟩, (List.prefix_append_right_inj _).2 front, fun hnone => ?_⟩
      rw [all hnone]
  collects hserves holdsBroker reportFirst := h.collects hserves reportFirst

end Reader

namespace System

/-- A listing yields the snapshot of its revision. Let it be opened in any run, with anything
happening until it is. At some moment the store was at the revision of the listing, and every
reader that the listing can lead to is faithful to what the store held then. -/
theorem listing_yields_snapshot (settings : Settings) (hsize : 0 < settings.pageSize)
    (run between : List Move) (scope stem : Key) (keysOnly holdsBroker : Bool) :
    let begun := (moves { settings } run).launch
      (Call.beginList settings scope stem keysOnly .list) holdsBroker
    ∀ listing s, (begun.1.moves between).takeAnswer begun.2 = some (.listing (.ok listing), s) →
      ∃ early, early <+: between ∧
        (begun.1.moves early).store.ledger.revision = listing.revision ∧
        ∀ r, Reader.Reaches { system := s, listing } r →
          r.Faithful (begun.1.moves early).store.ledger.latest listing.revision scope stem
            keysOnly := by
  intro begun listing s hopened
  have hgenuine := genuine_moves (genuine_new settings) run
  have hbooked := booked_moves (genuine_new settings) (booked_new settings) run
  have hlater := later_moves (genuine_new settings) ⟨[], Ledger.later_new⟩ run
  obtain ⟨early, hearly, hsound⟩ :=
    Reader.sound_opened hgenuine hbooked hlater hsize rfl hopened
  refine ⟨early, hearly, hsound.revision.symm, fun r hreaches => ?_⟩
  have hfaithful := (hsound.reaches hreaches).faithful
  rwa [← hsound.revision] at hfaithful

/-- The listing that an answer opens, with the system behind it. -/
def opened? : Answer × System → Option (Listing × System)
  | (.listing (.ok listing), s) => some (listing, s)
  | _ => none

/-- A listing is opened by an answer that holds it. -/
theorem opened?_eq_some {taken : Answer × System} {listing : Listing} {s : System}
    (h : opened? taken = some (listing, s)) : taken = (.listing (.ok listing), s) := by
  unfold opened? at h
  split at h
  · cases h
    rfl
  · cases h

/-- A view of scope `p` lists three keys under `q` in pages of two. -/
theorem listing_yields_snapshot_three :
    let settings : Settings := { pageSize := 2 }
    let run : List Move := [.ask (.put ['p', 'q', 'a'] [1] none),
      .ask (.put ['p', 'q', 'b'] [2] none), .ask (.put ['p', 'q', 'c'] [3] none)]
    let begun := (moves { settings } run).launch
      (Call.beginList settings ['p'] ['q'] false .list) false
    let listing : Listing :=
      { scope := ['p'], stem := ['p', 'q'], pageSize := 2, keysOnly := false, revision := 3,
        buffer := [⟨['p', 'q', 'a'], [1], 1⟩, ⟨['p', 'q', 'b'], [2], 2⟩],
        lastKey := some ['p', 'q', 'b'] }
    ∃ s, (begun.1.moves [.poll (.call 0) false]).takeAnswer begun.2 =
        some (.listing (.ok listing), s) ∧
      ∃ early, early <+: [.poll (.call 0) false] ∧
        (begun.1.moves early).store.ledger.revision = listing.revision ∧
        ∀ r, Reader.Reaches { system := s, listing } r →
          r.Faithful (begun.1.moves early).store.ledger.latest listing.revision ['p'] ['q']
            false := by
  intro settings run begun listing
  have hopened : (((begun.1.moves [.poll (.call 0) false]).takeAnswer begun.2).bind opened?).map
      Prod.fst = some listing := by decide +kernel
  obtain ⟨⟨_, s⟩, hbind, rfl⟩ := Option.map_eq_some_iff.1 hopened
  obtain ⟨taken, htaken, hlisting⟩ := Option.bind_eq_some_iff.1 hbind
  rw [opened?_eq_some hlisting] at htaken
  refine ⟨s, htaken, ?_⟩
  exact listing_yields_snapshot settings (by decide) run [.poll (.call 0) false] ['p'] ['q']
    false false _ s htaken

end System

end KeyBroker
