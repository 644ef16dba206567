import KeyBroker.Proofs.Key
import KeyBroker.Proofs.Ledger.Intact
import KeyBroker.Proofs.Listing.Pages

/-!
# What a range asks for

A key is live at a revision with the value of its newest version at or below it, if that is
not a deletion. A query wants the live pairs under its stem and behind its start, in the
order of the bytes of their keys; this says nothing of scans or positions. A page shows
as many of them as the limit allows.
-/

namespace KeyBroker

namespace Versions

variable {revision : Nat} {versions : Versions} {v : Version}

/-- A version is what a revision sees of a key: no other one that is old enough is newer. -/
structure Seen (versions : Versions) (revision : Nat) (v : Version) : Prop where
  mem : v ∈ versions
  old : v.revision ≤ revision
  newest : ∀ w ∈ versions, w.revision ≤ revision → w.revision ≤ v.revision

/-- In a history whose revisions ascend, the version found from the back is the one seen. -/
theorem visible?_eq_some_iff (hasc : versions.Pairwise (·.revision < ·.revision)) :
    visible? revision versions = some v ↔ versions.Seen revision v := by
  induction versions with
  | nil =>
    constructor
    · intro h
      cases h
    · intro h
      cases h.mem
  | cons first rest ih =>
    obtain ⟨hfirst, hrest⟩ := List.pairwise_cons.1 hasc
    rw [visible?_cons]
    constructor
    · intro h
      rcases Option.or_eq_some_iff.1 h with hlater | ⟨hnone, hhere⟩
      · obtain ⟨hmem, hold, hnewest⟩ := (ih hrest).1 hlater
        refine ⟨List.mem_cons_of_mem _ hmem, hold, fun w hw hle => ?_⟩
        rcases List.mem_cons.1 hw with rfl | hw
        · exact Nat.le_of_lt (hfirst v hmem)
        · exact hnewest w hw hle
      · split at hhere
        · next hold =>
          obtain rfl := Option.some.inj hhere
          refine ⟨List.mem_cons_self, hold, fun w hw hle => ?_⟩
          rcases List.mem_cons.1 hw with rfl | hw
          · exact Nat.le_refl _
          · have hvisible := List.find?_eq_none.1 hnone w (List.mem_reverse.2 hw)
            exact absurd hle (by simpa using hvisible)
        · cases hhere
    · rintro ⟨hmem, hold, hnewest⟩
      rcases List.mem_cons.1 hmem with rfl | hmem
      · -- every later version is too new
        have hnone : visible? revision rest = none := by
          refine List.find?_eq_none.2 fun w hw => ?_
          have hw := List.mem_reverse.1 hw
          have hlt := hfirst w hw
          simp only [decide_eq_true_eq]
          exact fun hle => absurd (hnewest w (List.mem_cons_of_mem _ hw) hle) (Nat.not_le.2 hlt)
        rw [hnone, Option.none_or, if_pos hold]
      · rw [(ih hrest).2 ⟨hmem, hold, fun w hw => hnewest w (List.mem_cons_of_mem _ hw)⟩,
          Option.some_or]

end Versions

/-! ### The pairs that a query wants -/

/-- A pair as a query wants it to be shown. -/
def RangeQuery.shows (query : RangeQuery) (pair : KeyValue) : KeyValue :=
  if query.keysOnly then pair.blank else pair

/-- As many of the pairs as the limit allows. -/
def RangeQuery.allows (query : RangeQuery) (pairs : List KeyValue) : List KeyValue :=
  if query.limit = 0 then pairs else pairs.take query.limit

namespace Ledger

variable {l : Ledger} {revision : Nat} {query : RangeQuery}

/-- A pair is live at a revision: the version seen there put its value, and put it at the
revision of the pair. -/
def Live (l : Ledger) (revision : Nat) (pair : KeyValue) : Prop :=
  ∃ v, (l.versions pair.key).Seen revision v ∧ v.revision = pair.revision ∧
    v.value = some pair.value

/-- The pairs that a query asks for at a revision, whatever its limit. -/
structure Wants (l : Ledger) (revision : Nat) (query : RangeQuery) (pairs : List KeyValue) :
    Prop where
  /-- They stand in the order of the bytes of their keys. -/
  ascending : pairs.Pairwise (·.key.utf8 < ·.key.utf8)
  /-- They are the live pairs under the stem, without those up to the start. -/
  exact : ∀ pair, pair ∈ pairs ↔ l.Live revision pair ∧ query.stem.utf8 <+: pair.key.utf8 ∧
    ∀ start ∈ query.startAfter, start.utf8 < pair.key.utf8

/-- Only one list is wanted. -/
theorem Wants.unique {pairs others : List KeyValue} (h : l.Wants revision query pairs)
    (h' : l.Wants revision query others) : pairs = others := by
  have hnodup {pairs : List KeyValue} (h : l.Wants revision query pairs) : pairs.Nodup := by
    refine h.ascending.imp ?_
    rintro a b hab rfl
    exact List.lt_irrefl _ hab
  have hmem : ∀ pair, pair ∈ pairs ↔ pair ∈ others := fun pair => by rw [h.exact, h'.exact]
  have hperm := (List.perm_ext_iff_of_nodup (hnodup h) (hnodup h')).2 hmem
  refine hperm.eq_of_pairwise ?_ h.ascending h'.ascending
  intro a b _ _ hab hba
  exact absurd (List.lt_trans hab hba) (List.lt_irrefl _)

/-- The snapshot of a revision has exactly the pairs that are live there. -/
theorem Intact.live_iff (h : l.Intact) {pair : KeyValue} :
    l.Live revision pair ↔
      (pair.key, pair.revision, pair.value) ∈ (l.snapshot revision).entries := by
  have hasc := (h.versions pair.key).ascending
  rw [KeyMap.mem_entries_iff, get?_snapshot, Versions.live?, Option.bind_eq_some_iff]
  constructor
  · rintro ⟨v, hseen, hrevision, hvalue⟩
    refine ⟨v, (Versions.visible?_eq_some_iff hasc).2 hseen, ?_⟩
    rw [hvalue, Option.map_some, hrevision]
  · rintro ⟨v, hvisible, hfound⟩
    obtain ⟨value, hvalue, heq⟩ := Option.map_eq_some_iff.1 hfound
    obtain ⟨hrevision, rfl⟩ := Prod.mk.inj heq
    exact ⟨v, (Versions.visible?_eq_some_iff hasc).1 hvisible, hrevision, hvalue⟩

/-- All that a query wants of a ledger at a revision. -/
def wanted (l : Ledger) (revision : Nat) (query : RangeQuery) : List KeyValue :=
  ((l.snapshot revision).found query).map fun (key, modified, value) =>
    { key, value, revision := modified }

/-- What is computed as wanted is what a query asks for. -/
theorem Intact.wants_wanted (h : l.Intact) (revision : Nat) (query : RangeQuery) :
    l.Wants revision query (l.wanted revision query) where
  ascending := by
    rw [wanted, List.pairwise_map]
    exact ((l.snapshot revision).found_ascending query).imp Key.utf8_lt_iff.2
  exact pair := by
    rw [h.live_iff, wanted, List.mem_map]
    simp only [Key.utf8_prefix_iff, Key.utf8_lt_iff]
    have hasked {key : Key} : (query.stem.beginsWith key && query.startAfter.all (· < key)) = true ↔
        query.stem <+: key ∧ ∀ start ∈ query.startAfter, start < key := by
      rw [Bool.and_eq_true, Key.beginsWith_iff]
      cases query.startAfter <;> simp
    constructor
    · rintro ⟨⟨key, modified, value⟩, hfound, rfl⟩
      obtain ⟨hmem, hasks⟩ := List.mem_filter.1 hfound
      exact ⟨hmem, hasked.1 hasks⟩
    · rintro ⟨hmem, hasks⟩
      exact ⟨_, List.mem_filter.2 ⟨hmem, hasked.2 hasks⟩, rfl⟩

/-- What is wanted is one list, and it is the one that was found. -/
theorem Intact.wants_iff (h : l.Intact) {pairs : List KeyValue} :
    l.Wants revision query pairs ↔ pairs = l.wanted revision query := by
  constructor
  · exact fun hwants => hwants.unique (h.wants_wanted revision query)
  · rintro rfl
    exact h.wants_wanted revision query

/-- The pairs that a snapshot gives a query are all that it wants, as it wants them shown. -/
theorem pairs_eq_wanted (l : Ledger) (revision : Nat) (query : RangeQuery) :
    (l.snapshot revision).pairs query = (l.wanted revision query).map query.shows := by
  rw [Snapshot.pairs_eq, wanted, List.map_map]
  refine List.map_congr_left fun e _ => ?_
  simp only [Snapshot.shown, Function.comp, RangeQuery.shows, KeyValue.blank]
  split <;> rfl

/-! ### Pages -/

/-- The revision that a query is read at. -/
def readAt (l : Ledger) (query : RangeQuery) : Nat := query.revision.getD l.revision

/-- The page that a query is to get of a ledger: what it wants, as far as the limit allows,
and whether that was all. -/
def due (l : Ledger) (query : RangeQuery) : Page :=
  let wanted := l.wanted (l.readAt query) query
  { pairs := (query.allows wanted).map query.shows
    more := decide ((query.allows wanted).length < wanted.length)
    revision := l.readAt query }

/-- A range is refused for the compaction or for the future, or it gets its page. -/
theorem page_eq_due (l : Ledger) (query : RangeQuery) :
    l.page query =
      if l.readAt query < l.compacted then .failed (.compacted (l.readAt query) l.compacted)
      else if l.revision < l.readAt query then
        .failed (.invalidArgument
          s!"revision {l.readAt query} is newer than current revision {l.revision}")
      else .ok (l.due query) := by
  have hallowed : (if query.limit = 0
        then Page.mk (l.pairsAt (l.readAt query) query) false (l.readAt query)
        else { pairs := (l.pairsAt (l.readAt query) query).take query.limit
               more := query.limit < (l.pairsAt (l.readAt query) query).length
               revision := l.readAt query }) = l.due query := by
    rw [pairsAt_eq, pairs_eq_wanted, due]
    unfold RangeQuery.allows
    split
    · simp
    · simp only [List.map_take, List.length_map, List.length_take, Page.mk.injEq, true_and,
        and_true, decide_eq_decide]
      omega
  rw [← hallowed, apply_ite Outcome.ok]
  rfl

/-- A range is refused for compaction exactly if it reads behind the compaction point, and the
refusal names both revisions. -/
theorem page_compacted_iff (l : Ledger) (query : RangeQuery) {revision floor : Nat} :
    l.page query = .failed (.compacted revision floor) ↔
      l.readAt query < l.compacted ∧ revision = l.readAt query ∧ floor = l.compacted := by
  rw [page_eq_due]
  split_ifs with hlow hhigh
  · simp only [Outcome.failed.injEq, StorageError.compacted.injEq, hlow, true_and]
    exact and_congr eq_comm eq_comm
  · simp [hlow]
  · simp [hlow]

/-- A range is refused as invalid exactly if it reads at a revision still to come, and the refusal
names both revisions. -/
theorem page_invalid_iff (hfloor : l.compacted ≤ l.revision) {reason : String} :
    l.page query = .failed (.invalidArgument reason) ↔
      l.revision < l.readAt query ∧
        reason = s!"revision {l.readAt query} is newer than current revision {l.revision}" := by
  rw [page_eq_due]
  split_ifs with hlow hhigh
  · have hhigh : ¬ l.revision < l.readAt query := by omega
    simp [hhigh]
  · simp only [Outcome.failed.injEq, StorageError.invalidArgument.injEq, hhigh, true_and]
    exact eq_comm
  · simp [hhigh]

/-- Between the compaction point and the latest revision a query gets the page that is due. -/
theorem page_of_readable (hlow : l.compacted ≤ l.readAt query)
    (hhigh : l.readAt query ≤ l.revision) : l.page query = .ok (l.due query) := by
  rw [page_eq_due, if_neg (Nat.not_lt.2 hlow), if_neg (Nat.not_lt.2 hhigh)]

/-- Past the last pair of a full page begins what the page left out. -/
theorem wanted_after {n : Nat} {last : KeyValue}
    (hlast : ((l.wanted revision query).take n).getLast? = some last) :
    l.wanted revision { query with startAfter := some last.key } =
      (l.wanted revision query).drop n := by
  rw [wanted, ← List.map_take, List.getLast?_map, Option.map_eq_some_iff] at hlast
  obtain ⟨⟨key, modified, value⟩, hentry, rfl⟩ := hlast
  rw [wanted, Snapshot.found_after hentry, wanted, List.map_drop]

end Ledger

end KeyBroker
