import KeyBroker.Proofs.Listing.Failing
import KeyBroker.Proofs.Listing.Faithful
import KeyBroker.Proofs.Listing.Lost
import KeyBroker.Proofs.Listing.Streaming

/-!
# Failed fetches are harmless

A step of a listing that fails because the store cannot be had may be made again, and is as if
it had not been made. A step that tells that the broker is closed, or that the snapshot was
compacted away, is followed by failures only. A stream of the listing is over with the first
failure of either kind.
-/

namespace KeyBroker

namespace Reader

/-- What failures do to a listing that is being read. -/
structure Resilient (r : Reader) : Prop where
  /-- A step that fails for want of the store leaves the listing exactly as it was. -/
  unchanged : ∀ holdsBroker between r' during cause,
    r.step holdsBroker between = some (r', .error (.storeUnavailable during cause)) →
      r'.listing = r.listing ∧ r'.yielded = r.yielded
  /-- A course without such steps comes to the same: all others have the results that they had,
  and the listing, what it yielded and the system end up as they did. -/
  spared : ∀ stages r' results, r.course stages = some (r', results) →
    ∃ t, r'.system.Same t ∧ r.course (r.spared stages) =
      some (r'.withSystem t, results.filter fun result => !unavailable result)
  /-- After a step that tells that the broker is closed or the snapshot compacted away, no step
  yields a pair or comes to an end. -/
  permanent : ∀ holdsBroker between r' e, r.step holdsBroker between = some (r', .error e) →
    e.endsListing = true → (∀ st ∈ between, st.Candid) → ∀ stages r'' results,
      r'.course stages = some (r'', results) → ∀ result ∈ results, ∃ e, result = .error e

variable {r r' : Reader} {l : Ledger}

/-- No reader is harmed by failures. -/
theorem resilient (hs : r.system.InOrder)
    (hlater : ∃ events, l.Later r.system.store.ledger events) : r.Resilient where
  unchanged holdsBroker between r' during cause hstep := by
    obtain ⟨_, hlisting, hyielded⟩ := (stepped hs hstep).kept rfl
    exact ⟨hlisting, hyielded⟩
  spared stages r' results h := (course_of_eq hs h).spared (.refl hs)
  permanent holdsBroker between r' e hstep hends hcandid stages r'' results h := by
    have hstepped := stepped hs hstep
    have hlost := hstepped.lost hs hlater hends hcandid
    exact (course_of_eq (hstepped.inOrder hs) h).of_lost (hstepped.later hs hlater) hlost

end Reader

/-- The reader of a listing that was just opened, behind which the store has no lines to
follow. -/
def Listing.reader (listing : Listing) (s : System) : Reader where
  system := { s with script := [] }
  listing

section

variable {s t : System} {turn : Turn} {holdsBroker : Bool} {between : List Move} {answer : Answer}

/-- Where a call that got its answer leaves the system. -/
theorem System.eq_of_launch_takeAnswer (hgenuine : s.wiring.Genuine) (hbooked : s.desk.Booked)
    (h : ((s.launch turn holdsBroker).1.moves between).takeAnswer (s.launch turn holdsBroker).2 =
      some (answer, t)) :
    t = ((s.launch turn holdsBroker).1.moves between).move (.take (s.launch turn holdsBroker).2) :=
  (standing_of_takeAnswer (booked_moves hgenuine hbooked (.launch turn holdsBroker :: between)) h).2

/-- A listing that was opened is in the hands of a reader in order. -/
theorem Listing.reader_of_answer (hgenuine : s.wiring.Genuine) (hbooked : s.desk.Booked)
    (hlater : ∃ events, Ledger.Later {} s.store.ledger events)
    (hopened : ((s.launch turn holdsBroker).1.moves between).takeAnswer
      (s.launch turn holdsBroker).2 = some (answer, t)) (listing : Listing) :
    (listing.reader t).system.InOrder ∧
      ∃ events, Ledger.Later {} (listing.reader t).system.store.ledger events := by
  let all : List Move :=
    .launch turn holdsBroker :: (between ++ [.take (s.launch turn holdsBroker).2])
  have hall : s.moves all = t := by
    rw [System.eq_of_launch_takeAnswer hgenuine hbooked hopened]
    exact System.moves_append s (.launch turn holdsBroker :: between) [.take _]
  rw [← hall]
  exact ⟨⟨rfl, System.booked_moves hgenuine hbooked all⟩, System.later_moves hgenuine hlater all⟩

end

/-- Failed fetches are harmless to a listing. Let it be opened in any run, and then be read step
by step, with anything happening before, between and during the steps. Wherever that leads, a
step that fails because the store cannot be had changes nothing, and the course without such
steps comes to the same. What was yielded and what is still to come is the snapshot that the
listing was opened on. Once a step has told that the broker is closed, or the snapshot
compacted away, all further steps fail. And a stream shows what its listing shows up to the
end or the first error, and then nothing more. -/
theorem failed_fetch_harmless (settings : Settings) (run between : List Move) (scope stem : Key)
    (keysOnly holdsBroker : Bool) :
    let begun := (System.moves { settings } run).launch
      (Call.beginList settings scope stem keysOnly .list) holdsBroker
    (∀ listing s, (begun.1.moves between).takeAnswer begun.2 = some (.listing (.ok listing), s) →
      (∀ stages r results, (listing.reader s).course stages = some (r, results) →
        r.Resilient ∧ r.yielded = results.flatMap yieldOf) ∧
      (0 < settings.pageSize → ∃ early, early <+: between ∧
        ∀ stages r results, (listing.reader s).course stages = some (r, results) →
          r.yielded ++ r.listing.remaining (begun.1.moves early).store.ledger.latest =
            Listing.whole (begun.1.moves early).store.ledger.latest scope stem keysOnly)) ∧
    ∀ (session : Session.State) (name : String) (cursor : Session.Cursor) (listing : Listing),
      session.cursors.find? name = some cursor → cursor.streaming = false →
        cursor.listing = some listing → ∀ runs shows, session.items name runs = some shows →
          (session.intoStream name).1.items name runs = some (Session.streamed shows) := by
  intro begun
  have hgenuine := System.genuine_moves (System.genuine_new settings) run
  have hbooked := System.booked_moves (System.genuine_new settings) (System.booked_new settings) run
  have hlater := System.later_moves (System.genuine_new settings) ⟨[], Ledger.later_new⟩ run
  refine ⟨fun listing s hopened => ?_, fun session name cursor listing hfind hplain hlisting runs
    shows hitems => Session.State.items_intoStream hfind hplain hlisting hitems⟩
  obtain ⟨hs, hgrown⟩ := Listing.reader_of_answer hgenuine hbooked hlater hopened listing
  refine ⟨fun stages r results h => ?_, fun hsize => ?_⟩
  · have hcourse := Reader.course_of_eq hs h
    exact ⟨Reader.resilient (hcourse.inOrder hs) (hcourse.later hgrown), hcourse.yielded⟩
  · obtain ⟨early, hearly, hsound⟩ :=
      Reader.sound_opened hgenuine hbooked hlater hsize rfl hopened
    refine ⟨early, hearly, fun stages r results h => ?_⟩
    have hreader : (listing.reader s).Sound _ _ := hsound.ofSystem hs hsound.later
    exact (hreader.course (Reader.course_of_eq hs h)).account

instance decidableEqResult : DecidableEq (Except Error (Option KeyValue))
  | .ok pair, .ok other => decidable_of_iff (pair = other) (by simp)
  | .error e, .error other => decidable_of_iff (e = other) (by simp)
  | .ok _, .error _ | .error _, .ok _ => .isFalse fun h => by cases h

/-- Three keys are listed in pages of one. The connection is cut, and a step fails; it is
restored, and the step is made again. Then the snapshot is compacted away. -/
theorem failed_fetch_harmless_cut_off :
    let settings : Settings := { pageSize := 1 }
    let run : List Move := [.ask (.put ['k', 'a'] [1] none), .ask (.put ['k', 'b'] [2] none),
      .ask (.put ['k', 'c'] [3] none)]
    let poll (n : Nat) : Move := .poll (.call n) false
    let begun := (System.moves { settings } run).launch
      (Call.beginList settings [] ['k'] false .list) false
    let s := (begun.1.moves [poll 0]).move (.take begun.2)
    let listing : Listing :=
      { scope := [], stem := ['k'], pageSize := 1, keysOnly := false, revision := 3
        buffer := [⟨['k', 'a'], [1], 1⟩], lastKey := some ['k', 'a'] }
    let stages : List Reader.Stage :=
      [.next false [], .around (.plain (.setAvailable false)), .next false [.plain (poll 2)],
        .around (.plain (.setAvailable true)), .next false [.plain (poll 3)],
        .around (.plain (.ask (.put ['k', 'd'] [4] none))), .around (.plain (.compact 4))]
    let results : List (Except Error (Option KeyValue)) :=
      [.ok (some ⟨['k', 'a'], [1], 1⟩),
        .error (.storeUnavailable "list" (.unavailable "backend unreachable")),
        .ok (some ⟨['k', 'b'], [2], 2⟩)]
    let session : Session.State :=
      { system := s, cursors := [("pairs", { listing := some listing, keysOnly := false })] }
    let runs : List (List Move) := [[], [.setAvailable false], [.setAvailable true]]
    (begun.1.moves [poll 0]).takeAnswer begun.2 = some (.listing (.ok listing), s) ∧
      (∃ r, (listing.reader s).course stages = some (r, results) ∧ r.Resilient ∧
        r.yielded = [⟨['k', 'a'], [1], 1⟩, ⟨['k', 'b'], [2], 2⟩] ∧
        (∃ t, (listing.reader s).course ((listing.reader s).spared stages) =
          some (r.withSystem t,
            [.ok (some ⟨['k', 'a'], [1], 1⟩), .ok (some ⟨['k', 'b'], [2], 2⟩)])) ∧
        ∃ r', r.step false [.plain (poll 4)] = some (r', .error (.snapshotCompacted 3 4)) ∧
          ∀ stages r'' results, r'.course stages = some (r'', results) →
            ∀ result ∈ results, ∃ e, result = .error e) ∧
      ∃ shows, session.items "pairs" runs = some shows ∧
        shows.map (·.closes) = [false, true, false] ∧
        (session.intoStream "pairs").1.items "pairs" runs = some (Session.streamed shows) := by
  intro settings run poll begun s listing stages results session runs
  have hopened : (((begun.1.moves [poll 0]).takeAnswer begun.2).bind System.opened?).map
      Prod.fst = some listing := by decide +kernel
  obtain ⟨⟨_, s'⟩, hbind, rfl⟩ := Option.map_eq_some_iff.1 hopened
  obtain ⟨taken, htaken, hlisting⟩ := Option.bind_eq_some_iff.1 hbind
  rw [System.opened?_eq_some hlisting] at htaken
  have hgenuine := System.genuine_moves (System.genuine_new settings) run
  have hbooked := System.booked_moves (System.genuine_new settings) (System.booked_new settings) run
  have hs : s' = s := System.eq_of_launch_takeAnswer hgenuine hbooked htaken
  rw [hs] at htaken
  obtain ⟨hall, hstreams⟩ := failed_fetch_harmless settings run [poll 0] [] ['k'] false false
  obtain ⟨hreaders, _⟩ := hall listing s htaken
  have hresults : (((listing.reader s).course stages).bind fun read =>
      (read.1.step false [.plain (poll 4)]).map fun stepped => (read.2, stepped.2)) =
        some (results, .error (.snapshotCompacted 3 4)) := by decide +kernel
  obtain ⟨⟨r, _⟩, hcourse, hstep⟩ := Option.bind_eq_some_iff.1 hresults
  obtain ⟨⟨r', _⟩, hstep, heq⟩ := Option.map_eq_some_iff.1 hstep
  obtain ⟨rfl, rfl⟩ := Prod.mk.inj heq
  obtain ⟨hresilient, hyielded⟩ := hreaders stages r results hcourse
  obtain ⟨t, _, hspared⟩ := (hreaders [] _ [] rfl).1.spared stages r results hcourse
  have hitems : ((session.items "pairs" runs).map fun shows => shows.map (·.closes)) =
      some [false, true, false] := by decide +kernel
  obtain ⟨shows, hitems, hcloses⟩ := Option.map_eq_some_iff.1 hitems
  refine ⟨htaken, ⟨r, hcourse, hresilient, hyielded, ⟨t, hspared⟩, r', hstep, ?_⟩, shows, hitems,
    hcloses, hstreams session "pairs" _ listing rfl rfl rfl runs shows hitems⟩
  refine hresilient.permanent false _ r' _ hstep rfl fun st hst => ?_
  rw [List.mem_singleton] at hst
  subst hst
  intro line hline
  cases hline

end KeyBroker
