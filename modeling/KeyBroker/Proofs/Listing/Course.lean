import KeyBroker.Proofs.Listing.Fetching
import KeyBroker.Proofs.Listing.Reader

/-!
# The course of a listing

A listing is read step by step while other things happen, before and during its steps: the
store is written to, compacted, cut off and restored, answers late or not at all, and the
broker is closed. A step that holds its pair needs nobody; any other comes to its result by
one poll of the call that asks for a page. However the steps end, what was yielded and what
is still to come is all of the snapshot.
-/

namespace KeyBroker

variable {l : Ledger}

namespace System

variable {s : System}

/-- A move leaves the ledger later, whatever lines the store follows in it. -/
theorem later_fate (hlater : ∃ events, l.Later s.store.ledger events) (st : Fated) :
    ∃ events, l.Later (s.fate st).store.ledger events :=
  (changes_move (genuine_under s st) st.move).later hlater

/-- Moves in order leave the ledger later, whatever lines the store follows in them. -/
theorem later_fates (hlater : ∃ events, l.Later s.store.ledger events) (run : List Fated) :
    ∃ events, l.Later (s.fates run).store.ledger events := by
  induction run generalizing s with
  | nil => exact hlater
  | cons st run ih => exact ih (later_fate hlater st)

end System

namespace Reader

/-- One step of a listing, with all that happens during it and the lines that the store then
follows. If there is no answer yet, the step has not come to its end. -/
def step (r : Reader) (holdsBroker : Bool) (between : List Fated) :
    Option (Reader × Except Error (Option KeyValue)) :=
  let begun := r.system.launch (Call.beginNext r.listing) holdsBroker
  match (begun.1.fates between).takeAnswer begun.2 with
  | some (.stepped listing result, system) =>
    some ({ system, listing, yielded := r.yielded ++ yieldOf result }, result)
  | _ => none

/-- A part of the course of a listing. -/
inductive Stage where
  /-- Something that happens between two steps. -/
  | around (st : Fated)
  | next (holdsBroker : Bool) (between : List Fated)
  /-- A step that is not made, whose number is passed over. -/
  | skip (holdsBroker : Bool)

/-- The system at hand is another one. -/
def withSystem (r : Reader) (system : System) : Reader := { r with system }

/-- The system in which a step is not made. -/
def passed (r : Reader) (holdsBroker : Bool) : System :=
  r.system.spare (Call.beginNext r.listing) holdsBroker

/-- The reader after the stages of a course, and the results of its steps in order. -/
def course (r : Reader) : List Stage → Option (Reader × List (Except Error (Option KeyValue)))
  | [] => some (r, [])
  | .around st :: rest => (r.withSystem (r.system.fate st)).course rest
  | .next holdsBroker between :: rest =>
    match r.step holdsBroker between with
    | none => none
    | some (r', result) => (r'.course rest).map fun (last, results) => (last, result :: results)
  | .skip holdsBroker :: rest => (r.withSystem (r.passed holdsBroker)).course rest

/-- How a step comes to its result. -/
structure Stepped (r : Reader) (holdsBroker : Bool) (between : List Fated) (r' : Reader)
    (result : Except Error (Option KeyValue)) : Prop where
  held : r.listing.needsPage = false → r'.listing = r.listing.take.1 ∧ result = r.listing.take.2
  fetched : r.listing.needsPage = true →
    System.Fetched r.system.nextCall r.listing (.stepped r'.listing result)
      (r.system.launch (.ask (.next r.listing)) holdsBroker).1 between
  yielded : r'.yielded = r.yielded ++ yieldOf result
  done : ((r.system.launch (Call.beginNext r.listing) holdsBroker).1.fates between).desk.standing
    r.system.nextCall = some (.done (.stepped r'.listing result))
  taken : r'.system = ((r.system.launch (Call.beginNext r.listing) holdsBroker).1.fates
    between).move (.take r.system.nextCall)

variable {r r' : Reader} {holdsBroker : Bool} {between : List Fated}
  {result : Except Error (Option KeyValue)} {results : List (Except Error (Option KeyValue))}
  {stages : List Stage}

/-- A step that has come to its end did so in one of two ways: at once, or by a page that was
fetched. -/
theorem stepped (hs : r.system.InOrder) (h : r.step holdsBroker between = some (r', result)) :
    r.Stepped holdsBroker between r' result := by
  unfold step at h
  simp only at h
  split at h
  · next later stepped system htake =>
    obtain ⟨rfl, rfl⟩ := Prod.mk.inj (Option.some.inj h)
    rw [System.launch_id] at htake
    have hbegun := hs.launch (Call.beginNext r.listing) holdsBroker
    obtain ⟨hdone, hsystem⟩ := System.standing_of_takeAnswer (hbegun.fates between).booked htake
    have hid : r.system.nextCall <
        (r.system.launch (Call.beginNext r.listing) holdsBroker).1.nextCall := by
      rw [System.nextCall_launch]
      exact Nat.lt_succ_self _
    refine { held := fun hheld => ?_, fetched := fun hneeds => ?_, yielded := rfl, done := hdone
             taken := hsystem }
    · have hturn := Listing.beginNext_of_held hheld
      have hstart := System.standing_launch hs.booked (Call.beginNext r.listing) holdsBroker
      rw [hturn] at hstart hbegun hdone hid
      have hsame := System.done_fates hbegun hid hstart between hdone
      simp only [Turn.done.injEq, Answer.stepped.injEq] at hsame
      exact hsame
    · have hturn := Listing.beginNext_of_needsPage hneeds
      rw [hturn] at hbegun hdone hid
      exact System.fetched hbegun hid (System.call?_launch hs.booked _ holdsBroker) rfl between
        hdone
  · cases h

/-- A step whose call stands at a result has it. -/
theorem step_of_standing {later : Listing}
    (h : ((r.system.launch (Call.beginNext r.listing) holdsBroker).1.fates between).desk.standing
      r.system.nextCall = some (.done (.stepped later result))) :
    r.step holdsBroker between = some
      ({ system := ((r.system.launch (Call.beginNext r.listing) holdsBroker).1.fates between).move
           (.take r.system.nextCall)
         listing := later, yielded := r.yielded ++ yieldOf result }, result) := by
  have htake := System.takeAnswer_of_standing h
  unfold step
  simp only [System.launch_id, htake]

/-! ### Runs behind a course -/

/-- A step leaves the system that its launch, what happened between, and taking its answer leave. -/
theorem Stepped.system_eq (h : r.Stepped holdsBroker between r' result) (hs : r.system.InOrder) :
    r'.system = r.system.fates (.plain (.launch (Call.beginNext r.listing) holdsBroker) ::
      (between ++ [.plain (.take r.system.nextCall)])) := by
  have hbegun := (hs.launch (Call.beginNext r.listing) holdsBroker).fates between
  rw [h.taken, System.take_eq_fate hbegun, System.launch_eq_fate hs, System.fates_cons,
    System.fates_append]
  rfl

/-- From the moment of its answer, the system of a step goes on to where the step leaves it. -/
theorem Stepped.system_of_moment (h : r.Stepped holdsBroker between r' result)
    (hs : r.system.InOrder) {early late : List Fated} (hbetween : between = early ++ late) :
    r'.system = ((r.system.launch (Call.beginNext r.listing) holdsBroker).1.fates early).fates
      (late ++ [.plain (.take r.system.nextCall)]) := by
  rw [h.system_eq hs, hbetween, System.fates_cons, ← System.launch_eq_fate hs, List.append_assoc,
    System.fates_append]

/-- After a step the system is in order again. -/
theorem Stepped.inOrder (h : r.Stepped holdsBroker between r' result) (hs : r.system.InOrder) :
    r'.system.InOrder := by
  rw [h.system_eq hs]
  exact hs.fates _

/-- How a course comes to its end, stage by stage. -/
inductive Course : Reader → List Stage → Reader → List (Except Error (Option KeyValue)) → Prop where
  | nil (r : Reader) : Course r [] r []
  | around {r last : Reader} {stages : List Stage}
    {results : List (Except Error (Option KeyValue))} (hs : r.system.InOrder) (st : Fated)
    (rest : Course (r.withSystem (r.system.fate st)) stages last results) :
    Course r (.around st :: stages) last results
  | skip {r last : Reader} {stages : List Stage}
    {results : List (Except Error (Option KeyValue))} (hs : r.system.InOrder) (holdsBroker : Bool)
    (rest : Course (r.withSystem (r.passed holdsBroker)) stages last results) :
    Course r (.skip holdsBroker :: stages) last results
  | next {r first last : Reader} {stages : List Stage} {holdsBroker : Bool} {between : List Fated}
    {result : Except Error (Option KeyValue)} {results : List (Except Error (Option KeyValue))}
    (hs : r.system.InOrder) (hstep : r.step holdsBroker between = some (first, result))
    (hstepped : r.Stepped holdsBroker between first result)
    (rest : Course first stages last results) :
    Course r (.next holdsBroker between :: stages) last (result :: results)

/-- A course that has come to its end did so stage by stage. -/
theorem course_of_eq (hs : r.system.InOrder) (h : r.course stages = some (r', results)) :
    Course r stages r' results := by
  induction stages generalizing r results with
  | nil =>
    obtain ⟨rfl, rfl⟩ := Prod.mk.inj (Option.some.inj h)
    exact .nil r
  | cons stage rest ih =>
    cases stage with
    | around st => exact .around hs st (ih (r := r.withSystem _) (hs.fate st) h)
    | skip holdsBroker =>
      exact .skip hs holdsBroker (ih (r := r.withSystem _) (hs.spare _ holdsBroker) h)
    | next holdsBroker between =>
      simp only [course] at h
      split at h
      · cases h
      · next first result hstep =>
        have hstepped := stepped hs hstep
        obtain ⟨⟨last, others⟩, hrest, heq⟩ := Option.map_eq_some_iff.1 h
        obtain ⟨rfl, rfl⟩ := Prod.mk.inj heq
        exact .next hs hstep hstepped (ih (hstepped.inOrder hs) hrest)

/-! ### What is yielded -/

variable {whole : List KeyValue}

/-- Nothing that happens to the system concerns the listing. -/
theorem Sound.ofSystem (h : r.Sound l whole) {s : System} (hs : s.InOrder)
    (hlater : ∃ events, l.Later s.store.ledger events) : (r.withSystem s).Sound l whole where
  genuine line hline := by
    have hmem : line ∈ s.script := hline
    rw [hs.script] at hmem
    cases hmem
  booked := hs.booked
  later := hlater
  reads := h.reads
  revision := h.revision
  account := h.account

/-- During a step the store goes on from what it held. -/
theorem later_begun (hlater : ∃ events, l.Later r.system.store.ledger events) (turn : Turn)
    (holdsBroker : Bool) (early : List Fated) :
    ∃ events, l.Later ((r.system.launch turn holdsBroker).1.fates early).store.ledger events := by
  have hstore : (r.system.launch turn holdsBroker).1.store = r.system.store :=
    congrArg Wiring.store (System.wiring_launch _ _ _)
  refine System.later_fates ?_ early
  rw [hstore]
  exact hlater

/-- After a step too. -/
theorem Stepped.later (hstep : r.Stepped holdsBroker between r' result) (hs : r.system.InOrder)
    (hlater : ∃ events, l.Later r.system.store.ledger events) :
    ∃ events, l.Later r'.system.store.ledger events := by
  rw [hstep.system_eq hs]
  exact System.later_fates hlater _

/-- A step is a step in the snapshot. -/
theorem Stepped.steps (hstep : r.Stepped holdsBroker between r' result) (h : r.Sound l whole) :
    r.listing.Steps l.latest r'.listing result := by
  cases hneeds : r.listing.needsPage with
  | false =>
    obtain ⟨hlisting, hresult⟩ := hstep.held hneeds
    rw [hlisting, hresult]
    exact h.reads.steps_take hneeds
  | true =>
    obtain ⟨early, st, late, c, _, _, hfetches⟩ := (hstep.fetched hneeds).moment
    generalize hfirst : r'.listing = later at hfetches
    cases hfetches with
    | stopped | lost | rejected => exact .fails _ hneeds
    | reads acts page outcome =>
      have hlater := later_begun h.later (.ask (.next r.listing)) holdsBroker early
      exact h.reads.steps_absorb (Store.page_of_pinned hlater (congrArg some h.revision) outcome)

/-- A step keeps the reader sound. -/
theorem Stepped.sound (hstep : r.Stepped holdsBroker between r' result) (hs : r.system.InOrder)
    (h : r.Sound l whole) : r'.Sound l whole :=
  h.stepped (h.ofSystem (hstep.inOrder hs) (hstep.later hs h.later)) (hstep.steps h) hstep.yielded

/-- After a course the system is in order again. -/
theorem Course.inOrder (h : Course r stages r' results) (hs : r.system.InOrder) :
    r'.system.InOrder := by
  induction h with
  | nil => exact hs
  | around hs st _ ih => exact ih (hs.fate st)
  | skip hs holdsBroker _ ih => exact ih (hs.spare _ holdsBroker)
  | next hs _ hstepped _ ih => exact ih (hstepped.inOrder hs)

/-- A course leaves the ledger later. -/
theorem Course.later (h : Course r stages r' results)
    (hlater : ∃ events, l.Later r.system.store.ledger events) :
    ∃ events, l.Later r'.system.store.ledger events := by
  induction h with
  | nil => exact hlater
  | around _ st _ ih => exact ih (System.later_fate hlater st)
  | skip _ _ _ ih => exact ih hlater
  | next hs _ hstepped _ ih => exact ih (hstepped.later hs hlater)

/-- What a course yields and what is then still to come is all of the snapshot. -/
theorem Sound.course (h : r.Sound l whole) (hcourse : Course r stages r' results) :
    r'.Sound l whole := by
  induction hcourse with
  | nil => exact h
  | around hs st _ ih => exact ih (h.ofSystem (hs.fate st) (System.later_fate h.later st))
  | skip hs holdsBroker _ ih => exact ih (h.ofSystem (hs.spare _ holdsBroker) h.later)
  | next hs _ hstepped _ ih => exact ih (hstepped.sound hs h)

/-- A course yields what its steps yield. -/
theorem Course.yielded (h : Course r stages r' results) :
    r'.yielded = r.yielded ++ results.flatMap yieldOf := by
  induction h with
  | nil => exact (List.append_nil _).symm
  | around _ _ _ ih | skip _ _ _ ih => exact ih
  | next _ _ hstepped _ ih =>
    rw [ih, hstepped.yielded, List.append_assoc]
    rfl

end Reader

end KeyBroker
