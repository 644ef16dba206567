import KeyBroker.Proofs.Batch.Recorded
import KeyBroker.Proofs.Shutdown.Refusals

/-!
# A batch is sent once

Whatever its holder does with a batch, and whatever happens to the broker meanwhile, at most one
request comes of it: the one that the first commit makes, with the writes recorded up to then.
Only the first commit can be under way. It makes its request when it is first polled, and all
other commits are over as soon as they begin.
-/

namespace KeyBroker.Batch

/-- Nobody can tell two hands apart: they hold the same batch, on brokers that differ in nothing
but the journal and the order of the workers. -/
structure InHand.Even (h k : InHand) : Prop where
  batch : h.batch = k.batch
  commits : h.commits = k.commits
  system : System.Even h.system k.system

/-- What the caller of a commit is told about a batch that was committed before. -/
def refusal (b : Batch) : Turn := .done (.committed b (.error .alreadyCommitted))

/-- A batch is sent at most once, and exactly as it was recorded. -/
structure SentOnce (start : InHand) : Prop where
  /-- Whatever is done, at most one request comes of it. -/
  once (deeds : List Deed) : (start.asksAll deeds).length ≤ 1
  /-- Without a commit, none does. -/
  unsent (before : List Deed) (uncommitted : ∀ d ∈ before, d.commits = false) :
    start.asksAll before = []
  /-- Nor does one come of the first commit, or of later ones, while the first is not polled. -/
  unpolled (before : List Deed) (holdsBroker : Bool) (after : List Deed)
    (uncommitted : ∀ d ∈ before, d.commits = false)
    (quiet : ∀ d ∈ after, d.polls (start.afterAll before).system.nextCall = false) :
    start.asksAll (before ++ .commit holdsBroker :: after) = []
  /-- The first commit sends all that was recorded before it when it is first polled, if the
  broker serves then and no empty key was recorded. Nothing else is ever sent. -/
  sends (before : List Deed) (holdsBroker : Bool) (quiet : List Deed) (poll : Deed)
    (after : List Deed) (uncommitted : ∀ d ∈ before, d.commits = false)
    (unpolled : ∀ d ∈ quiet, d.polls (start.afterAll before).system.nextCall = false)
    (polled : poll.polls (start.afterAll before).system.nextCall = true) :
    start.asksAll (before ++ .commit holdsBroker :: (quiet ++ poll :: after)) =
      if (start.afterAll (before ++ .commit holdsBroker :: quiet)).system.stopped = false ∧
          Sendable start.batch.scope before then
        [⟨.txn, .txn (recorded start.batch.scope before)⟩]
      else []
  /-- Every later commit is refused at once, and that is what its caller gets. -/
  refuses (deeds : List Deed) (holdsBroker : Bool) (after : List Deed)
    (committed : ∃ d ∈ deeds, d.commits = true) :
    let h := start.afterAll deeds
    (h.after (.commit holdsBroker)).system.desk.standing h.system.nextCall =
        some (refusal h.batch) ∧
      ∀ turn, ((h.after (.commit holdsBroker)).afterAll after).system.desk.standing
        h.system.nextCall = some turn → turn = refusal h.batch
  /-- A later write changes neither the number of writes nor anything that comes after it. -/
  ignores (deeds : List Deed) (write : Deed) (after : List Deed)
    (committed : ∃ d ∈ deeds, d.commits = true) (records : write.records = true) :
    let h := start.afterAll deeds
    (h.after write).batch.size = h.batch.size ∧
      InHand.Even ((h.after write).afterAll after) (h.afterAll after) ∧
      (h.after write).asksAll after = h.asksAll after

namespace InHand

variable {h k : InHand} {d : Deed} {id : Nat}

/-! ### Deeds and the broker -/

/-- The broker is one that comes of a run. -/
def Run (h : InHand) : Prop := ∃ es, h.system.Kept es

/-- A deed leaves a broker that comes of a run. -/
theorem Run.after (h' : h.Run) (d : Deed) : (h.after d).Run :=
  let ⟨_, hkept⟩ := h'
  ⟨_, hkept.incur _⟩

/-- Deeds in order leave a broker that comes of a run. -/
theorem Run.afterAll (h' : h.Run) (deeds : List Deed) : (h.afterAll deeds).Run := by
  induction deeds generalizing h with
  | nil => exact h'
  | cons d deeds ih => exact ih (h'.after d)

/-- The calls of a broker that comes of a run are booked. -/
theorem Run.booked (h' : h.Run) : h.system.desk.Booked :=
  let ⟨_, hkept⟩ := h'
  hkept.booked

/-- A broker that stopped does not serve again. -/
theorem Run.stopped_afterAll (h' : h.Run) (hstopped : h.system.stopped = true)
    (deeds : List Deed) : (h.afterAll deeds).system.stopped = true := by
  induction deeds generalizing h with
  | nil => exact hstopped
  | cons d deeds ih =>
    obtain ⟨es, hkept⟩ := h'
    exact ih (Run.after ⟨es, hkept⟩ d) (hkept.stopped_incur hstopped (h.incident d))

/-- Commits do not stop a broker. -/
theorem stopped_commit (h : InHand) (holdsBroker : Bool) :
    (h.after (.commit holdsBroker)).system.stopped = h.system.stopped :=
  congrArg Wiring.stopped
    (System.wiring_launch h.system (Call.beginCommit h.batch h.system.stopped) holdsBroker)

/-- A committed batch stays committed, whatever is done next. -/
theorem committed_after (hcommitted : h.batch.committed = true) (d : Deed) :
    (h.after d).batch.committed = true := by
  have hsame : (h.after d).batch = h.batch := batchAfter_of_committed hcommitted d
  rw [hsame]
  exact hcommitted

/-- A commit leaves the batch committed, whatever it is answered. -/
theorem committed_commit (h : InHand) (holdsBroker : Bool) :
    (h.after (.commit holdsBroker)).batch.committed = true :=
  h.batch.committed_commit h.system.stopped

/-! ### Commits with nothing left to ask -/

/-- The batch was committed, and its commits have nothing to ask any more. -/
structure Spent (h : InHand) : Prop where
  run : h.Run
  committed : h.batch.committed = true
  commits : ∀ id ∈ h.commits, h.system.Spent id

/-- A commit of a batch that was committed has nothing to ask. -/
theorem spent_number (hrun : h.Run) (hcommitted : h.batch.committed = true) :
    ∀ id ∈ h.number d, (h.after d).system.Spent id := by
  intro id hid
  cases d with
  | commit holdsBroker =>
    obtain rfl := List.mem_singleton.1 hid
    have hspent := System.spent_launch hrun.booked
      (.committed h.batch (.error .alreadyCommitted)) holdsBroker
    rwa [← Call.beginCommit_of_committed hcommitted h.system.stopped] at hspent
  | _ => cases hid

/-- Once all commits are spent they stay so: a later commit is refused before it asks for
anything. -/
theorem Spent.after (h' : h.Spent) (d : Deed) : (h.after d).Spent where
  run := h'.run.after d
  committed := committed_after h'.committed d
  commits := List.forall_mem_append.2
    ⟨fun id hid => (h'.commits id hid).incur _, spent_number h'.run h'.committed⟩

/-- Spent commits ask for nothing in a deed. -/
theorem Spent.asks (h' : h.Spent) (d : Deed) : h.asks d = [] :=
  List.flatMap_eq_nil_iff.2 fun id hid => (h'.commits id hid).asks _

/-- Spent commits ask for nothing in any deeds. -/
theorem Spent.asksAll (h' : h.Spent) (deeds : List Deed) : h.asksAll deeds = [] := by
  induction deeds generalizing h with
  | nil => rfl
  | cons d deeds ih => rw [InHand.asksAll, h'.asks, ih (h'.after d), List.append_nil]

/-! ### The first commit under way -/

/-- The first commit has the number `id`, and still has to ask for `writes`; all others have
nothing to ask. -/
structure Waits (h : InHand) (id : Nat) (writes : List Write) : Prop where
  run : h.Run
  committed : h.batch.committed = true
  known : id < h.system.nextCall
  fresh : ∃ c b, h.system.desk.call? id = some c ∧ c.exchange = none ∧ c.call = .commit b writes
  others : ∃ others, h.commits = id :: others ∧ ∀ other ∈ others, h.system.Spent other

variable {writes : List Write}

/-- A deed that does not poll the first commit leaves it with its request still to make. -/
theorem Waits.after (h' : h.Waits id writes) (hd : d.polls id = false) :
    (h.after d).Waits id writes where
  run := h'.run.after d
  committed := committed_after h'.committed d
  known := Nat.lt_of_lt_of_le h'.known (System.nextCall_incur _ _)
  fresh := by
    have hpolls := (h.polls_incident d id).trans hd
    have hsame : (h.after d).system.desk.call? id = h.system.desk.call? id :=
      System.call?_incur_of_not_polls h'.known hpolls
    rw [hsame]
    exact h'.fresh
  others := by
    obtain ⟨others, hcommits, hspent⟩ := h'.others
    refine ⟨others ++ h.number d, congrArg (· ++ h.number d) hcommits, ?_⟩
    exact List.forall_mem_append.2
      ⟨fun other hother => (hspent other hother).incur _, spent_number h'.run h'.committed⟩

/-- Of all commits, only the first one asks for anything. -/
theorem Waits.asks_eq (h' : h.Waits id writes) (d : Deed) :
    h.asks d = h.system.asks id (h.incident d) := by
  obtain ⟨others, hcommits, hspent⟩ := h'.others
  have hnothing : (others.flatMap fun other => h.system.asks other (h.incident d)) = [] :=
    List.flatMap_eq_nil_iff.2 fun other hother => (hspent other hother).asks _
  rw [InHand.asks, hcommits, List.flatMap_cons, hnothing, List.append_nil]

/-- A deed that does not poll the first commit makes none of the commits ask for anything. -/
theorem Waits.asks_quiet (h' : h.Waits id writes) (hd : d.polls id = false) : h.asks d = [] := by
  rw [h'.asks_eq]
  exact System.asks_of_not_polls ((h.polls_incident d id).trans hd)

/-- As long as the first commit is not polled, it has its request still to make and nothing is
asked. -/
theorem Waits.afterAll (h' : h.Waits id writes) {quiet : List Deed}
    (hquiet : ∀ d ∈ quiet, d.polls id = false) :
    (h.afterAll quiet).Waits id writes ∧ h.asksAll quiet = [] := by
  induction quiet generalizing h with
  | nil => exact ⟨h', rfl⟩
  | cons d quiet ih =>
    obtain ⟨hd, hrest⟩ := List.forall_mem_cons.1 hquiet
    obtain ⟨hwaits, hnothing⟩ := ih (h'.after hd) hrest
    exact ⟨hwaits, by rw [InHand.asksAll, h'.asks_quiet hd, hnothing, List.append_nil]⟩

/-- When it is polled, it asks for its writes, unless the broker has stopped. -/
theorem Waits.asks_poll (h' : h.Waits id writes) (hd : d.polls id = true) :
    h.asks d = if h.system.stopped = false then [⟨.txn, .txn writes⟩] else [] := by
  obtain ⟨c, b, hfound, hfresh, hcall⟩ := h'.fresh
  rw [h'.asks_eq, System.asks, h.polls_incident, hd, hfound]
  cases c with
  | mk number call exchange holdsBroker =>
    subst hfresh hcall
    cases h.system.stopped <;> rfl

/-- After that it has nothing to ask any more. -/
theorem Waits.spent (h' : h.Waits id writes) (hd : d.polls id = true) : (h.after d).Spent where
  run := h'.run.after d
  committed := committed_after h'.committed d
  commits := by
    obtain ⟨c, b, hfound, _, hcall⟩ := h'.fresh
    obtain ⟨others, hcommits, hspent⟩ := h'.others
    have hfirst : (h.after d).system.Spent id := by
      refine System.spent_of_polled h'.known (fun c' hc' => ?_) ((h.polls_incident d id).trans hd)
      obtain rfl := Option.some.inj (hfound.symm.trans hc')
      rw [hcall]
      rfl
    refine List.forall_mem_append.2 ⟨?_, spent_number h'.run h'.committed⟩
    rw [hcommits]
    exact List.forall_mem_cons.2 ⟨hfirst, fun other hother => (hspent other hother).incur _⟩

/-- The first poll of the first commit decides what is sent: the recorded writes, if the broker is
open then, and nothing otherwise. Nothing is sent afterwards. -/
theorem Waits.asksAll (h' : h.Waits id writes) {quiet : List Deed} {poll : Deed}
    (hquiet : ∀ d ∈ quiet, d.polls id = false) (hpoll : poll.polls id = true)
    (after : List Deed) :
    h.asksAll (quiet ++ poll :: after) =
      if (h.afterAll quiet).system.stopped = false then [⟨.txn, .txn writes⟩] else [] := by
  obtain ⟨hwaits, hnothing⟩ := h'.afterAll hquiet
  rw [asksAll_append, hnothing, List.nil_append, InHand.asksAll, hwaits.asks_poll hpoll,
    (hwaits.spent hpoll).asksAll, List.append_nil]

/-! ### Later commits and writes -/

/-- Deeds are a run of the broker. -/
theorem exists_incurs (h : InHand) (deeds : List Deed) :
    ∃ run, (h.afterAll deeds).system = h.system.incurs run := by
  induction deeds generalizing h with
  | nil => exact ⟨[], rfl⟩
  | cons d deeds ih =>
    obtain ⟨run, hrun⟩ := ih (h.after d)
    exact ⟨h.incident d :: run, hrun⟩

/-- A batch is committed after any deeds among which there is a commit. -/
theorem committed_afterAll (h : InHand) {deeds : List Deed}
    (hcommits : ∃ d ∈ deeds, d.commits = true) : (h.afterAll deeds).batch.committed = true := by
  obtain ⟨d, hmem, hd⟩ := hcommits
  obtain ⟨before, after, rfl⟩ := List.append_of_mem hmem
  cases d with
  | commit holdsBroker =>
    have hcommitted := (h.afterAll before).committed_commit holdsBroker
    rw [afterAll_append]
    exact (congrArg Batch.committed (batch_afterAll_of_committed hcommitted after)).trans hcommitted
  | _ => cases hd

/-- A commit of a batch that was committed is refused, and nothing changes that. -/
theorem refuses_of_committed (hrun : h.Run) (hcommitted : h.batch.committed = true)
    (holdsBroker : Bool) (after : List Deed) :
    (h.after (.commit holdsBroker)).system.desk.standing h.system.nextCall =
        some (refusal h.batch) ∧
      ∀ turn, ((h.after (.commit holdsBroker)).afterAll after).system.desk.standing
        h.system.nextCall = some turn → turn = refusal h.batch := by
  have hbegins : Call.beginCommit h.batch h.system.stopped = refusal h.batch :=
    Call.beginCommit_of_committed hcommitted h.system.stopped
  have hstands : (h.after (.commit holdsBroker)).system.desk.standing h.system.nextCall =
      some (refusal h.batch) := by
    have hlaunch := System.standing_launch hrun.booked (refusal h.batch) holdsBroker
    rwa [← hbegins] at hlaunch ⊢
  refine ⟨hstands, fun turn hturn => ?_⟩
  obtain ⟨run, hafter⟩ := (h.after (.commit holdsBroker)).exists_incurs after
  rw [hafter] at hturn
  have hnext : (h.after (.commit holdsBroker)).system.nextCall = h.system.nextCall + 1 :=
    System.nextCall_launch ..
  have hidle (call : Call) : Turn.ask call ≠ refusal h.batch := nofun
  refine System.standing_incurs (P := (· = refusal h.batch)) (hrun.after _).booked
    (Nat.lt_of_lt_of_eq (Nat.lt_succ_self _) hnext.symm) (fun first hfirst => ?_)
    (fun _ call _ _ hask _ => absurd hask (hidle call)) hturn
  exact (Option.some.inj (hstands.symm.trans hfirst)).symm

/-- A deed is the same incident for both of two hands that nobody can tell apart. -/
theorem Even.incident (h' : Even h k) (d : Deed) : h.incident d = k.incident d := by
  cases d <;> simp only [InHand.incident, h'.batch, (h'.system.alike 0).stopped]

/-- The same deed leaves hands that nobody can tell apart. -/
theorem Even.after (h' : Even h k) (d : Deed) : Even (h.after d) (k.after d) where
  batch := by
    cases d <;> simp only [InHand.after, batchAfter, h'.batch, (h'.system.alike 0).stopped]
  commits := by
    cases d <;> simp only [InHand.after, number, h'.commits, (h'.system.alike 0).nextCall]
  system := by
    have hafter := h'.system.incur (h.incident d)
    rwa [congrArg k.system.incur (h'.incident d)] at hafter

/-- A deed asks the same of the store in both of two hands that nobody can tell apart. -/
theorem Even.asks (h' : Even h k) (d : Deed) : h.asks d = k.asks d := by
  simp only [InHand.asks, h'.commits, h'.incident d, h'.system.asks]

/-- Hands that nobody can tell apart stay so in any deeds. -/
theorem Even.afterAll (h' : Even h k) (deeds : List Deed) :
    Even (h.afterAll deeds) (k.afterAll deeds) := by
  induction deeds generalizing h k with
  | nil => exact h'
  | cons d deeds ih => exact ih (h'.after d)

/-- Deeds in order ask the same of the store in both of two hands that nobody can tell apart. -/
theorem Even.asksAll (h' : Even h k) (deeds : List Deed) : h.asksAll deeds = k.asksAll deeds := by
  induction deeds generalizing h k with
  | nil => rfl
  | cons d deeds ih => rw [InHand.asksAll, InHand.asksAll, h'.asks d, ih (h'.after d)]

/-- A write after a commit leaves no trace but in the journal. -/
theorem even_of_committed (hrun : h.Run) (hcommitted : h.batch.committed = true)
    (hd : d.records = true) : Even (h.after d) h where
  batch := batchAfter_of_committed hcommitted d
  commits := by
    cases d with
    | put | delete => exact List.append_nil _
    | _ => cases hd
  system := by
    cases d with
    | put | delete => exact System.even_note hrun.booked _
    | _ => cases hd

end InHand

/-! ### The first commit -/

variable {scope : Key} {deeds : List Deed}

/-- The first commit goes under way with what was recorded, or has nothing to ask. -/
theorem Records.waits_or_spent {h : InHand} (hrecords : h.batch.Records scope deeds)
    (hrun : h.Run) (hnone : h.commits = []) (holdsBroker : Bool) :
    (h.system.stopped = false ∧ Sendable scope deeds ∧
        (h.after (.commit holdsBroker)).Waits h.system.nextCall (recorded scope deeds)) ∨
      ¬(h.system.stopped = false ∧ Sendable scope deeds) ∧
        (h.after (.commit holdsBroker)).Spent := by
  have hrun' := hrun.after (.commit holdsBroker)
  have hcommitted := h.committed_commit holdsBroker
  have hcommits : (h.after (.commit holdsBroker)).commits = [h.system.nextCall] :=
    congrArg (· ++ [h.system.nextCall]) hnone
  rcases hrecords.beginCommit h.system.stopped with
    ⟨hserves, hsendable, hbegins⟩ | ⟨hnot, answer, hbegins⟩
  · refine .inl ⟨hserves, hsendable, {
      run := hrun'
      committed := hcommitted
      known := ?_
      fresh := ?_
      others := ⟨[], hcommits, fun _ hother => absurd hother List.not_mem_nil⟩ }⟩
    · exact Nat.lt_of_lt_of_eq (Nat.lt_succ_self _) (System.nextCall_launch ..).symm
    · have hfound := System.call?_launch hrun.booked
        (.commit (h.batch.commit h.system.stopped).1 (recorded scope deeds)) holdsBroker
      rw [← hbegins] at hfound
      exact ⟨_, _, hfound, rfl, rfl⟩
  · refine .inr ⟨hnot, hrun', hcommitted, ?_⟩
    rw [hcommits]
    have hspent := System.spent_launch hrun.booked answer holdsBroker
    rw [← hbegins] at hspent
    exact List.forall_mem_singleton.2 hspent

/-- Nothing is asked while there is no commit. -/
theorem asksAll_of_uncommitted (s : System) (scope : Key) {before : List Deed}
    (hbefore : ∀ d ∈ before, d.commits = false) :
    InHand.asksAll { system := s, batch := { scope } } before = [] := by
  induction before using List.reverseRecOn with
  | nil => rfl
  | append_singleton before d ih =>
    have hearly := (List.forall_mem_append.1 hbefore).1
    have hnone := (records_afterAll s scope hearly).2
    rw [InHand.asksAll_append, ih hearly, List.nil_append]
    simp only [InHand.asksAll, InHand.asks, hnone, List.flatMap_nil, List.append_nil]

variable {s : System} {es : List Episode} {before : List Deed}

/-- What comes of all deeds is what comes of those after the first commit. -/
theorem asksAll_first (s : System) (scope : Key) (hbefore : ∀ d ∈ before, d.commits = false)
    (holdsBroker : Bool) (after : List Deed) :
    let start : InHand := { system := s, batch := { scope } }
    start.asksAll (before ++ .commit holdsBroker :: after) =
      ((start.afterAll before).after (.commit holdsBroker)).asksAll after := by
  intro start
  have hnone := (records_afterAll s scope hbefore).2
  rw [InHand.asksAll_append, asksAll_of_uncommitted s scope hbefore, List.nil_append]
  simp only [InHand.asksAll, InHand.asks, start, hnone, List.flatMap_nil, List.nil_append]

/-- Nothing is asked while the first commit is not polled. -/
theorem asksAll_unpolled (hkept : s.Kept es) (scope : Key)
    (hbefore : ∀ d ∈ before, d.commits = false) (holdsBroker : Bool) {after : List Deed}
    (hquiet : ∀ d ∈ after, d.polls (InHand.afterAll { system := s, batch := { scope } }
      before).system.nextCall = false) :
    InHand.asksAll { system := s, batch := { scope } } (before ++ .commit holdsBroker :: after) =
      [] := by
  obtain ⟨hrecords, hnone⟩ := records_afterAll s scope hbefore
  have hrun := InHand.Run.afterAll (h := { system := s, batch := { scope } }) ⟨es, hkept⟩ before
  rw [asksAll_first s scope hbefore]
  rcases hrecords.waits_or_spent hrun hnone holdsBroker with ⟨_, _, hwaits⟩ | ⟨_, hspent⟩
  · exact (hwaits.afterAll hquiet).2
  · exact hspent.asksAll after

/-- What is asked once the first commit is polled. -/
theorem asksAll_polled (hkept : s.Kept es) (scope : Key)
    (hbefore : ∀ d ∈ before, d.commits = false) (holdsBroker : Bool) {quiet : List Deed}
    {poll : Deed}
    (hquiet : ∀ d ∈ quiet, d.polls (InHand.afterAll { system := s, batch := { scope } }
      before).system.nextCall = false)
    (hpoll : poll.polls (InHand.afterAll { system := s, batch := { scope } }
      before).system.nextCall = true) (after : List Deed) :
    let start : InHand := { system := s, batch := { scope } }
    start.asksAll (before ++ .commit holdsBroker :: (quiet ++ poll :: after)) =
      if (start.afterAll (before ++ .commit holdsBroker :: quiet)).system.stopped = false ∧
          Sendable scope before then
        [⟨.txn, .txn (recorded scope before)⟩]
      else [] := by
  intro start
  obtain ⟨hrecords, hnone⟩ := records_afterAll s scope hbefore
  have hrun : (start.afterAll before).Run := InHand.Run.afterAll ⟨es, hkept⟩ before
  have hlater : start.afterAll (before ++ .commit holdsBroker :: quiet) =
      ((start.afterAll before).after (.commit holdsBroker)).afterAll quiet :=
    start.afterAll_append before (.commit holdsBroker :: quiet)
  rw [asksAll_first s scope hbefore, hlater]
  rcases hrecords.waits_or_spent hrun hnone holdsBroker with
    ⟨_, hsendable, hwaits⟩ | ⟨hnot, hspent⟩
  · have hsends := hwaits.asksAll hquiet hpoll after
    simpa only [hsendable, and_true] using hsends
  · rw [if_neg]
    · exact hspent.asksAll _
    · rintro ⟨hserves, hsendable⟩
      -- a broker that serves when the commit is polled served when it began
      refine hnot ⟨eq_false_of_ne_true fun hstopped => ?_, hsendable⟩
      have hbegun := ((start.afterAll before).stopped_commit holdsBroker).trans hstopped
      have hstill := (hrun.after (.commit holdsBroker)).stopped_afterAll hbegun quiet
      cases hserves.symm.trans hstill

/-- Of all that is done with a batch, one request comes at most. -/
theorem length_asksAll_le (hkept : s.Kept es) (scope : Key) (deeds : List Deed) :
    (InHand.asksAll { system := s, batch := { scope } } deeds).length ≤ 1 := by
  cases hfirst : deeds.find? Deed.commits with
  | none =>
    have hnone : ∀ d ∈ deeds, d.commits = false := by simpa using hfirst
    rw [asksAll_of_uncommitted s scope hnone]
    exact Nat.zero_le 1
  | some d =>
    obtain ⟨hd, before, after, rfl, hbefore⟩ := List.find?_eq_some_iff_append.1 hfirst
    have hbefore : ∀ d ∈ before, d.commits = false := by simpa using hbefore
    obtain ⟨holdsBroker, rfl⟩ : ∃ holdsBroker, d = .commit holdsBroker := by
      cases d with
      | commit holdsBroker => exact ⟨holdsBroker, rfl⟩
      | _ => cases hd
    generalize hid :
      (InHand.afterAll { system := s, batch := { scope } } before).system.nextCall = id
    cases hpoll : after.find? (Deed.polls id) with
    | none =>
      have hquiet : ∀ d ∈ after, d.polls id = false := by simpa using hpoll
      rw [asksAll_unpolled hkept scope hbefore holdsBroker (hid ▸ hquiet)]
      exact Nat.zero_le 1
    | some poll =>
      obtain ⟨hpolls, quiet, rest, rfl, hquiet⟩ := List.find?_eq_some_iff_append.1 hpoll
      have hquiet : ∀ d ∈ quiet, d.polls id = false := by simpa using hquiet
      rw [asksAll_polled hkept scope hbefore holdsBroker (hid ▸ hquiet) (hid ▸ hpolls)]
      split <;> simp

/-- A new batch on a broker after any run is, after any deeds, one on a broker after a run. -/
theorem run_afterAll (settings : Settings) (run : List Incident) (scope : Key)
    (deeds : List Deed) :
    (InHand.afterAll { system := System.incurs { settings } run, batch := { scope } }
      deeds).Run :=
  InHand.Run.afterAll ⟨_, System.kept_incurs settings run⟩ deeds

/-- On every broker that a run leads to, a new batch is sent at most once and exactly as it was
recorded, whatever its holder does with it and whatever else happens. -/
theorem sent_once (settings : Settings) (run : List Incident) (scope : Key) :
    SentOnce { system := System.incurs { settings } run, batch := { scope } } where
  once := length_asksAll_le (System.kept_incurs settings run) scope
  unsent _ := asksAll_of_uncommitted _ scope
  unpolled _ holdsBroker _ hbefore :=
    asksAll_unpolled (System.kept_incurs settings run) scope hbefore holdsBroker
  sends _ holdsBroker _ _ after hbefore hquiet hpoll :=
    asksAll_polled (System.kept_incurs settings run) scope hbefore holdsBroker hquiet hpoll after
  refuses deeds holdsBroker after hcommits := by
    have hrun := run_afterAll settings run scope deeds
    exact InHand.refuses_of_committed hrun (InHand.committed_afterAll _ hcommits) holdsBroker after
  ignores deeds write after hcommits hwrite := by
    have hrun := run_afterAll settings run scope deeds
    have heven := InHand.even_of_committed hrun (InHand.committed_afterAll _ hcommits) hwrite
    exact ⟨congrArg size heven.batch, heven.afterAll after, heven.asksAll after⟩

/-- Two writes are sent as they were recorded, without the one that came after the commit. If the
broker is closed before the commit is polled, or one of the keys was empty, nothing is sent. -/
theorem sent_once_unless_closed :
    let start : InHand :=
      { system := System.incurs { settings := {} } [], batch := { scope := ['s', '/'] } }
    let poll : Deed := .meanwhile (.occur (.move (.poll (.call 0) false)))
    let close : Deed := .meanwhile (.occur (.move (.close false)))
    start.asksAll ([.put ['a'] [1], .delete ['b']] ++
        .commit false :: ([.put ['c'] [2]] ++ poll :: [.commit false, close, poll])) =
        [⟨.txn, .txn [.put ['s', '/', 'a'] [1], .delete ['s', '/', 'b']]⟩] ∧
      start.asksAll ([.put ['a'] [1], .delete ['b']] ++
        .commit false :: ([close] ++ poll :: [])) = [] ∧
      start.asksAll ([.put ['a'] [1], .delete []] ++ .commit false :: ([] ++ poll :: [])) = [] := by
  intro start poll close
  have hsends := (sent_once {} [] ['s', '/']).sends
  refine ⟨?_, ?_, ?_⟩
  · refine (hsends _ false [.put ['c'] [2]] poll _ (by decide) (by decide) rfl).trans (if_pos ?_)
    decide
  · refine (hsends _ false [close] poll [] (by decide) (by decide) rfl).trans (if_neg ?_)
    decide
  · refine (hsends _ false [] poll [] (by decide) (by decide) rfl).trans (if_neg ?_)
    decide

end KeyBroker.Batch
