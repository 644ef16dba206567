import KeyBroker.Proofs.System.Even
import Mathlib.Data.List.Induction

/-!
# What a batch has recorded

The holder of a batch records writes and commits it, in any order and as often as wanted, while
whatever else happens to the broker. Up to the first commit a batch holds the writes that were
recorded, with their scope in front, unless one of them was to an empty key. From then on it
holds nothing that could change.
-/

namespace KeyBroker.Batch

/-- What the holder of a batch does, or what happens meanwhile. -/
inductive Deed where
  | put (key : Key) (value : Bytes)
  | delete (key : Key)
  | commit (holdsBroker : Bool)
  | meanwhile (incident : Incident)

namespace Deed

/-- The write that a deed records, with its full key. -/
def writes (scope : Key) : Deed → List Write
  | .put key value => [.put (scope ++ key) value]
  | .delete key => [.delete (scope ++ key)]
  | .commit _ | .meanwhile _ => []

/-- Whether a deed records a write to an empty key. -/
def spoils : Deed → Bool
  | .put key _ | .delete key => key.isEmpty
  | _ => false

/-- Whether a deed records a write. -/
def records : Deed → Bool
  | .put .. | .delete .. => true
  | _ => false

/-- Whether a deed is a commit. -/
def commits : Deed → Bool
  | .commit _ => true
  | _ => false

/-- Whether the call of a number is polled. -/
def polls (id : Nat) : Deed → Bool
  | .meanwhile i => i.polls id
  | _ => false

end Deed

/-- The writes that deeds record, in their order. -/
def recorded (scope : Key) (deeds : List Deed) : List Write := deeds.flatMap (·.writes scope)

/-- A batch in the hands of its holder, with the broker that it is for and the numbers of the
calls that committed it. -/
structure InHand where
  system : System
  batch : Batch
  commits : List Nat := []

namespace InHand

/-- What a deed is to the broker. -/
def incident (h : InHand) : Deed → Incident
  | .put .. | .delete .. => .occur (.move (.note h.batch.recordNotices))
  | .commit holdsBroker =>
    .occur (.move (.launch (Call.beginCommit h.batch h.system.stopped) holdsBroker))
  | .meanwhile i => i

/-- The batch after a deed. -/
def batchAfter (h : InHand) : Deed → Batch
  | .put key value => h.batch.record key (.put · value)
  | .delete key => h.batch.record key .delete
  | .commit _ => (h.batch.commit h.system.stopped).1
  | .meanwhile _ => h.batch

/-- The number of the call that a deed makes. -/
def number (h : InHand) : Deed → List Nat
  | .commit _ => [h.system.nextCall]
  | _ => []

/-- What a deed leaves. -/
def after (h : InHand) (d : Deed) : InHand where
  system := h.system.incur (h.incident d)
  batch := h.batchAfter d
  commits := h.commits ++ h.number d

/-- What deeds in order leave. -/
def afterAll (h : InHand) (deeds : List Deed) : InHand := deeds.foldl after h

/-- What the commits of the batch ask of the store in a deed. -/
def asks (h : InHand) (d : Deed) : List Demand :=
  h.commits.flatMap fun id => h.system.asks id (h.incident d)

/-- What the commits of the batch ask of the store in deeds in order. -/
def asksAll (h : InHand) : List Deed → List Demand
  | [] => []
  | d :: deeds => h.asks d ++ (h.after d).asksAll deeds

variable {h : InHand} {d : Deed}

/-- Deeds in two parts leave what the second part leaves after the first. -/
theorem afterAll_append (h : InHand) (deeds more : List Deed) :
    h.afterAll (deeds ++ more) = (h.afterAll deeds).afterAll more :=
  List.foldl_append

/-- What deeds in two parts ask is what the first part asks, then what the second part asks after
it. -/
theorem asksAll_append (h : InHand) (deeds more : List Deed) :
    h.asksAll (deeds ++ more) = h.asksAll deeds ++ (h.afterAll deeds).asksAll more := by
  induction deeds generalizing h with
  | nil => rfl
  | cons d deeds ih =>
    rw [List.cons_append, asksAll, asksAll, ih, List.append_assoc]
    rfl

/-- A deed polls the call that its incident polls. -/
theorem polls_incident (h : InHand) (d : Deed) (id : Nat) :
    (h.incident d).polls id = d.polls id := by
  cases d <;> rfl

end InHand

/-! ### Before the first commit -/

/-- A batch that was not committed yet, and holds what deeds recorded. -/
structure Records (b : Batch) (scope : Key) (deeds : List Deed) : Prop where
  uncommitted : b.committed = false
  under : b.scope = scope
  spoiled : b.spoiled.isSome = deeds.any Deed.spoils
  writes : deeds.any Deed.spoils = false → b.writes = recorded scope deeds

variable {b : Batch} {scope : Key} {deeds : List Deed}

/-- One more deed adds its own writes behind those recorded before. -/
theorem recorded_concat (scope : Key) (deeds : List Deed) (d : Deed) :
    recorded scope (deeds ++ [d]) = recorded scope deeds ++ d.writes scope := by
  simp [recorded]

/-- Recording a write adds it, or spoils the batch. -/
theorem Records.record (h : b.Records scope deeds) {d : Deed} (key : Key)
    (write : Key → Write) (hspoils : d.spoils = key.isEmpty)
    (hwrites : d.writes scope = [write (scope ++ key)]) :
    (b.record key write).Records scope (deeds ++ [d]) := by
  have hopen := h.uncommitted
  cases hkey : key.isEmpty with
  | true =>
    have hrecord : b.record key write =
        { b with spoiled := b.spoiled.or (some "transaction key must not be empty") } := by
      simp only [Batch.record, hopen, hkey, Bool.false_eq_true, if_false, if_true]
    have hany : (deeds ++ [d]).any Deed.spoils = true := by simp [hspoils, hkey]
    rw [hrecord]
    exact {
      uncommitted := hopen
      under := h.under
      spoiled := by rw [hany]; cases b.spoiled <;> rfl
      writes := fun hclean => by cases hany.symm.trans hclean }
  | false =>
    have hrecord : b.record key write =
        { b with writes := b.writes ++ [write (b.scope.qualify key)] } := by
      simp only [Batch.record, hopen, hkey, Bool.false_eq_true, if_false]
    have hany : (deeds ++ [d]).any Deed.spoils = deeds.any Deed.spoils := by simp [hspoils, hkey]
    rw [hrecord]
    exact {
      uncommitted := hopen
      under := h.under
      spoiled := h.spoiled.trans hany.symm
      writes := fun hclean => by
        rw [recorded_concat, hwrites, ← h.writes (hany ▸ hclean), ← h.under]
        rfl }

/-- What is no commit keeps the account of what was recorded. -/
theorem Records.after {h : InHand} (hrecords : h.batch.Records scope deeds) {d : Deed}
    (hd : d.commits = false) : (h.after d).batch.Records scope (deeds ++ [d]) := by
  cases d with
  | put key value => exact hrecords.record key (.put · value) rfl rfl
  | delete key => exact hrecords.record key .delete rfl rfl
  | commit holdsBroker => cases hd
  | meanwhile i =>
    exact {
      uncommitted := hrecords.uncommitted
      under := hrecords.under
      spoiled := by simp [InHand.after, InHand.batchAfter, hrecords.spoiled, Deed.spoils]
      writes := fun hclean => by
        have hbefore : deeds.any Deed.spoils = false := by
          simpa [Deed.spoils] using hclean
        rw [recorded_concat, Deed.writes, List.append_nil]
        exact hrecords.writes hbefore }

/-- A new batch holds what was recorded until its first commit. -/
theorem records_afterAll (s : System) (scope : Key) {before : List Deed}
    (hbefore : ∀ d ∈ before, d.commits = false) :
    (InHand.afterAll { system := s, batch := { scope } } before).batch.Records scope before ∧
      (InHand.afterAll { system := s, batch := { scope } } before).commits = [] := by
  induction before using List.reverseRecOn with
  | nil => exact ⟨⟨rfl, rfl, rfl, fun _ => rfl⟩, rfl⟩
  | append_singleton before d ih =>
    obtain ⟨hearly, hlast⟩ := List.forall_mem_append.1 hbefore
    have hd := hlast d (List.mem_singleton_self d)
    obtain ⟨hrecords, hnone⟩ := ih hearly
    rw [InHand.afterAll_append]
    refine ⟨hrecords.after hd, ?_⟩
    have hcommits : ∀ h : InHand, h.commits = [] → (h.after d).commits = [] := by
      intro h hnone
      cases d with
      | commit holdsBroker => cases hd
      | _ => simp only [InHand.after, InHand.number, hnone, List.append_nil]
    exact hcommits _ hnone

/-! ### The first commit and what follows -/

/-- Whether what was recorded can be sent: something was, and nothing to an empty key. -/
def Sendable (scope : Key) (deeds : List Deed) : Prop :=
  deeds.any Deed.spoils = false ∧ recorded scope deeds ≠ []

instance (scope : Key) (deeds : List Deed) : Decidable (Sendable scope deeds) :=
  inferInstanceAs (Decidable (_ ∧ _))

/-- The first commit sends what was recorded if it can be sent and the broker serves, and is
over otherwise. -/
theorem Records.beginCommit (h : b.Records scope deeds) (stopped : Bool) :
    (stopped = false ∧ Sendable scope deeds ∧
        Call.beginCommit b stopped =
          .ask (.commit (b.commit stopped).1 (recorded scope deeds))) ∨
      ¬(stopped = false ∧ Sendable scope deeds) ∧
        ∃ answer, Call.beginCommit b stopped = .done answer := by
  have hopen := h.uncommitted
  cases stopped with
  | true =>
    refine .inr ⟨fun hboth => Bool.noConfusion hboth.1, ?_⟩
    simp [Call.beginCommit, commit, hopen]
  | false =>
    have hspoiled := h.spoiled
    cases hreason : b.spoiled with
    | some reason =>
      rw [hreason] at hspoiled
      refine .inr ⟨fun hboth => ?_, ?_⟩
      · cases hspoiled.trans hboth.2.1
      · simp [Call.beginCommit, commit, hopen, hreason]
    | none =>
      rw [hreason] at hspoiled
      have hwrites := h.writes hspoiled.symm
      cases hrecorded : recorded scope deeds with
      | nil =>
        rw [hrecorded] at hwrites
        refine .inr ⟨fun hboth => hboth.2.2 hrecorded, ?_⟩
        simp [Call.beginCommit, commit, hopen, hreason, hwrites]
      | cons first rest =>
        rw [hrecorded] at hwrites
        refine .inl ⟨rfl, ⟨hspoiled.symm, hrecorded ▸ List.cons_ne_nil first rest⟩, ?_⟩
        simp [Call.beginCommit, commit, hopen, hreason, hwrites]

/-- No deed changes a batch that was committed. -/
theorem batchAfter_of_committed {h : InHand} (hcommitted : h.batch.committed = true) (d : Deed) :
    h.batchAfter d = h.batch := by
  cases d <;> simp [InHand.batchAfter, record, commit, hcommitted]

/-- Nothing changes a batch once it was committed. -/
theorem batch_afterAll_of_committed {h : InHand} (hcommitted : h.batch.committed = true)
    (deeds : List Deed) : (h.afterAll deeds).batch = h.batch := by
  induction deeds generalizing h with
  | nil => rfl
  | cons d deeds ih =>
    have hsame : (h.after d).batch = h.batch := batchAfter_of_committed hcommitted d
    exact (ih (hsame ▸ hcommitted)).trans hsame

end KeyBroker.Batch
