import KeyBroker.Proofs.Ledger.Meaning

/-!
# The shape of a ledger

The version lists of a ledger keep a shape of their own: revisions ascend, a deletion
has no deadline, and of what lies at or below the compaction point only the first
version is left, which is a value. A commit writes above the compaction point, so it
adds nothing there; compaction drops what its own point has overtaken.
-/

namespace KeyBroker

namespace Versions

/-- The shape of a key's history in a ledger at `revision` that was compacted at
`floor`. -/
structure Intact (floor revision : Nat) (versions : Versions) : Prop where
  ascending : versions.Pairwise (·.revision < ·.revision)
  dated : ∀ v ∈ versions, 1 ≤ v.revision ∧ v.revision ≤ revision
  /-- A deletion never expires. -/
  lasting : ∀ v ∈ versions, v.value = none → v.deadline = none
  /-- Only the first version may lie at or below the compaction point. -/
  above : ∀ v ∈ versions.tail, floor < v.revision
  /-- If it does, it is not a deletion. -/
  standing : ∀ v ∈ versions.head?, v.revision ≤ floor → v.value ≠ none

namespace Intact

variable {floor revision point : Nat} {versions kept : Versions}

/-- A key that was never written has a history of the right shape. -/
theorem nil : Intact floor revision [] where
  ascending := .nil
  dated _ h := by cases h
  lasting _ h := by cases h
  above _ h := by cases h
  standing _ h := by cases h

/-- At most one version lies at or below the compaction point. -/
theorem countP_le_one (h : Intact floor revision versions) :
    versions.countP (·.revision ≤ floor) ≤ 1 := by
  cases versions with
  | nil => exact Nat.zero_le 1
  | cons v rest =>
    have hrest : rest.countP (·.revision ≤ floor) = 0 :=
      List.countP_eq_zero.2 fun w hw => by simpa using h.above w hw
    rw [List.countP_cons, hrest]
    split <;> omega

/-- The shape stays when a later revision begins. -/
theorem mono (h : Intact floor revision versions) {later : Nat} (hlater : revision ≤ later) :
    Intact floor later versions where
  ascending := h.ascending
  dated v hv := ⟨(h.dated v hv).1, Nat.le_trans (h.dated v hv).2 hlater⟩
  lasting := h.lasting
  above := h.above
  standing := h.standing

/-- What is left of a history after its first versions. -/
theorem suffix (h : Intact floor revision versions) (hsuffix : kept <:+ versions) :
    Intact floor revision kept := by
  obtain ⟨dropped, rfl⟩ := hsuffix
  have hmem {v : Version} (hv : v ∈ kept) : v ∈ dropped ++ kept := List.mem_append_right _ hv
  cases dropped with
  | nil => exact h
  | cons first dropped =>
    -- everything kept stood behind the first version, hence above the compaction point
    have habove : ∀ v ∈ kept, floor < v.revision := fun v hv =>
      h.above v (List.mem_append_right _ hv)
    exact {
      ascending := (List.pairwise_append.1 h.ascending).2.1
      dated v hv := h.dated v (hmem hv)
      lasting v hv := h.lasting v (hmem hv)
      above v hv := habove v (List.mem_of_mem_tail hv)
      standing v hv hle :=
        absurd (habove v (List.mem_of_mem_head? hv)) (Nat.not_lt.2 hle) }

/-- What is left of a history before its last version. -/
theorem init {last : Version} (h : Intact floor revision (versions ++ [last])) :
    Intact floor revision versions where
  ascending := (List.pairwise_append.1 h.ascending).1
  dated v hv := h.dated v (List.mem_append_left _ hv)
  lasting v hv := h.lasting v (List.mem_append_left _ hv)
  above v hv := by
    cases versions with
    | nil => cases hv
    | cons first rest => exact h.above v (List.mem_append_left _ hv)
  standing v hv := h.standing v (by simp [List.head?_append, Option.mem_def.1 hv])

/-- A version of the present revision goes behind older ones. -/
theorem concat (h : Intact floor revision versions)
    (holder : ∀ v ∈ versions, v.revision < revision) {version : Version}
    (hnow : version.revision = revision) (hbegun : floor < revision)
    (hlasting : version.value = none → version.deadline = none) :
    Intact floor revision (versions ++ [version]) where
  ascending := List.pairwise_append.2 ⟨h.ascending, List.pairwise_singleton _ _, fun v hv w hw => by
    rw [List.mem_singleton.1 hw, hnow]
    exact holder v hv⟩
  dated v hv := by
    rcases List.mem_append.1 hv with hv | hv
    · exact h.dated v hv
    · rw [List.mem_singleton.1 hv, hnow]
      omega
  lasting v hv := by
    rcases List.mem_append.1 hv with hv | hv
    · exact h.lasting v hv
    · rw [List.mem_singleton.1 hv]
      exact hlasting
  above v hv := by
    cases versions with
    | nil => cases hv
    | cons first rest =>
      rcases List.mem_append.1 hv with hv | hv
      · exact h.above v hv
      · rw [List.mem_singleton.1 hv, hnow]
        exact hbegun
  standing v hv hle := by
    cases versions with
    | nil =>
      obtain rfl : version = v := by simpa using hv
      omega
    | cons first rest => exact h.standing v (by simpa using hv) hle

/-- A version recorded at the present revision goes behind all others, or replaces the
last one if that is of the same revision. -/
theorem record (h : Intact floor revision versions) {version : Version}
    (hnow : version.revision = revision) (hbegun : floor < revision)
    (hlasting : version.value = none → version.deadline = none) :
    Intact floor revision (record version versions) := by
  rcases List.eq_nil_or_concat versions with rfl | ⟨front, last, rfl⟩
  · exact nil.concat (fun v hv => by cases hv) hnow hbegun hlasting
  · rw [List.concat_eq_append] at h ⊢
    have hbelow : ∀ v ∈ front, v.revision < last.revision := fun v hv =>
      (List.pairwise_append.1 h.ascending).2.2 v hv last (by simp)
    rcases Nat.lt_or_eq_of_le (h.dated last (by simp)).2 with hlt | heq
    · rw [show Versions.record version (front ++ [last]) = front ++ [last] ++ [version] by
        simp [Versions.record, hnow, Nat.ne_of_lt hlt]]
      refine h.concat (fun v hv => ?_) hnow hbegun hlasting
      rcases List.mem_append.1 hv with hv | hv
      · exact Nat.lt_trans (hbelow v hv) hlt
      · rw [List.mem_singleton.1 hv]
        exact hlt
    · rw [show Versions.record version (front ++ [last]) = front ++ [version] by
        simp [Versions.record, hnow, heq]]
      exact h.init.concat (fun v hv => heq ▸ hbelow v hv) hnow hbegun hlasting

end Intact

/-! ### Compaction -/

/-- What is kept of a history is its end. -/
theorem since_suffix (point : Nat) (versions : Versions) : since point versions <:+ versions := by
  induction versions with
  | nil => exact List.suffix_refl _
  | cons v rest ih =>
    rw [since]
    split
    · exact ih.trans (List.suffix_cons v rest)
    · exact List.suffix_refl _

/-- Behind the version that compaction looks at, everything is newer than its point. -/
theorem lt_of_mem_tail_since {point : Nat} {versions : Versions} {v : Version}
    (h : v ∈ (since point versions).tail) : point < v.revision := by
  induction versions with
  | nil => cases h
  | cons w rest ih =>
    rw [since] at h
    split at h
    · exact ih h
    · next hnone =>
      rw [List.tail_cons] at h
      exact Nat.lt_of_not_le fun hle => hnone (List.any_eq_true.2 ⟨v, h, by simpa using hle⟩)

/-- A history that is not empty has a version for compaction to look at, and that is the
one visible at the point, if any is. -/
theorem exists_since_eq_cons (point : Nat) {versions : Versions} (h : versions ≠ []) :
    ∃ first rest, since point versions = first :: rest ∧
      ∀ v, visible? point versions = some v → v = first := by
  induction versions with
  | nil => exact absurd rfl h
  | cons w rest ih =>
    rw [since]
    split
    -- a later version is old enough, so the first one is forgotten
    · next hany =>
      obtain ⟨v, hv⟩ := Option.isSome_iff_exists.1 (visible?_isSome_of_any (Nat.le_refl _) hany)
      have hrest : rest ≠ [] := by
        rintro rfl
        cases hany
      obtain ⟨first, more, hsince, hfirst⟩ := ih hrest
      refine ⟨first, more, hsince, fun u hu => hfirst u ?_⟩
      rw [visible?_cons, hv, Option.some_or] at hu
      exact hv.trans hu
    · next hnone =>
      refine ⟨w, rest, rfl, fun v hv => ?_⟩
      have hrest : visible? point rest = none := by
        simpa [visible?] using hnone
      rw [visible?_cons, hrest, Option.none_or] at hv
      split at hv
      · exact (Option.some.inj hv).symm
      · cases hv

/-- A compacted history keeps its shape: what its own point overtakes is gone, up to the
first version, and that only stays as a value. A point below the last compaction takes
nothing away. -/
theorem Intact.compact {floor revision point : Nat} {versions : Versions}
    (h : Intact floor revision versions) :
    Intact (max floor point) revision (compact point versions) := by
  have hkept := h.suffix (since_suffix point versions)
  have hnewer := fun v => @lt_of_mem_tail_since point versions v
  rw [Versions.compact]
  cases hsince : since point versions with
  | nil => exact .nil
  | cons first rest =>
    rw [hsince] at hkept hnewer
    have habove : ∀ v ∈ rest, max floor point < v.revision := fun v hv =>
      Nat.max_lt.2 ⟨hkept.above v hv, hnewer v hv⟩
    have hrest := hkept.suffix (List.suffix_cons first rest)
    simp only
    split
    · exact {
        ascending := hrest.ascending
        dated := hrest.dated
        lasting := hrest.lasting
        above := fun v hv => habove v (List.mem_of_mem_tail hv)
        standing := fun v hv hle =>
          absurd (habove v (List.mem_of_mem_head? hv)) (Nat.not_lt.2 hle) }
    · next hvalue =>
      refine {
        ascending := hkept.ascending
        dated := hkept.dated
        lasting := hkept.lasting
        above := habove
        standing := fun v hv hle => ?_ }
      obtain rfl : first = v := by simpa using hv
      by_cases hpoint : first.revision ≤ point
      · exact fun hnone => hvalue ⟨hpoint, hnone⟩
      · exact hkept.standing first rfl (by omega)

end Versions

namespace Ledger

/-- The shape of a ledger. -/
structure Intact (l : Ledger) : Prop where
  floor : l.compacted ≤ l.revision
  named : ∀ e ∈ l.keys.entries, e.1 ≠ []
  inhabited : ∀ e ∈ l.keys.entries, e.2 ≠ []
  histories : ∀ e ∈ l.keys.entries, e.2.Intact l.compacted l.revision

/-- The shape of a ledger within a commit, whose revision lies above the compaction
point. -/
structure Begun (l : Ledger) : Prop extends l.Intact where
  begun : l.compacted < l.revision

/-- The empty ledger has the right shape. -/
theorem Intact.empty : Intact {} where
  floor := Nat.le_refl _
  named _ h := by cases h
  inhabited _ h := by cases h
  histories _ h := by cases h

/-- Beginning a revision begins a commit. -/
theorem Intact.begin {l : Ledger} (h : l.Intact) : l.begin.Begun where
  floor := Nat.le_succ_of_le h.floor
  named := h.named
  inhabited := h.inhabited
  histories e he := (h.histories e he).mono (Nat.le_succ _)
  begun := Nat.lt_succ_of_le h.floor

/-- Every key has a history of the right shape, written or not. -/
theorem Intact.versions {l : Ledger} (h : l.Intact) (key : Key) :
    (l.versions key).Intact l.compacted l.revision := by
  rw [Ledger.versions]
  cases hget : l.keys.get? key with
  | none => exact .nil
  | some versions => exact h.histories (key, versions) (KeyMap.mem_entries_iff.2 hget)

namespace Begun

variable {l : Ledger}

/-- Recording a version within a commit keeps the shape. -/
theorem record (h : l.Begun) {key : Key} (hkey : key ≠ []) (value : Option Bytes)
    (deadline : Option Nat) (hlasting : value = none → deadline = none) :
    (l.record key value deadline).Begun := by
  -- every entry of the new ledger is an old one or the new history of the key
  have hentry : ∀ e ∈ (l.record key value deadline).keys.entries,
      e ∈ l.keys.entries ∨
        e = (key, (l.versions key).record { revision := l.revision, value, deadline }) := by
    rintro ⟨k, versions⟩ he
    have hget := KeyMap.mem_entries_iff.1 he
    simp only [Ledger.record, KeyMap.get?_alter] at hget
    split at hget
    · next hk => exact .inr (by rw [hk, ← Option.some.inj hget]; rfl)
    · exact .inl (KeyMap.mem_entries_iff.2 hget)
  refine { floor := h.floor, named := ?_, inhabited := ?_, histories := ?_, begun := h.begun }
  · intro e he
    rcases hentry e he with he | rfl
    · exact h.named e he
    · exact hkey
  · intro e he
    rcases hentry e he with he | rfl
    · exact h.inhabited e he
    · rcases Versions.record_eq { revision := l.revision, value, deadline } (l.versions key) with
        heq | ⟨_, _, _, _, heq⟩ <;> simp [heq]
  · intro e he
    rcases hentry e he with he | rfl
    · exact h.histories e he
    · exact (h.versions key).record rfl h.begun hlasting

/-- A put within a commit keeps the shape. -/
theorem write (h : l.Begun) {key : Key} (hkey : key ≠ []) (value : Bytes)
    (deadline : Option Nat) : (l.write key value deadline).1.Begun :=
  h.record hkey (some value) deadline fun hnone => by cases hnone

/-- Only a key that is present is erased, so its name is not empty. -/
theorem erase (h : l.Begun) (key : Key) : (l.erase key).1.Begun := by
  cases hlive : l.latest? key with
  | none => simpa only [Ledger.erase, hlive] using h
  | some found =>
    simp only [Ledger.erase, hlive]
    refine h.record ?_ none none fun _ => rfl
    cases hget : l.keys.get? key with
    | none =>
      simp [Ledger.latest?, Ledger.versions, hget, Versions.live?, Versions.visible?] at hlive
    | some versions => exact h.named (key, versions) (KeyMap.mem_entries_iff.2 hget)

/-- Deletions within a commit keep the shape. -/
theorem eraseAll (h : l.Begun) (keys : List Key) : (l.eraseAll keys).1.Begun := by
  induction keys generalizing l with
  | nil => exact h
  | cons key rest ih => exact ih (h.erase key)

/-- The writes of a transaction keep the shape within a commit, if none of them names the empty
key. -/
theorem apply (h : l.Begun) {writes : List Write} (hkeys : ∀ w ∈ writes, w.key ≠ []) :
    (l.apply writes).1.Begun := by
  induction writes generalizing l with
  | nil => exact h
  | cons first rest ih =>
    have hrest : ∀ w ∈ rest, w.key ≠ [] := fun w hw => hkeys w (List.mem_cons_of_mem _ hw)
    cases first with
    | put key value =>
      have hkey : key ≠ [] := hkeys (.put key value) (List.mem_cons_self ..)
      exact ih (h.write hkey value none) hrest
    | delete key => exact ih (h.erase key) hrest

end Begun

namespace Intact

variable {l : Ledger}

/-- Letting expired keys go keeps the shape. -/
theorem expire (h : l.Intact) (now : Nat) : (l.expire now).1.Intact := by
  cases hexpired : l.expired now with
  | nil => simpa only [Ledger.expire, hexpired] using h
  | cons key rest =>
    simp only [Ledger.expire, hexpired]
    exact (h.begin.eraseAll _).toIntact

/-- Committing the deletion of keys keeps the shape. -/
theorem deleteKeys (h : l.Intact) (expiries : List Event) (targets : List Key) :
    (l.deleteKeys expiries targets).ledger.Intact := by
  cases targets with
  | nil => exact h
  | cons key rest => exact (h.begin.eraseAll (key :: rest)).toIntact

/-- Committing a put under a key that is not empty keeps the shape. -/
theorem put (h : l.Intact) (now : Nat) {key : Key} (hkey : key ≠ []) (value : Bytes)
    (ttl : Option Duration) : (l.put now key value ttl).ledger.Intact := by
  have hbegun := (h.expire now).begin
  cases ttl with
  | none => exact (hbegun.write hkey value none).toIntact
  | some ttl =>
    cases hdeadline : deadlineAfter now ttl with
    | none => simpa only [Ledger.put, hdeadline] using hbegun.toIntact
    | some deadline =>
      simpa only [Ledger.put, hdeadline] using (hbegun.write hkey value (some deadline)).toIntact

/-- Committing a transaction without empty keys keeps the shape. -/
theorem txn (h : l.Intact) (now : Nat) {writes : List Write} (hkeys : ∀ w ∈ writes, w.key ≠ []) :
    (l.txn now writes).ledger.Intact := by
  cases writes with
  | nil => exact h.expire now
  | cons first rest => exact ((h.expire now).begin.apply hkeys).toIntact

/-- Compaction keeps the shape at any point, also one below the last. -/
theorem compact (h : l.Intact) (revision : Nat) : (l.compact revision).Intact := by
  have hentry : ∀ e ∈ (l.compact revision).keys.entries, e.2 ≠ [] ∧
      ∃ versions, (e.1, versions) ∈ l.keys.entries ∧
        e.2 = versions.compact (min revision l.revision) := by
    rintro ⟨key, kept⟩ he
    have hget := KeyMap.mem_entries_iff.1 he
    simp only [Ledger.compact, KeyMap.get?_filterMap, Option.bind_eq_some_iff] at hget
    obtain ⟨versions, hversions, hkept⟩ := hget
    split at hkept
    · cases hkept
    · next hcons =>
      obtain rfl := Option.some.inj hkept
      exact ⟨hcons, versions, KeyMap.mem_entries_iff.2 hversions, rfl⟩
  refine {
    floor := Nat.max_le.2 ⟨h.floor, Nat.min_le_right _ _⟩
    named := fun e he => ?_
    inhabited := fun e he => (hentry e he).1
    histories := fun e he => ?_ }
  · obtain ⟨-, versions, hold, -⟩ := hentry e he
    exact h.named (e.1, versions) hold
  · obtain ⟨-, versions, hold, hkept⟩ := hentry e he
    rw [hkept]
    exact (h.histories _ hold).compact

/-- The last version of a history is the one visible now. -/
theorem visible?_eq_getLast? (h : l.Intact) {e : Key × Versions} (he : e ∈ l.keys.entries) :
    e.2.visible? l.revision = e.2.getLast? :=
  Versions.visible?_of_bounded fun v hv => ((h.histories e he).dated v hv).2

end Intact

end Ledger

end KeyBroker
