import KeyBroker.Proofs.Ledger.Holding

/-!
# The keys that a request touches

Every request first lets go of the keys whose time is over. What it then does comes to
a few writes at one new revision, all to keys that it names by themselves or by a stem.
Other keys keep their versions, and no event is about them.
-/

namespace KeyBroker

/-- Whether a request may write to a key. -/
def Request.touches {service : Service} (request : Request service) (key : Key) : Bool :=
  match request with
  | .put target _ _ => decide (target = key)
  | .delete target false => decide (target = key)
  | .delete stem true => stem.beginsWith key
  | .txn writes => writes.any fun w => decide (w.key = key)
  | _ => false

/-- Whether a request gives a key a value for a limited time. -/
def Request.times {service : Service} (request : Request service) (key : Key) : Bool :=
  match request with
  | .put target _ (some _) => decide (target = key)
  | _ => false

/-- A request that does not touch a key gives it no value for a limited time. -/
theorem Request.times_of_not_touches {service : Service} {request : Request service} {key : Key}
    (h : request.touches key = false) : request.times key = false := by
  cases request with
  | put target value ttl =>
    cases ttl with
    | none => rfl
    | some ttl => exact h
  | _ => rfl

/-- What keys hold is not affected by writes to other keys. -/
theorem Holdings.writeAll_of_ne {writes : List Write} {key : Key}
    (h : ∀ w ∈ writes, w.key ≠ key) (held : Holdings) : held.writeAll writes key = held key := by
  induction writes generalizing held with
  | nil => rfl
  | cons first rest ih =>
    have hrest := ih (fun w hw => h w (List.mem_cons_of_mem _ hw)) (held.write first)
    have hne : key ≠ first.key := Ne.symm (h first List.mem_cons_self)
    refine hrest.trans ?_
    cases first <;> exact if_neg hne

/-- A request has no effect on what a key holds that it does not touch. -/
theorem Request.effect_of_not_touches {service : Service} {request : Request service} {key : Key}
    (h : request.touches key = false) (now : Nat) (held : Holdings) :
    request.effect now held key = held key := by
  cases request with
  | put target value ttl =>
    have hne : key ≠ target := Ne.symm (of_decide_eq_false h)
    cases ttl with
    | none => exact if_neg hne
    | some ttl =>
      simp only [effect]
      cases deadlineAfter now ttl with
      | none => rfl
      | some deadline => exact if_neg hne
  | delete target under =>
    cases under with
    | false => exact if_neg (Ne.symm (of_decide_eq_false h))
    | true =>
      simp only [touches] at h
      simp only [effect, h, Bool.false_eq_true, if_false]
  | txn writes =>
    refine Holdings.writeAll_of_ne (fun w hw heq => ?_) held
    have hany : (Request.txn writes).touches key = true :=
      List.any_eq_true.2 ⟨w, hw, decide_eq_true heq⟩
    rw [h] at hany
    cases hany
  | _ => rfl

namespace Ledger

variable {l l' : Ledger} {now : Nat} {service : Service} {request : Request service}
  {events : List Event}

/-! ### Writes at one revision -/

/-- A deletion leaves the histories of other keys alone. -/
theorem versions_erase_of_ne (l : Ledger) {key k : Key} (hne : k ≠ key) :
    (l.erase key).1.versions k = l.versions k := by
  unfold erase
  split
  · rfl
  · rw [versions_record, if_neg hne]

/-- The event of a deletion is about its key, and is a deletion. -/
theorem key_of_mem_erase {key : Key} {event : Event} (h : event ∈ (l.erase key).2) :
    event.key = key ∧ event.kind = .delete := by
  unfold erase at h
  split at h
  · cases h
  · rw [List.mem_singleton.1 h]
    exact ⟨rfl, rfl⟩

/-- Writes leave other keys their versions. -/
theorem versions_apply_of_ne {writes : List Write} {k : Key} (h : ∀ w ∈ writes, w.key ≠ k)
    (l : Ledger) : (l.apply writes).1.versions k = l.versions k := by
  induction writes generalizing l with
  | nil => rfl
  | cons first rest ih =>
    have hrest (l : Ledger) := ih (fun w hw => h w (List.mem_cons_of_mem _ hw)) l
    have hne : first.key ≠ k := h first List.mem_cons_self
    cases first with
    | put key value =>
      refine (hrest (l.write key value none).1).trans ?_
      rw [write, versions_record]
      exact if_neg (Ne.symm hne)
    | delete key =>
      exact (hrest (l.erase key).1).trans (versions_erase_of_ne l (Ne.symm hne))

/-- The events of writes are about their keys. -/
theorem key_of_mem_apply {writes : List Write} {event : Event}
    (h : event ∈ (l.apply writes).2) : ∃ w ∈ writes, w.key = event.key := by
  induction writes generalizing l with
  | nil => cases h
  | cons first rest ih =>
    have hrest {l : Ledger} (hmem : event ∈ (l.apply rest).2) :
        ∃ w ∈ first :: rest, w.key = event.key := by
      obtain ⟨w, hw, hkey⟩ := ih hmem
      exact ⟨w, List.mem_cons_of_mem _ hw, hkey⟩
    cases first with
    | put key value =>
      rcases List.mem_cons.1 h with rfl | h
      · exact ⟨_, List.mem_cons_self, rfl⟩
      · exact hrest h
    | delete key =>
      rcases List.mem_append.1 h with h | h
      · exact ⟨_, List.mem_cons_self, (key_of_mem_erase h).1.symm⟩
      · exact hrest h

/-- Values that are written at once last for ever. -/
theorem Bounded.deadline_apply (h : l.Bounded) {writes : List Write} {k : Key} {v : Version}
    (hget : (l.apply writes).1.values.get? k = some v) :
    l.values.get? k = some v ∨ v.deadline = none := by
  induction writes generalizing l with
  | nil => exact .inl hget
  | cons first rest ih =>
    cases first with
    | put key value =>
      -- the newest value after the other writes is one of theirs, or the one that this write left
      rcases ih (h.record key (some value) none) hget with hbefore | hnone
      · have hvalues := values_write l key k value none
        rw [write] at hvalues
        rw [hvalues] at hbefore
        split at hbefore
        · rw [← Option.some.inj hbefore]
          exact .inr rfl
        · exact .inl hbefore
      · exact .inr hnone
    | delete key =>
      rcases ih (amends_erase h key).bounded hget with hbefore | hnone
      · rw [h.values_erase] at hbefore
        split at hbefore
        · cases hbefore
        · exact .inl hbefore
      · exact .inr hnone

/-! ### Sweeps -/

/-- Deletions leave the histories of other keys alone. -/
theorem versions_eraseAll_of_ne {keys : List Key} {k : Key} (h : k ∉ keys) (l : Ledger) :
    (l.eraseAll keys).1.versions k = l.versions k := by
  rw [eraseAll_eq_apply]
  refine versions_apply_of_ne (fun w hw heq => h ?_) l
  obtain ⟨key, hkey, rfl⟩ := List.mem_map.1 hw
  exact heq ▸ hkey

/-- The events of deletions are about their keys, and are deletions. -/
theorem key_of_mem_eraseAll {keys : List Key} {event : Event}
    (h : event ∈ (l.eraseAll keys).2) : event.key ∈ keys ∧ event.kind = .delete := by
  induction keys generalizing l with
  | nil => cases h
  | cons key rest ih =>
    rcases List.mem_append.1 h with h | h
    · obtain ⟨hkey, hkind⟩ := key_of_mem_erase h
      exact ⟨hkey ▸ List.mem_cons_self, hkind⟩
    · obtain ⟨hkey, hkind⟩ := ih h
      exact ⟨List.mem_cons_of_mem _ hkey, hkind⟩

/-- A sweep leaves keys whose time is not over their versions. -/
theorem versions_expire_of_not_expired {k : Key} (h : k ∉ l.expired now) :
    (l.expire now).1.versions k = l.versions k := by
  unfold expire
  split
  · rfl
  · exact versions_eraseAll_of_ne h l.begin

/-- The events of a sweep are deletions of keys whose time is over. -/
theorem key_of_mem_expire {event : Event} (h : event ∈ (l.expire now).2) :
    event.key ∈ l.expired now ∧ event.kind = .delete := by
  unfold expire at h
  split at h
  · cases h
  · exact key_of_mem_eraseAll h

/-! ### Requests -/

/-- What a request can make of a ledger from which the keys whose time is over are gone. -/
inductive Carries (l : Ledger) (request : Request service) : Ledger → List Event → Prop where
  | idle : Carries l request l []
  /-- The deadline lies beyond the clock's range. -/
  | begun : Carries l request l.begin []
  | commit (writes : List Write) (touched : ∀ w ∈ writes, request.touches w.key = true) :
    Carries l request (l.begin.apply writes).1 (l.begin.apply writes).2
  | timed (key : Key) (value : Bytes) (deadline : Nat) (touched : request.touches key = true)
    (times : request.times key = true) :
    Carries l request (l.begin.write key value (some deadline)).1
      [(l.begin.write key value (some deadline)).2]

/-- The deletion of keys that a request touches is something that the request can make of a
ledger. -/
theorem carries_deleteKeys (swept : Ledger) (expiries : List Event) {targets : List Key}
    (touched : ∀ key ∈ targets, request.touches key = true) :
    ∃ after more, swept.Carries request after more ∧
      (swept.deleteKeys expiries targets).ledger = after ∧
      (swept.deleteKeys expiries targets).events = expiries ++ more := by
  cases targets with
  | nil => exact ⟨swept, [], .idle, rfl, (List.append_nil _).symm⟩
  | cons key rest =>
    have herase := eraseAll_eq_apply swept.begin (key :: rest)
    refine ⟨_, _, .commit ((key :: rest).map .delete) fun w hw => ?_, ?_, ?_⟩
    · obtain ⟨target, htarget, rfl⟩ := List.mem_map.1 hw
      exact touched target htarget
    · rw [← herase]
      rfl
    · rw [← herase]
      rfl

/-- A request sweeps and then writes to keys that it touches, or it does nothing at all. -/
theorem serve_cases (l : Ledger) (now : Nat) (request : Request service) :
    l.serve now request = (l, []) ∨
      ∃ after events, (l.expire now).1.Carries request after events ∧
        l.serve now request = (after, (l.expire now).2 ++ events) := by
  have hidle : ((l.expire now).1, (l.expire now).2) =
      ((l.expire now).1, (l.expire now).2 ++ []) := by rw [List.append_nil]
  cases request with
  | put key value ttl =>
    refine .inr ?_
    cases ttl with
    | none =>
      refine ⟨_, _, .commit [.put key value] fun w hw => ?_, rfl⟩
      rw [List.mem_singleton.1 hw]
      exact decide_eq_true rfl
    | some ttl =>
      simp only [serve, put]
      cases deadlineAfter now ttl with
      -- a deadline beyond the clock: the revision is begun and nothing is written
      | none => exact ⟨_, _, .begun, by rw [List.append_nil]⟩
      | some deadline =>
        exact ⟨_, _, .timed key value deadline (decide_eq_true rfl) (decide_eq_true rfl), rfl⟩
  | get key => exact .inr ⟨_, _, .idle, hidle⟩
  | range query => exact .inr ⟨_, _, .idle, hidle⟩
  | delete key under =>
    refine .inr ?_
    cases under with
    | false =>
      let targets : List Key := if ((l.expire now).1.latest? key).isSome then [key] else []
      have htouched : ∀ k ∈ targets, (Request.delete key false).touches k = true := by
        intro k hk
        simp only [targets] at hk
        split at hk
        · rw [List.mem_singleton.1 hk]
          exact decide_eq_true rfl
        · cases hk
      obtain ⟨after, more, hcarries, hledger, hevents⟩ :=
        carries_deleteKeys (l.expire now).1 (l.expire now).2 htouched
      exact ⟨after, more, hcarries, Prod.ext hledger hevents⟩
    | true =>
      have htouched : ∀ k ∈ (l.expire now).1.liveUnder key,
          (Request.delete key true).touches k = true := fun k hk => (mem_liveUnder.1 hk).1
      obtain ⟨after, more, hcarries, hledger, hevents⟩ :=
        carries_deleteKeys (l.expire now).1 (l.expire now).2 htouched
      exact ⟨after, more, hcarries, Prod.ext hledger hevents⟩
  | txn writes =>
    refine .inr ?_
    cases writes with
    | nil => exact ⟨_, _, .idle, hidle⟩
    | cons first rest =>
      refine ⟨_, _, .commit (first :: rest) fun w hw => ?_, rfl⟩
      exact List.any_eq_true.2 ⟨w, hw, decide_eq_true rfl⟩
  | watch stem => exact .inl rfl
  | close => exact .inl rfl

/-- What a request makes of a ledger leaves the history of a key that it does not touch. -/
theorem Carries.versions_eq (h : l.Carries request l' events) {k : Key}
    (huntouched : request.touches k = false) : l'.versions k = l.versions k := by
  have hne {key : Key} (htouched : request.touches key = true) : key ≠ k := by
    rintro rfl
    rw [huntouched] at htouched
    cases htouched
  cases h with
  | idle => rfl
  | begun => rfl
  | commit writes touched => exact versions_apply_of_ne (fun w hw => hne (touched w hw)) l.begin
  | timed key value deadline touched times =>
    rw [write, versions_record, if_neg (Ne.symm (hne touched))]
    rfl

/-- The events of a request are about keys that it touches. -/
theorem Carries.touches (h : l.Carries request l' events) {event : Event}
    (hevent : event ∈ events) : request.touches event.key = true := by
  cases h with
  | idle => cases hevent
  | begun => cases hevent
  | commit writes touched =>
    obtain ⟨w, hw, hkey⟩ := key_of_mem_apply hevent
    exact hkey ▸ touched w hw
  | timed key value deadline touched times =>
    rw [List.mem_singleton.1 hevent]
    exact touched

/-- A request leaves a key its versions that it does not touch and whose time is not over. -/
theorem versions_serve {k : Key} (hlasts : k ∉ l.expired now)
    (huntouched : request.touches k = false) :
    (l.serve now request).1.versions k = l.versions k := by
  rcases l.serve_cases now request with hserve | ⟨after, events, hcarries, hserve⟩
  · rw [hserve]
  · rw [hserve]
    exact (hcarries.versions_eq huntouched).trans (versions_expire_of_not_expired hlasts)

/-- The events of a request are about keys that it touches, or they are deletions of keys whose
time is over. -/
theorem touches_of_mem_serve {event : Event} (h : event ∈ (l.serve now request).2) :
    request.touches event.key = true ∨ event.key ∈ l.expired now ∧ event.kind = .delete := by
  rcases l.serve_cases now request with hserve | ⟨after, events, hcarries, hserve⟩
  · rw [hserve] at h
    cases h
  · rw [hserve] at h
    rcases List.mem_append.1 h with h | h
    · exact .inr (key_of_mem_expire h)
    · exact .inl (hcarries.touches h)

/-- No value of a key has a deadline. -/
def Timeless (l : Ledger) (key : Key) : Prop :=
  ∀ v, l.values.get? key = some v → v.deadline = none

/-- A key that never had a deadline never expires. -/
theorem Timeless.not_mem_expired {key : Key} (h : l.Timeless key) (now : Nat) :
    key ∉ l.expired now := by
  intro hmem
  obtain ⟨v, hget, hdue⟩ := mem_expired_iff.1 hmem
  rw [h v hget] at hdue
  cases hdue

/-- A key without deadlines gets one only by a request that says so. -/
theorem Timeless.serve {key : Key} (h : l.Timeless key) (hbounded : l.Bounded)
    (huntimed : request.times key = false) : (l.serve now request).1.Timeless key := by
  intro v hget
  rcases l.serve_cases now request with hserve | ⟨after, events, hcarries, hserve⟩
  · rw [hserve] at hget
    exact h v hget
  rw [hserve] at hget
  have hswept : (l.expire now).1.Timeless key := by
    intro v hget
    rw [hbounded.values_expire, if_neg (h.not_mem_expired now)] at hget
    exact h v hget
  have hbegin := (hbounded.expire now).begin
  cases hcarries with
  | idle => exact hswept v hget
  | begun => exact hswept v hget
  | commit writes touched => exact (hbegin.deadline_apply hget).elim (hswept v) id
  | timed target value deadline touched times =>
    rw [values_write] at hget
    split at hget
    · next heq =>
      rw [heq, times] at huntimed
      cases huntimed
    · exact hswept v hget

end Ledger

end KeyBroker
