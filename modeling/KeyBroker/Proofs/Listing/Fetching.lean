import KeyBroker.Proofs.Listing.Replies
import KeyBroker.Proofs.System.Same

/-!
# Fetching a page

A step of a listing that needs a page stands at one request until it has its answer. A poll
of it finds the broker stopped, waits, gives up, or has the store carry the request out, and
only a page that the store gave changes the listing.
-/

namespace KeyBroker

/-- The error that a script line has in the place of an answer of the store. -/
def ScriptLine.error? (line : ScriptLine) : Option StorageError :=
  match line.answer with
  | .fail error => some error
  | _ => none

/-- A request that the script fails is failed by one of its lines. -/
theorem Script.exists_line_of_fail {service : Service} {script : Script} {error : StorageError}
    (h : (script.next service).1 = .fail error) : ∃ line ∈ script, line.error? = some error := by
  induction script with
  | nil => cases h
  | cons first rest ih =>
    simp only [Script.next] at h
    split at h
    · next hservice =>
      subst hservice
      refine ⟨first, List.mem_cons_self, ?_⟩
      simp only at h
      rw [ScriptLine.error?, h]
    · obtain ⟨line, hline, herror⟩ := ih h
      exact ⟨line, List.mem_cons_of_mem _ hline, herror⟩

namespace System

variable {s t : System} {c : InFlight} {listing : Listing} {turn : Turn}

/-- What a poll makes of the call `c` that asks for the next page of `listing`. -/
inductive Fetches (s : System) (c : InFlight) (listing : Listing) : Turn → Prop where
  | waits (quiet : s.actsOn c = false) : Fetches s c listing (.ask (.next listing))
  | stopped (quiet : s.actsOn c = false) (stopped : s.stopped = true) :
    Fetches s c listing (.done (.stepped listing (.error .closed)))
  /-- The wait was too long, or the script has an error. -/
  | lost (quiet : s.actsOn c = false) (cause : StorageError)
    (known : cause = .timeout s.settings.timeout ∨ ∃ line ∈ s.script, line.error? = some cause) :
    Fetches s c listing (.done (.stepped listing (.error (.ofStorage "list" cause))))
  | rejected (acts : s.actsOn c = true) (cause : StorageError)
    (outcome : (s.store.serve s.instant (.range (listing.query (some listing.revision)))).outcome =
      .failed cause) :
    Fetches s c listing (.done (.stepped listing (.error (.ofStorage "list" cause))))
  | reads (acts : s.actsOn c = true) (page : Page)
    (outcome : (s.store.serve s.instant (.range (listing.query (some listing.revision)))).outcome =
      .ok page) :
    Fetches s c listing
      (.done (.stepped (listing.absorb page).take.1 (listing.absorb page).take.2))

/-- A request that ends in an error leaves the listing where it is. -/
theorem standing_conclude_error (hbooked : s.desk.Booked) (hfound : s.desk.call? c.id = some c)
    (hcall : c.call = .next listing) (hdesk : t.desk = s.desk) (e : Error) :
    (t.conclude c (.error e)).desk.standing c.id =
      some (.done (.stepped listing (.error e))) := by
  obtain ⟨number, call, exchange, holds⟩ := c
  obtain rfl : call = .next listing := hcall
  rw [desk_conclude, hdesk, hbooked.standing_proceed hfound, if_pos rfl]
  rfl

/-- A request for a page that failed leaves its call with that failure for an answer, and the
listing where it was. -/
theorem standing_settle_failed (hbooked : s.desk.Booked) (hfound : s.desk.call? c.id = some c)
    (hcall : c.call = .next listing) (hdesk : t.desk = s.desk) (started : Nat)
    (cause : StorageError) :
    (t.settle c started (.failed cause)).desk.standing c.id =
      some (.done (.stepped listing (.error (.ofStorage "list" cause)))) := by
  obtain ⟨number, call, exchange, holds⟩ := c
  obtain rfl : call = .next listing := hcall
  let told : System := ((t.observe (.served .range false)).note
    (Service.range.failure cause).2).observe (.lasted .range (t.now - started))
  have htold : told.desk = s.desk := hdesk
  exact standing_conclude_error hbooked hfound rfl htold _

/-- A call for a page that is under way has its request to make. -/
theorem standing_next (hfound : s.desk.call? c.id = some c) (hcall : c.call = .next listing) :
    s.desk.standing c.id = some (.ask (.next listing)) := by
  rw [Desk.standing, hfound]
  exact congrArg (fun call => some (Turn.ask call)) hcall

/-- A call for a page that waits for its reply still stands where it was. -/
theorem standing_await (hfound : s.desk.call? c.id = some c) (hcall : c.call = .next listing)
    (hdesk : t.desk = s.desk) (due : Option Nat) :
    (t.await c due).desk.standing c.id = some (.ask (.next listing)) := by
  have hwait := Desk.standing_wait hfound (some
    { started := t.now, deadline := t.now + t.settings.requestTimeout, due }) c.id
  rw [← standing_next hfound hcall, ← hwait, ← hdesk]
  rfl

/-- The store carries the request out. -/
theorem fetches_act (hbooked : s.desk.Booked) (hfound : s.desk.call? c.id = some c)
    (hcall : c.call = .next listing) (hacts : s.actsOn c = true) (script : Script)
    (started : Nat) :
    ∃ turn, ({ s with script }.act c started).desk.standing c.id = some turn ∧
      s.Fetches c listing turn := by
  obtain ⟨turn, hdesk, hresumes⟩ := desk_act { s with script } c started
  have hstanding : ({ s with script }.act c started).desk.standing c.id = some turn := by
    rw [hdesk]
    have hproceed :=
      (hbooked.beside (s.store.serve s.instant c.call.request).store).standing_proceed
        hfound turn c.id
    rw [if_pos rfl] at hproceed
    exact hproceed
  obtain ⟨number, call, exchange, holds⟩ := c
  obtain rfl : call = .next listing := hcall
  refine ⟨turn, hstanding, ?_⟩
  cases houtcome :
      (s.store.serve s.instant (.range (listing.query (some listing.revision)))).outcome with
  | ok page =>
    obtain ⟨_, rfl⟩ := Call.Resumes.of_ok (.next listing) (houtcome ▸ hresumes)
    exact .reads hacts page houtcome
  | failed cause =>
    obtain ⟨_, rfl⟩ := Call.Resumes.of_failed (.next listing) (houtcome ▸ hresumes)
    exact .rejected hacts cause houtcome
  | aborted why => exact absurd houtcome (Store.serve_range_ne_aborted _ _ _ why)

/-- Making its request brings a call for a page to its answer, or leaves it waiting. -/
theorem fetches_makeRequest (hgenuine : s.wiring.Genuine) (hbooked : s.desk.Booked)
    (hfound : s.desk.call? c.id = some c) (hcall : c.call = .next listing)
    (hexchange : c.exchange = none) :
    ∃ turn, (s.makeRequest c).desk.standing c.id = some turn ∧ s.Fetches c listing turn := by
  have hends : c.call.endsWithBroker = true := by rw [hcall]; rfl
  have hreply : ∀ planned, (s.script.next c.call.service).1 ≠ .reply planned :=
    next_ne_reply hgenuine
  have hline : ∀ error, (s.script.next c.call.service).1 = .fail error →
      ∃ line ∈ s.script, line.error? = some error := fun _ => Script.exists_line_of_fail
  simp only [makeRequest]
  cases hstop : s.stopped && c.call.endsWithBroker with
  | true =>
    have hquiet : s.actsOn c = false := by
      simp only [actsOn, hstop, Bool.not_true, Bool.false_and]
    rw [hends, Bool.and_true] at hstop
    exact ⟨_, standing_conclude_error hbooked hfound hcall rfl .closed, .stopped hquiet hstop⟩
  | false =>
    cases hnext : s.script.next c.call.service with
    | mk answer script =>
      rw [hnext] at hreply hline
      cases answer with
      | forward delay =>
        cases delay with
        | zero =>
          have hacts : s.actsOn c = true := by
            simp only [actsOn, hexchange, hstop, hnext, Bool.not_false, Bool.true_and]
          exact fetches_act hbooked hfound hcall hacts script s.now
        | succ delay =>
          have hquiet : s.actsOn c = false := by
            simp only [actsOn, hexchange, hnext, Bool.and_false]
          exact ⟨_, standing_await hfound hcall rfl _, .waits hquiet⟩
      | hang =>
        have hquiet : s.actsOn c = false := by
          simp only [actsOn, hexchange, hnext, Bool.and_false]
        exact ⟨_, standing_await hfound hcall rfl _, .waits hquiet⟩
      | fail error =>
        have hquiet : s.actsOn c = false := by
          simp only [actsOn, hexchange, hnext, Bool.and_false]
        have hdesk : ({ s with script } : System).desk = s.desk := rfl
        exact ⟨_, standing_settle_failed hbooked hfound hcall hdesk s.now error,
          .lost hquiet error (.inr (hline error rfl))⟩
      | reply planned => exact absurd rfl (hreply planned)

/-- Looking for its reply brings a call for a page to its answer, or leaves it waiting. -/
theorem fetches_checkAnswer (hbooked : s.desk.Booked) (hfound : s.desk.call? c.id = some c)
    (hcall : c.call = .next listing) {e : Exchange} (hexchange : c.exchange = some e) :
    ∃ turn, (s.checkAnswer c e).desk.standing c.id = some turn ∧ s.Fetches c listing turn := by
  have hends : c.call.endsWithBroker = true := by rw [hcall]; rfl
  have hacts : s.actsOn c = (!s.stopped && e.due.any (· ≤ s.now)) := by
    simp only [actsOn, hexchange, hends, Bool.and_true]
  simp only [checkAnswer, hends, Bool.and_true]
  split
  · next hstop =>
    have hquiet : s.actsOn c = false := by rw [hacts, hstop]; rfl
    exact ⟨_, standing_conclude_error hbooked hfound hcall (by rfl) .closed, .stopped hquiet hstop⟩
  · next hstop =>
    rw [eq_false_of_ne_true hstop] at hacts
    split
    · next hdue =>
      have hacts : s.actsOn c = true := by rw [hacts, hdue]; rfl
      exact fetches_act hbooked hfound hcall hacts s.script e.started
    · next hdue =>
      have hquiet : s.actsOn c = false := by rw [hacts, eq_false_of_ne_true hdue]; rfl
      split
      · have hservice : c.call.service = .range := by rw [hcall]
        refine ⟨_, standing_conclude_error hbooked hfound hcall (by rfl) _, ?_⟩
        rw [hservice]
        exact .lost hquiet _ (.inl rfl)
      · exact ⟨_, standing_next hfound hcall, .waits hquiet⟩

/-- A poll of a call that asks for a page comes to one of these. -/
theorem fetches_pollCall (hgenuine : s.wiring.Genuine) (hbooked : s.desk.Booked)
    (hfound : s.desk.call? c.id = some c) (hcall : c.call = .next listing) :
    ∃ turn, (s.pollCall c.id).desk.standing c.id = some turn ∧ s.Fetches c listing turn := by
  have hfind : s.calls.find? (fun other => decide (other.id = c.id)) = some c := hfound
  simp only [pollCall, hfind]
  cases hexchange : c.exchange with
  | none => exact fetches_makeRequest hgenuine hbooked hfound hcall hexchange
  | some e => exact fetches_checkAnswer hbooked hfound hcall hexchange

/-! ### Runs -/

variable {id : Nat} {st : Fated} {run : List Fated} {answer : Answer}

/-- A poll in a run, where the store follows the lines given. -/
theorem fetches_fate (hs : s.InOrder) (hpolls : st.polls id = true)
    (hfound : s.desk.call? id = some c) (hcall : c.call = .next listing) :
    ∃ turn, (s.fate st).desk.standing id = some turn ∧ (s.under st).Fetches c listing turn := by
  obtain rfl := Desk.id_of_call? hfound
  have hunder : (s.under st).desk = s.desk := rfl
  obtain ⟨turn, hstanding, hfetches⟩ :=
    fetches_pollCall (genuine_under s st) (hunder ▸ hs.booked) (hunder ▸ hfound) hcall
  refine ⟨turn, ?_, hfetches⟩
  rw [fate_of_polls s hpolls]
  exact hstanding

/-- How a call that asks for the next page of `listing` comes to its answer in a run: others
move, it waits, and one poll of it answers. -/
inductive Fetched (id : Nat) (listing : Listing) (answer : Answer) :
    System → List Fated → Prop where
  | other {s : System} {st : Fated} {run : List Fated} (other : st.polls id = false)
    (rest : Fetched id listing answer (s.fate st) run) : Fetched id listing answer s (st :: run)
  | waits {s : System} {st : Fated} {run : List Fated} {c : InFlight} (polls : st.polls id = true)
    (found : s.desk.call? id = some c) (asks : c.call = .next listing)
    (quiet : (s.under st).actsOn c = false)
    (rest : Fetched id listing answer (s.fate st) run) : Fetched id listing answer s (st :: run)
  | ends {s : System} {st : Fated} {run : List Fated} {c : InFlight} (polls : st.polls id = true)
    (found : s.desk.call? id = some c) (asks : c.call = .next listing)
    (fetches : (s.under st).Fetches c listing (.done answer))
    (ended : (s.fate st).desk.standing id = some (.done answer)) :
    Fetched id listing answer s (st :: run)

/-- A call that has a request to make is under way. -/
theorem call?_of_standing {call : Call} (h : s.desk.standing id = some (.ask call)) :
    ∃ c, s.desk.call? id = some c ∧ c.call = call := by
  unfold Desk.standing at h
  cases hfound : s.desk.call? id with
  | none =>
    rw [hfound] at h
    obtain ⟨_, _, hdone⟩ := Option.map_eq_some_iff.1 h
    cases hdone
  | some c =>
    rw [hfound] at h
    exact ⟨c, rfl, Turn.ask.inj (Option.some.inj h)⟩

/-- A call for a page that has its answer came to it in one poll, after others in which
it waited. -/
theorem fetched (hs : s.InOrder) (hid : id < s.nextCall) (hfound : s.desk.call? id = some c)
    (hcall : c.call = .next listing) (run : List Fated)
    (hdone : (s.fates run).desk.standing id = some (.done answer)) :
    Fetched id listing answer s run := by
  induction run generalizing s c with
  | nil =>
    have hasks : s.desk.standing id = some (.done answer) := hdone
    rw [standing_of_call? hfound] at hasks
    cases hasks
  | cons st run ih =>
    have hid' : id < (s.fate st).nextCall := Nat.lt_of_lt_of_le hid (nextCall_fate s st)
    cases hpolls : st.polls id with
    | false =>
      have hstays : (s.fate st).desk.call? id = some c := by
        rw [call?_fate_of_ne hid hpolls, hfound]
      exact .other hpolls (ih (hs.fate st) hid' hstays hcall hdone)
    | true =>
      obtain ⟨turn, hstanding, hfetches⟩ := fetches_fate hs hpolls hfound hcall
      cases turn with
      | ask call =>
        cases hfetches with
        | waits quiet =>
          obtain ⟨c', hfound', hcall'⟩ := call?_of_standing hstanding
          exact .waits hpolls hfound hcall quiet (ih (hs.fate st) hid' hfound' hcall' hdone)
      | done first =>
        have hsame := done_fates (hs.fate st) hid' hstanding run hdone
        obtain rfl := Turn.done.inj hsame
        exact .ends hpolls hfound hcall hfetches hstanding

/-- The moment at which the call is answered. -/
theorem Fetched.moment (h : Fetched id listing answer s run) :
    ∃ early st late c, run = early ++ st :: late ∧ c.call = .next listing ∧
      ((s.fates early).under st).Fetches c listing (.done answer) := by
  induction h with
  | @other _ first _ _ _ ih | @waits _ first _ _ _ _ _ _ _ ih =>
    obtain ⟨early, st, late, c, rfl, hcall, hfetches⟩ := ih
    exact ⟨first :: early, st, late, c, rfl, hcall, hfetches⟩
  | @ends _ st late c _ _ asks fetches _ => exact ⟨[], st, late, c, rfl, asks, fetches⟩

end System

end KeyBroker
