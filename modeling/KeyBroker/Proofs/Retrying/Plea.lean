import KeyBroker.Proofs.Listing.Reader
import KeyBroker.Proofs.Retrying.Granted
import KeyBroker.Proofs.Shutdown.Orders
import KeyBroker.Proofs.View.Within

/-!
# What callers ask for again

A caller can ask for most things again and again, and the call is the same every time. A batch
is committed by the first commit, and a broker is closed by the first close, whatever comes of
them.
-/

namespace KeyBroker

/-- What a caller asks for, and can ask for again. -/
inductive Plea where
  | order (o : Order)
  /-- A subscription on a channel that the broker makes. -/
  | subscribe (scope stem : Key)
  | close

/-- Whether an order comes to one request. -/
def Order.single : Order → Bool
  | .listAll .. | .collect _ | .watchAll .. => false
  | _ => true

/-- The order given again, with the listing or the batch that the answer to it left behind. -/
def Order.again : Order → Answer → Order
  | .next _, .stepped listing _ => .next listing
  | .commit _, .committed batch _ => .commit batch
  | o, _ => o

/-- A listing is under the scope of its view, and goes on at a revision that there has been. -/
structure Listing.Stands (listing : Listing) (l : Ledger) : Prop where
  scope : listing.scope <+: listing.stem
  revision : listing.revision ≤ l.revision

namespace Plea

/-- Begins what is asked for, if a channel for it can be made. -/
def begin (s : System) : Plea → Option (System × Turn)
  | .order o => some (s, o.turn s)
  | .subscribe scope stem =>
    (s.openChannel s.settings.bufferSize false).map fun (t, n) => (t, .ask (.watch scope stem n))
  | .close => some s.beginClose

/-- The plea made again after an answer. -/
def again : Plea → Answer → Plea
  | .order o, answer => .order (o.again answer)
  | p, _ => p

/-- Whether a plea can be made more than once. A batch is committed once, and a broker closed
once. -/
def repeatable : Plea → Bool
  | .order (.commit _) | .close => false
  | _ => true

/-- The call under way began as the plea, and makes one request. -/
def Began (s : System) (call : Call) : Plea → Prop
  | .order o => o.single = true ∧ o.turn s = .ask call ∧
      ∀ listing, o = .next listing → listing.Stands s.store.ledger
  | .subscribe scope stem =>
    Channel.capacityAllowed s.settings.bufferSize = true ∧ ∃ n, call = .watch scope stem n
  | .close => call = .close ∧ s.closing = true

/-- What is asked for is done: its call is made at once and succeeds. -/
def Succeeds (p : Plea) (s : System) : Prop :=
  ∃ t call answer, p.begin s = some (t, .ask call) ∧ t.Achieves call answer

end Plea

/-! ### Calls of pleas -/

/-- Whatever comes of it, a commit leaves the batch committed. -/
theorem Batch.committed_commit (batch : Batch) (stopped : Bool) :
    (batch.commit stopped).1.committed = true := by
  unfold commit
  split
  · next hcommitted => exact hcommitted
  · cases stopped with
    | true => rfl
    | false =>
      cases batch.spoiled with
      | some reason => rfl
      | none => cases batch.writes <;> rfl

/-- A batch that is committed is not sent again. -/
theorem Call.beginCommit_of_committed {batch : Batch} (h : batch.committed = true)
    (stopped : Bool) :
    Call.beginCommit batch stopped = .done (.committed batch (.error .alreadyCommitted)) := by
  simp [beginCommit, Batch.commit, h]

/-- What the call of an order with one request asks for. -/
inductive Order.Asks (settings : Settings) : Order → Call → Prop where
  | put {scope key : Key} {value : Bytes} {ttl : Option Duration} (named : key.isEmpty = false) :
    Asks settings (.put scope key value ttl) (.put scope key value ttl)
  | get {scope key : Key} : Asks settings (.get scope key) (.get scope key)
  | delete {scope key : Key} (named : key.isEmpty = false) :
    Asks settings (.delete scope key) (.delete scope key)
  | deletePrefix {scope stem : Key} :
    Asks settings (.deletePrefix scope stem) (.deletePrefix scope stem)
  | list {scope stem : Key} {keysOnly : Bool} (fits : pageBufferFits settings.pageSize = true) :
    Asks settings (.list scope stem keysOnly)
      (.list (.opening scope stem settings.pageSize keysOnly))
  | next {listing : Listing} (needsPage : listing.needsPage = true) :
    Asks settings (.next listing) (.next listing)
  | commit {batch sent : Batch} {writes : List Write} (committed : sent.committed = true) :
    Asks settings (.commit batch) (.commit sent writes)
  | watch {scope stem : Key} {channel : Nat} :
    Asks settings (.watch scope stem channel) (.watch scope stem channel)

/-- An order with one request that begins with a call asks for what its call asks. -/
theorem Order.asks_of_turn {o : Order} {s : System} {call : Call} (hsingle : o.single = true)
    (hturn : o.turn s = .ask call) : o.Asks s.settings call := by
  cases o with
  | put scope key value ttl =>
    cases hkey : key.isEmpty <;> simp only [turn, Call.beginPut, hkey] at hturn <;> cases hturn
    exact .put hkey
  | delete scope key =>
    cases hkey : key.isEmpty <;> simp only [turn, Call.beginDelete, hkey] at hturn <;> cases hturn
    exact .delete hkey
  | list scope stem keysOnly =>
    cases hfits : pageBufferFits s.settings.pageSize <;>
      simp only [turn, Call.beginList, hfits] at hturn <;> cases hturn
    exact .list hfits
  | next listing =>
    cases hneeds : listing.needsPage <;> simp only [turn, Call.beginNext, hneeds] at hturn <;>
      cases hturn
    exact .next hneeds
  | commit batch =>
    have hcommitted := batch.committed_commit s.stopped
    simp only [turn, Call.beginCommit] at hturn
    split at hturn <;> cases hturn
    next heq =>
      rw [heq] at hcommitted
      exact .commit hcommitted
  | listAll | collect | watchAll => cases hsingle
  | get => cases hturn; exact .get
  | deletePrefix => cases hturn; exact .deletePrefix
  | watch => cases hturn; exact .watch

/-- The call of an order with one request makes one request. -/
theorem Order.Asks.single {settings : Settings} {o : Order} {call : Call}
    (h : o.Asks settings call) : call.single = true := by
  cases h <;> rfl

/-- An order that can be given more than once comes to the same call every time. -/
theorem Order.Asks.turn {t : System} {o : Order} {call : Call} (h : o.Asks t.settings call)
    (hrepeatable : (Plea.order o).repeatable = true) : o.turn t = .ask call := by
  cases h with
  | put named => simp [Order.turn, Call.beginPut, named]
  | delete named => simp [Order.turn, Call.beginDelete, named]
  | list fits => simp [Order.turn, Call.beginList, fits]
  | next needsPage => simp [Order.turn, Call.beginNext, needsPage]
  | commit => cases hrepeatable
  | _ => rfl

namespace Plea

variable {s : System} {p : Plea} {call : Call}

/-- A plea begins with a call that makes one request, unless it is to close the broker. -/
theorem Began.single (h : p.Began s call) : call.single = true ∨ call = .close := by
  cases p with
  | order o => exact .inl (o.asks_of_turn h.1 h.2.1).single
  | subscribe scope stem =>
    obtain ⟨_, n, rfl⟩ := h
    exact .inl rfl
  | close => exact .inr h.1

/-- The calls of pleas that can be made more than once are formed. -/
theorem Began.formed (h : p.Began s call) (hrepeatable : p.repeatable = true) :
    call.Formed s.store.ledger := by
  cases p with
  | subscribe scope stem =>
    obtain ⟨_, n, rfl⟩ := h
    exact Call.formed_of_named rfl (by simp)
  | close => cases hrepeatable
  | order o =>
    obtain ⟨hsingle, hturn, hlisting⟩ := h
    cases o.asks_of_turn hsingle hturn with
    | @put scope key value ttl named =>
      exact Call.formed_of_named (Key.isEmpty_qualify scope named) (by simp)
    | @delete scope key named =>
      have hnamed : (Call.delete scope key).request.namesEmptyKey = false := by
        simpa [Call.request, Request.namesEmptyKey] using Key.isEmpty_qualify scope named
      exact Call.formed_of_named hnamed (by simp)
    | next needsPage =>
      have hstands := hlisting _ rfl
      exact ⟨rfl, fun _ h => Call.next.inj h ▸ hstands.scope,
        fun _ h => Call.next.inj h ▸ hstands.revision, fun _ h => Call.next.inj h ▸ needsPage⟩
    | commit => cases hrepeatable
    | _ => exact Call.formed_of_named rfl (by simp)

end Plea

end KeyBroker
