import KeyBroker.Proofs.Independence.Others
import Mathlib.Logic.Function.Iterate

/-!
# What the subscriber depends on

The settings, the time, the keys and the outlet of the subscriber are all that its actions
depend on, and all that they change that it can see. An action is answered as it would be by
a broker that has the same keys and nothing else to do.
-/

namespace KeyBroker

/-- All that an action depends on. -/
structure Core where
  settings : Settings
  now : Nat
  ledger : Ledger
  outlet? : Option Outlet

/-- The channel after its oldest item was received, if there is one. -/
def Channel.taken (c : Channel) : Channel :=
  match c.receive with
  | some (_, rest, _) => rest
  | none => c

/-- What the subscriber finds on the channel of its outlet. -/
def Outlet.receipt (o : Outlet) : System.Receipt :=
  match o.channel.receive with
  | some (item, _) => .item item
  | none => if o.channel.held || o.running?.isSome then .empty else .closed

namespace Core

/-- The core of a new broker. -/
def new (settings : Settings) : Core := { settings, now := 0, ledger := {}, outlet? := none }

/-- A broker at the same time with the same keys that has nothing else to do. -/
def alone (c : Core) : System :=
  { settings := c.settings, now := c.now, store := { ledger := c.ledger } }

/-- The core after a step of the dispatcher of the subscription. -/
def step (c : Core) : Core :=
  { c with outlet? := c.outlet?.map (·.step c.settings.slowPolicy) }

/-- The core with its outlet changed by `f`. -/
def onOutlet (c : Core) (f : Outlet → Outlet) : Core := { c with outlet? := c.outlet?.map f }

/-- The core after a request to the store. -/
def served (c : Core) {service : Service} (request : Request service) : Core :=
  { c with
    ledger := (c.alone.store.serve c.alone.instant request).store.ledger
    outlet? := c.outlet?.map (·.fed (c.alone.store.events c.alone.instant request)) }

/-- The core after an action. -/
def after (c : Core) : Action → Core
  | .call (.done _) _ => c
  | .call (.ask call) _ => c.served call.request
  | .ask request _ => c.served request
  | .pass moment => { c with now := max c.now moment }
  | .compact revision => { c with ledger := c.ledger.compact revision }
  | .subscribe scope stem capacity held =>
    if Channel.capacityAllowed capacity then
      { c with outlet? := some (.new scope stem capacity held) }
    else c
  | .receive => c.onOutlet (·.onChannel (·.taken))
  | .dropSender => c.onOutlet (·.onChannel fun channel => { channel with held := false })
  | .dropReceiver => c.onOutlet (·.onChannel (·.close))
  | .unsubscribe => c.onOutlet (·.unsubscribed)

/-- What comes of an action at once. -/
def response (c : Core) : Action → Response
  | .call turn _ => .answered (c.alone.made? turn)
  | .ask request _ => .served (c.alone.serveDirectly request).2
  | .subscribe _ stem capacity _ =>
    .subscribed (if Channel.capacityAllowed capacity then some stem else none)
  | .receive => .received (c.outlet?.map (·.receipt))
  | _ => .nothing

/-- What can be seen of an action. -/
def observed (c : Core) (action : Action) : Observed where
  response := c.response action
  revision := (c.after action).ledger.revision
  active := (c.after action).outlet?.any (·.active)

/-! ### Cores that settle -/

/-- Steps of its dispatcher take a core to one from which no step leads on. -/
def Settles (c last : Core) : Prop := ∃ k, step^[k] c = last ∧ last.step = last

/-- It does not matter how many steps were taken. -/
theorem Settles.unique {c last last' : Core} (h : c.Settles last) (h' : c.Settles last') :
    last = last' := by
  obtain ⟨k, rfl, hfixed⟩ := h
  obtain ⟨k', rfl, hfixed'⟩ := h'
  have hreach {i j : Nat} (hle : i ≤ j) (hfixed : (step^[i] c).step = step^[i] c) :
      step^[j] c = step^[i] c := by
    rw [← Nat.sub_add_cancel hle, Function.iterate_add_apply]
    exact Function.iterate_fixed hfixed _
  rcases Nat.le_total k k' with hle | hle
  · exact (hreach hle hfixed).symm
  · exact hreach hle hfixed'

/-! ### A broker with nothing else to do -/

/-- A broker with nothing else to do runs, and nothing stands between it and its store. -/
theorem prompt_alone (c : Core) : c.alone.Prompt where
  script := rfl
  booked := (System.booked_new c.settings).beside { ledger := c.ledger }
  running := rfl

end Core

/-- What a store that can be reached answers and commits depends on its keys only. -/
theorem Store.serve_alone {s : Store} (hreachable : s.refusal = none) (now : Nat)
    {service : Service} (request : Request service)
    (hplain : service ≠ .watch ∧ service ≠ .close) :
    let served := Store.serve { ledger := s.ledger } now request
    (s.serve now request).outcome = served.outcome ∧
      (s.serve now request).store.ledger = served.store.ledger ∧
      s.events now request = Store.events { ledger := s.ledger } now request := by
  intro served
  have hanswers : Store.answers { ledger := s.ledger } request = s.answers request := by
    have hreached : Store.refusal { ledger := s.ledger } = none := rfl
    simp only [answers, hreachable, hreached]
  refine ⟨?_, ?_, ?_⟩
  · cases hkey : request.namesEmptyKey with
    | true => simp only [served, serve, hkey, if_true]
    | false =>
      have hreached := answers_of_refusal_none hreachable request hkey
      have hserve := serve_of_answers now hreached fun h => absurd h hplain.2
      have hserved := serve_of_answers now (hanswers.trans hreached) fun h => absurd h hplain.2
      simp only [served, hserve, hserved]
      cases request with
      | watch stem => exact absurd rfl hplain.1
      | close => exact absurd rfl hplain.2
      | _ => rfl
  · simp only [served, ledger_serve, hanswers]
  · simp only [events, hanswers]

/-- A call with one request goes on from an outcome in one way. -/
theorem Call.Resumes.unique {call : Call} (hbrief : call.brief = true)
    {outcome : Outcome call.service.Reply} {turn turn' : Turn} (h : call.Resumes outcome turn)
    (h' : call.Resumes outcome turn') : turn = turn' := by
  have hsame (t t' : System) (reply : Except Error call.service.Reply) :
      (t.answered call reply).2 = (t'.answered call reply).2 := by
    cases call with
    | put | get | delete | deletePrefix | list | commit => rfl
    | next listing => cases reply <;> rfl
    | _ => cases hbrief
  cases h with
  | ok t reply =>
    obtain ⟨t', rfl⟩ := h'.of_ok
    exact hsame ..
  | failed t error =>
    obtain ⟨t', rfl⟩ := h'.of_failed
    exact hsame ..
  | aborted why => cases h' with
    | aborted => rfl

namespace Channel

variable {c : Channel} {sender : Nat}

/-- Receiving is the same whoever sent the items. -/
theorem receive_anonymous (c : Channel) :
    c.anonymous.receive = c.receive.map fun (item, rest, next) =>
      (item, rest.anonymous, next.map fun _ => 0) := by
  obtain ⟨capacity, items, waiting, promised, received, held⟩ := c
  cases items with
  | nil => rfl
  | cons oldest rest =>
    cases waiting with
    | nil => rfl
    | cons first others =>
      simp only [receive, promise, anonymous, List.map_cons, List.map_append, List.map_nil,
        Option.map_some]

/-- Receiving does not depend on who sent. -/
theorem anonymous_taken (c : Channel) : c.taken.anonymous = c.anonymous.taken := by
  unfold taken
  rw [receive_anonymous]
  cases c.receive <;> rfl

/-- Receiving leaves the line to the sender. -/
theorem linedBy_taken (h : c.LinedBy sender) : c.taken.LinedBy sender := by
  simp only [taken, receive]
  cases c.items with
  | nil => exact h
  | cons oldest rest => exact linedBy_promise (c := { c with items := rest }) h

end Channel

end KeyBroker
