import KeyBroker.Proofs.Delivery.Unbroken
import KeyBroker.Proofs.View.Client

/-!
# The steps of a client

Each step of a run is made of moves. On a broker that shelters the scope of the view, and
is neither closed nor dropped, a step keeps it sheltered and its store goes on.
-/

namespace KeyBroker.Client

variable {scope : Key} {c : Client} {doing : Doing} {turn : Turn} {run : List (Step scope)}

/-- Keeping listings and batches does not concern the broker. -/
@[simp] theorem system_keep (c : Client) (scope : Key) (answer? : Option Answer) (doing : Doing) :
    (c.keep scope answer? doing).system = c.system := by
  cases doing with
  | next n =>
    simp only [keep]
    split <;> rfl
  | commit n =>
    simp only [keep]
    split <;> rfl
  | _ => rfl

/-- What the client does is its moves to the system. -/
@[simp] theorem system_after (c : Client) (scope : Key) (doing : Doing) :
    (c.after scope doing).system = c.system.moves (c.moves scope doing) :=
  system_keep ..

/-- When the client does something, there happens what happens in its moves. -/
theorem happens_own (c : Client) (scope : Key) (doing : Doing) :
    c.happens (.own doing : Step scope) = c.system.happenings (c.moves scope doing) := rfl

/-- Steps in two parts come one part after the other. -/
theorem steps_append (c : Client) (run more : List (Step scope)) :
    c.steps (run ++ more) = (c.steps run).steps more :=
  List.foldl_append

/-! ### What a client does -/

/-- The calls that make the requests of what a client does. -/
inductive Asks (scope : Key) : Doing → Call → Prop where
  | put (key : Key) (value : Bytes) (ttl : Option Duration) :
    Asks scope (.put key value ttl) (.put scope key value ttl)
  | get (key : Key) : Asks scope (.get key) (.get scope key)
  | delete (key : Key) : Asks scope (.delete key) (.delete scope key)
  | deletePrefix (stem : Key) : Asks scope (.deletePrefix stem) (.deletePrefix scope stem)
  | list (stem : Key) (keysOnly : Bool) (listing : Listing) :
    Asks scope (.list stem keysOnly) (.list listing)
  | next (n : Nat) (listing : Listing) : Asks scope (.next n) (.next listing)
  | commit (n : Nat) (batch : Batch) (writes : List Write) :
    Asks scope (.commit n) (.commit batch writes)

/-- A doing that begins with a call asks for what its call asks. -/
theorem asks_of_turn? {call : Call} (h : c.turn? scope doing = some (.ask call)) :
    Asks scope doing call := by
  cases doing with
  | put key value ttl =>
    simp only [turn?, Call.beginPut, Option.some.injEq] at h
    split at h
    · cases h
    · obtain rfl := Turn.ask.inj h
      exact .put key value ttl
  | get key =>
    obtain rfl := Turn.ask.inj (Option.some.inj h)
    exact .get key
  | delete key =>
    simp only [turn?, Call.beginDelete, Option.some.injEq] at h
    split at h
    · cases h
    · obtain rfl := Turn.ask.inj h
      exact .delete key
  | deletePrefix stem =>
    obtain rfl := Turn.ask.inj (Option.some.inj h)
    exact .deletePrefix stem
  | list stem keysOnly =>
    simp only [turn?, Call.beginList, Option.some.injEq] at h
    split at h
    · obtain rfl := Turn.ask.inj h
      exact .list stem keysOnly _
    · cases h
  | next n =>
    obtain ⟨listing, _, hbegin⟩ := Option.map_eq_some_iff.1 h
    unfold Call.beginNext at hbegin
    split at hbegin
    · obtain rfl := Turn.ask.inj hbegin
      exact .next n listing
    · cases hbegin
  | commit n =>
    obtain ⟨batch, _, hbegin⟩ := Option.map_eq_some_iff.1 h
    unfold Call.beginCommit at hbegin
    split at hbegin
    · cases hbegin
    · obtain rfl := Turn.ask.inj hbegin
      exact .commit n _ _
  | begin | record n key value | pass moment => cases h

/-- What the client calls makes one request, or none. -/
theorem brief_turn? (h : c.turn? scope doing = some turn) : turn.Brief := by
  cases turn with
  | done answer => trivial
  | ask call => cases asks_of_turn? h <;> rfl

/-- Only a put with a time to live gives a value a deadline. -/
theorem times_of_untimed (huntimed : doing.untimed = true) {call : Call}
    (hcall : c.turn? scope doing = some (.ask call)) (key : Key) :
    call.request.times key = false := by
  cases asks_of_turn? hcall with
  | put target value ttl =>
    cases ttl with
    | none => rfl
    | some ttl => cases huntimed
  | _ => rfl

/-- What the client does is to make a call, if it begins with a turn. -/
theorem moves_of_turn? (h : c.turn? scope doing = some turn) :
    c.moves scope doing = c.system.making turn := by
  simp only [moves, h]

/-- Without a call nothing but the time changes. -/
theorem moves_of_no_turn (h : c.turn? scope doing = none) :
    (∃ moment, doing = .pass moment ∧ c.moves scope doing = [.pass moment]) ∨
      (∀ moment, doing ≠ .pass moment) ∧ c.moves scope doing = [] := by
  cases doing with
  | pass moment => exact .inl ⟨moment, rfl, rfl⟩
  | _ => exact .inr ⟨fun _ => Doing.noConfusion, by simp only [moves, h]⟩

/-! ### Steps on a sheltered broker -/

/-- A step of a run is changes of the wiring in order. -/
theorem changes_step (hgenuine : c.system.wiring.Genuine) (st : Step scope) :
    Wiring.Changes c.system.wiring (c.happens st) (c.step st).system.wiring := by
  cases st with
  | own doing =>
    have hchanges := System.changes_moves hgenuine (c.moves scope doing)
    rwa [← system_after] at hchanges
  | other m spares => exact System.changes_move hgenuine m

/-- Steps in order are changes of the wiring in order. -/
theorem changes_steps (hgenuine : c.system.wiring.Genuine) (run : List (Step scope)) :
    Wiring.Changes c.system.wiring (c.happenings run) (c.steps run).system.wiring := by
  induction run generalizing c with
  | nil => exact .nil _
  | cons st rest ih =>
    have hfirst := changes_step hgenuine st
    exact hfirst.trans (ih (hgenuine.changes hfirst))

/-- A broker that runs in the end was running before. -/
theorem running_of_steps (hgenuine : c.system.wiring.Genuine)
    (hrunning : (c.steps run).system.stopped = false) : c.system.stopped = false := by
  cases hstopped : c.system.stopped with
  | false => rfl
  | true =>
    have hsame : (c.steps run).system.stopped = true :=
      (changes_steps hgenuine run).stopped hstopped
    rw [hrunning] at hsame
    cases hsame

/-- A broker that runs at the end has run after the first step. -/
theorem running_of_cons (hgenuine : c.system.wiring.Genuine) {st : Step scope}
    (hrunning : (c.steps (st :: run)).system.stopped = false) :
    (c.step st).system.stopped = false :=
  running_of_steps (hgenuine.changes (changes_step hgenuine st)) hrunning

/-- Every call of the client is answered. -/
theorem isSome_answer? (h : c.system.Shelters scope) (doing : Doing) :
    (c.answer? scope doing).isSome = (c.turn? scope doing).isSome := by
  cases hturn : c.turn? scope doing with
  | none =>
    rw [answer?, hturn]
    rfl
  | some turn =>
    obtain ⟨answer, _, _, hmakes, _⟩ := h.makes (brief_turn? hturn)
    rw [answer?, hturn, Option.bind_some, hmakes.answer]
    rfl

/-- A step keeps a sheltered broker sheltered, and its store goes on. -/
theorem shelters_step (h : c.system.Shelters scope) (st : Step scope)
    (hrunning : (c.step st).system.stopped = false) :
    (c.step st).system.Shelters scope ∧
      c.system.store.Continues (committed (c.happens st)) (c.step st).system.store := by
  cases st with
  | other m spares => exact ⟨h.move spares hrunning, (h.keeps spares).tends.continues h⟩
  | own doing =>
    have hafter : (c.step (.own doing : Step scope)).system =
        c.system.moves (c.moves scope doing) := system_after c scope doing
    rw [hafter, happens_own]
    cases hturn : c.turn? scope doing with
    | some turn =>
      obtain ⟨answer, store, events, hmakes, hcontinues⟩ := h.makes (brief_turn? hturn)
      rw [moves_of_turn? hturn, hmakes.happenings, committed_map, hmakes.store]
      exact ⟨hmakes.shelters h hcontinues, hcontinues⟩
    | none =>
      rcases moves_of_no_turn hturn with ⟨moment, _, hmoves⟩ | ⟨_, hmoves⟩
      · rw [hmoves]
        exact ⟨{ h with }, h.continues_feeds _⟩
      · rw [hmoves]
        exact ⟨h, h.continues_feeds _⟩

/-- So does a run. -/
theorem shelters_steps (h : c.system.Shelters scope)
    (hrunning : (c.steps run).system.stopped = false) : (c.steps run).system.Shelters scope := by
  induction run generalizing c with
  | nil => exact h
  | cons st rest ih =>
    exact ih (shelters_step h st (running_of_cons h.genuine hrunning)).1 hrunning

/-- A subscription that is attended stays so. -/
theorem attended_steps (h : c.system.Shelters scope) (hsound : c.system.wiring.Sound)
    (hpolicy : c.system.wiring.policy = .block)
    (hrunning : (c.steps run).system.stopped = false) {sub : Subscription} {got owed : List Item}
    (hattended : c.system.wiring.Attended sub got owed) :
    (c.steps run).system.wiring.Attended sub (got ++ sub.got (c.happenings run))
      (owed ++ sub.owed (c.happenings run)) := by
  induction run generalizing c got owed with
  | nil => simpa [happenings, steps, Subscription.got, Subscription.owed] using hattended
  | cons st rest ih =>
    have hchanges := changes_step h.genuine st
    obtain ⟨hshelters, hcontinues⟩ := shelters_step h st (running_of_cons h.genuine hrunning)
    obtain ⟨hsound', hpolicy'⟩ := hsound.changes hpolicy hchanges
    have hstep := hattended.changes hsound hpolicy hchanges hcontinues.watched
    have hrest := ih hshelters hsound' hpolicy' hrunning hstep
    rw [List.append_assoc, List.append_assoc, ← sub.got_append, ← sub.owed_append] at hrest
    exact hrest

/-! ### Subscriptions opened in a run -/

/-- The opening of a subscription in a run. -/
structure Opening (settings : Settings) (run : List (Step scope)) where
  early : List (Step scope)
  move : Move
  spares : move.Spares scope
  late : List (Step scope)
  run_eq : run = early ++ .other move spares :: late
  subscription : Subscription
  opened : ((new settings).steps early).system.happens move = [.opened subscription]

namespace Opening

variable {settings : Settings} (o : Opening settings run)

/-- The steps up to the opening. -/
def before : List (Step scope) := o.early ++ [.other o.move o.spares]

/-- What happens after the opening. -/
def happenings : List Happening := ((new settings).steps o.before).happenings o.late

/-- The items received. -/
def got : List Item := o.subscription.got o.happenings

/-- The items that the subscription is to get. -/
def owed : List Item := o.subscription.owes (committed o.happenings)

/-- An opening divides a run into what comes before it and what comes after. -/
theorem run_eq_append : run = o.before ++ o.late := by
  rw [before, List.append_assoc]
  exact o.run_eq

/-- A broker that runs at the end has run at the opening. -/
theorem running (hrunning : ((new settings).steps run).system.stopped = false) :
    ((new settings).steps o.before).system.stopped = false := by
  have hgenuine : (new settings).system.wiring.Genuine := System.genuine_new settings
  rw [o.run_eq_append, steps_append] at hrunning
  exact running_of_steps (hgenuine.changes (changes_steps hgenuine o.before)) hrunning

/-- What a subscription delivers to the end of the run. -/
theorem delivers (hblock : settings.slowPolicy = .block)
    (hrunning : ((new settings).steps run).system.stopped = false) :
    ((new settings).steps run).system.Delivers o.subscription o.got o.owed := by
  let c := (new settings).steps o.early
  let after := (new settings).steps o.before
  have hafter : after = c.step (.other o.move o.spares) := steps_append ..
  have hgenuine : (new settings).system.wiring.Genuine := System.genuine_new settings
  have hearly := changes_steps hgenuine o.early
  obtain ⟨hsound, hpolicy⟩ := (Wiring.sound_new settings).changes hblock hearly
  have hstep : Wiring.Changes c.system.wiring [.opened o.subscription] after.system.wiring := by
    rw [← o.opened, hafter]
    exact System.changes_move (hgenuine.changes hearly) o.move
  have hbefore := o.running hrunning
  have hshelters : after.system.Shelters scope :=
    shelters_steps (System.shelters_new settings scope) hbefore
  have hshelters' : c.system.Shelters scope := by
    refine shelters_steps (System.shelters_new settings scope) ?_
    rw [before, steps_append] at hbefore
    exact running_of_steps (hgenuine.changes hearly) hbefore
  obtain ⟨hsound', hpolicy'⟩ := hsound.changes hpolicy hstep
  have hsplit : [Happening.opened o.subscription] = [] ++ .opened o.subscription :: [] := rfl
  obtain ⟨hstem, hfollows⟩ := hstep.follows_of_opened hsound hpolicy hsplit
  have hmem : .opened o.subscription ∈ c.system.happens o.move := by
    rw [o.opened]
    exact List.mem_cons_self
  have hstands : after.system.Stands o.subscription := hafter ▸ hshelters'.stands_of_opened hmem
  have hattended := hfollows.attended hstands
  have hlast : (new settings).steps run = after.steps o.late := by
    rw [← steps_append, ← o.run_eq_append]
  rw [hlast] at hrunning ⊢
  have hend := attended_steps hshelters hsound' hpolicy' hrunning hattended
  rw [owed, ← Subscription.owed_eq hstem]
  exact System.delivers_of_attended
    (hsound'.changes hpolicy' (changes_steps hshelters.genuine o.late)).1 hend

end Opening

end KeyBroker.Client
