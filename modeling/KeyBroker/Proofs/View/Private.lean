import KeyBroker.Proofs.View.Both

/-!
# Views are private

A client of a view sees what it would see on a broker of its own: let two runs have the
same plan, the one on a shared broker on which others are at work outside the scope of
the view, the other on a broker where nobody else writes. As long as neither broker is
closed or dropped, the client gets the same answers but for revisions. In turn it changes
nothing outside its scope, and what is committed for it there are only deletions of keys
whose time is over, which any call brings about. Without deadlines a subscription of the
view is owed the same events as one on the broker of its own.
-/

namespace KeyBroker

variable {scope view : Key}

/-! ### Runs with the same plan -/

/-- Two runs in which the client does the same, step by step. -/
inductive Aligned : List (Step scope) → List (Step view) → Prop where
  | nil : Aligned [] []
  | left (m : Move) (spares : m.Spares scope) {run : List (Step scope)} {own : List (Step view)}
    (rest : Aligned run own) : Aligned (.other m spares :: run) own
  | right (m : Move) (spares : m.Spares view) {run : List (Step scope)} {own : List (Step view)}
    (rest : Aligned run own) : Aligned run (.other m spares :: own)
  | both (doing : Doing) {run : List (Step scope)} {own : List (Step view)}
    (rest : Aligned run own) : Aligned (.own doing :: run) (.own doing :: own)

/-- Two runs in which the client has the same plan are aligned. -/
theorem aligned_of_plan {run : List (Step scope)} {own : List (Step view)}
    (h : plan run = plan own) : Aligned run own := by
  induction run generalizing own with
  | nil =>
    induction own with
    | nil => exact .nil
    | cons st rest ih =>
      cases st with
      | other m spares => exact .right m spares (ih h)
      | own doing =>
        have hplan : [] = doing :: plan rest := h
        cases hplan
  | cons st rest ih =>
    cases st with
    | other m spares => exact .left m spares (ih h)
    | own doing =>
      -- others come first in the second run, then the same is done
      induction own with
      | nil =>
        have hplan : doing :: plan rest = [] := h
        cases hplan
      | cons st' rest' ih' =>
        cases st' with
        | other m spares => exact .right m spares (ih' h)
        | own doing' =>
          have hplan : doing :: plan rest = doing' :: plan rest' := h
          obtain ⟨rfl, hrest⟩ := List.cons.inj hplan
          exact .both doing (ih hrest)

/-- A run with the same plan splits where the other does. -/
theorem exists_split_of_plan {early late : List (Step scope)} {own : List (Step view)}
    (h : plan (early ++ late) = plan own) :
    ∃ early' late', own = early' ++ late' ∧ plan early = plan early' ∧ plan late = plan late' := by
  have hplan : plan own = plan early ++ plan late := h.symm.trans List.filterMap_append
  obtain ⟨early', late', hown, hearly, hlate⟩ := List.filterMap_eq_append_iff.1 hplan
  exact ⟨early', late', hown, hearly.symm, hlate.symm⟩

/-! ### What is owed -/

/-- An item without its revision. -/
def Item.undated (item : Item) : Item := item.map (·.undated)

/-- Mirrored events are owed alike to subscriptions to the same stem. -/
theorem Subscription.owes_mirrored {sub sub' : Subscription} (hscope : sub.scope = scope)
    (hscope' : sub'.scope = []) (hstem : sub.localStem = sub'.localStem)
    {events events' : List Event}
    (h : Event.Mirrored scope (events.filter fun e => scope.beginsWith e.key) events') :
    (sub.owes events).map Item.undated = (sub'.owes events').map Item.undated := by
  let shown (n : Nat) (event : Event) : Item :=
    .ok { event with revision := 0, key := event.key.drop n }
  have howes (sub : Subscription) (events : List Event) : (sub.owes events).map Item.undated =
      ((events.map (·.undated)).filter fun e =>
        (sub.scope ++ sub.localStem).isPrefixOf e.key).map (shown sub.scope.length) := by
    rw [owes, List.map_map, List.filter_map, List.map_map]
    rfl
  -- a key under the stem is under the scope
  have hunder : sub.owes events = sub.owes (events.filter fun e => scope.beginsWith e.key) := by
    rw [owes, owes, List.filter_filter]
    congr 2
    funext e
    rw [hscope, Bool.eq_self_and]
    intro hstem
    exact Key.beginsWith_iff.2 ((List.prefix_append _ _).trans (List.isPrefixOf_iff_prefix.1 hstem))
  rw [hunder, howes, howes, h, List.filter_map, List.map_map, List.filter_map, List.map_map, hscope,
    hscope', hstem]
  have hshown (event : Event) : shown (List.length scope) (event.inside scope).undated =
      shown (List.length ([] : Key)) event.undated := by
    have hlocal : (scope.qualify event.key).drop (List.length scope) = event.key := List.drop_left
    simp only [shown, Event.inside, Event.undated, hlocal, List.length_nil, List.drop_zero]
  have hsame (event : Event) : (scope ++ sub'.localStem).isPrefixOf (scope.qualify event.key) =
      sub'.localStem.isPrefixOf event.key := Key.beginsWith_qualify_qualify scope _ _
  exact congr (congrArg List.map (funext hshown)) (congrArg (List.filter · events') (funext hsame))

namespace Client

variable {c c' : Client} {run : List (Step scope)} {own : List (Step [])}

/-- No value under the scope has a deadline, and none at all on the client's own broker. -/
structure Timeless (scope : Key) (c c' : Client) : Prop where
  through : ∀ key, c.system.store.ledger.Timeless (scope.qualify key)
  direct : ∀ key, c'.system.store.ledger.Timeless key

namespace Mirrors

/-- In runs with the same plan both clients come equally far and see the same. -/
theorem steps (h : Mirrors scope c c') (haligned : Aligned run own)
    (hrunning : (c.steps run).system.stopped = false)
    (hrunning' : (c'.steps own).system.stopped = false) :
    Mirrors scope (c.steps run) (c'.steps own) ∧ c.sees run = c'.sees own := by
  induction haligned generalizing c c' with
  | nil => exact ⟨h, rfl⟩
  | left m spares rest ih =>
    exact ih (h.left spares (running_of_cons h.shelters.genuine hrunning)) hrunning hrunning'
  | right m spares rest ih =>
    exact ih (h.right spares (running_of_cons h.shelters'.genuine hrunning')) hrunning hrunning'
  | both doing rest ih =>
    obtain ⟨hafter, hseen, _⟩ := h.own doing
    obtain ⟨hlast, hsees⟩ := ih hafter hrunning hrunning'
    refine ⟨hlast, ?_⟩
    simp only [sees, hseen, hsees]

/-- Without deadlines the same is committed under the scope in runs with the same plan, and no
deadlines come up. -/
theorem committed_steps (h : Mirrors scope c c') (htimeless : Timeless scope c c')
    (haligned : Aligned run own) (huntimed : ∀ doing ∈ plan run, doing.untimed = true)
    (hrunning : (c.steps run).system.stopped = false)
    (hrunning' : (c'.steps own).system.stopped = false) :
    Timeless scope (c.steps run) (c'.steps own) ∧
      Event.Mirrored scope
        ((committed (c.happenings run)).filter fun e => scope.beginsWith e.key)
        (committed (c'.happenings own)) := by
  -- along the alignment: the clients mirror each other, and no value has a deadline
  induction haligned generalizing c c' with
  | nil => exact ⟨htimeless, rfl⟩
  | @left m spares run own rest ih =>
    obtain ⟨hlasting, hquiet⟩ := h.shelters.quiet spares htimeless.through
    obtain ⟨hlast, hrest⟩ := ih (h.left spares (running_of_cons h.shelters.genuine hrunning))
      ⟨hlasting, htimeless.direct⟩ huntimed hrunning hrunning'
    refine ⟨hlast, ?_⟩
    have hhappens : c.happens (.other m spares) = c.system.happens m := rfl
    rw [happenings, committed_append, List.filter_append, hhappens, hquiet]
    exact hrest
  | right m spares rest ih =>
    obtain ⟨hlasting, hquiet⟩ := h.shelters'.quiet spares htimeless.direct
    obtain ⟨hlast, hrest⟩ := ih (h.right spares (running_of_cons h.shelters'.genuine hrunning'))
      ⟨htimeless.through, hlasting⟩ huntimed hrunning hrunning'
    refine ⟨hlast, ?_⟩
    have hnothing : committed (c'.happens (.other m spares)) = [] := by
      rw [← hquiet]
      exact (List.filter_eq_self.2 fun _ _ => rfl).symm
    rw [happenings, committed_append, hnothing]
    exact hrest
  -- only what the client does commits anything under the scope, and it commits the same in both
  | both doing rest ih =>
    obtain ⟨hafter, _, hdoubles⟩ := h.own doing
    obtain ⟨hlasting, hlasting'⟩ := hdoubles.timeless h.ledgers htimeless.through htimeless.direct
      fun call hcall => times_of_untimed (huntimed doing List.mem_cons_self)
        (turn_of_call? hcall)
    obtain ⟨hlast, hrest⟩ := ih hafter ⟨hlasting, hlasting'⟩
      (fun d hd => huntimed d (List.mem_cons_of_mem _ hd)) hrunning hrunning'
    refine ⟨hlast, ?_⟩
    rw [happenings, happenings, committed_append, committed_append, List.filter_append]
    exact (hdoubles.mirrored h.ledgers htimeless.through htimeless.direct).append hrest

end Mirrors

/-! ### From the beginning -/

/-- The clients of two new brokers have come equally far. -/
theorem mirrors_new (settings : Settings) (scope : Key) :
    Mirrors scope (new settings) (new settings) where
  shelters := System.shelters_new settings scope
  shelters' := System.shelters_new settings []
  settings := rfl
  now := rfl
  ledgers :=
    { bounded := (System.shelters_new settings scope).bounded
      bounded' := (System.shelters_new settings scope).bounded
      holdings := fun _ => rfl }
  kept :=
    { listings := ⟨[], rfl, rfl, fun _ hpair => absurd hpair List.not_mem_nil⟩
      batches := rfl
      named := fun _ hbatch => absurd hbatch List.not_mem_nil }

/-- On a new broker no value has a deadline. -/
theorem timeless_new (settings : Settings) (scope : Key) :
    Timeless scope (new settings) (new settings) where
  through _ _ hget := by cases hget
  direct _ _ hget := by cases hget

variable {settings : Settings}

/-- Subscriptions to the same stem that are opened at the same point of a plan without deadlines
are owed the same. -/
theorem Opening.owed_mirrored (o : Opening settings run) (o' : Opening settings own)
    (hplan : plan run = plan own) (hlate : plan o.late = plan o'.late)
    (hscope : o.subscription.scope = scope) (hscope' : o'.subscription.scope = [])
    (hstem : o.subscription.localStem = o'.subscription.localStem)
    (huntimed : ∀ doing ∈ plan run, doing.untimed = true)
    (hrunning : ((new settings).steps run).system.stopped = false)
    (hrunning' : ((new settings).steps own).system.stopped = false) :
    o.owed.map Item.undated = o'.owed.map Item.undated := by
  have hsplit : plan run = plan o.before ++ plan o.late :=
    (congrArg plan o.run_eq_append).trans List.filterMap_append
  have hsplit' : plan own = plan o'.before ++ plan o'.late :=
    (congrArg plan o'.run_eq_append).trans List.filterMap_append
  have hbefore : plan o.before = plan o'.before := by
    rw [hsplit, hsplit', hlate] at hplan
    exact List.append_cancel_right hplan
  have hopen := o.running hrunning
  have hopen' := o'.running hrunning'
  obtain ⟨hmirrors, _⟩ := (mirrors_new settings scope).steps (aligned_of_plan hbefore) hopen hopen'
  obtain ⟨htimeless, _⟩ := (mirrors_new settings scope).committed_steps
    (timeless_new settings scope) (aligned_of_plan hbefore)
    (fun doing hdoing => huntimed doing (hsplit ▸ List.mem_append_left _ hdoing)) hopen hopen'
  rw [o.run_eq_append, steps_append] at hrunning
  rw [o'.run_eq_append, steps_append] at hrunning'
  obtain ⟨_, hmirrored⟩ := hmirrors.committed_steps htimeless (aligned_of_plan hlate)
    (fun doing hdoing => huntimed doing (hsplit ▸ List.mem_append_right _ hdoing))
    hrunning hrunning'
  exact Subscription.owes_mirrored hscope hscope' hstem hmirrored

/-- A view is private. Let two runs have the same plan, one on a broker that others use outside
the scope of the view, and one on a broker that nobody else writes to, and let neither broker
be closed or dropped. Then every call of the client of the view is answered, and it sees what
the other client sees. Outside the scope what it does commits only deletions of keys whose time
is over, keys hold what they held, and those whose time is not over keep all their versions.
Under the blocking policy and without times to live, subscriptions to the same stem that are
opened at the same point deliver the same events, but for revisions. -/
theorem view_is_private (settings : Settings) (scope : Key) (run : List (Step scope))
    (own : List (Step [])) (hplan : plan run = plan own)
    (hrunning : ((new settings).steps run).system.stopped = false)
    (hrunning' : ((new settings).steps own).system.stopped = false) :
    (new settings).sees run = (new settings).sees own ∧
    (∀ early doing late, run = early ++ .own doing :: late →
      let c := (new settings).steps early
      let overdue := c.system.store.ledger.expired c.system.instant
      let after := c.after scope doing
      (c.answer? scope doing).isSome = (c.turn? scope doing).isSome ∧
      (∀ event ∈ committed (c.happens (.own doing : Step scope)),
        scope.beginsWith event.key = true ∨ event.key ∈ overdue ∧ event.kind = .delete) ∧
      ∀ key, scope.beginsWith key = false →
        after.system.store.ledger.holdings c.system.instant key =
          c.system.store.ledger.holdings c.system.instant key ∧
        (key ∉ overdue →
          after.system.store.ledger.versions key = c.system.store.ledger.versions key)) ∧
    (settings.slowPolicy = .block → (∀ doing ∈ plan run, doing.untimed = true) →
      ∀ (o : Opening settings run) (o' : Opening settings own), plan o.late = plan o'.late →
        o.subscription.scope = scope → o'.subscription.scope = [] →
        o.subscription.localStem = o'.subscription.localStem →
        ((new settings).steps run).system.Delivers o.subscription o.got o.owed ∧
        ((new settings).steps own).system.Delivers o'.subscription o'.got o'.owed ∧
        o.owed.map Item.undated = o'.owed.map Item.undated) := by
  refine ⟨?_, ?_, fun hblock huntimed o o' hlate hscope hscope' hstem => ?_⟩
  · exact ((mirrors_new settings scope).steps (aligned_of_plan hplan) hrunning hrunning').2
  · intro early doing late hsplit
    rw [hsplit] at hplan hrunning
    obtain ⟨early', late', rfl, hearly, _⟩ := exists_split_of_plan hplan
    have hgenuine : (new settings).system.wiring.Genuine := System.genuine_new settings
    rw [steps_append] at hrunning hrunning'
    obtain ⟨hmirrors, _⟩ := (mirrors_new settings scope).steps (aligned_of_plan hearly)
      (running_of_steps (hgenuine.changes (changes_steps hgenuine early)) hrunning)
      (running_of_steps (hgenuine.changes (changes_steps hgenuine early')) hrunning')
    obtain ⟨_, _, hdoubles⟩ := hmirrors.own doing
    exact ⟨isSome_answer? hmirrors.shelters doing, fun event hevent => hdoubles.under hevent,
      fun key hforeign => ⟨hdoubles.holdings hmirrors.ledgers.bounded hforeign,
        hdoubles.versions hforeign⟩⟩
  · exact ⟨o.delivers hblock hrunning, o'.delivers hblock hrunning',
      o.owed_mirrored o' hplan hlate hscope hscope' hstem huntimed hrunning hrunning'⟩

/-- A view of `p` is used and watched while others put and delete `q`. -/
theorem view_is_private_beside_others :
    let watch (scope : Key) : List (Step scope) := [.other (.openChannel 8 false) trivial,
      .other (.launch (.ask (.watch scope [] 0)) false) ⟨fun _ _ => rfl, Service.noConfusion⟩]
    let late : List (Step ['p']) := [.own (.put ['a'] [1] none),
      .other (.ask (.put ['q'] [2] none)) ⟨Request.spares_put_iff.2 rfl, Service.noConfusion⟩,
      .own (.get ['a']),
      .other (.ask (.delete ['q'] true))
        ⟨Request.spares_deletePrefix_iff.2 ⟨rfl, rfl⟩, Service.noConfusion⟩,
      .own (.deletePrefix [])]
    let late' : List (Step []) := [.own (.put ['a'] [1] none), .own (.get ['a']),
      .own (.deletePrefix [])]
    let run := watch ['p'] ++ .other (.poll (.call 0) false) trivial :: late
    let own := watch [] ++ .other (.poll (.call 0) false) trivial :: late'
    let sub (scope : Key) : Subscription :=
      { id := 1, localStem := [], stem := scope, scope, channel := 0, feed := 0 }
    let o : Opening {} run :=
      ⟨watch ['p'], .poll (.call 0) false, trivial, late, rfl, sub ['p'], rfl⟩
    let o' : Opening {} own :=
      ⟨watch [], .poll (.call 0) false, trivial, late', rfl, sub [], rfl⟩
    plan run = plan own ∧ ((new {}).steps run).system.stopped = false ∧
      ((new {}).steps own).system.stopped = false ∧
      (∀ doing ∈ plan run, doing.untimed = true) ∧ (new {}).sees run = (new {}).sees own ∧
      o.owed.map Item.undated = o'.owed.map Item.undated := by
  intro watch late late' run own sub o o'
  have hrunning : ((new {}).steps run).system.stopped = false := by decide +kernel
  have hrunning' : ((new {}).steps own).system.stopped = false := by decide +kernel
  have huntimed : ∀ doing ∈ plan run, doing.untimed = true := by decide +kernel
  obtain ⟨hsees, _, hdelivers⟩ := view_is_private {} ['p'] run own rfl hrunning hrunning'
  exact ⟨rfl, hrunning, hrunning', huntimed, hsees,
    (hdelivers rfl huntimed o o' rfl rfl rfl rfl).2.2⟩

/-- A call through a view lets go of a foreign key whose time is over, and tells of it; and a view
of a broker that someone has closed does not behave as one of a broker of its own. -/
theorem view_sweeps_foreign_key :
    let early : List (Step ['p']) := [.other (.ask (.put ['x'] [1] (some (.ofMillis 5))))
      ⟨Request.spares_put_iff.2 rfl, Service.noConfusion⟩, .own (.pass 10)]
    let c := (new {}).steps early
    let closed : Client :=
      { system := System.moves { settings := {} } [.close false, .poll (.call 0) false] }
    (∃ event ∈ committed (c.happens (.own (.get ['k']) : Step ['p'])),
      Key.beginsWith ['p'] event.key = false ∧ event.kind = .delete) ∧
    (closed.answer? ['p'] (.get ['k'])).map (·.seen) = some (.failed .closed) ∧
    ((new {}).answer? [] (.get ['k'])).map (·.seen) = some (.pair none) := by
  refine ⟨?_, by decide +kernel, by decide +kernel⟩
  exact ⟨_, List.mem_cons_self, rfl, rfl⟩

end Client

end KeyBroker
