import KeyBroker.Proofs.Following.Follow
import KeyBroker.Proofs.Register.Leaving
import KeyBroker.Proofs.System.Polls
import KeyBroker.Proofs.System.Shelter

/-!
# A copy of every event

Every native watch that stands has a feed of its own, and every event under its stem that the
store commits is put there, once and in the order of the commits. How the dispatcher behind the
feed is doing, and under which policy it works, makes no difference, as long as it has not ended.
-/

namespace KeyBroker

/-- The signals that a subscription is to get on its feed for events. -/
def Subscription.streams (sub : Subscription) (events : List Event) : List Signal :=
  (events.filter fun e => sub.stem.beginsWith e.key).map .ok

/-- The signals for events in two parts are those for the one, then those for the other. -/
theorem Subscription.streams_append (sub : Subscription) (events more : List Event) :
    sub.streams (events ++ more) = sub.streams events ++ sub.streams more := by
  simp [streams]

/-- If a watch stands after a request, it has got the events of the request under its stem. -/
theorem Store.Watched.serve_of_stands {s : Store} {n : Nat} {stem : Key} (h : s.Watched n stem)
    (now : Nat) {service : Service} (request : Request service)
    (hstands : { feed := n, stem } ∈ (s.serve now request).store.watchers) :
    (s.serve now request).store.Watched n stem ∧
      ((s.serve now request).store.feed n).queue =
        (s.feed n).queue ++
          ((s.events now request).filter fun e => stem.beginsWith e.key).map .ok := by
  by_cases hclose : service = .close
  · subst hclose
    let .close := request
    cases hclosed : s.closed with
    | true =>
      rw [serve_close_of_closed now hclosed]
      have hnone : s.events now .close = [] := ite_self _
      rw [hnone]
      exact ⟨h, (List.append_nil _).symm⟩
    | false =>
      have hserve : s.serve now .close = s.perform now .close :=
        serve_of_answers now rfl fun _ => hclosed
      rw [hserve] at hstands
      cases hstands
  · exact h.serve now request hclose

namespace System

variable {s : System} {es : List Episode} {m : Move} {d : Dispatcher} {n : Nat} {stem : Key}

/-! ### The store in one move -/

/-- What a move may make of the store, and the events that are committed in it, if no dispatcher
takes a step. -/
inductive Commits (s : System) : Store → List Event → Prop where
  | same : Commits s s.store []
  | serves {service : Service} (request : Request service) :
    Commits s (s.store.serve s.instant request).store (s.store.events s.instant request)
  | compacts (revision : Nat) : Commits s (s.store.compact revision) []
  | turns (available : Bool) : Commits s (s.store.setAvailable available) []
  /-- The reader of the feed is no dispatcher. -/
  | reads (n : Nat) (f : Feed → Feed) (free : s.dispatches n = false) :
    Commits s (s.store.onFeed n f) []

/-- Bringing a call to its next turn leaves the store alone. -/
theorem store_proceed (d : Desk) (c : InFlight) (turn : Turn) :
    (d.proceed c turn).store = d.store := by
  cases turn <;> rfl

/-- A poll of a call makes of the store what its request makes of it, and commits the events that
the request commits. -/
theorem commits_pollCall (hgenuine : s.wiring.Genuine) (id : Nat) (reportFirst : Bool) :
    s.Commits (s.pollCall id).store (committed (s.happens (.poll (.call id) reportFirst))) := by
  simp only [happens]
  cases hfind : s.calls.find? fun c => decide (c.id = id) with
  | none =>
    rw [pollCall_of_gone hfind]
    exact .same
  | some c =>
    have hpolled := polled_pollCall hgenuine hfind
    generalize s.pollCall id = after at hpolled
    simp only [Option.elim_some]
    cases hpolled with
    | idle quiet =>
      rw [quiet]
      exact .same
    | waits script fewer due quiet =>
      rw [quiet]
      exact .same
    | fails script fewer journal error quiet =>
      have hstore := congrArg Desk.store
        (desk_conclude { s with script, journal } c (.error error))
      rw [store_proceed] at hstore
      have hsame : (conclude { s with script, journal } c (.error error)).store = s.store := hstore
      rw [quiet, hsame]
      exact .same
    | acts script fewer started acts =>
      obtain ⟨turn, hdesk, -⟩ := desk_act { s with script } c started
      have hstore := congrArg Desk.store hdesk
      rw [store_proceed] at hstore
      have hserved : (act { s with script } c started).store =
        (s.store.serve s.instant c.call.request).store := hstore
      rw [if_pos acts, hserved, committed_comesOf]
      exact .serves c.call.request

/-- A move in which no dispatcher takes a step does at most one thing to the store. -/
theorem commits_move (hgenuine : s.wiring.Genuine)
    (hnone : s.stepper? (.occur (.move m)) = none) :
    s.Commits (s.move m).store (committed (s.happens m)) := by
  have hsame {t : System} (hstore : t.store = s.store) : s.Commits t.store [] := by
    rw [hstore]
    exact .same
  -- somebody else reads or leaves a feed only if no dispatcher has it
  have hfeed (n : Nat) (f : Feed → Feed) :
      s.Commits (if s.dispatches n then s
        else { s with store := s.store.onFeed n f }).store [] := by
    cases hreads : s.dispatches n with
    | true => exact .same
    | false => exact .reads n f hreads
  cases m with
  | poll worker reportFirst =>
    cases worker with
    | call id => exact commits_pollCall hgenuine id reportFirst
    | dispatcher id =>
      refine hsame ?_
      simp only [move]
      cases hfind : s.dispatcher? id with
      | none => simp only [pollDispatcher, hfind]
      | some d =>
        -- a dispatcher that is polled and takes no step has no credit left
        have hcredit : d.credit = 0 := by simpa [stepper?, hfind, Option.filter] using hnone
        simp only [pollDispatcher, hfind, if_pos hcredit]
        rfl
  | launch turn holdsBroker =>
    exact hsame (congrArg Wiring.store (wiring_launch s turn holdsBroker))
  | take call =>
    refine hsame ?_
    simp only [move, takeAnswer]
    cases s.finished.find? _ <;> rfl
  | close holdsBroker =>
    refine hsame ?_
    have hstore := congrArg Wiring.store (wiring_launch s.beginClose.1 s.beginClose.2 holdsBroker)
    exact hstore.trans (congrArg Desk.store (desk_beginClose s))
  | release => exact hsame (congrArg Desk.store (desk_release s))
  | note notices => exact hsame (congrArg Desk.store (desk_noteAll s notices))
  | ask request =>
    have hstore : (s.serveDirectly request).1.store = (s.store.serve s.instant request).store :=
      congrArg Desk.store (desk_wakeReaders _ _)
    simp only [move, hstore, happens, committed_map]
    exact .serves request
  | compact revision => exact .compacts revision
  | setAvailable available =>
    have hstore := congrArg Desk.store (desk_setAvailable s available)
    have hturned : (s.setAvailable available).store = s.store.setAvailable available := hstore
    simp only [move, hturned]
    exact .turns available
  | openChannel capacity held =>
    exact hsame (congrArg Desk.store (desk_openChannel s capacity held))
  | receive n =>
    have hquiet : committed (s.receives n) = [] := by
      unfold receives
      split <;> rfl
    simp only [happens, hquiet]
    exact hsame (congrArg Desk.store (desk_receive s n))
  | dropReceiver n => exact hsame (congrArg Desk.store (desk_wakeAll _ _))
  | unsubscribe id => exact hsame (congrArg Desk.store (desk_unsubscribe s id))
  | readFeed n => exact hfeed n _
  | leaveFeed n => exact hfeed n _
  | _ => exact .same

/-- A watch that still stands after a move has got the events that were committed under its
stem. -/
theorem Commits.watched {store : Store} {events : List Event} (h : s.Commits store events)
    (hwatched : s.store.Watched n stem) (hread : s.dispatches n = true)
    (hstands : { feed := n, stem } ∈ store.watchers) :
    store.Watched n stem ∧ (store.feed n).queue =
      (s.store.feed n).queue ++ (events.filter fun e => stem.beginsWith e.key).map .ok := by
  cases h with
  | same => exact ⟨hwatched, (List.append_nil _).symm⟩
  | serves request => exact hwatched.serve_of_stands s.instant request hstands
  | compacts revision => exact ⟨{ hwatched with }, (List.append_nil _).symm⟩
  | turns available =>
    cases available with
    | true => exact ⟨{ hwatched with }, (List.append_nil _).symm⟩
    | false => cases hstands
  | reads k f free =>
    have hne : k ≠ n := fun heq => Bool.noConfusion ((heq ▸ free).symm.trans hread)
    have hfeed := Store.feed_onFeed_of_ne (s := s.store) hne f
    rw [hfeed]
    exact ⟨hwatched.onFeed k fun heq => absurd heq hne, (List.append_nil _).symm⟩

/-! ### The subscription in one move -/

/-- The watch of a subscription goes on, and nothing is lost, while it gets events. -/
theorem Working.of_streams {d d' : Dispatcher} {store : Store} {events : List Event}
    (h : d.Working s.store) (hsub : d'.subscription = d.subscription)
    (hphase : d'.phase = d.phase)
    (hwatched : store.Watched d.subscription.feed d.subscription.stem)
    (hqueue : (store.feed d.subscription.feed).queue =
      (s.store.feed d.subscription.feed).queue ++ d.subscription.streams events) :
    d'.Working store := by
  refine ⟨hsub ▸ hwatched, ?_, hphase ▸ h.phase⟩
  rw [hsub]
  rintro (hfed | ⟨e, he⟩)
  · exact Bool.noConfusion (hfed.symm.trans hwatched.fed)
  · rw [hqueue] at he
    rcases List.mem_append.1 he with he | he
    · exact h.intact (.inr ⟨e, he⟩)
    · obtain ⟨event, -, heq⟩ := List.mem_map.1 he
      cases heq

/-- A move in which no dispatcher takes a step puts on a feed what is committed under the stem of
its watch, as long as this stands. -/
theorem working_move_of_none (hgenuine : s.wiring.Genuine) (hsupplied : s.Supplied es)
    (hd : d ∈ s.dispatchers) (hworking : d.Working s.store)
    (hstepper : s.stepper? (.occur (.move m)) = none) (hstands : (s.move m).Stands d.subscription) :
    (∃ d' ∈ (s.move m).dispatchers,
      d'.subscription = d.subscription ∧ d'.Working (s.move m).store) ∧
    s.pouredBy d.subscription.feed (.occur (.move m)) =
      d.subscription.streams (committed (s.happens m)) := by
  have hread : s.dispatches d.subscription.feed = true :=
    List.any_eq_true.2 ⟨d, hd, decide_eq_true rfl⟩
  obtain ⟨hwatched, hqueue⟩ :=
    (commits_move hgenuine hstepper).watched hworking.watched hread hstands
  obtain ⟨new, ⟨f, hdispatchers, hf⟩, -⟩ := (hsupplied.toKept.meanwhile_move hstepper).dispatchers
  have hmem : f d ∈ (s.move m).wiring.dispatchers := by
    rw [hdispatchers]
    exact List.mem_append_left _ (List.mem_map_of_mem hd)
  have hlike := (hf d hd).1
  refine ⟨⟨f d, hmem, hlike.subscription, ?_⟩, ?_⟩
  · exact Working.of_streams hworking hlike.subscription hlike.phase hwatched hqueue
  · have hqueue' : ((s.incur (.occur (.move m))).store.feed d.subscription.feed).queue = _ :=
      hqueue
    rw [pouredBy, hqueue', List.drop_left]
    rfl

/-- Nothing that concerns subscribers happens in a move in which a dispatcher takes a step. -/
theorem happens_of_stepper {step : Dispatcher × Bool}
    (hstepper : s.stepper? (.occur (.move m)) = some step) : s.happens m = [] := by
  unfold stepper? at hstepper
  split at hstepper
  · next heq =>
    cases heq
    rfl
  · cases hstepper

/-- A step of some dispatcher puts nothing on a feed, and the dispatcher of a subscription that
is still registered goes on. -/
theorem working_move_of_some (hsupplied : s.Supplied es) (hd : d ∈ s.dispatchers)
    (hworking : d.Working s.store) (hregistered : d.subscription.id ∈ (s.move m).registered)
    {e : Dispatcher} {reportFirst : Bool}
    (hstepper : s.stepper? (.occur (.move m)) = some (e, reportFirst)) :
    (∃ d' ∈ (s.move m).dispatchers,
      d'.subscription = d.subscription ∧ d'.Working (s.move m).store) ∧
    s.pouredBy d.subscription.feed (.occur (.move m)) = [] := by
  obtain ⟨he, hwiring⟩ := wiring_of_stepper hstepper
  have hmoved : (s.move m).wiring = s.wiring.dispatch e reportFirst := hwiring
  have hstore : (s.move m).store = (s.wiring.dispatch e reportFirst).store :=
    congrArg Wiring.store hmoved
  have hdispatchers : (s.move m).dispatchers = (s.wiring.dispatch e reportFirst).dispatchers :=
    congrArg Wiring.dispatchers hmoved
  by_cases hid : e.subscription.id = d.subscription.id
  · obtain rfl := hsupplied.eq_of_id he hd hid
    have hgoes : (s.wiring.stepOf e reportFirst).pace ≠ .over := fun hover => by
      have hlisted : e.subscription.id ∈ (s.wiring.dispatch e reportFirst).registered :=
        congrArg Wiring.registered hmoved ▸ hregistered
      rw [Wiring.registered_dispatch, if_pos hover] at hlisted
      exact (hsupplied.exact.distinct.mem_erase_iff.1 hlisted).1 rfl
    obtain ⟨hsub, -⟩ := Wiring.stepOf_dispatcher s.wiring e reportFirst
    refine ⟨⟨_, ?_, hsub, ?_⟩, pouredBy_of_step hstepper hworking.watched.opened⟩
    · exact hdispatchers ▸ Wiring.mem_dispatch_self he hgoes
    · exact hstore ▸ (Wiring.working_dispatch_self hworking hgoes).1
  · have hfeed : e.subscription.feed ≠ d.subscription.feed := fun heq =>
      hid (congrArg (·.subscription.id)
        (Wiring.eq_of_nodup (f := fun sub => sub.feed) hsupplied.supplied.feeds he hd heq))
    obtain ⟨hwatched, hsame⟩ :=
      Wiring.watched_dispatch_of_ne (w := s.wiring) hworking.watched hfeed reportFirst
    rw [← hstore] at hwatched hsame
    have hintact : (s.move m).store.feed d.subscription.feed =
      s.store.feed d.subscription.feed := hsame
    refine ⟨⟨d, ?_, rfl, hwatched, hintact ▸ hworking.intact, hworking.phase⟩, ?_⟩
    · exact hdispatchers ▸ Wiring.mem_dispatch_of_mem hd reportFirst (Ne.symm hid)
    · have hafter : (s.incur (.occur (.move m))).store.feed d.subscription.feed =
        s.store.feed d.subscription.feed := hsame
      rw [pouredBy, hafter, List.drop_length]

/-- While a subscription is registered and its watch stands, its feed gets the events that are
committed under its stem in a move, whatever its dispatcher does. -/
theorem working_move (hgenuine : s.wiring.Genuine) (hsupplied : s.Supplied es)
    (hd : d ∈ s.dispatchers) (hworking : d.Working s.store)
    (hregistered : d.subscription.id ∈ (s.move m).registered)
    (hstands : (s.move m).Stands d.subscription) :
    (∃ d' ∈ (s.move m).dispatchers,
      d'.subscription = d.subscription ∧ d'.Working (s.move m).store) ∧
    s.pouredBy d.subscription.feed (.occur (.move m)) =
      d.subscription.streams (committed (s.happens m)) := by
  cases hstepper : s.stepper? (.occur (.move m)) with
  | none => exact working_move_of_none hgenuine hsupplied hd hworking hstepper hstands
  | some step =>
    rw [happens_of_stepper hstepper]
    exact working_move_of_some hsupplied hd hworking hregistered hstepper

/-! ### Runs -/

/-- A move as one of the incidents that there are. -/
def asIncidents (run : List Move) : List Incident := run.map fun m => .occur (.move m)

/-- Moves come to the same when they are taken as incidents. -/
theorem incurs_asIncidents (s : System) (run : List Move) :
    s.incurs (asIncidents run) = s.moves run :=
  List.foldl_map

/-- A subscription that is registered was so before, if its number was given out by then. -/
theorem registered_of_later (run : List Incident) (hkept : s.Kept es)
    (hn : n < s.nextSubscription) (hlater : n ∈ (s.incurs run).registered) :
    n ∈ s.registered := by
  refine Decidable.byContradiction fun hunlisted => ?_
  have hoff : s.books.Off n 3 := ⟨hn, hunlisted, fun d _ _ => d.rounds_le⟩
  exact (off_incurs hkept hoff run).unlisted hlater

/-- In a run every native watch is an old one, or sends to a feed opened in the run. -/
theorem onlyNew_moves (hgenuine : s.wiring.Genuine) (run : List Move) :
    Store.OnlyNew s.store (s.moves run).store := by
  have honly {w w' : Wiring} {hs : List Happening} (h : Wiring.Changes w hs w') :
      Store.OnlyNew w.store w'.store := by
    induction h with
    | nil => exact .refl _
    | cons first _ ih => exact first.onlyNew.trans ih
  exact honly (changes_moves hgenuine run)

/-- A watch that stands stood before, if its feed was open by then. -/
theorem stands_of_later (hgenuine : s.wiring.Genuine) {sub : Subscription}
    (hopened : sub.feed < s.store.feeds.length) {run : List Move}
    (hlater : (s.moves run).Stands sub) : s.Stands sub :=
  Classical.byContradiction fun hnone =>
    (onlyNew_moves hgenuine run).not_mem hnone hopened hlater

/-- While a subscription is registered and its watch stands, its feed gets all events that are
committed under its stem. -/
theorem working_moves (hgenuine : s.wiring.Genuine) (hsupplied : s.Supplied es)
    (hd : d ∈ s.dispatchers) (hworking : d.Working s.store) (run : List Move)
    (hregistered : d.subscription.id ∈ (s.moves run).registered)
    (hstands : (s.moves run).Stands d.subscription) :
    (∃ d' ∈ (s.moves run).dispatchers,
      d'.subscription = d.subscription ∧ d'.Working (s.moves run).store) ∧
    s.poured d.subscription.feed (asIncidents run) =
      d.subscription.streams (committed (s.happenings run)) := by
  induction run generalizing s es d with
  | nil => exact ⟨⟨d, hd, rfl, hworking⟩, rfl⟩
  | cons m run ih =>
    have hgenuine' : (s.move m).wiring.Genuine := genuine_moves hgenuine [m]
    have hsupplied' : (s.move m).Supplied (es ++ s.befalls (.occur (.move m))) :=
      hsupplied.incur (.occur (.move m))
    have hnumber := hsupplied.exact.fresh d hd
    have hnumber' : d.subscription.id < (s.move m).nextSubscription :=
      Nat.lt_of_lt_of_le hnumber (hsupplied.toKept.course (.occur (.move m))).next_le
    have hlater : d.subscription.id ∈ ((s.move m).incurs (asIncidents run)).registered := by
      rw [incurs_asIncidents]
      exact hregistered
    -- who is registered at the end was registered all along, and a watch that stands at the end
    -- stood all along, so the step lemma applies at each move
    have hnow := registered_of_later (asIncidents run) hsupplied'.toKept hnumber' hlater
    have hgrows : d.subscription.feed < (s.move m).store.feeds.length :=
      Nat.lt_of_lt_of_le hworking.watched.opened (onlyNew_moves hgenuine [m]).grows
    have hstands' := stands_of_later hgenuine' hgrows hstands
    obtain ⟨⟨d', hd', hsub, hworking'⟩, hpoured⟩ :=
      working_move hgenuine hsupplied hd hworking hnow hstands'
    rw [← hsub] at hregistered hstands
    obtain ⟨hworks, hrest⟩ := ih hgenuine' hsupplied' hd' hworking' hregistered hstands
    rw [hsub] at hworks hrest
    refine ⟨hworks, ?_⟩
    rw [happenings, committed_append, Subscription.streams_append, ← hpoured, ← hrest]
    rfl

end System

end KeyBroker
