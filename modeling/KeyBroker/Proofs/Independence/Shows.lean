import KeyBroker.Proofs.Independence.Core

/-!
# A subscriber and its core

A subscriber among others shows a core if the broker is in good order and has the settings,
the time, the keys and the outlet of the core. What others do leaves the core that is shown,
or takes it a step of the dispatcher further.
-/

namespace KeyBroker.Subscriber

/-- What there is of the subscription of a subscriber, if there is one. -/
inductive Has (a : Subscriber) : Option Outlet → Prop where
  | nothing (unplaced : a.place? = none) : Has a none
  | outlet {id n : Nat} {o : Outlet} (place : a.place? = some (id, n))
    (holds : a.system.wiring.Holds id n o) : Has a (some o)

/-- The subscriber shows the core. -/
structure Shows (a : Subscriber) (c : Core) : Prop where
  tidy : a.Tidy
  settings : a.system.settings = c.settings
  now : a.system.now = c.now
  ledger : a.system.store.ledger = c.ledger
  has : a.Has c.outlet?

variable {a b : Subscriber} {c c' : Core} {run : List Move}

/-- What is done to the wiring goes for the outlet. -/
theorem Has.map {outlet? : Option Outlet} {f : Outlet → Outlet} (h : a.Has outlet?)
    (hplace : b.place? = a.place?)
    (hf : ∀ {id n o}, a.place? = some (id, n) → a.system.wiring.Holds id n o →
      b.system.wiring.Holds id n (f o)) : b.Has (outlet?.map f) := by
  cases h with
  | nothing unplaced => exact .nothing (hplace.trans unplaced)
  | outlet place holds => exact .outlet (hplace.trans place) (hf place holds)

/-- What there is of a subscription is read off the wiring. -/
theorem Has.of_wiring {outlet? : Option Outlet} (h : a.Has outlet?) (hplace : b.place? = a.place?)
    (hwiring : b.system.wiring = a.system.wiring) : b.Has outlet? := by
  have hmap := h.map (f := id) hplace fun _ holds => hwiring ▸ holds
  rwa [Option.map_id] at hmap

/-- A new broker is tidy. -/
theorem tidy_new (settings : Settings) : (new settings).Tidy where
  prompt := ⟨rfl, System.booked_new settings, rfl⟩
  reachable := rfl
  sound := Wiring.sound_new settings
  calls _ hc := nomatch hc
  channels _ hd := nomatch hd

/-- The subscriber on a new broker shows the core of a new broker. -/
theorem shows_new (settings : Settings) : (new settings).Shows (.new settings) where
  tidy := tidy_new settings
  settings := rfl
  now := rfl
  ledger := rfl
  has := .nothing rfl

/-! ### What others do -/

/-- Things that happen besides are moves of the system. -/
theorem system_besides (a : Subscriber) (run : List Move) :
    (a.besides run).system = a.system.moves run := by
  induction run generalizing a with
  | nil => rfl
  | cons m rest ih => exact ih (a.beside m)

/-- A move of others leaves what the subscriber shows, or is a step of its dispatcher. -/
theorem Shows.beside (h : a.Shows c) {m : Move} (hm : a.allows m = true)
    (hrunning : (a.system.move m).stopped = false) :
    (a.beside m).Shows c ∨ (a.beside m).Shows c.step := by
  have hleaves := h.tidy.leaves hm
  have htidy := h.tidy.beside hm hrunning
  obtain ⟨_, _, hstore⟩ := hleaves.store
  have hshows {outlet? : Option Outlet} (hhas : (a.beside m).Has outlet?) :
      (a.beside m).Shows { c with outlet? } :=
    { tidy := htidy
      settings := (congrArg Frame.settings hleaves.frame).trans h.settings
      now := (congrArg Frame.now hleaves.frame).trans h.now
      ledger := (congrArg Store.ledger hstore).trans h.ledger
      has := hhas }
  obtain ⟨settings, now, ledger, outlet?⟩ := c
  cases h.has with
  | nothing unplaced => exact .inl (hshows (.nothing unplaced))
  | outlet place holds =>
    have hsettings : a.system.settings = settings := h.settings
    rcases h.tidy.holds_beside hm hrunning place holds with hsame | hstep
    · exact .inl (hshows (.outlet place hsame))
    · rw [hsettings] at hstep
      exact .inr (hshows (.outlet place hstep))

/-- Whatever others do takes what the subscriber shows some steps of its dispatcher further. -/
theorem Shows.besides (h : a.Shows c) (hallowed : a.allowsAll run = true)
    (hrunning : (a.besides run).system.stopped = false) :
    ∃ k, (a.besides run).Shows (Core.step^[k] c) := by
  induction run generalizing a c with
  | nil => exact ⟨0, h⟩
  | cons m rest ih =>
    obtain ⟨hm, hrest⟩ := (Bool.and_eq_true _ _).mp hallowed
    have hgenuine := h.tidy.genuine.changes (System.changes_move h.tidy.genuine m)
    have hafter : (a.system.move m).stopped = false := by
      refine eq_false_of_ne_true fun hstopped => ?_
      have hlast := (System.changes_moves hgenuine rest).stopped hstopped
      have hsame : (a.besides (m :: rest)).system = (a.system.move m).moves rest :=
        system_besides (a.beside m) rest
      rw [hsame] at hrunning
      exact Bool.false_ne_true (hrunning.symm.trans hlast)
    rcases h.beside hm hafter with hnext | hnext
    · exact ih hnext hrest hrunning
    · obtain ⟨k, hlast⟩ := ih hnext hrest hrunning
      exact ⟨k + 1, hlast⟩

/-- When nobody has anything to do, no step leads on. -/
theorem Shows.step_eq (h : a.Shows c) (hstill : a.system.Still) : c.step = c := by
  obtain ⟨settings, now, ledger, outlet?⟩ := c
  cases h.has with
  | nothing => rfl
  | outlet place holds =>
    have hsettings : a.system.settings = settings := h.settings
    have hstep := hstill.step_eq holds h.tidy.prompt.running
    rw [hsettings] at hstep
    simp only [Core.step, Option.map_some, hstep]

/-- Others who leave everything still have made what the subscriber shows settle. -/
theorem Shows.settles (h : a.Shows c) (hallowed : a.allowsAll run = true)
    (hrunning : (a.besides run).system.stopped = false) (hstill : (a.besides run).system.Still) :
    ∃ last, c.Settles last ∧ (a.besides run).Shows last := by
  obtain ⟨k, hshows⟩ := h.besides hallowed hrunning
  exact ⟨_, ⟨k, rfl, hshows.step_eq hstill⟩, hshows⟩

/-! ### What is done to the keys and by the subscriber -/

/-- Moves that leave the calls of others alone and lead to the core `c`. Nobody else has the
channel of the subscriber afterwards. -/
structure Leads (a : Subscriber) (run : List Move) (b : Subscriber) (c : Core) : Prop where
  system : b.system = a.system.moves run
  frame : b.system.frame = { settings := c.settings, now := c.now, script := [] }
  running : b.system.stopped = false
  reachable : b.system.store.refusal = none
  ledger : b.system.store.ledger = c.ledger
  calls : b.system.calls = a.system.calls
  opened : ∀ sub, .opened sub ∈ a.system.happenings run →
    sub.channel < b.system.channels.length
  place : ∀ n < a.system.channels.length, b.place?.map (·.2) = some n →
    a.place?.map (·.2) = some n
  has : b.Has c.outlet?

/-- Moves that lead to a core leave a subscriber that shows it. -/
theorem Tidy.leads (h : a.Tidy) (hleads : a.Leads run b c) : b.Shows c := by
  have hchanges : Wiring.Changes a.system.wiring (a.system.happenings run) b.system.wiring :=
    hleads.system ▸ System.changes_moves h.genuine run
  have hgrows : a.system.channels.length ≤ b.system.channels.length := hchanges.channels_le
  refine
    { tidy :=
        { prompt :=
            { script := congrArg Frame.script hleads.frame
              booked := hleads.system ▸ System.booked_moves h.genuine h.prompt.booked run
              running := hleads.running }
          reachable := hleads.reachable
          sound := (hchanges.sound h.sound).1
          calls := fun call hcall => ?_
          channels := fun d hd => ?_ }
      settings := congrArg Frame.settings hleads.frame
      now := congrArg Frame.now hleads.frame
      ledger := hleads.ledger
      has := hleads.has }
  · obtain ⟨hnew, hspares⟩ := h.calls call (hleads.calls ▸ hcall)
    obtain ⟨n, hchannel, hlt, hfree⟩ := spares_iff.1 hspares
    exact ⟨hnew, spares_iff.2 ⟨n, hchannel, Nat.lt_of_lt_of_le hlt hgrows,
      fun hplace => hfree (hleads.place n hlt hplace)⟩⟩
  · rcases hchanges.old_or_opened (Wiring.mem_subscriptions hd) with hold | hopened
    · obtain ⟨old, hold, heq⟩ := List.mem_map.1 hold
      exact heq ▸ Nat.lt_of_lt_of_le (h.channels old hold) hgrows
    · exact hleads.opened _ hopened

end KeyBroker.Subscriber
