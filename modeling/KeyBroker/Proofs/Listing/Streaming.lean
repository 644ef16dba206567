import KeyBroker.Session.Run
import KeyBroker.Proofs.System.Move

/-!
# Listings as streams

A stream takes the steps of its listing until one comes to an end or fails. From then on it is
over and makes no more calls, whereas the listing itself could be asked again.
-/

namespace KeyBroker

/-- A name that was just bound names its object. -/
theorem Names.find?_bind {α : Type} (names : Names α) (name : String) (object : α) :
    (names.bind name object).find? name = some object := by
  simp [Names.find?, Names.bind]

namespace Session

/-- Whether nothing follows an item in a stream. -/
def Shown.closes : Shown → Bool
  | .nothing | .error _ => true
  | _ => false

/-- What a stream shows in the place of what its listing shows: the same up to the end or the
first error, and then nothing more. -/
def streamed : List Shown → List Shown
  | [] => []
  | shown :: rest => shown :: if shown.closes then rest.map fun _ => .nothing else streamed rest

/-- Whether a stream is over with a step of its listing. -/
def finishes : Except Error (Option KeyValue) → Bool
  | .ok (some _) => false
  | _ => true

/-- A step shows that nothing follows exactly if its stream is over with it. -/
theorem closes_showAnswer (keysOnly : Bool) (listing : Listing)
    (result : Except Error (Option KeyValue)) :
    (showAnswer keysOnly (.stepped listing result)).closes = finishes result := by
  cases result with
  | error e => rfl
  | ok pair =>
    cases pair with
    | none => rfl
    | some pair => cases keysOnly <;> rfl

/-- What a step of its listing leaves of a listing or a stream. -/
def Cursor.after (cursor : Cursor) (later : Listing) (result : Except Error (Option KeyValue)) :
    Cursor :=
  { cursor with listing := if cursor.streaming && finishes result then none else some later }

namespace State

variable {s u : State} {name : String} {cursor : Cursor} {listing later : Listing}
  {result : Except Error (Option KeyValue)} {t : System}

/-- Whether the next item of a listing or a stream is there without a call, or its call comes to
its answer. -/
def answersNext (s : State) (name : String) : Bool :=
  match (s.cursors.find? name).bind (·.listing) with
  | none => true
  | some listing =>
    match (s.call (Call.beginNext listing)).2 with
    | .stepped .. => true
    | _ => false

/-- What a listing or a stream shows item by item, with things that happen to the system before
each, if all its calls come to their answers. -/
def items (s : State) (name : String) : List (List Move) → Option (List Shown)
  | [] => some []
  | run :: rest =>
    let s := s.withSystem (s.system.moves run)
    if s.answersNext name then
      ((s.next name).1.items name rest).map ((s.next name).2 :: ·)
    else none

/-- The second session holds as a stream what the first holds as a listing. -/
structure Streams (name : String) (s u : State) : Prop where
  system : u.system = s.system
  cursors : ∃ listing keysOnly,
    s.cursors.find? name = some { listing := some listing, keysOnly, streaming := false } ∧
      u.cursors.find? name = some { listing := some listing, keysOnly, streaming := true }

/-- Changing the system of both sessions alike keeps one a stream of the other. -/
theorem Streams.withSystem (h : Streams name s u) (t : System) :
    Streams name (s.withSystem t) (u.withSystem t) := ⟨rfl, h.cursors⟩

/-- The session after a step that leaves the system `t` and the cursor `cursor`. -/
def stepTo (s : State) (name : String) (t : System) (cursor : Cursor) : State :=
  { s.withSystem t with cursors := s.cursors.bind name cursor }

/-- After a step the name is that of the listing or stream as the step leaves it. -/
theorem find?_stepTo (s : State) (name : String) (t : System) (cursor : Cursor) :
    (s.stepTo name t cursor).cursors.find? name = some cursor :=
  Names.find?_bind _ _ _

/-- A step of a listing with its answer. -/
theorem next_of_call (hfind : s.cursors.find? name = some cursor)
    (hlisting : cursor.listing = some listing)
    (hcall : s.call (Call.beginNext listing) = (s.withSystem t, .stepped later result)) :
    s.next name = (s.stepTo name t (cursor.after later result),
      showAnswer cursor.keysOnly (.stepped later result)) := by
  simp only [next, hfind, hlisting, hcall, Cursor.after, stepTo]
  cases cursor.streaming with
  | false => rfl
  | true =>
    cases result with
    | error e => rfl
    | ok pair => cases pair <;> rfl

/-- The call of a step does not depend on who makes it. -/
theorem call_congr (h : u.system = s.system) {turn : Turn} {answer : Answer}
    (hcall : s.call turn = (s.withSystem t, answer)) : u.call turn = (u.withSystem t, answer) := by
  simp only [call] at hcall ⊢
  obtain ⟨hstate, hanswer⟩ := Prod.mk.inj hcall
  have hsystem : (s.system.run turn).1 = t := congrArg State.system hstate
  rw [h, hsystem, hanswer]

/-- A listing whose next item comes has a step with an answer. -/
theorem call_of_answersNext (hfind : s.cursors.find? name = some cursor)
    (hlisting : cursor.listing = some listing) (h : s.answersNext name = true) :
    ∃ t later result,
      s.call (Call.beginNext listing) = (s.withSystem t, .stepped later result) := by
  simp only [answersNext, hfind, Option.bind_some, hlisting] at h
  split at h
  · next later result hanswer =>
    exact ⟨(s.call (Call.beginNext listing)).1.system, later, result, Prod.ext rfl hanswer⟩
  · cases h

/-- A stream that is over shows nothing more. -/
theorem items_over (hfind : u.cursors.find? name = some cursor) (hover : cursor.listing = none)
    (runs : List (List Move)) : u.items name runs = some (runs.map fun _ => .nothing) := by
  induction runs generalizing u with
  | nil => rfl
  | cons run rest ih =>
    have hnext (t : System) : (u.withSystem t).next name = (u.withSystem t, .nothing) := by
      simp only [next, State.withSystem, hfind, hover]
    have hanswers (t : System) : (u.withSystem t).answersNext name = true := by
      simp only [answersNext, State.withSystem, hfind, Option.bind_some, hover]
    have hrest := ih (u := u.withSystem (u.system.moves run)) hfind
    simp only [items, hanswers, if_true, hnext, hrest, Option.map_some, List.map_cons]

/-- There is one item for each run. -/
theorem items_length {runs : List (List Move)} {shows : List Shown}
    (h : s.items name runs = some shows) : shows.length = runs.length := by
  induction runs generalizing s shows with
  | nil =>
    cases h
    rfl
  | cons run rest ih =>
    simp only [State.items] at h
    split at h
    · obtain ⟨others, hothers, rfl⟩ := Option.map_eq_some_iff.1 h
      rw [List.length_cons, List.length_cons, ih hothers]
    · cases h

/-- A step that does not finish a stream leaves it a stream of the listing. -/
theorem streams_stepTo (hfinishes : finishes result = false) (s u : State) (name : String)
    (t : System) (listing later : Listing) (keysOnly : Bool) :
    let plain : Cursor := { listing := some listing, keysOnly, streaming := false }
    let stream : Cursor := { listing := some listing, keysOnly, streaming := true }
    Streams name (s.stepTo name t (plain.after later result))
      (u.stepTo name t (stream.after later result)) := by
  refine ⟨rfl, later, keysOnly, find?_stepTo _ _ _ _, (find?_stepTo _ _ _ _).trans ?_⟩
  simp [Cursor.after, hfinishes]

/-- A step that finishes a stream is its last. -/
theorem items_stepTo (hfinishes : finishes result = true) (hstream : cursor.streaming = true)
    (u : State) (name : String) (t : System) (later : Listing) (runs : List (List Move)) :
    (u.stepTo name t (cursor.after later result)).items name runs =
      some (runs.map fun _ => .nothing) := by
  refine items_over (find?_stepTo _ _ _ _) ?_ runs
  simp [Cursor.after, hfinishes, hstream]

/-- A stream shows what its listing shows, until it is over. -/
theorem Streams.items {runs : List (List Move)} {shows : List Shown} (h : Streams name s u)
    (hitems : s.items name runs = some shows) : u.items name runs = some (streamed shows) := by
  induction runs generalizing s u shows with
  | nil =>
    cases hitems
    rfl
  | cons run rest ih =>
    simp only [State.items] at hitems ⊢
    rw [h.system]
    have hthere := h.withSystem (s.system.moves run)
    -- what happens before the item happens to the system, not to the listing
    generalize s.withSystem (s.system.moves run) = s' at hitems hthere
    generalize u.withSystem (s.system.moves run) = u' at hthere ⊢
    obtain ⟨listing, keysOnly, hlisting, hstream⟩ := hthere.cursors
    split at hitems
    · next hanswers =>
      obtain ⟨t, later, result, hcall⟩ := call_of_answersNext hlisting rfl hanswers
      have hcall' := call_congr hthere.system hcall
      have hanswers' : u'.answersNext name = true := by
        simp only [answersNext, hstream, Option.bind_some, hcall']
      rw [next_of_call hlisting rfl hcall] at hitems
      rw [if_pos hanswers', next_of_call hstream rfl hcall']
      obtain ⟨others, hothers, rfl⟩ := Option.map_eq_some_iff.1 hitems
      rw [streamed, closes_showAnswer]
      cases hfinishes : finishes result with
      | true =>
        have hsame : (others.map fun _ => Shown.nothing) = rest.map fun _ => Shown.nothing := by
          rw [List.map_const', List.map_const', items_length hothers]
        rw [if_pos rfl, hsame, items_stepTo hfinishes rfl]
        rfl
      | false =>
        have hrest := ih (streams_stepTo hfinishes s' u' name t listing later keysOnly) hothers
        rw [hrest]
        rfl
    · cases hitems

/-- A stream of a listing shows the same items up to the first error, that error included, or up
to the end, and then nothing more. -/
theorem items_intoStream {runs : List (List Move)} {shows : List Shown}
    (hfind : s.cursors.find? name = some cursor) (hplain : cursor.streaming = false)
    (hlisting : cursor.listing = some listing) (hitems : s.items name runs = some shows) :
    (s.intoStream name).1.items name runs = some (streamed shows) := by
  obtain ⟨_, keysOnly, _⟩ := cursor
  obtain rfl := hlisting
  obtain rfl := hplain
  refine Streams.items ⟨?_, listing, keysOnly, hfind, ?_⟩ hitems
  · simp only [intoStream, hfind]
  · simp only [intoStream, hfind]
    exact Names.find?_bind _ _ _

end State

end Session

end KeyBroker
