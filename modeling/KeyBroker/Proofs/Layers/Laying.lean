import KeyBroker.Proofs.Layers.Ways
import KeyBroker.Settings.Reading

/-!
# Laying a layer over a tree

Each of the four settings has its own way from the top of the tree. An entry of a layer is about
one setting, is the watch section, or leads elsewhere. After a layer is laid, a setting is what
the layer has for it, laid in order upon what it was before. Whether the layer can be laid at all
depends on what the tree has elsewhere, and no setting changes that.
-/

namespace KeyBroker.Settings

/-- One of the four settings. -/
inductive Setting where
  | requestTimeout
  | pageSize
  | bufferSize
  | slowPolicy
  deriving DecidableEq, Repr

instance (p : Setting → Prop) [DecidablePred p] : Decidable (∃ setting, p setting) :=
  decidable_of_iff (p .requestTimeout ∨ p .pageSize ∨ p .bufferSize ∨ p .slowPolicy) <| by
    constructor
    · rintro (h | h | h | h) <;> exact ⟨_, h⟩
    · rintro ⟨setting, h⟩
      cases setting <;> simp only [h, true_or, or_true]

/-- The way to the watch section. -/
def sectionWay : Way := ⟨watchName.toList, []⟩

/-- The way to an entry of the watch section. -/
def inSection (name : Name) : Way := ⟨watchName.toList, [.name name]⟩

/-- The way to a setting. -/
def Setting.way : Setting → Way
  | .requestTimeout => ⟨requestTimeoutName.toList, []⟩
  | .pageSize => ⟨pageSizeName.toList, []⟩
  | .bufferSize => inSection bufferSizeName.toList
  | .slowPolicy => inSection slowPolicyName.toList

/-- Whether a name in lower case is that of a setting in the watch section. -/
def isSectionName (name : Name) : Bool :=
  name == bufferSizeName.toList || name == slowPolicyName.toList

/-- Whether a way leads elsewhere than to the settings and the watch section, and does not lead
through a setting either. -/
def Way.isElsewhere (way : Way) : Bool :=
  if way.top = watchName.toList then
    match way.rest with
    | .name name :: _ => !isSectionName name
    | _ => false
  else way.top != requestTimeoutName.toList && way.top != pageSizeName.toList

/-- What an entry of a layer may be: a setting, the watch section as a table, or something
elsewhere. -/
inductive Suits (word : Name) (node : Node) : Prop where
  | setting (setting : Setting) (leads : (Place.ofName word).way = setting.way)
  | watch (entries : List (Name × Node)) (origin : Option String)
    (leads : (Place.ofName word).way = sectionWay) (is : node = .table entries origin)
  | elsewhere (leads : (Place.ofName word).way.isElsewhere = true)

instance (node : Node) : Decidable (∃ entries origin, node = .table entries origin) :=
  match node with
  | .table entries origin => .isTrue ⟨entries, origin, rfl⟩
  | .missing | .scalar .. | .list .. => .isFalse <| by
    rintro ⟨_, _, h⟩
    cases h

/-- An entry suits by where its way leads; the watch section has to be a table besides. -/
theorem suits_iff {word : Name} {node : Node} :
    Suits word node ↔ (∃ setting : Setting, (Place.ofName word).way = setting.way) ∨
      ((Place.ofName word).way = sectionWay ∧ ∃ entries origin, node = .table entries origin) ∨
      (Place.ofName word).way.isElsewhere = true := by
  constructor
  · rintro (⟨setting, leads⟩ | ⟨entries, origin, leads, is⟩ | leads)
    · exact .inl ⟨setting, leads⟩
    · exact .inr (.inl ⟨leads, entries, origin, is⟩)
    · exact .inr (.inr leads)
  · rintro (⟨setting, leads⟩ | ⟨leads, entries, origin, is⟩ | leads)
    · exact .setting setting leads
    · exact .watch entries origin leads is
    · exact .elsewhere leads

instance (word : Name) (node : Node) : Decidable (Suits word node) :=
  decidable_of_iff _ suits_iff.symm

/-- An entry of a layer is a setting, or a watch section of nothing but settings. -/
inductive Sets (word : Name) (node : Node) : Prop where
  | setting (setting : Setting) (leads : (Place.ofName word).way = setting.way)
  | watch (entries : List (Name × Node)) (origin : Option String)
    (leads : (Place.ofName word).way = sectionWay) (is : node = .table entries origin)
    (named : ∀ e ∈ entries, isSectionName (Text.lower e.1) = true)

/-- A setting, or a section of nothing but settings, is one of the entries that a layer may have. -/
theorem Sets.suits {word : Name} {node : Node} (h : Sets word node) : Suits word node := by
  cases h with
  | setting setting leads => exact .setting setting leads
  | watch entries origin leads is named => exact .watch entries origin leads is

/-- What an entry of a layer has for a setting, in order. -/
def definitionsIn (setting : Setting) (word : Name) (node : Node) : List Node :=
  if (Place.ofName word).way = setting.way then [node]
  else if (Place.ofName word).way = sectionWay then
    (node.entries.filter fun e => inSection (Text.lower e.1) = setting.way).map (·.2)
  else []

/-- What a layer has for a setting, in order. -/
def definitions (setting : Setting) (layer : List (Name × Node)) : List Node :=
  layer.flatMap fun (word, node) => definitionsIn setting word node

namespace Node

/-- The entries of the watch section of a tree. -/
def sectionEntries (tree : Node) : List (Name × Node) :=
  ((find? watchName.toList tree.entries).getD .missing).entries

/-- What a tree has for a setting. -/
def look (tree : Node) : Setting → Option Node
  | .requestTimeout => find? requestTimeoutName.toList tree.entries
  | .pageSize => find? pageSizeName.toList tree.entries
  | .bufferSize => find? bufferSizeName.toList tree.sectionEntries
  | .slowPolicy => find? slowPolicyName.toList tree.sectionEntries

/-- What becomes of what is there when nodes are laid upon it in order. -/
def pile (present : Option Node) (nodes : List Node) : Option Node :=
  nodes.foldl (fun present node => some (node.upon present)) present

/-- The watch section of a tree is a table, if there is one. -/
def Sectioned (tree : Node) : Prop :=
  ∀ node, find? watchName.toList tree.entries = some node →
    ∃ entries origin, node = .table entries origin

/-- Two trees have the same elsewhere. -/
structure Agree (t u : Node) : Prop where
  top : ∀ name, name ≠ requestTimeoutName.toList → name ≠ pageSizeName.toList →
    name ≠ watchName.toList → find? name t.entries = find? name u.entries
  within : ∀ name, isSectionName name = false →
    find? name t.sectionEntries = find? name u.sectionEntries

variable {t u tree node child : Node} {name top : Name} {setting : Setting}

/-- Putting an entry changes what is found at its name and nowhere else. -/
theorem find?_withEntry (node : Node) (name other : Name) (child : Node) :
    find? other (node.withEntry name child).entries =
      if name = other then some child else find? other node.entries := by
  rw [entries_withEntry]
  split
  · next h => rw [h, find?_store_self]
  · next h => rw [find?_store_of_ne h]

/-- Putting an entry changes the watch section only if it is put in its place. -/
theorem sectionEntries_withEntry (tree : Node) (name : Name) (child : Node) :
    (tree.withEntry name child).sectionEntries =
      if name = watchName.toList then child.entries else tree.sectionEntries := by
  rw [sectionEntries, find?_withEntry]
  split
  · rfl
  · rfl

/-- A tree without a watch section has the entries of a blank one. -/
theorem entries_section (tree : Node) :
    ((find? watchName.toList tree.entries).getD blank).entries = tree.sectionEntries := by
  rw [sectionEntries]
  cases find? watchName.toList tree.entries <;> rfl

/-! ### Overlays -/

/-- An entry after an overlay is what the overlay has under that name, laid upon what was there. -/
theorem find?_overlay (entries : List (Name × Node)) (target : Node) :
    find? name (target.overlay entries).entries =
      pile (find? name target.entries)
        ((entries.filter fun e => Text.lower e.1 = name).map (·.2)) := by
  induction entries generalizing target with
  | nil => rfl
  | cons e rest ih =>
    rw [overlay, ih, put_eq, find?_withEntry]
    by_cases hname : Text.lower e.1 = name
    · rw [if_pos hname, List.filter_cons_of_pos (by simpa using hname), hname]
      rfl
    · rw [if_neg hname, List.filter_cons_of_neg (by simpa using hname)]

/-- A table that others are laid over stays a table. -/
theorem overlay_table (entries : List (Name × Node)) {target : Node}
    (h : ∃ there origin, target = .table there origin) :
    ∃ there origin, target.overlay entries = .table there origin := by
  induction entries generalizing target with
  | nil => exact h
  | cons e rest ih =>
    rw [overlay]
    refine ih ?_
    rw [put_eq]
    exact ⟨_, _, rfl⟩

/-! ### Names -/

/-- Different names in the watch section lead to different places. -/
theorem inSection_inj {name other : Name} : inSection name = inSection other ↔ name = other := by
  simp [inSection]

/-- The way to a setting does not lead elsewhere. -/
theorem isElsewhere_way (setting : Setting) : setting.way.isElsewhere = false := by
  cases setting <;> decide

/-- The way to the watch section does not lead elsewhere. -/
theorem isElsewhere_section : sectionWay.isElsewhere = false := by decide

/-- The settings at the top have other names than the watch section. -/
theorem names_apart :
    requestTimeoutName.toList ≠ watchName.toList ∧ pageSizeName.toList ≠ watchName.toList := by
  decide

/-! ### Entries -/

/-- The tree with an entry of the watch section replaced or added. -/
def withInner (tree : Node) (name : Name) (child : Node) : Node :=
  tree.withEntry watchName.toList
    (((find? watchName.toList tree.entries).getD .missing).withEntry name child)

/-- The tree with another node for a setting. -/
def withSetting (tree : Node) (setting : Setting) (node : Node) : Node :=
  match setting with
  | .requestTimeout => tree.withEntry requestTimeoutName.toList node
  | .pageSize => tree.withEntry pageSizeName.toList node
  | .bufferSize => tree.withInner bufferSizeName.toList node
  | .slowPolicy => tree.withInner slowPolicyName.toList node

/-- Replacing an entry of the watch section changes what is found at its name there and nowhere
else. -/
theorem find?_sectionEntries_withInner (tree : Node) (name other : Name) (child : Node) :
    find? other (tree.withInner name child).sectionEntries =
      if name = other then some child else find? other tree.sectionEntries := by
  rw [withInner, sectionEntries_withEntry, if_pos rfl, find?_withEntry]
  rfl

/-- An entry beside the watch section changes the setting that it is, if any. -/
theorem look_withEntry (h : top ≠ watchName.toList) (tree child : Node) (setting : Setting) :
    (tree.withEntry top child).look setting =
      if setting.way = ⟨top, []⟩ then some child else tree.look setting := by
  have hnumber (own : Name) : find? own (tree.withEntry top child).entries =
      if (⟨own, []⟩ : Way) = ⟨top, []⟩ then some child else find? own tree.entries := by
    simp only [find?_withEntry, Way.mk.injEq, and_true, @eq_comm _ top own]
  cases setting with
  | requestTimeout => exact hnumber requestTimeoutName.toList
  | pageSize => exact hnumber pageSizeName.toList
  | _ =>
    rw [look, sectionEntries_withEntry, if_neg h, if_neg (by simp [Setting.way, inSection])]
    rfl

/-- Another watch section changes only the settings in it. -/
theorem look_withEntry_watch (tree child : Node) (setting : Setting) :
    (tree.withEntry watchName.toList child).look setting =
      match setting with
      | .requestTimeout | .pageSize => tree.look setting
      | .bufferSize => find? bufferSizeName.toList child.entries
      | .slowPolicy => find? slowPolicyName.toList child.entries := by
  obtain ⟨hrequest, hpage⟩ := names_apart
  cases setting with
  | requestTimeout => rw [look, find?_withEntry, if_neg hrequest.symm, look]
  | pageSize => rw [look, find?_withEntry, if_neg hpage.symm, look]
  | _ => rw [look, sectionEntries_withEntry, if_pos rfl]

/-- An entry of the watch section changes the setting that it is, if any. -/
theorem look_withInner (tree child : Node) (name : Name) (setting : Setting) :
    (tree.withInner name child).look setting =
      if setting.way = inSection name then some child else tree.look setting := by
  have hinner (own : Name) : find? own (tree.withInner name child).sectionEntries =
      if inSection own = inSection name then some child else find? own tree.sectionEntries := by
    simp only [find?_sectionEntries_withInner, inSection_inj, @eq_comm _ name own]
  cases setting with
  | bufferSize => exact hinner bufferSizeName.toList
  | slowPolicy => exact hinner slowPolicyName.toList
  | _ =>
    rw [withInner, look_withEntry_watch, if_neg (by simp [Setting.way, inSection])]

/-- Putting another node for a setting changes what the tree has for that setting and for no
other. -/
theorem look_withSetting (tree : Node) (setting other : Setting) (node : Node) :
    (tree.withSetting setting node).look other =
      if setting = other then some node else tree.look other := by
  obtain ⟨hrequest, hpage⟩ := names_apart
  cases setting with
  | requestTimeout =>
    rw [withSetting, look_withEntry hrequest]
    cases other <;> rfl
  | pageSize =>
    rw [withSetting, look_withEntry hpage]
    cases other <;> rfl
  | bufferSize =>
    rw [withSetting, look_withInner]
    cases other <;> rfl
  | slowPolicy =>
    rw [withSetting, look_withInner]
    cases other <;> rfl

/-- What is put at the way of a setting is laid upon it. -/
theorem put?_setting {word : Name} (hway : (Place.ofName word).way = setting.way)
    (tree node : Node) :
    Place.put? tree node (Place.ofName word) =
      some (tree.withSetting setting (node.upon (tree.look setting))) := by
  rw [Place.put?_ofName, hway]
  cases setting <;> rfl

/-- The watch section is laid over the one that is there. -/
theorem put?_section {word : Name} (hway : (Place.ofName word).way = sectionWay) (tree : Node)
    (entries : List (Name × Node)) (origin : Option String) :
    Place.put? tree (.table entries origin) (Place.ofName word) =
      some (tree.withEntry watchName.toList
        (overlay ((find? watchName.toList tree.entries).getD blank) entries)) := by
  rw [Place.put?_ofName, hway]
  rfl

/-- What leads elsewhere is put beside the settings, and depends only on what is there. -/
inductive Elsewhere (word : Name) (node : Node) : Prop where
  | top (name : Name) (request : name ≠ requestTimeoutName.toList)
    (page : name ≠ pageSizeName.toList) (watch : name ≠ watchName.toList)
    (graft : Option Node → Option Node)
    (puts : ∀ tree : Node, Place.put? tree node (Place.ofName word) =
      (graft (find? name tree.entries)).map (tree.withEntry name))
  | within (name : Name) (other : isSectionName name = false) (graft : Option Node → Option Node)
    (puts : ∀ tree : Node, Place.put? tree node (Place.ofName word) =
      (graft (find? name tree.sectionEntries)).map (tree.withInner name))

/-- An entry whose way leads elsewhere touches neither the settings nor the watch section. -/
theorem elsewhere_of_way {word : Name} (h : (Place.ofName word).way.isElsewhere = true)
    (node : Node) : Elsewhere word node := by
  have hputs := fun tree => Place.put?_ofName tree node word
  generalize (Place.ofName word).way = way at h hputs
  obtain ⟨name, rest⟩ := way
  simp only [Way.isElsewhere] at h
  by_cases hwatch : name = watchName.toList
  · rw [if_pos hwatch] at h
    subst hwatch
    cases rest with
    | nil => cases h
    | cons step more =>
      cases step with
      | index index => cases h
      | name inner =>
        refine .within inner (by simpa using h) (node.graft more) fun tree => ?_
        rw [hputs, graft, sectionEntries, Option.map_map]
        rfl
  · rw [if_neg hwatch] at h
    obtain ⟨hrequest, hpage⟩ : name ≠ requestTimeoutName.toList ∧ name ≠ pageSizeName.toList := by
      simpa using h
    exact .top name hrequest hpage hwatch (node.graft rest) hputs

/-- An entry whose way leads elsewhere has nothing for any setting. -/
theorem definitionsIn_elsewhere {word : Name} (h : (Place.ofName word).way.isElsewhere = true)
    (setting : Setting) (node : Node) : definitionsIn setting word node = [] := by
  have hsetting : (Place.ofName word).way ≠ setting.way := by
    intro heq
    rw [heq, isElsewhere_way] at h
    cases h
  have hsection : (Place.ofName word).way ≠ sectionWay := by
    intro heq
    rw [heq, isElsewhere_section] at h
    cases h
  rw [definitionsIn, if_neg hsetting, if_neg hsection]

/-- An entry for a setting has its node for that setting and nothing for another. -/
theorem definitionsIn_setting {word : Name} (hway : (Place.ofName word).way = setting.way)
    (other : Setting) (node : Node) :
    definitionsIn other word node = if setting = other then [node] else [] := by
  rw [definitionsIn, hway]
  cases setting <;> cases other <;> rfl

/-- A watch section has for a setting the nodes of those entries that lead to it. -/
theorem definitionsIn_section {word : Name} (hway : (Place.ofName word).way = sectionWay)
    (setting : Setting) (entries : List (Name × Node)) (origin : Option String) :
    definitionsIn setting word (.table entries origin) =
      (entries.filter fun e => inSection (Text.lower e.1) = setting.way).map (·.2) := by
  have hne : sectionWay ≠ setting.way := by cases setting <;> decide
  rw [definitionsIn, hway, if_neg hne, if_pos rfl, Node.entries]

/-- What a tree has for a setting after a suitable entry is put in. -/
theorem look_put {word : Name} (hsuits : Suits word node) {after : Node}
    (hput : Place.put? tree node (Place.ofName word) = some after) (setting : Setting) :
    after.look setting = pile (tree.look setting) (definitionsIn setting word node) := by
  cases hsuits with
  | setting own leads =>
    rw [put?_setting leads] at hput
    obtain rfl := Option.some.inj hput
    rw [look_withSetting, definitionsIn_setting leads]
    split
    · next heq => rw [heq, pile, List.foldl_cons, List.foldl_nil]
    · rfl
  | watch entries origin leads is =>
    subst is
    rw [put?_section leads] at hput
    obtain rfl := Option.some.inj hput
    rw [look_withEntry_watch, definitionsIn_section leads]
    -- a section in a layer lays its own entries over those of the tree, name by name
    have hinner (name : Name) :
        find? name (overlay ((find? watchName.toList tree.entries).getD blank) entries).entries =
          pile (find? name tree.sectionEntries)
            ((entries.filter fun e => Text.lower e.1 = name).map (·.2)) := by
      rw [find?_overlay, entries_section]
    have hnone (other : Setting) (h : ∀ name, inSection name ≠ other.way) :
        (entries.filter fun e => decide (inSection (Text.lower e.1) = other.way)) = [] :=
      List.filter_eq_nil_iff.2 fun e _ => by simpa using h (Text.lower e.1)
    cases setting with
    | bufferSize =>
      simp only [Setting.way, inSection_inj]
      exact hinner bufferSizeName.toList
    | slowPolicy =>
      simp only [Setting.way, inSection_inj]
      exact hinner slowPolicyName.toList
    | _ =>
      rw [hnone _ fun _ heq => by cases heq]
      rfl
  | elsewhere leads =>
    rw [definitionsIn_elsewhere leads, pile, List.foldl_nil]
    cases elsewhere_of_way leads node with
    | top name request page watch graft puts =>
      rw [puts] at hput
      obtain ⟨child, -, rfl⟩ := Option.map_eq_some_iff.1 hput
      -- a way that leads elsewhere is that of no setting
      have hne : setting.way ≠ ⟨name, []⟩ := by
        intro heq
        cases setting with
        | requestTimeout => exact request (congrArg Way.top heq).symm
        | pageSize => exact page (congrArg Way.top heq).symm
        | _ => cases heq
      rw [look_withEntry watch, if_neg hne]
    | within name other graft puts =>
      rw [puts] at hput
      obtain ⟨child, -, rfl⟩ := Option.map_eq_some_iff.1 hput
      have hne : setting.way ≠ inSection name := by
        intro heq
        have hway : (inSection name).isElsewhere = true := by
          simp [Way.isElsewhere, inSection, other]
        rw [← heq, isElsewhere_way] at hway
        cases hway
      rw [look_withInner, if_neg hne]

/-- A watch section that is a table stays one unless something else is put in its place. -/
theorem sectioned_withEntry (h : tree.Sectioned) (name : Name)
    (hchild : name = watchName.toList → ∃ entries origin, child = .table entries origin) :
    (tree.withEntry name child).Sectioned := by
  intro node hnode
  rw [find?_withEntry] at hnode
  split at hnode
  · next heq => exact Option.some.inj hnode ▸ hchild heq
  · exact h node hnode

/-- The watch section stays a table. -/
theorem sectioned_put {word : Name} (hsuits : Suits word node) {after : Node}
    (hput : Place.put? tree node (Place.ofName word) = some after) (h : tree.Sectioned) :
    after.Sectioned := by
  obtain ⟨hrequest, hpage⟩ := names_apart
  cases hsuits with
  | setting own leads =>
    rw [put?_setting leads] at hput
    obtain rfl := Option.some.inj hput
    cases own with
    | requestTimeout => exact sectioned_withEntry h _ fun heq => absurd heq hrequest
    | pageSize => exact sectioned_withEntry h _ fun heq => absurd heq hpage
    | _ => exact sectioned_withEntry h _ fun _ => ⟨_, _, rfl⟩
  | watch entries origin leads is =>
    subst is
    rw [put?_section leads] at hput
    obtain rfl := Option.some.inj hput
    refine sectioned_withEntry h _ fun _ => overlay_table entries ?_
    cases hthere : find? watchName.toList tree.entries with
    | none => exact ⟨[], none, rfl⟩
    | some there => exact h there hthere
  | elsewhere leads =>
    cases elsewhere_of_way leads node with
    | top name request page watch graft puts =>
      rw [puts] at hput
      obtain ⟨child, -, rfl⟩ := Option.map_eq_some_iff.1 hput
      exact sectioned_withEntry h _ fun heq => absurd heq watch
    | within name other graft puts =>
      rw [puts] at hput
      obtain ⟨child, -, rfl⟩ := Option.map_eq_some_iff.1 hput
      exact sectioned_withEntry h _ fun _ => ⟨_, _, rfl⟩

/-! ### What is elsewhere -/

/-- Trees that agree elsewhere with a third through a second agree with it. -/
theorem Agree.trans {v : Node} (h : t.Agree u) (h' : u.Agree v) : t.Agree v where
  top name hrequest hpage hwatch :=
    (h.top name hrequest hpage hwatch).trans (h'.top name hrequest hpage hwatch)
  within name hname := (h.within name hname).trans (h'.within name hname)

/-- Agreeing elsewhere goes both ways. -/
theorem Agree.symm (h : t.Agree u) : u.Agree t where
  top name hrequest hpage hwatch := (h.top name hrequest hpage hwatch).symm
  within name hname := (h.within name hname).symm

/-- A watch section that has the same but for the settings changes nothing elsewhere. -/
theorem agree_withEntry_watch (h : ∀ name, isSectionName name = false →
      find? name child.entries = find? name tree.sectionEntries) :
    (tree.withEntry watchName.toList child).Agree tree where
  top name _ _ hwatch := (find?_withEntry tree _ name child).trans (if_neg hwatch.symm)
  within name hname := by
    rw [sectionEntries_withEntry, if_pos rfl]
    exact h name hname

/-- Putting a setting at the top changes nothing elsewhere. -/
theorem agree_withEntry_of_setting
    (h : top = requestTimeoutName.toList ∨ top = pageSizeName.toList) :
    (tree.withEntry top child).Agree tree where
  top name hrequest hpage _ := by
    have hne : top ≠ name := by
      rintro rfl
      exact h.elim hrequest hpage
    exact (find?_withEntry tree top name child).trans (if_neg hne)
  within name _ := by
    obtain ⟨hrequest, hpage⟩ := names_apart
    have hne : top ≠ watchName.toList := by
      rcases h with rfl | rfl
      · exact hrequest
      · exact hpage
    rw [sectionEntries_withEntry, if_neg hne]

/-- A setting changes nothing elsewhere. -/
theorem agree_withSetting (tree : Node) (setting : Setting) (node : Node) :
    (tree.withSetting setting node).Agree tree := by
  have hinner (own : Name) (hown : isSectionName own = true) :
      (tree.withInner own node).Agree tree := by
    refine agree_withEntry_watch fun name hname => ?_
    have hne : own ≠ name := by
      rintro rfl
      rw [hname] at hown
      cases hown
    exact (find?_withEntry _ own name node).trans (if_neg hne)
  cases setting with
  | requestTimeout => exact agree_withEntry_of_setting (.inl rfl)
  | pageSize => exact agree_withEntry_of_setting (.inr rfl)
  | bufferSize => exact hinner bufferSizeName.toList (by decide)
  | slowPolicy => exact hinner slowPolicyName.toList (by decide)

/-- Putting the same entry in two trees that agree elsewhere leaves them in agreement. -/
theorem Agree.withEntry (h : t.Agree u) (hname : name ≠ watchName.toList) (child : Node) :
    (t.withEntry name child).Agree (u.withEntry name child) where
  top other hrequest hpage hwatch := by
    rw [find?_withEntry, find?_withEntry, h.top other hrequest hpage hwatch]
  within other hother := by
    rw [sectionEntries_withEntry, sectionEntries_withEntry, if_neg hname, if_neg hname]
    exact h.within other hother

/-- Putting the same entry in both watch sections leaves trees in agreement. -/
theorem Agree.withInner (h : t.Agree u) (name : Name) (child : Node) :
    (t.withInner name child).Agree (u.withInner name child) where
  top other hrequest hpage hwatch := by
    rw [Node.withInner, Node.withInner, find?_withEntry, find?_withEntry, if_neg hwatch.symm,
      if_neg hwatch.symm]
    exact h.top other hrequest hpage hwatch
  within other hother := by
    rw [find?_sectionEntries_withInner, find?_sectionEntries_withInner, h.within other hother]

/-- Settings do not count elsewhere. -/
theorem Agree.withSetting (h : t.Agree u) (setting : Setting) (x y : Node) :
    (t.withSetting setting x).Agree (u.withSetting setting y) :=
  ((agree_withSetting t setting x).trans h).trans (agree_withSetting u setting y).symm

/-- The watch sections of two trees that have the same elsewhere are overlaid alike. -/
theorem Agree.overlaid (h : t.Agree u) (entries : List (Name × Node)) :
    (t.withEntry watchName.toList
      (overlay ((find? watchName.toList t.entries).getD blank) entries)).Agree
        (u.withEntry watchName.toList
          (overlay ((find? watchName.toList u.entries).getD blank) entries)) where
  top other hrequest hpage hwatch := by
    rw [find?_withEntry, find?_withEntry, if_neg hwatch.symm, if_neg hwatch.symm]
    exact h.top other hrequest hpage hwatch
  within other hother := by
    rw [sectionEntries_withEntry, sectionEntries_withEntry, if_pos rfl, if_pos rfl]
    rw [find?_overlay, find?_overlay, entries_section, entries_section, h.within other hother]

/-- A suitable entry can be put in both of two trees or in neither, and they have the same
elsewhere afterwards. -/
theorem Agree.put {word : Name} (hsuits : Suits word node) (h : t.Agree u) {after : Node}
    (hput : Place.put? u node (Place.ofName word) = some after) :
    ∃ also, Place.put? t node (Place.ofName word) = some also ∧ also.Agree after := by
  cases hsuits with
  | setting own leads =>
    rw [put?_setting leads] at hput ⊢
    obtain rfl := Option.some.inj hput
    exact ⟨_, rfl, h.withSetting own _ _⟩
  | watch entries origin leads is =>
    subst is
    rw [put?_section leads] at hput ⊢
    obtain rfl := Option.some.inj hput
    exact ⟨_, rfl, h.overlaid entries⟩
  | elsewhere leads =>
    cases elsewhere_of_way leads node with
    | top name request page watch graft puts =>
      rw [puts, ← h.top name request page watch] at hput
      obtain ⟨child, hchild, rfl⟩ := Option.map_eq_some_iff.1 hput
      exact ⟨_, (puts t).trans (by rw [hchild]; rfl), h.withEntry watch child⟩
    | within name other graft puts =>
      rw [puts, ← h.within name other] at hput
      obtain ⟨child, hchild, rfl⟩ := Option.map_eq_some_iff.1 hput
      exact ⟨_, (puts t).trans (by rw [hchild]; rfl), h.withInner name child⟩

/-- Settings in a watch section that is laid change nothing elsewhere. -/
theorem agree_overlay (tree : Node) {entries : List (Name × Node)}
    (h : ∀ e ∈ entries, isSectionName (Text.lower e.1) = true) :
    (tree.withEntry watchName.toList
      (overlay ((find? watchName.toList tree.entries).getD blank) entries)).Agree tree := by
  refine agree_withEntry_watch fun name hname => ?_
  have hne : ∀ e ∈ entries, Text.lower e.1 ≠ name := by
    rintro e he rfl
    rw [h e he] at hname
    cases hname
  have hnone : entries.filter (fun e => Text.lower e.1 = name) = [] :=
    List.filter_eq_nil_iff.2 fun e he => by simpa using hne e he
  rw [find?_overlay, hnone, entries_section]
  rfl

/-! ### Layers -/

variable {layer : List (Name × Node)}

/-- After a layer is laid, a setting is what the layer has for it, laid upon what it was. -/
theorem look_putAll (hsuits : ∀ e ∈ layer, Suits e.1 e.2) {after : Node}
    (hput : Place.putAll? tree layer = some after) (setting : Setting) :
    after.look setting = pile (tree.look setting) (definitions setting layer) := by
  induction layer generalizing tree with
  | nil =>
    obtain rfl := Option.some.inj hput
    rfl
  | cons e rest ih =>
    obtain ⟨next, hfirst, hrest⟩ := Option.bind_eq_some_iff.1 hput
    have hcons : definitions setting (e :: rest) =
        definitionsIn setting e.1 e.2 ++ definitions setting rest := List.flatMap_cons
    rw [ih (fun e he => hsuits e (List.mem_cons_of_mem _ he)) hrest,
      look_put (hsuits e List.mem_cons_self) hfirst, hcons, pile, pile, pile, List.foldl_append]

/-- Laying a layer of such entries keeps the watch section a table. -/
theorem sectioned_putAll (hsuits : ∀ e ∈ layer, Suits e.1 e.2) {after : Node}
    (hput : Place.putAll? tree layer = some after) (h : tree.Sectioned) : after.Sectioned := by
  induction layer generalizing tree with
  | nil =>
    obtain rfl := Option.some.inj hput
    exact h
  | cons e rest ih =>
    obtain ⟨next, hfirst, hrest⟩ := Option.bind_eq_some_iff.1 hput
    exact ih (fun e he => hsuits e (List.mem_cons_of_mem _ he)) hrest
      (sectioned_put (hsuits e List.mem_cons_self) hfirst h)

/-- A layer of settings alone can be laid over any tree, and changes nothing elsewhere. -/
theorem exists_putAll (h : ∀ e ∈ layer, Sets e.1 e.2) (tree : Node) :
    ∃ after, Place.putAll? tree layer = some after ∧ after.Agree tree := by
  induction layer generalizing tree with
  | nil => exact ⟨tree, rfl, fun _ _ _ _ => rfl, fun _ _ => rfl⟩
  | cons e rest ih =>
    have hput : ∃ next, Place.put? tree e.2 (Place.ofName e.1) = some next ∧ next.Agree tree := by
      cases h e List.mem_cons_self with
      | setting setting leads => exact ⟨_, put?_setting leads tree e.2, agree_withSetting ..⟩
      | watch entries origin leads is named =>
        rw [is]
        exact ⟨_, put?_section leads tree entries origin, agree_overlay tree named⟩
    obtain ⟨next, hnext, hsame⟩ := hput
    obtain ⟨after, hafter, hagree⟩ := ih (fun e he => h e (List.mem_cons_of_mem _ he)) next
    exact ⟨after, Option.bind_eq_some_iff.2 ⟨next, hnext, hafter⟩, hagree.trans hsame⟩

/-- A layer that can be laid over one tree can be laid over any that has the same elsewhere. -/
theorem Agree.putAll (hsuits : ∀ e ∈ layer, Suits e.1 e.2) (h : t.Agree u) {after : Node}
    (hput : Place.putAll? u layer = some after) : ∃ also, Place.putAll? t layer = some also := by
  induction layer generalizing t u with
  | nil => exact ⟨t, rfl⟩
  | cons e rest ih =>
    obtain ⟨next, hfirst, hrest⟩ := Option.bind_eq_some_iff.1 hput
    obtain ⟨first, hput', hagree⟩ := h.put (hsuits e List.mem_cons_self) hfirst
    obtain ⟨also, halso⟩ := ih (fun e he => hsuits e (List.mem_cons_of_mem _ he)) hagree hrest
    exact ⟨also, Option.bind_eq_some_iff.2 ⟨first, hput', halso⟩⟩

end Node

end KeyBroker.Settings
