import KeyBroker.Proofs.Layers.Having

/-!
# Settings merge one by one

Whatever files are laid over settings, and in whatever order, each setting comes out by itself: as
the environment has it, else as the last file that has it, else as it was. A file may have
further entries, as long as they lead past the settings and the watch section and the file by
itself can be laid out; an index that no list can have, or one into the watch section, makes
every setting go wrong.
-/

namespace KeyBroker.Settings

/-- What an environment and files in order make of settings, each setting by itself. -/
def merged (environment : Portion) (files : List Portion) (start : Settings) : Settings where
  requestTimeout := (environment.requestTimeout.or
    (files.reverse.findSome? (·.requestTimeout))).getD start.requestTimeout
  pageSize := (environment.pageSize.or (files.reverse.findSome? (·.pageSize))).getD start.pageSize
  bufferSize := (environment.bufferSize.or
    (files.reverse.findSome? (·.bufferSize))).getD start.bufferSize
  slowPolicy := (environment.slowPolicy.or
    (files.reverse.findSome? (·.slowPolicy))).getD start.slowPolicy

/-- Settings with a file each laid over them in order. -/
def overrideAll (s : Settings) (around : Surroundings) (paths : List (List Char)) :
    Except Fault Settings :=
  paths.foldlM (fun s path => s.override around path) s

variable {s start : Settings} {layer : List (Name × Node)} {d environment : Portion}
  {around : Surroundings}

/-! ### The settings to start from -/

/-- The names that settings are written under lead to the settings. -/
theorem ways_of_names : (Place.ofName requestTimeoutName.toList).way = Setting.requestTimeout.way ∧
    (Place.ofName pageSizeName.toList).way = Setting.pageSize.way ∧
    (Place.ofName watchName.toList).way = sectionWay ∧
    Text.lower bufferSizeName.toList = bufferSizeName.toList ∧
    Text.lower slowPolicyName.toList = slowPolicyName.toList := by
  decide +kernel

/-- A number as settings write it. -/
def numberNode (n : Nat) : Node := .scalar (.integer n) none

/-- The watch section as settings write it. -/
def writtenSection (s : Settings) : List (Name × Node) :=
  [(bufferSizeName.toList, numberNode s.bufferSize),
    (slowPolicyName.toList, .scalar (.text s.slowPolicy.word.toList) none)]

/-- The layer that settings write. -/
def written (s : Settings) : List (Name × Node) :=
  [(requestTimeoutName.toList, numberNode s.requestTimeout),
    (pageSizeName.toList, numberNode s.pageSize),
    (watchName.toList, .table s.writtenSection none)]

/-- Settings of numbers that a layer can hold are written in full. -/
theorem entries_of_writable (h : s.Writable) : s.entries = .ok s.written := by
  simp only [entries, ofNumber, if_pos h.requestTimeout, if_pos h.pageSize, if_pos h.bufferSize,
    bind, Except.bind]
  rfl

/-- Whatever settings write is a setting, or a section of nothing but settings. -/
theorem sets_written (s : Settings) : ∀ e ∈ s.written, Sets e.1 e.2 := by
  obtain ⟨hrequest, hpage, hwatch, hbuffer, hslow⟩ := ways_of_names
  have hnamed : ∀ e ∈ s.writtenSection, isSectionName (Text.lower e.1) = true := by
    simp only [writtenSection, List.forall_mem_cons, hbuffer, hslow]
    exact ⟨by decide, by decide, List.forall_mem_nil _⟩
  simp only [written, List.forall_mem_cons]
  exact ⟨.setting .requestTimeout hrequest, .setting .pageSize hpage,
    .watch s.writtenSection none hwatch rfl hnamed, List.forall_mem_nil _⟩

/-- A number is written as a node that is that number. -/
theorem isNumber_numberNode {n : Nat} (h : n ≤ greatest) : IsNumber (numberNode n) n :=
  ⟨by simp [numberNode, number?], h⟩

/-- A policy is written as its word. -/
theorem isPolicy_word (p : SlowPolicy) (origin : Option String) :
    IsPolicy (.scalar (.text p.word.toList) origin) p :=
  ⟨p.word.toList, rfl, beq_self_eq_true _⟩

/-- What settings write for each of them. -/
def writtenNode (s : Settings) : Setting → Node
  | .requestTimeout => numberNode s.requestTimeout
  | .pageSize => numberNode s.pageSize
  | .bufferSize => numberNode s.bufferSize
  | .slowPolicy => .scalar (.text s.slowPolicy.word.toList) none

/-- The written layer has one node for each setting. -/
theorem definitions_written (s : Settings) (setting : Setting) :
    definitions setting s.written = [s.writtenNode setting] := by
  obtain ⟨hrequest, hpage, hwatch, hbuffer, hslow⟩ := ways_of_names
  have hrow : definitions setting s.written =
      (if Setting.requestTimeout = setting then [numberNode s.requestTimeout] else []) ++
        ((if Setting.pageSize = setting then [numberNode s.pageSize] else []) ++
          (s.writtenSection.filter fun e =>
            inSection (Text.lower e.1) = setting.way).map (·.2)) := by
    simp only [definitions, written, List.flatMap_cons, List.flatMap_nil, List.append_nil,
      numberNode, Node.definitionsIn_setting hrequest, Node.definitionsIn_setting hpage,
      Node.definitionsIn_section hwatch]
  rw [hrow]
  simp only [writtenSection, List.filter_cons, List.filter_nil, hbuffer, hslow]
  cases setting <;> rfl

/-- What settings write is laid over an empty tree. -/
theorem exists_bottom (h : s.Writable) :
    ∃ tree, Place.putAll? .blank s.written = some tree ∧ tree.Holds s ∧ tree.Agree .blank ∧
      ∀ there ∈ tree.look .slowPolicy, there.entries = [] := by
  obtain ⟨tree, hput, hagree⟩ := Node.exists_putAll s.sets_written .blank
  have hsuits : ∀ e ∈ s.written, Suits e.1 e.2 := fun e he => (s.sets_written e he).suits
  have hlook (setting : Setting) : tree.look setting = some (s.writtenNode setting) := by
    rw [Node.look_putAll hsuits hput, definitions_written]
    cases setting <;> rfl
  have hempty : Node.blank.Sectioned := fun _ hnone => by cases hnone
  have hholds : tree.Holds s := {
    sectioned := Node.sectioned_putAll hsuits hput hempty
    requestTimeout := ⟨_, hlook .requestTimeout, isNumber_numberNode h.requestTimeout⟩
    pageSize := ⟨_, hlook .pageSize, isNumber_numberNode h.pageSize⟩
    bufferSize := ⟨_, hlook .bufferSize, isNumber_numberNode h.bufferSize⟩
    slowPolicy := ⟨_, hlook .slowPolicy, isPolicy_word s.slowPolicy none⟩ }
  refine ⟨tree, hput, hholds, hagree, fun there hthere => ?_⟩
  rw [hlook, Option.mem_some_iff] at hthere
  rw [← hthere]
  rfl

/-! ### A file and the environment -/

/-- What the environment has for a setting is no table. -/
theorem entries_of_environment (environment : List Variable) (setting : Setting) :
    ∀ node ∈ definitions setting (Variable.layer environment), node.entries = [] := by
  intro node hnode
  obtain ⟨e, he, hnode⟩ := List.mem_flatMap.1 hnode
  obtain ⟨v, -, hentry⟩ := List.mem_filterMap.1 he
  simp only [Variable.entry?] at hentry
  split at hentry
  · cases hentry
  · obtain ⟨name, -, rfl⟩ := Option.map_eq_some_iff.1 hentry
    simp only [definitionsIn] at hnode
    split at hnode
    · rw [List.mem_singleton.1 hnode]
      rfl
    · split at hnode <;> cases hnode

/-- Settings, a file and the environment are laid one over another. -/
theorem exists_stack (h : start.Writable) (hfile : IsFile layer d)
    (henv : around.HasEnvironment environment) :
    ∃ tree, stack [start.written, layer, Variable.layer around.environment] = .ok tree ∧
      tree.Holds (environment.upon (d.upon start)) := by
  obtain ⟨bottom, hbottom, hholds, hagree, hflat⟩ := exists_bottom h
  -- what the file has elsewhere finds the same there as in an empty tree
  obtain ⟨alone, halone⟩ := Option.isSome_iff_exists.1 hfile.laid
  obtain ⟨filed, hfiled⟩ := hagree.putAll hfile.suits halone
  have hsets : ∀ e ∈ Variable.layer around.environment, Sets e.1 e.2 := fun e he =>
    (henv.settings e he).elim Sets.setting
  obtain ⟨tree, htree, -⟩ := Node.exists_putAll hsets filed
  have hfile' := hholds.putAll hfile.suits hfile.has (fun _ _ => .inr hflat) hfiled
  refine ⟨tree, ?_, hfile'.putAll (fun e he => (hsets e he).suits) henv.has
    (fun node hnode => .inl (entries_of_environment _ _ node hnode)) htree⟩
  simp only [stack, List.foldlM_cons, List.foldlM_nil, hbottom, hfiled, htree,
    Option.bind_eq_bind, Option.bind_some]
  rfl

/-- Settings with a file and the environment laid over them are those of the environment, upon
those of the file, upon the settings, and can be laid over again. -/
theorem override_eq (h : start.Writable) {path : List Char} (hfile : around.HasFile path d)
    (henv : around.HasEnvironment environment) :
    start.override around path = .ok (environment.upon (d.upon start)) ∧
      (environment.upon (d.upon start)).Writable := by
  obtain ⟨layer, hlayer, hfile⟩ := hfile
  obtain ⟨tree, hstack, hholds⟩ := exists_stack h hfile henv
  refine ⟨?_, hholds.writable⟩
  simp only [override, layered, entries_of_writable h, hlayer, bind, Except.bind]
  rw [hstack]
  exact ofTree_of_holds hholds

/-- A layer of nothing has no settings. -/
theorem isFile_nil : IsFile [] {} where
  has := ⟨rfl, rfl, rfl, rfl⟩
  suits _ he := by cases he
  laid := rfl

/-- The defaults can be written as a layer. -/
theorem writable_defaults : Writable {} := ⟨by decide, by decide, by decide⟩

/-- Loading with a file gives what the environment has, upon what the file has, upon
the defaults. -/
theorem load_eq {path : List Char} (hpath : around.filePath? = some path)
    (hfile : around.HasFile path d) (henv : around.HasEnvironment environment) :
    load around = .ok (environment.upon (d.upon {})) := by
  rw [load, hpath]
  exact (override_eq writable_defaults hfile henv).1

/-- Loading without a file gives what the environment has upon the defaults. -/
theorem load_eq_of_none (hpath : around.filePath? = none)
    (henv : around.HasEnvironment environment) :
    load around = .ok (environment.upon (Portion.upon {} {})) := by
  obtain ⟨tree, hstack, hholds⟩ := exists_stack writable_defaults isFile_nil henv
  rw [load, hpath]
  simp only [layered, entries_of_writable writable_defaults, bind, Except.bind]
  rw [hstack]
  exact ofTree_of_holds hholds

/-! ### Files in order -/

/-- One file and the environment are merged by laying one over the other. -/
theorem upon_eq_merged (environment d : Portion) (s : Settings) :
    environment.upon (d.upon s) = merged environment [d] s := by
  have hone {α : Type} (above below : Option α) (old : α) :
      above.getD (below.getD old) =
        (above.or ([below].reverse.findSome? fun given => given)).getD old := by
    cases above <;> cases below <;> rfl
  simp only [Portion.upon, merged, Settings.mk.injEq]
  exact ⟨hone _ _ _, hone _ _ _, hone _ _ _, hone _ _ _⟩

/-- Laying an environment over settings each time a file is laid comes to laying it once, at the
end. -/
theorem merged_upon (environment d : Portion) (files : List Portion) (s : Settings) :
    merged environment files (environment.upon (d.upon s)) = merged environment (d :: files) s := by
  have hone {α : Type} (above below : Option α) (get : Portion → Option α) (old : α) :
      (above.or below).getD (above.getD ((get d).getD old)) =
        (above.or (below.or ([d].findSome? get))).getD old := by
    cases above <;> cases below <;> cases hget : get d <;> simp [hget]
  simp only [merged, Portion.upon, List.reverse_cons, List.findSome?_append, Settings.mk.injEq]
  exact ⟨hone _ _ _ _, hone _ _ _ _, hone _ _ _ _, hone _ _ _ _⟩

/-- Laying the same environment over settings once more changes nothing. -/
theorem merged_nil_upon (environment d : Portion) (s : Settings) :
    merged environment [] (environment.upon (d.upon s)) = environment.upon (d.upon s) := by
  rw [merged_upon, upon_eq_merged]

/-- Files laid over settings in order. -/
theorem overrideAll_eq (henv : around.HasEnvironment environment) (h : start.Writable)
    {files : List (List Char × Portion)} (hne : files ≠ [])
    (hfiles : ∀ f ∈ files, around.HasFile f.1 f.2) :
    start.overrideAll around (files.map (·.1)) =
      .ok (merged environment (files.map (·.2)) start) := by
  induction files generalizing start with
  | nil => exact absurd rfl hne
  | cons f rest ih =>
    obtain ⟨hoverride, hwritable⟩ := override_eq h (hfiles f List.mem_cons_self) henv
    have hfirst : start.overrideAll around ((f :: rest).map (·.1)) =
        (environment.upon (f.2.upon start)).overrideAll around (rest.map (·.1)) := by
      rw [overrideAll, List.map_cons, List.foldlM_cons, hoverride]
      rfl
    rw [hfirst, List.map_cons, ← merged_upon]
    cases rest with
    | nil =>
      simp only [List.map_nil, merged_nil_upon]
      rfl
    | cons next more =>
      exact ih hwritable (List.cons_ne_nil next more) fun g hg =>
        hfiles g (List.mem_cons_of_mem f hg)

/-- A file that is laid over settings once more changes nothing. -/
theorem merged_twice (environment : Portion) {files : List Portion} {last : Portion}
    (hlast : files.getLast? = some last) (s : Settings) :
    merged environment (files ++ [last]) s = merged environment files s := by
  obtain ⟨early, rfl⟩ := List.getLast?_eq_some_iff.1 hlast
  have htwice {α : Type} (get : Portion → Option α) :
      (early ++ [last] ++ [last]).reverse.findSome? get =
        (early ++ [last]).reverse.findSome? get := by
    simp only [List.reverse_append, List.reverse_singleton, List.singleton_append,
      List.findSome?_cons]
    cases get last <;> rfl
  simp only [merged, htwice]

/-- Settings that no layer can hold are refused, whatever is to be laid over them. -/
theorem override_of_not_writable (h : ¬ start.Writable) (around : Surroundings)
    (path : List Char) : ∃ n, start.override around path = .error (.tooLarge n) := by
  have hfault : ∃ n, start.entries = .error (.tooLarge n) := by
    by_cases hrequest : start.requestTimeout ≤ greatest
    · by_cases hpage : start.pageSize ≤ greatest
      · have hbuffer : ¬ start.bufferSize ≤ greatest :=
          fun hbuffer => h ⟨hrequest, hpage, hbuffer⟩
        exact ⟨start.bufferSize, by
          simp only [entries, ofNumber, if_pos hrequest, if_pos hpage, if_neg hbuffer, bind,
            Except.bind]⟩
      · exact ⟨start.pageSize, by
          simp only [entries, ofNumber, if_pos hrequest, if_neg hpage, bind, Except.bind]⟩
    · exact ⟨start.requestTimeout, by
        simp only [entries, ofNumber, if_neg hrequest, bind, Except.bind]⟩
  obtain ⟨n, hn⟩ := hfault
  exact ⟨n, by simp only [override, layered, hn, bind, Except.bind]⟩

/-! ### The law -/

/-- Each setting comes out by itself: as the environment has it, else as the last file that has
it, else as it was at the start. Loading does the same to the defaults with the one file that the
environment names. Settings that no layer can hold are refused. -/
theorem settings_merge_one_by_one (henv : around.HasEnvironment environment) :
    (∀ start : Settings, start.Writable → ∀ files : List (List Char × Portion), files ≠ [] →
      (∀ f ∈ files, around.HasFile f.1 f.2) →
        start.overrideAll around (files.map (·.1)) =
            .ok (merged environment (files.map (·.2)) start) ∧
          ∀ f, files.getLast? = some f →
            start.overrideAll around (files.map (·.1) ++ [f.1]) =
              start.overrideAll around (files.map (·.1))) ∧
      (∀ path d, around.filePath? = some path → around.HasFile path d →
        load around = .ok (merged environment [d] {})) ∧
      (around.filePath? = none → load around = .ok (merged environment [] {})) ∧
      ∀ start : Settings, ¬ start.Writable → ∀ path, ∃ n,
        start.override around path = .error (.tooLarge n) := by
  refine ⟨fun start hstart files hne hfiles => ?_, fun path d hpath hfile => ?_, fun hpath => ?_,
    fun start hstart path => override_of_not_writable hstart around path⟩
  · have hall := overrideAll_eq henv hstart hne hfiles
    refine ⟨hall, fun f hf => ?_⟩
    have hagain : ∀ g ∈ files ++ [f], around.HasFile g.1 g.2 := by
      intro g hg
      rcases List.mem_append.1 hg with hg | hg
      · exact hfiles g hg
      · rw [List.mem_singleton.1 hg]
        exact hfiles f (List.mem_of_getLast? hf)
    have htwice := overrideAll_eq henv hstart (List.append_ne_nil_of_left_ne_nil hne [f]) hagain
    have hlast : (files.map (·.2)).getLast? = some f.2 := by rw [List.getLast?_map, hf]; rfl
    rw [List.map_append, List.map_append, List.map_singleton, List.map_singleton,
      merged_twice environment hlast] at htwice
    rw [htwice, hall]
  · rw [load_eq hpath hfile henv, upon_eq_merged]
  · rw [load_eq_of_none hpath henv, upon_eq_merged]
    rfl

/-- Two files and a variable that have some settings each, laid over settings and over the
defaults. -/
theorem settings_merge_one_by_one_of_two_files :
    let around : Surroundings := {
      environment := [⟨"KVBROKER__LIST_PAGE_SIZE".toList, ['9']⟩]
      files := [
        ⟨"a.toml".toList, "list_page_size = 2\n[watch]\nwatcher_buffer_size = 64\nx = 1\n".toList⟩,
        ⟨"b.toml".toList, "y = [1]\n[WATCH]\nslow_subscriber_policy = 'Block'\n".toList⟩] }
    let environment : Portion := { pageSize := some 9 }
    let files : List (List Char × Portion) := [
      ("a.toml".toList, { pageSize := some 2, bufferSize := some 64 }),
      ("b.toml".toList, { slowPolicy := some .block })]
    let start : Settings := { requestTimeout := 50, slowPolicy := .dropAndSignal }
    let named : Surroundings :=
      { around with environment := ⟨"CONFIG_PATH".toList, ['a']⟩ :: around.environment }
    around.HasEnvironment environment ∧ start.Writable ∧ files ≠ [] ∧
      (∀ f ∈ files, around.HasFile f.1 f.2) ∧
      start.overrideAll around (files.map (·.1)) =
        .ok { requestTimeout := 50, pageSize := 9, bufferSize := 64, slowPolicy := .block } ∧
      load around = .ok { pageSize := 9 } ∧
      named.HasEnvironment environment ∧ named.filePath? = some ['a'] ∧
      named.HasFile ['a'] { pageSize := some 2, bufferSize := some 64 } ∧
      load named = .ok { pageSize := 9, bufferSize := 64 } ∧
      ¬ ({ pageSize := signedLimit } : Settings).Writable ∧
      ∃ n, ({ pageSize := signedLimit } : Settings).override around ['a'] =
        .error (.tooLarge n) := by
  intro around environment files start named
  have henv : around.HasEnvironment environment := by decide +kernel
  have hnamed : named.HasEnvironment environment := by decide +kernel
  have hstart : start.Writable := by decide
  have hfiles : ∀ f ∈ files, around.HasFile f.1 f.2 := by decide +kernel
  have hfile : named.HasFile ['a'] { pageSize := some 2, bufferSize := some 64 } := by
    decide +kernel
  have hlarge : ¬ ({ pageSize := signedLimit } : Settings).Writable := by decide
  obtain ⟨hoverride, -, hload, hrefused⟩ := settings_merge_one_by_one henv
  obtain ⟨-, hloadfile, -⟩ := settings_merge_one_by_one hnamed
  exact ⟨henv, hstart, by decide, hfiles, (hoverride start hstart files (by decide) hfiles).1,
    hload (by decide), hnamed, by decide, hfile, hloadfile ['a'] _ (by decide) hfile, hlarge,
    hrefused _ hlarge ['a']⟩

/-- Settings do not merge where an unknown name leads to them, where it leads nowhere, and where
there is no file. A file without settings fails for the item of a list that has none before its
first; an item of the watch section takes the place of the settings there; and without a file the
environment is not looked at. -/
theorem settings_not_merged :
    let around : Surroundings := {
      environment := [⟨"KVBROKER__LIST_PAGE_SIZE".toList, ['9']⟩]
      files := [
        ⟨"before.toml".toList, "\"x[-1]\" = 1\n".toList⟩,
        ⟨"within.toml".toList, "\"watch[0]\" = 5\n".toList⟩] }
    let start : Settings := { slowPolicy := .dropAndSignal }
    (start.overrideAll around ["before.toml".toList]).toOption = none ∧
      (start.overrideAll around ["within.toml".toList]).toOption =
        some { pageSize := 9, bufferSize := 5, slowPolicy := .block } ∧
      (start.overrideAll around []).toOption = some start := by
  decide +kernel

end KeyBroker.Settings
