import DocPromotion.Proofs.LastSetting
import DocPromotion.Proofs.NoSettings
import DocPromotion.Proofs.Reloading
import DocPromotion.Proofs.SequentialRuns

/-!
Files that are loaded again, and runs that are made again.

A file that has been written is loaded as it was, up to what is not written, and whatever is asked
about it has the same answer (`SourceFile.IsReloadOf`).  For runs this means that a second one
leaves every file as it is.  While a run goes on, every path leads to what was there at first or to
a file that has been rewritten (`FileSystem.Rewrites`).  In a file that has been rewritten nothing
is left to be changed, and it is no settings file any more.  When the run is over, nothing is left
to be changed in any of its files (`Job.rewrites_runFiles`).

All of this needs imports that can be told apart.  The end of this file has three files whose
imports cannot (`reload_of_imports_not_apart`).
-/

namespace DocPromotion

/-! ### Files that stay as they are -/

/-- A file whose text is read back, and whose names stand for the same classes then. -/
structure SourceFile.Legible (f : SourceFile) : Prop where
  aliases : AliasesApart f.uses
  text : Yaml.readsBack f.toNode = true

namespace FileSystem

/-- Whoever reads a file after another one has been written finds the file as it was, or what has
been written. -/
theorem read_write (fs : FileSystem) (p q contents : Text) :
    (fs.write p contents).read q = fs.read q ∨ (fs.write p contents).read q = .ok contents := by
  unfold read
  rw [find?_write, whyNot_write]
  split
  · exact .inl rfl
  split
  · exact .inl rfl
  split
  · exact .inl rfl
  split
  · exact .inl rfl
  cases fs.files.find? (leadsTo q) with
  | none => exact .inl rfl
  | some file =>
    rw [Option.map_some, rewriteEntry]
    cases leadsTo p file with
    | false => exact .inl rfl
    | true =>
      cases namesDirectory q with
      | true => exact .inl rfl
      | false => exact .inr rfl

/-- A path leads to no file in which something would be changed. -/
def Settled (c : Config) (fs : FileSystem) (q : Text) : Prop :=
  ∀ f, fs.source? q = some f → (f.refactor c).2.changed = 0

/-- A path leads to a file as a run leaves it: it can be loaded again, and nothing in it would be
changed. -/
def Rewritten (c : Config) (fs : FileSystem) (q : Text) : Prop :=
  ∃ f : SourceFile, fs.read q = .ok f.encode ∧ f.Legible ∧ (f.refactor c).2.changed = 0

/-- Files after some of them have been rewritten. -/
def Rewrites (c : Config) (fs fs' : FileSystem) : Prop :=
  ∀ q, fs'.read q = fs.read q ∨ fs'.Rewritten c q

variable {c : Config} {fs fs' fs'' : FileSystem} {p q : Text}

theorem Rewritten.settled (h : fs.Rewritten c q) : fs.Settled c q := by
  obtain ⟨f, hread, hlegible, hchanged⟩ := h
  intro g hg
  rw [source?, hread] at hg
  by_cases hkeys : KeysApart f.uses
  · -- what has been loaded is refactored as what was written
    simp only [SourceFile.load_encode hkeys hlegible.text, Except.toOption] at hg
    obtain rfl := Option.some.inj hg
    rw [SourceFile.report_refactor_normal c hlegible.aliases, hchanged]
  · cases hload : SourceFile.load f.encode with
    | error e => simp [hload, Except.toOption] at hg
    | ok g' => exact absurd hload (SourceFile.load_encode_of_clash hkeys hlegible.text g')

theorem Rewrites.refl (c : Config) (fs : FileSystem) : Rewrites c fs fs := fun _ => .inl rfl

theorem Rewrites.trans (h : Rewrites c fs fs') (h' : Rewrites c fs' fs'') :
    Rewrites c fs fs'' := by
  intro q
  rcases h' q with hread' | hrewritten'
  · rcases h q with hread | ⟨f, hread, hf⟩
    · exact .inl (hread'.trans hread)
    · exact .inr ⟨f, hread'.trans hread, hf⟩
  · exact .inr hrewritten'

theorem Settled.of_read (h : fs.Settled c q) (hread : fs'.read q = fs.read q) :
    fs'.Settled c q := by
  intro f hf
  rw [source?, hread] at hf
  exact h f hf

/-- A file in which nothing would be changed stays like this. -/
theorem Settled.of_rewrites (h : fs.Settled c q) (hrewrites : Rewrites c fs fs') :
    fs'.Settled c q := by
  rcases hrewrites q with hread | hrewritten
  · exact h.of_read hread
  · exact hrewritten.settled

end FileSystem

/-! ### Two runs -/

namespace Job

variable {job : Job} {fs₀ fs : FileSystem} {path : Text} {paths : List Text}

open FileSystem (Rewrites Settled)

/-- What a job writes to a file that it finds as it was at first can be loaded again. -/
def WritesLegible (job : Job) (fs₀ : FileSystem) (path : Text) : Prop :=
  ∀ f, fs₀.source? path = some f → 0 < (f.refactor job.config).2.changed →
    (f.refactor job.config).1.Legible

/-- **What one file makes of the others.**  `fs₀` are the files at first, `fs` those that have been
left by treating other files. -/
theorem rewrites_runFile (hwrite : job.write = true) (hpath : job.WritesLegible fs₀ path)
    (h : Rewrites job.config fs₀ fs) :
    Rewrites job.config fs (job.runFile path fs).files ∧
      (job.runFile path fs).files.Settled job.config path := by
  have htreats := job.treatsFile_runFile path fs
  by_cases hsettled : fs.Settled job.config path
  · rw [htreats.kept hwrite hsettled]
    exact ⟨.refl _ fs, hsettled⟩
  · -- the file is found as it was at first, since nothing changes in one that has been rewritten
    obtain ⟨f, hf, hchanged⟩ : ∃ f, fs.source? path = some f ∧
        (f.refactor job.config).2.changed ≠ 0 := by
      unfold FileSystem.Settled at hsettled
      push Not at hsettled
      exact hsettled
    have hread : fs.read path = fs₀.read path := by
      rcases h path with hread | hrewritten
      · exact hread
      · exact absurd hrewritten.settled hsettled
    have hf₀ : fs₀.source? path = some f := by
      rwa [FileSystem.source?, hread] at hf
    have hlegible := hpath f hf₀ (Nat.pos_of_ne_zero hchanged)
    obtain ⟨hfiles, hown, -⟩ := htreats.overwritten hwrite f hf (Nat.pos_of_ne_zero hchanged)
    have hrepeat := (SourceFile.isRepeat_refactor job.config f).1
    constructor
    · -- another path may lead to the same file
      intro q
      rw [hfiles]
      rcases fs.read_write path q (f.refactor job.config).1.encode with hread | hread
      · exact .inl hread
      · exact .inr ⟨_, hread, hlegible, hrepeat⟩
    · exact FileSystem.Rewritten.settled ⟨_, hown, hlegible, hrepeat⟩

/-- **What a job makes of its files.**  In none of them, something is left to be changed. -/
theorem rewrites_runFiles (hwrite : job.write = true)
    (hpaths : ∀ path ∈ paths, job.WritesLegible fs₀ path) (h : Rewrites job.config fs₀ fs) :
    Rewrites job.config fs (job.runFiles paths fs).files ∧
      ∀ path ∈ paths, (job.runFiles paths fs).files.Settled job.config path := by
  induction paths generalizing fs with
  | nil => exact ⟨.refl _ fs, nofun⟩
  | cons path paths ih =>
    rw [List.forall_mem_cons] at hpaths
    obtain ⟨hfirst, hsettled⟩ := rewrites_runFile hwrite hpaths.1 h
    obtain ⟨hrest, hall⟩ := ih hpaths.2 (h.trans hfirst)
    refine ⟨hfirst.trans hrest, ?_⟩
    rw [List.forall_mem_cons]
    exact ⟨hsettled.of_rewrites hrest, hall⟩

/-- A job that has nothing to change writes no file. -/
theorem files_runFiles (h : job.write = true → ∀ path ∈ paths, fs.Settled job.config path) :
    (job.runFiles paths fs).files = fs := by
  induction paths with
  | nil => rfl
  | cons path paths ih =>
    have htreats := job.treatsFile_runFile path fs
    have hfirst : (job.runFile path fs).files = fs := by
      cases hwrite : job.write with
      | false => exact htreats.unwritten hwrite
      | true => exact htreats.kept hwrite (h hwrite path List.mem_cons_self)
    show (job.runFiles paths (job.runFile path fs).files).files = fs
    rw [hfirst]
    exact ih fun hwrite path' hpath' => h hwrite path' (List.mem_cons_of_mem _ hpath')

end Job

namespace Invocation

variable {i : Invocation} {fs : FileSystem} {s : Settings}

theorem files_run_of_error {e : ConfigError} (h : i.settings fs.read = .error e) :
    (i.run fs).files = fs := by
  rw [Invocation.run, h]

theorem files_run_of_ok (h : i.settings fs.read = .ok s) :
    (i.run fs).files = ((i.job s).runFiles i.names fs).files := by
  rw [Invocation.run, h]
  rfl

/-- The settings are found as they were, or not at all if their file has been rewritten. -/
theorem settings_of_rewrites {c : Config} {fs' : FileSystem} (hs : i.settings fs.read = .ok s)
    (h : FileSystem.Rewrites c fs fs') :
    i.settings fs'.read = .ok s ∨ ∃ e, i.settings fs'.read = .error e := by
  unfold settings at hs ⊢
  split
  next hnone =>
    rw [if_pos hnone] at hs
    exact .inl hs
  next hsome =>
    rw [if_neg hsome] at hs
    rcases h i.config with hread | ⟨f, hread, hlegible, -⟩
    · rw [hread]
      exact .inl hs
    · rw [hread]
      cases hload : Settings.load f.encode with
      | error e => exact .inr ⟨.unloadable i.config e, by
          show (Settings.load f.encode).mapError _ = _
          rw [hload]
          rfl⟩
      | ok s' => exact absurd hload (SourceFile.settings_load_encode hlegible.text s')

/-- **A second run leaves every file as it is.** -/
theorem files_run_run (h : ∀ s, i.settings fs.read = .ok s → i.write = true →
      ∀ path ∈ i.names, (i.job s).WritesLegible fs path) :
    (i.run (i.run fs).files).files = (i.run fs).files := by
  cases hs : i.settings fs.read with
  | error e => rw [files_run_of_error hs, files_run_of_error hs]
  | ok s =>
    rw [files_run_of_ok hs]
    cases hwrite : i.write with
    | false =>
      have hfiles : ((i.job s).runFiles i.names fs).files = fs :=
        Job.files_runFiles fun hjob => absurd (hwrite.symm.trans hjob) nofun
      rw [hfiles, files_run_of_ok hs, hfiles]
    | true =>
      have hjob : (i.job s).write = true := hwrite
      obtain ⟨hrewrites, hsettled⟩ := Job.rewrites_runFiles hjob (h s hs hwrite) (.refl _ fs)
      -- if the settings file was one of the files, the second run stops at once
      rcases settings_of_rewrites hs hrewrites with hs' | ⟨e, he⟩
      · rw [files_run_of_ok hs', Job.files_runFiles fun _ => hsettled]
      · rw [files_run_of_error he]

end Invocation

/-! ### Loading and running again -/

/-- What is written by a run with `-w`: files in which something has changed. -/
def WrittenBy (args : List Text) (fs : FileSystem) (g : SourceFile) : Prop :=
  ∃ i s, Invocation.ofArgs args = .ok i ∧ i.settings fs.read = .ok s ∧ i.write = true ∧
    ∃ path ∈ i.names, ∃ f, fs.source? path = some f ∧
      0 < (f.refactor (i.job s).config).2.changed ∧ g = (f.refactor (i.job s).config).1

/-- A file that has been loaded for another one.  It is that file as far as it is written, every
name leads to the same class, every class has the same ancestors with the same methods, every
declaration has the same owner, the text is the same, and so is what refactoring does and says. -/
structure SourceFile.IsReloadOf (f g : SourceFile) : Prop where
  normal : g = f.normal
  resolve : ∀ name, g.imports.resolve name = f.imports.resolve name
  lookup : ∀ name, g.lookup name = f.lookup name
  ancestorDeclares : ∀ i name, g.ancestorDeclares i name = f.ancestorDeclares i name
  owner? : ∀ a, (Workspace.mk g [] [] []).owner? a =
    ((Workspace.mk f [] [] []).owner? a).map ClassDecl.normal
  encode : g.encode = f.encode
  refactored : ∀ c, (g.refactor c).1.normal = (f.refactor c).1.normal
  report : ∀ c, (g.refactor c).2 = (f.refactor c).2

theorem SourceFile.isReloadOf_normal {f : SourceFile} (h : ImportsApart f.uses) :
    f.IsReloadOf f.normal where
  normal := rfl
  resolve name := congrFun (sameHierarchy_normal h.aliases).resolve name
  lookup name := congrFun (sameHierarchy_normal h.aliases).lookup name
  ancestorDeclares i name := congrFun ((sameHierarchy_normal h.aliases).ancestorDeclares i) name
  owner? a := by
    cases a with
    | inClass cls index =>
      show (f.classes.map ClassDecl.normal)[cls]?.bind _ = (f.classes[cls]?.bind _).map _
      rw [List.getElem?_map]
      cases f.classes[cls]? with
      | none => rfl
      | some d =>
        have hlength : d.normal.methods.length = d.methods.length := List.length_map ..
        simp only [Option.map_some, Option.bind_some, hlength]
        split
        · rfl
        · rfl
    | loose index => rfl
    | foreign name => rfl
  encode := encode_normal h
  refactored c := normal_refactor_normal c h
  report c := report_refactor_normal c h.aliases

/-- **Loading undoes writing, and a second run leaves every file as it is.** -/
theorem load_encode_and_second_run :
    (∀ f : SourceFile, ImportsApart f.uses → Yaml.readsBack f.toNode = true →
      ∃ g, SourceFile.load f.encode = .ok g ∧ f.IsReloadOf g) ∧
    ∀ args fs, (∀ g, WrittenBy args fs g → g.Legible) →
      (run args (run args fs).files).files = (run args fs).files := by
  constructor
  · intro f huses htext
    exact ⟨f.normal, SourceFile.load_encode huses.keys htext, SourceFile.isReloadOf_normal huses⟩
  · intro args fs h
    unfold run
    cases hargs : Invocation.ofArgs args with
    | error refusal => rfl
    | ok i =>
      refine Invocation.files_run_run fun s hs hwrite path hpath f hf hchanged => ?_
      exact h _ ⟨i, s, hargs, hs, hwrite, path, hpath, f, hf, hchanged, rfl⟩

/-- Flags that have no field change nothing. -/
theorem Options.apply_flags_of_others (values : Config) {given : List GivenFlag}
    (h : ∀ f ∈ given, ∀ k : ConfigField, f.name ≠ k.key) (c : Config) :
    (Options.flags values given).apply c = c := by
  unfold Options.apply
  induction given with
  | nil => rfl
  | cons f given ih =>
    have hf : values.flagField? f.name = none :=
      values.flagField?_eq_none fun k _ => h f List.mem_cons_self k
    rw [List.foldl_cons, Config.copyFlag, hf]
    exact ih fun g hg => h g (List.mem_cons_of_mem f hg)

theorem Invocation.apply_flags_of_others {given : List (Text × CommandFlag)}
    (h : ∀ x ∈ given, x.1 ∈ (["w", "v", "config"] : List Text)) (names : List Text) (c : Config) :
    (ofGiven given names).flags.apply c = c := by
  refine Options.apply_flags_of_others _ (fun f hf k hk => ?_) c
  obtain ⟨x, hx, hname⟩ := (FlagState.mem_given_ofGiven _ _).mp (FlagState.mem_visited.mp hf).1
  have hmem := h x hx
  rw [hname, hk] at hmem
  simp [k.key_ne] at hmem

theorem Invocation.config_job {i : Invocation} (h : ∀ c, i.flags.apply c = c) :
    (i.job .empty).config = { Config.default with logger := some .standard } := by
  show (i.flags.apply .default).set (.logger (some .standard)) = _
  rw [h]
  rfl

/-- A file with two imports and a property, which has a declared type or a tag. -/
def reloadSample (declared : Text) (doc : Option DocBlock) : SourceFile :=
  ⟨[], [("A", "X"), ("B", "Z")], [⟨[], false, [], [], [⟨[], declared, doc⟩]⟩]⟩

/-- The sample with a tag. -/
def reloadSampleStart : SourceFile := reloadSample [] (some ⟨[], [], none, some ⟨[], "B", []⟩⟩)

/-- The sample with a declared type. -/
def reloadSampleResult : SourceFile := reloadSample "\\Z" none

/-- The sample as it is given. -/
def reloadSampleFiles : FileSystem :=
  ⟨[("a", "uses: {A: X, B: Z}\nclasses: [{properties: [{doc: {var: {type: B}}}]}]")]⟩

theorem writtenBy_sample {g : SourceFile} :
    WrittenBy ["-w", "a"] reloadSampleFiles g ↔ g = reloadSampleResult := by
  -- what the arguments ask for
  have hargs : Invocation.ofArgs ["-w", "a"] =
      .ok { Invocation.ofFlags ["-w"] with names := ["a"] } := by
    refine @Invocation.ofArgs_append ["-w"] ["a"] ⟨?_, ?_⟩ (by decide) ?_
    · decide +kernel
    · decide +kernel
    · unfold IsFileName
      decide +kernel
  have hwrite : (Invocation.ofFlags ["-w"]).write = true := by decide +kernel
  have hnone : (Invocation.ofFlags ["-w"]).config.isEmpty = true := by decide +kernel
  have hflags : ∀ c, (Invocation.ofFlags ["-w"]).flags.apply c = c :=
    Invocation.apply_flags_of_others (by decide +kernel) []
  generalize Invocation.ofFlags ["-w"] = i at hargs hwrite hnone hflags
  have hsettings : Invocation.settings { i with names := ["a"] } reloadSampleFiles.read =
      .ok .empty := by
    rw [Invocation.settings, if_pos hnone]
  have hconfig : (Invocation.job { i with names := ["a"] } .empty).config =
      { Config.default with logger := some .standard } := Invocation.config_job hflags
  -- what is found, and what is made of it
  have hsource : reloadSampleFiles.source? "a" = some reloadSampleStart := by decide +kernel
  have hresult : (reloadSampleStart.refactor { Config.default with logger := some .standard }).1 =
      reloadSampleResult := by decide +kernel
  have hchanged :
      0 < (reloadSampleStart.refactor
        { Config.default with logger := some .standard }).2.changed := by
    decide +kernel
  constructor
  · rintro ⟨i', s, hi', hs, -, path, hpath, f, hf, -, rfl⟩
    obtain rfl := Except.ok.inj (hargs.symm.trans hi')
    obtain rfl := Except.ok.inj (hsettings.symm.trans hs)
    obtain rfl : path = "a" := List.mem_singleton.mp hpath
    obtain rfl := Option.some.inj (hsource.symm.trans hf)
    rw [hconfig, hresult]
  · rintro rfl
    refine ⟨_, .empty, hargs, hsettings, hwrite, "a", List.mem_singleton_self _, _, hsource, ?_, ?_⟩
    · rw [hconfig]
      exact hchanged
    · rw [hconfig, hresult]

/-- The first run declares the type of the property, and the second run leaves that as it is. -/
theorem load_encode_and_second_run_sample :
    ImportsApart reloadSampleResult.uses ∧ Yaml.readsBack reloadSampleResult.toNode = true ∧
      (∃ g, SourceFile.load reloadSampleResult.encode = .ok g ∧
        reloadSampleResult.IsReloadOf g) ∧
      WrittenBy ["-w", "a"] reloadSampleFiles reloadSampleResult ∧
      (∀ g, WrittenBy ["-w", "a"] reloadSampleFiles g → g.Legible) ∧
      (run ["-w", "a"] (run ["-w", "a"] reloadSampleFiles).files).files =
        (run ["-w", "a"] reloadSampleFiles).files := by
  have hsorted : sortedUses reloadSampleResult.uses = reloadSampleResult.uses := by
    refine List.mergeSort_of_pairwise ?_
    decide +kernel
  have hapart : ImportsApart reloadSampleResult.uses := by
    refine ⟨?_, ?_, ?_⟩
    · unfold AliasesApart
      decide +kernel
    · unfold KeysApart
      decide +kernel
    · rw [hsorted]
      decide +kernel
  have htext : Yaml.readsBack reloadSampleResult.toNode = true := by
    rw [SourceFile.toNode, usesField, hsorted]
    decide +kernel
  have hlegible : ∀ g, WrittenBy ["-w", "a"] reloadSampleFiles g → g.Legible := by
    intro g hg
    rw [writtenBy_sample.mp hg]
    exact ⟨hapart.aliases, htext⟩
  exact ⟨hapart, htext, load_encode_and_second_run.1 _ hapart htext, writtenBy_sample.mpr rfl,
    hlegible, load_encode_and_second_run.2 _ _ hlegible⟩

/-! ### Imports that cannot be told apart -/

theorem sortedUses_pair {u v : Text × Text} (h : Text.naturalLess v.1 u.1 = true) :
    sortedUses [u, v] = [v, u] := by
  simp [sortedUses, List.mergeSort, h]

theorem sortedUses_triple {u v w : Text × Text} (hv : Text.naturalLess v.1 u.1 = false)
    (hw : Text.naturalLess w.1 u.1 = true) : sortedUses [u, v, w] = [w, u, v] := by
  simp [sortedUses, List.mergeSort, hv, hw]

/-- Aliases that are written as the same key.  One of them is not UTF-8, the other one is what is
written for it. -/
def clashingFile : SourceFile := ⟨[], [("/w==", "A"), ([0xFF], "B")], []⟩

theorem load_encode_clashingFile :
    Yaml.readsBack clashingFile.toNode = true ∧
      ∀ g, SourceFile.load clashingFile.encode ≠ .ok g := by
  have hsorted : sortedUses clashingFile.uses = clashingFile.uses := by
    refine List.mergeSort_of_pairwise ?_
    decide +kernel
  have htext : Yaml.readsBack clashingFile.toNode = true := by
    rw [SourceFile.toNode, usesField, hsorted]
    decide +kernel
  refine ⟨htext, SourceFile.load_encode_of_clash ?_ htext⟩
  unfold KeysApart
  decide +kernel

/-- Aliases that are the same up to case, and two properties.  The type of one is an alias, that of
the other one is declared or documented. -/
def foldedFile (uses : List (Text × Text)) (declared : Text) (doc : Option DocBlock) : SourceFile :=
  ⟨[], uses, [⟨[], false, [], [], [⟨[], [], some ⟨[], [], none, some ⟨[], "b", []⟩⟩⟩,
    ⟨[], declared, doc⟩]⟩]⟩

/-- What the first alias stands for is no class name. -/
def foldedUses : List (Text × Text) := [("b", "1"), ("B", "C")]

theorem load_encode_foldedFile :
    Yaml.readsBack (foldedFile foldedUses "int" none).toNode = true ∧
      SourceFile.load (foldedFile foldedUses "int" none).encode =
        .ok (foldedFile foldedUses.reverse "int" none) := by
  have hsorted : sortedUses (foldedFile foldedUses "int" none).uses = foldedUses.reverse :=
    sortedUses_pair (by decide +kernel)
  have htext : Yaml.readsBack (foldedFile foldedUses "int" none).toNode = true := by
    rw [SourceFile.toNode, usesField, hsorted]
    decide +kernel
  have hkeys : KeysApart (foldedFile foldedUses "int" none).uses := by
    unfold KeysApart
    decide +kernel
  refine ⟨htext, (SourceFile.load_encode hkeys htext).trans ?_⟩
  rw [SourceFile.normal, hsorted]
  rfl

/-- Aliases without an order: each of them comes before the next one, and the last one before the
first.  A digit that is not ASCII counts for more than nine. -/
def unorderedFile : SourceFile := ⟨[], [("1٣", "X"), ("10٣", "X"), ("1999", "X")], []⟩

/-- The same imports as they are loaded. -/
def reorderedFile : SourceFile := ⟨[], [("1999", "X"), ("1٣", "X"), ("10٣", "X")], []⟩

theorem load_encode_unorderedFile :
    Yaml.readsBack unorderedFile.toNode = true ∧
      SourceFile.load unorderedFile.encode = .ok reorderedFile ∧
      reorderedFile.encode ≠ unorderedFile.encode := by
  have hsorted : sortedUses unorderedFile.uses = reorderedFile.uses :=
    sortedUses_triple (by decide +kernel) (by decide +kernel)
  have hagain : sortedUses reorderedFile.uses =
      ([("10٣", "X"), ("1999", "X"), ("1٣", "X")] : List (Text × Text)) :=
    sortedUses_triple (by decide +kernel) (by decide +kernel)
  have htext : Yaml.readsBack unorderedFile.toNode = true := by
    rw [SourceFile.toNode, usesField, hsorted]
    decide +kernel
  have hkeys : KeysApart unorderedFile.uses := by
    unfold KeysApart
    decide +kernel
  refine ⟨htext, (SourceFile.load_encode hkeys htext).trans ?_, ?_⟩
  · rw [SourceFile.normal, hsorted]
    rfl
  · rw [SourceFile.encode, SourceFile.encode, SourceFile.toNode, usesField, hagain,
      SourceFile.toNode, usesField, hsorted]
    decide +kernel

/-- **Imports have to be told apart.**  All of these files can be loaded, and their texts are read
back.  The first one cannot be loaded again.  In the second one a name stands for another class
when it is loaded again after it has been refactored, and then it is refactored further.  The third
one gets another text. -/
theorem reload_of_imports_not_apart :
    (SourceFile.load "uses:\n  /w==: A\n  !!binary \"/w==\\n\": B\n" = .ok clashingFile ∧
      Yaml.readsBack clashingFile.toNode = true ∧
      ∀ g, SourceFile.load clashingFile.encode ≠ .ok g) ∧
    (SourceFile.load "uses: {b: 1, B: C}
classes: [{properties: [{doc: {var: {type: b}}}, {doc: {var: {type: int}}}]}]" =
        .ok (foldedFile foldedUses [] (some ⟨[], [], none, some ⟨[], "int", []⟩⟩)) ∧
      ((foldedFile foldedUses [] (some ⟨[], [], none, some ⟨[], "int", []⟩⟩)).refactor
        .default).1 = foldedFile foldedUses "int" none ∧
      Yaml.readsBack (foldedFile foldedUses "int" none).toNode = true ∧
      SourceFile.load (foldedFile foldedUses "int" none).encode =
        .ok (foldedFile foldedUses.reverse "int" none) ∧
      (foldedFile foldedUses.reverse "int" none).imports.resolve "b" ≠
        (foldedFile foldedUses "int" none).imports.resolve "b" ∧
      ((foldedFile foldedUses "int" none).refactor .default).2.changed = 0 ∧
      ((foldedFile foldedUses.reverse "int" none).refactor .default).2.changed = 1) ∧
    (SourceFile.load "uses:\n  1٣: X\n  10٣: X\n  1999: X\n" = .ok unorderedFile ∧
      Yaml.readsBack unorderedFile.toNode = true ∧
      SourceFile.load unorderedFile.encode = .ok reorderedFile ∧
      reorderedFile.encode ≠ unorderedFile.encode) := by
  refine ⟨⟨?_, load_encode_clashingFile⟩, ⟨?_, ?_, load_encode_foldedFile.1,
    load_encode_foldedFile.2, ?_, ?_, ?_⟩, ⟨?_, load_encode_unorderedFile⟩⟩
  · decide +kernel
  · decide +kernel
  · decide +kernel
  · decide +kernel
  · decide +kernel
  · decide +kernel
  · decide +kernel

end DocPromotion
