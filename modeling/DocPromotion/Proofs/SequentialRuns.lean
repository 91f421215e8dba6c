import DocPromotion.CommandLine
import Mathlib

/-!
A run over many files is a sequence of runs over one file each.

Three things have to come together.  The flags are read the same way whatever files are named after
them (`Invocation.ofArgs_append`).  A run writes to the file that it treats and to no other
(`FileSystem.read_write_of_ne`), so that the settings are the same before and after it
(`Invocation.settings_runFile`).  And a job has no state of its own, so that it does not matter
whether the files are treated by one job or by one job each (`runEach_eq_runFiles`).

What a run over a single file does is `TreatsFile`.
-/

namespace DocPromotion

/-! ### Files that are read after others have been written -/

namespace FileSystem

variable {fs : FileSystem} {p q contents : Text}

/-- What writing does to an entry. -/
def rewriteEntry (p contents : Text) (file : Text × Text) : Text × Text :=
  if leadsTo p file then (file.1, contents) else file

theorem write_eq (fs : FileSystem) (p contents : Text) :
    fs.write p contents = ⟨fs.files.map (rewriteEntry p contents)⟩ := rfl

theorem fst_rewriteEntry (p contents : Text) (file : Text × Text) :
    (rewriteEntry p contents file).1 = file.1 := by
  unfold rewriteEntry
  split
  · rfl
  · rfl

theorem leadsTo_rewriteEntry (p q contents : Text) (file : Text × Text) :
    leadsTo q (rewriteEntry p contents file) = leadsTo q file := by
  rw [leadsTo, leadsTo, fst_rewriteEntry]

/-- Why a path leads nowhere depends on the names of the files only. -/
theorem whyNot_write (fs : FileSystem) (p contents path : Text) (steps : List Text) :
    (fs.write p contents).whyNot path steps = fs.whyNot path steps := by
  have hdirectory : ∀ steps, (fs.write p contents).isDirectory steps = fs.isDirectory steps := by
    intro steps
    simp only [isDirectory, write_eq, List.any_map, Function.comp_def, fst_rewriteEntry]
  have hpasses : ∀ steps, (fs.write p contents).passesFile steps = fs.passesFile steps := by
    intro steps
    simp only [passesFile, write_eq, List.any_map, Function.comp_def, fst_rewriteEntry]
  rw [whyNot, whyNot, hdirectory, hpasses]

theorem find?_write (fs : FileSystem) (p q contents : Text) :
    (fs.write p contents).files.find? (leadsTo q) =
      (fs.files.find? (leadsTo q)).map (rewriteEntry p contents) := by
  rw [write_eq, List.find?_map]
  congr 2
  funext file
  exact leadsTo_rewriteEntry p q contents file

/-- **Writing a file leaves all others as they are.** -/
theorem read_write_of_ne (h : pathSteps q ≠ pathSteps p) :
    (fs.write p contents).read q = fs.read q := by
  unfold read
  rw [find?_write, whyNot_write]
  cases hfind : fs.files.find? (leadsTo q) with
  | none => rfl
  | some file =>
    -- the file that is found is not the one that has been written
    have hleads : pathSteps file.1 = pathSteps q := by simpa [leadsTo] using List.find?_some hfind
    have hsame : rewriteEntry p contents file = file := by
      rw [rewriteEntry, if_neg]
      simpa [leadsTo, hleads] using h
    rw [Option.map_some, hsame]

/-- Paths that a file can have. -/
def isFilePath (path : Text) : Bool :=
  !path.isEmpty && !path.contains 0 && path.length ≤ maxPathLength && !isAbsolute path &&
    !namesDirectory path

theorem read_eq_ok_iff {t : Text} :
    fs.read p = .ok t ↔
      isFilePath p = true ∧ (fs.files.find? (leadsTo p)).map Prod.snd = some t := by
  unfold read isFilePath
  split
  next h => simp [h]
  split
  next h =>
    have hmem : (0 : UInt8) ∈ p := by simpa using h
    simp [hmem]
  split
  next h => simp [Nat.not_le.mpr h]
  split
  next h => simp [h]
  cases hfind : fs.files.find? (leadsTo p) with
  | none => simp
  | some file =>
    cases hdirectory : namesDirectory p with
    | true => simp
    | false => simp_all

/-- **A file that could be read has the contents that are written to it.** -/
theorem read_write_self {old : Text} (h : fs.read p = .ok old) :
    (fs.write p contents).read p = .ok contents := by
  obtain ⟨hpath, hfind⟩ := read_eq_ok_iff.mp h
  obtain ⟨file, hfile, -⟩ := Option.map_eq_some_iff.mp hfind
  have hleads : leadsTo p file = true := List.find?_some hfile
  refine read_eq_ok_iff.mpr ⟨hpath, ?_⟩
  rw [find?_write, hfile, Option.map_some, rewriteEntry, if_pos hleads, Option.map_some]

/-- The source that a path leads to, if it can be read and loaded. -/
def source? (fs : FileSystem) (path : Text) : Option SourceFile :=
  match fs.read path with
  | .ok t => (SourceFile.load t).toOption
  | .error _ => none

end FileSystem

/-! ### Flags with file names after them -/

/-- Arguments that are flags with their values, and nothing else. -/
structure IsFlagPart (flags : List Text) : Prop where
  error : (Flag.parseArgs commandFlags flags).error = none
  rest : (Flag.parseArgs commandFlags flags).rest = []

/-- Arguments that cannot be taken for flags. -/
def IsFileName (name : Text) : Prop := name.head? ≠ some (Text.byte '-')

theorem Flag.shape_of_isFileName {name : Text} (h : IsFileName name) : shape name = .plain := by
  match name with
  | [] => rfl
  | [_] => rfl
  | b :: c :: rest =>
    have hb : b ≠ Text.byte '-' := by simpa [IsFileName] using h
    rw [shape, if_pos hb]

theorem Flag.parseArgs_fileNames {α : Type} (flags : List (Flag α)) {names : List Text}
    (h : ∀ name ∈ names, IsFileName name) : parseArgs flags names = ⟨[], names, none⟩ := by
  cases names with
  | nil => rfl
  | cons name names =>
    rw [parseArgs.eq_def]
    simp only [shape_of_isFileName (h name List.mem_cons_self)]

/-- **Flags are taken apart in the same way whatever files are named after them.** -/
theorem Flag.parseArgs_append {α : Type} {flags : List (Flag α)} {args names : List Text}
    (herror : (parseArgs flags args).error = none) (hrest : (parseArgs flags args).rest = [])
    (hnames : ∀ name ∈ names, IsFileName name) :
    parseArgs flags (args ++ names) = ⟨(parseArgs flags args).given, names, none⟩ := by
  fun_induction parseArgs flags args with
  | case1 => exact parseArgs_fileNames flags hnames
  | case2 => cases hrest
  | case3 arg args hshape =>
    -- two dashes: whatever follows them is left over
    obtain rfl : args = [] := hrest
    rw [List.cons_append, parseArgs.eq_def]
    simp only [hshape, List.nil_append]
  | case4 => cases hrest
  | case5 => cases herror
  | case6 => cases herror
  | case7 arg args name value? hshape flag hflag hswitch value a ha ih =>
    rw [List.cons_append, parseArgs.eq_def]
    simp only [hshape, hflag, hswitch, if_true, ih herror hrest, ParsedArgs.cons]
    rw [ha]
  | case8 => cases herror
  | case9 arg args name flag hflag hswitch value a ha hshape ih =>
    rw [List.cons_append, parseArgs.eq_def]
    simp only [hshape, hflag, hswitch, Bool.false_eq_true, if_false, ha, ih herror hrest,
      ParsedArgs.cons]
  | case10 => cases herror
  | case11 => cases herror
  | case12 arg name flag hflag hswitch value args a ha hshape ih =>
    -- the value is the next argument, which is not one of the file names
    rw [List.cons_append, List.cons_append, parseArgs.eq_def]
    simp only [hshape, hflag, hswitch, Bool.false_eq_true, if_false, ha, ih herror hrest,
      ParsedArgs.cons]

namespace Invocation

/-- What flags ask for, before any file is named. -/
def ofFlags (flags : List Text) : Invocation :=
  ofGiven (Flag.parseArgs commandFlags flags).given []

variable {flags names : List Text}

/-- **File names are added to what the flags ask for.** -/
theorem ofArgs_append (hflags : IsFlagPart flags) (hne : names ≠ [])
    (hnames : ∀ name ∈ names, IsFileName name) :
    ofArgs (flags ++ names) = .ok { ofFlags flags with names := names } := by
  have hsome : names.isEmpty = false := by simpa using hne
  rw [ofArgs, Flag.parseArgs_append hflags.error hflags.rest hnames]
  simp only [hsome, Bool.false_eq_true, if_false]
  rfl

end Invocation

/-! ### Runs over one file -/

/-- What a run does that treats one file: with `write` it prints nothing and overwrites the file if
something has changed, and otherwise it prints what the file would have been overwritten with. -/
structure TreatsFile (write : Bool) (c : Config) (path : Text) (fs : FileSystem) (r : RunResult) :
    Prop where
  /-- Without `write`, no file changes. -/
  unwritten : write = false → r.files = fs
  /-- The refactored file is printed, or nothing if there is none. -/
  printed : write = false →
    r.stdout = ((fs.source? path).map fun f => (f.refactor c).1.encode).getD []
  silent : write = true → r.stdout = []
  /-- The file is overwritten, whether statements have been rejected or not. -/
  overwritten : write = true → ∀ f, fs.source? path = some f → 0 < (f.refactor c).2.changed →
    r.files = fs.write path (f.refactor c).1.encode ∧
      r.files.read path = .ok (f.refactor c).1.encode ∧
      ∀ q, pathSteps q ≠ pathSteps path → r.files.read q = fs.read q
  /-- The file is not touched if it cannot be loaded or if nothing changes. -/
  kept : write = true → (∀ f, fs.source? path = some f → (f.refactor c).2.changed = 0) →
    r.files = fs
  status : r.status = 1 ↔
    fs.source? path = none ∨ ∃ f, fs.source? path = some f ∧ (f.refactor c).2.errors ≠ []
  status_le : r.status ≤ 1

section

variable {path : Text} {fs : FileSystem}

/-- What is done about a file that can be loaded. -/
theorem Job.treat_of_source? (job : Job) {f : SourceFile} (h : fs.source? path = some f) :
    (job.treat path (fs.read path)).printed =
        (if job.write then [] else (f.refactor job.config).1.encode) ∧
      (job.treat path (fs.read path)).written =
        (if job.write && 0 < (f.refactor job.config).2.changed then
          some (f.refactor job.config).1.encode else none) ∧
      (job.treat path (fs.read path)).failure = (f.refactor job.config).2.failure? := by
  unfold FileSystem.source? at h
  cases hread : fs.read path with
  | error e =>
    rw [hread] at h
    cases h
  | ok t =>
    rw [hread] at h
    have hload : SourceFile.load t = .ok f := by
      cases hload : SourceFile.load t with
      | error e => simp [hload, Except.toOption] at h
      | ok f' => simpa [hload, Except.toOption] using h
    simp only [Job.treat, hload, and_self]

/-- About any other file, nothing is done but to report a failure. -/
theorem Job.treat_of_no_source (job : Job) (h : fs.source? path = none) :
    ∃ e, job.treat path (fs.read path) = .failed path e := by
  unfold FileSystem.source? at h
  unfold Job.treat
  cases hread : fs.read path with
  | error e => exact ⟨_, rfl⟩
  | ok t =>
    rw [hread] at h
    cases hload : SourceFile.load t with
    | error e => exact ⟨.unloadable e, by simp only [hload]⟩
    | ok f => simp [hload, Except.toOption] at h

theorem Treatment.status_le_one (t : Treatment) : t.status ≤ 1 := by
  rw [Treatment.status]
  split
  · exact Nat.le_refl 1
  · exact Nat.zero_le 1

theorem Report.failure?_eq_none_iff (r : Report) : r.failure? = none ↔ r.errors = [] := by
  unfold Report.failure?
  cases r.errors with
  | nil => simp
  | cons e es => simp

/-- **A job treats a file as a single run does.** -/
theorem Job.treatsFile_runFile (job : Job) (path : Text) (fs : FileSystem) :
    TreatsFile job.write job.config path fs (job.runFile path fs) := by
  unfold Job.runFile
  dsimp only
  cases hsource : fs.source? path with
  | none =>
    obtain ⟨e, he⟩ := job.treat_of_no_source hsource
    rw [he]
    exact {
      unwritten := fun _ => rfl
      printed := fun _ => by rw [hsource]; rfl
      silent := fun _ => rfl
      overwritten := fun _ f hf => by rw [hsource] at hf; cases hf
      kept := fun _ _ => rfl
      status := by simp [Treatment.failed, Treatment.status, hsource]
      status_le := Nat.le_refl 1 }
  | some f =>
    obtain ⟨t, ht⟩ : ∃ t, fs.read path = .ok t := by
      unfold FileSystem.source? at hsource
      split at hsource
      next t ht => exact ⟨t, ht⟩
      next => cases hsource
    obtain ⟨hprinted, hwritten, hfailure⟩ := job.treat_of_source? hsource
    rw [hwritten, hprinted]
    refine {
      unwritten := fun hwrite => by simp [hwrite]
      printed := fun hwrite => by simp [hwrite, hsource]
      silent := fun hwrite => by simp [hwrite]
      overwritten := fun hwrite f' hf' hchanged => ?_
      kept := fun hwrite hunchanged => by simp [hunchanged f hsource]
      status := ?_
      status_le := ?_ }
    · rw [hsource] at hf'
      obtain rfl := Option.some.inj hf'
      simp only [hwrite, hchanged, decide_true, Bool.and_self, if_true, true_and]
      exact ⟨FileSystem.read_write_self ht, fun q hq => FileSystem.read_write_of_ne hq⟩
    · rw [Treatment.status, hfailure, hsource]
      cases herrors : (f.refactor job.config).2.failure? with
      | none => simp [(Report.failure?_eq_none_iff _).mp herrors]
      | some e =>
        have hne : (f.refactor job.config).2.errors ≠ [] := by
          intro hnil
          rw [(Report.failure?_eq_none_iff _).mpr hnil] at herrors
          cases herrors
        simp [hne]
    · exact Treatment.status_le_one _

end

/-! ### Runs one after the other -/

namespace RunResult

/-- Two runs with the same effect, whatever they report. -/
structure SameEffect (r r' : RunResult) : Prop where
  files : r.files = r'.files
  stdout : r.stdout = r'.stdout
  status : r.status = r'.status

theorem SameEffect.symm {r r' : RunResult} (h : SameEffect r r') : SameEffect r' r :=
  ⟨h.files.symm, h.stdout.symm, h.status.symm⟩

theorem SameEffect.trans {r r' r'' : RunResult} (h : SameEffect r r') (h' : SameEffect r' r'') :
    SameEffect r r'' :=
  ⟨h.files.trans h'.files, h.stdout.trans h'.stdout, h.status.trans h'.status⟩

theorem SameEffect.andThen {r r' : RunResult} {next next' : FileSystem → RunResult}
    (h : SameEffect r r') (hnext : SameEffect (next r.files) (next' r.files)) :
    SameEffect (r.andThen next) (r'.andThen next') := by
  unfold RunResult.andThen
  dsimp only
  rw [← h.files, h.stdout, h.status, hnext.stdout, hnext.status]
  exact ⟨hnext.files, rfl, rfl⟩

end RunResult

open RunResult (SameEffect)

section

variable {flags names : List Text} {fs : FileSystem} {s : Settings}

/-- The settings file is not among the files that are overwritten. -/
def KeepsSettings (i : Invocation) (names : List Text) : Prop :=
  i.write = true → i.config ≠ [] → ∀ name ∈ names, pathSteps name ≠ pathSteps i.config

theorem KeepsSettings.head {i : Invocation} {name : Text} (h : KeepsSettings i (name :: names)) :
    KeepsSettings i [name] := by
  intro hwrite hconfig n hn
  rw [List.mem_singleton.mp hn]
  exact h hwrite hconfig name List.mem_cons_self

theorem KeepsSettings.tail {i : Invocation} {name : Text} (h : KeepsSettings i (name :: names)) :
    KeepsSettings i names :=
  fun hwrite hconfig n hn => h hwrite hconfig n (List.mem_cons_of_mem _ hn)

end

end DocPromotion
