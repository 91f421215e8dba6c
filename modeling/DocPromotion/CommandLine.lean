import DocPromotion.FileSystem
import DocPromotion.Flag
import DocPromotion.LogRecord.Line
import DocPromotion.Settings.Format
import DocPromotion.Source.Refactor

/-!
The command line.

`Invocation.ofArgs` reads the arguments, `Invocation.job` adds the settings file, and `Job.treat`
says what is done about one file, given its contents.  `run` puts them together over a file system
that is a value: files are treated one after the other, and each one sees what the ones before it
have left.
-/

namespace DocPromotion

/-! ### Arguments -/

/-- A flag of the command line with its value. -/
inductive CommandFlag where
  /-- Whether files are overwritten. -/
  | write (on : Bool)
  /-- Whether all records are shown. -/
  | verbose (on : Bool)
  /-- The path of the settings file. -/
  | config (path : Text)
  | setting (setting : Setting)
deriving Repr, DecidableEq

/-- The variables that the flags of the command line write to. -/
structure CommandValues where
  write : Bool
  verbose : Bool
  /-- The path of the settings file; an empty one means that there is none. -/
  config : Text
  rules : Config
deriving Repr, DecidableEq

namespace CommandValues

/-- The variables before any flag has been given. -/
def default : CommandValues := ⟨false, false, [], .default⟩

/-- The variables after a flag has been given a value. -/
def set (v : CommandValues) : CommandFlag → CommandValues
  | .write on => { v with write := on }
  | .verbose on => { v with verbose := on }
  | .config path => { v with config := path }
  | .setting s => { v with rules := v.rules.set s }

/-- The text that shows the value of a flag. -/
def shown (v : CommandValues) (name : Text) : Text :=
  if name = "w" then boolWord v.write
  else if name = "v" then boolWord v.verbose
  else if name = "config" then v.config
  else v.rules.shownFlag name

end CommandValues

/-- A switch of the command line itself; it is off by default. -/
def commandSwitch (name usage : Text) (make : Bool → CommandFlag) : Flag CommandFlag where
  name := name
  isSwitch := true
  placeholder := []
  usage := usage
  default? := none
  read t :=
    match readWord? boolWords t with
    | some on => .ok (make on)
    | none => .error "parse error"

/-- The flag for the settings file. -/
def configFlag : Flag CommandFlag where
  name := "config"
  isSwitch := false
  placeholder := "file"
  usage := "YAML settings file"
  default? := none
  read t := .ok (.config t)

/-- A flag of the rules as a flag of the command line. -/
def Flag.ofRuleFlag (f : Flag Setting) : Flag CommandFlag where
  name := f.name
  isSwitch := f.isSwitch
  placeholder := f.placeholder
  usage := f.usage
  default? := f.default?
  read t := (f.read t).map CommandFlag.setting

/-- All flags of the command line. -/
def commandFlags : List (Flag CommandFlag) :=
  [commandSwitch "w" "write result to source files instead of standard output" .write,
    commandSwitch "v" "log skipped and changed declarations" .verbose, configFlag]
  ++ ruleFlags.map Flag.ofRuleFlag

/-- Why arguments are refused. -/
inductive Refusal where
  | badFlags (error : FlagError)
  /-- No file is named. -/
  | noFiles
deriving Repr, DecidableEq

namespace Refusal

/-- What is printed about refused arguments.  Whoever asks for help just gets it. -/
def message : Refusal → Text
  | .badFlags .help => "Usage of strictdoc:\n" ++ Flag.usageText commandFlags
  | .badFlags e => e.message ++ "\nUsage of strictdoc:\n" ++ Flag.usageText commandFlags
  | .noFiles => "usage: strictdoc [flags] file.yaml...\n" ++ Flag.usageText commandFlags

/-- The exit status for refused arguments. -/
def status : Refusal → Nat
  | .badFlags .help => 0
  | _ => 2

end Refusal

/-- What the arguments ask for. -/
structure Invocation where
  write : Bool
  verbose : Bool
  /-- The path of the settings file; an empty one means that there is none. -/
  config : Text
  /-- The flags as an option. -/
  flags : Options
  /-- The paths of the files to treat. -/
  names : List Text
deriving Repr

namespace Invocation

/-- What flags with some arguments after them ask for. -/
def ofGiven (given : List (Text × CommandFlag)) (names : List Text) : Invocation :=
  let s := FlagState.ofGiven CommandValues.set .default given
  ⟨s.values.write, s.values.verbose, s.values.config,
    .flags s.values.rules (s.visited CommandValues.shown), names⟩

/-- What the arguments ask for.  At least one file has to be named. -/
def ofArgs (args : List Text) : Except Refusal Invocation :=
  let parsed := Flag.parseArgs commandFlags args
  match parsed.error with
  | some e => .error (.badFlags e)
  | none => if parsed.rest.isEmpty then .error .noFiles else .ok (ofGiven parsed.given parsed.rest)

end Invocation

/-! ### Settings -/

/-- Why there are no settings. -/
inductive ConfigError where
  | unreadable (error : FileError)
  | unloadable (path : Text) (error : SettingsFileError)
deriving Repr, DecidableEq

/-- The wording of an error. -/
def ConfigError.message : ConfigError → Text
  | .unreadable e => e.message
  | .unloadable path e => e.message path

/-- What is the same for all files. -/
structure Job where
  write : Bool
  verbose : Bool
  config : Config
deriving Repr, DecidableEq

/-- The lines of the records that are shown. -/
def logText (verbose : Bool) (records : List LogRecord) : Text :=
  (records.filter fun r => verbose || r.severity != .debug).flatMap LogRecord.line

namespace Invocation

/-- The settings, from the settings file if one is named; `read` reads a file. -/
def settings (i : Invocation) (read : Text → Except FileError Text) :
    Except ConfigError Settings :=
  if i.config.isEmpty then .ok .empty
  else do
    let t ← (read i.config).mapError .unreadable
    (Settings.load t).mapError (.unloadable i.config)

/-- The options from the command line.  The program always keeps records. -/
def options (i : Invocation) : Options := .nested [i.flags, .setting (.logger true)]

/-- The options from the settings and from the command line, which decides. -/
def allOptions (i : Invocation) (s : Settings) : Options := s.build [i.options]

/-- What is done about every file. -/
def job (i : Invocation) (s : Settings) : Job := ⟨i.write, i.verbose, (i.allOptions s).config⟩

/-- The records before any file is treated. -/
def preamble (i : Invocation) (s : Settings) : List LogRecord :=
  ⟨.debug, "Options", [("options", i.options.logged), ("settings", s.options.logged)]⟩
    :: (i.allOptions s).warnings

/-- The record of settings that cannot be loaded. -/
def failureRecord (i : Invocation) (e : ConfigError) : LogRecord :=
  ⟨.error, "Can't load settings", [("config", .text i.config), ("error", .text e.message)]⟩

end Invocation

/-! ### Files -/

/-- What went wrong with a file. -/
inductive Failure where
  | unreadable (error : FileError)
  | unloadable (error : LoadError)
  /-- Some statements were refused; all others were treated. -/
  | rejected (errors : List DeclarationError)
deriving Repr, DecidableEq

/-- The wording of a failure. -/
def Failure.message : Failure → Text
  | .unreadable e => e.message
  | .unloadable e => e.message
  | .rejected errors => Text.joinWith "\n" (errors.map DeclarationError.message)

/-- The record of a failure at the file with a path. -/
def Failure.record (path : Text) (e : Failure) : LogRecord :=
  ⟨.error, "Refactoring failed", [("file", .text path), ("error", .text e.message)]⟩

/-- What is done about a file. -/
structure Treatment where
  records : List LogRecord
  /-- What is printed. -/
  printed : Text
  /-- What the file is overwritten with, if it is overwritten. -/
  written : Option Text
  failure : Option Failure
deriving Repr

namespace Treatment

/-- Nothing is done about a file but to report a failure. -/
def failed (path : Text) (e : Failure) : Treatment := ⟨[e.record path], [], none, some e⟩

/-- The exit status after a file has been treated. -/
def status (t : Treatment) : Nat := if t.failure.isSome then 1 else 0

end Treatment

/-- The failure that a report of a file amounts to. -/
def Report.failure? (r : Report) : Option Failure :=
  if r.errors.isEmpty then none else some (.rejected r.errors)

namespace Job

/-- What is done about the file with a path, given its contents: it is printed, or else
overwritten if something has changed. -/
def treat (job : Job) (path : Text) (contents : Except FileError Text) : Treatment :=
  match contents with
  | .error e => .failed path (.unreadable e)
  | .ok t =>
    match SourceFile.load t with
    | .error e => .failed path (.unloadable e)
    | .ok f =>
      let (f, report) := f.refactor job.config
      let summary : LogRecord :=
        ⟨.debug, "Refactored", [("file", .text path), ("changed", .count report.changed)]⟩
      let failure := report.failure?
      { records := report.records ++ summary :: failure.toList.map (Failure.record path)
        printed := if job.write then [] else f.encode
        written := if job.write && 0 < report.changed then some f.encode else none
        failure := failure }

end Job

/-! ### Runs -/

/-- What a run leaves behind. -/
structure RunResult where
  files : FileSystem
  stdout : Text
  stderr : Text
  status : Nat
deriving Repr, DecidableEq

namespace RunResult

/-- A run that does nothing. -/
def idle (fs : FileSystem) : RunResult := ⟨fs, [], [], 0⟩

/-- A run and one after it. -/
def andThen (r : RunResult) (next : FileSystem → RunResult) : RunResult :=
  let s := next r.files
  ⟨s.files, r.stdout ++ s.stdout, r.stderr ++ s.stderr, max r.status s.status⟩

end RunResult

namespace Job

/-- Treats the file with a path. -/
def runFile (job : Job) (path : Text) (fs : FileSystem) : RunResult :=
  let t := job.treat path (fs.read path)
  { files := match t.written with
      | some contents => fs.write path contents
      | none => fs
    stdout := t.printed
    stderr := logText job.verbose t.records
    status := t.status }

/-- Treats files one after the other. -/
def runFiles (job : Job) : List Text → FileSystem → RunResult
  | [], fs => .idle fs
  | path :: paths, fs => (job.runFile path fs).andThen (job.runFiles paths)

end Job

/-- Runs an invocation. -/
def Invocation.run (i : Invocation) (fs : FileSystem) : RunResult :=
  match i.settings fs.read with
  | .error e => ⟨fs, [], logText i.verbose [i.failureRecord e], 1⟩
  | .ok s =>
    let first : RunResult := ⟨fs, [], logText i.verbose (i.preamble s), 0⟩
    first.andThen ((i.job s).runFiles i.names)

/-- Runs the program with the given arguments on a file system. -/
def run (args : List Text) (fs : FileSystem) : RunResult :=
  match Invocation.ofArgs args with
  | .error refusal => ⟨fs, [], refusal.message, refusal.status⟩
  | .ok i => i.run fs

end DocPromotion
