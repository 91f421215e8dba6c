import DocPromotion.Config

/-!
Command line flags.

Flags come before all other arguments.  A flag is written with one or two dashes; its value
follows after `=` or, unless the flag is a switch, as the next argument.  A switch without a value
is on.

Flags write to variables, which start with their defaults, each time that they occur.
-/

namespace DocPromotion

/-- A flag whose values are of type `α`. -/
structure Flag (α : Type) where
  name : Text
  /-- Switches take no argument of their own. -/
  isSwitch : Bool
  /-- What the value is called in the usage text; empty for switches. -/
  placeholder : Text
  usage : Text
  /-- The default as it is shown in the usage text, if it is shown. -/
  default? : Option Text
  /-- The value that a text stands for, or the reason why there is none. -/
  read : Text → Except Text α

/-- What can be wrong with the arguments. -/
inductive FlagError where
  | badFlag (argument : Text)
  | undefined (name : Text)
  /-- Help was asked for. -/
  | help
  | missingValue (name : Text)
  | badSwitch (value name reason : Text)
  | badValue (value name reason : Text)
deriving Repr, DecidableEq

/-- The wording of an error. -/
def FlagError.message : FlagError → Text
  | .badFlag argument => "bad flag syntax: " ++ argument
  | .undefined name => "flag provided but not defined: -" ++ name
  | .help => "flag: help requested"
  | .missingValue name => "flag needs an argument: -" ++ name
  | .badSwitch value name reason =>
    "invalid boolean value " ++ Text.quote value ++ " for -" ++ name ++ ": " ++ reason
  | .badValue value name reason =>
    "invalid value " ++ Text.quote value ++ " for flag -" ++ name ++ ": " ++ reason

/-- Arguments taken apart: the flags that were given, in order, and what follows them.  If there
is an error, the flags before it are kept. -/
structure ParsedArgs (α : Type) where
  given : List (Text × α)
  rest : List Text
  error : Option FlagError

/-- The arguments after a flag with a value, with the flag put in front. -/
def ParsedArgs.cons {α : Type} (name : Text) (a : α) (parsed : ParsedArgs α) :
    ParsedArgs α :=
  { parsed with given := (name, a) :: parsed.given }

namespace Flag

variable {α : Type}

/-- The shape of an argument. -/
inductive Shape where
  /-- Not a flag; the flags end before it. -/
  | plain
  /-- Two dashes; the flags end after it. -/
  | terminator
  | malformed
  | flag (name : Text) (value : Option Text)
deriving Repr, DecidableEq

/-- The shape of the text after the dashes of a flag. -/
def bodyShape : Text → Shape
  | [] => .malformed
  | b :: rest =>
    if b = Text.byte '-' ∨ b = Text.byte '=' then .malformed
    else
      let (name, value) := Text.cutAt (Text.byte '=') rest
      .flag (b :: name) value

/-- The shape of an argument. -/
def shape : Text → Shape
  | [] => .plain
  | [_] => .plain
  | b :: c :: rest =>
    if b ≠ Text.byte '-' then .plain
    else if c = Text.byte '-' then
      if rest = [] then .terminator else bodyShape rest
    else bodyShape (c :: rest)

/-- The error for a flag that is not defined. -/
def undefinedError (name : Text) : FlagError :=
  if name = "help" ∨ name = "h" then .help else .undefined name

/-- Takes arguments apart. -/
def parseArgs (flags : List (Flag α)) : List Text → ParsedArgs α
  | [] => ⟨[], [], none⟩
  | arg :: args =>
    match shape arg with
    | .plain => ⟨[], arg :: args, none⟩
    | .terminator => ⟨[], args, none⟩
    | .malformed => ⟨[], arg :: args, some (.badFlag arg)⟩
    | .flag name value? =>
      match flags.find? (·.name = name) with
      | none => ⟨[], args, some (undefinedError name)⟩
      | some flag =>
        if flag.isSwitch then
          let value := value?.getD "true"
          match flag.read value with
          | .error reason => ⟨[], args, some (.badSwitch value name reason)⟩
          | .ok a => (parseArgs flags args).cons name a
        else
          match value? with
          | some value =>
            match flag.read value with
            | .error reason => ⟨[], args, some (.badValue value name reason)⟩
            | .ok a => (parseArgs flags args).cons name a
          | none =>
            match args with
            | [] => ⟨[], [], some (.missingValue name)⟩
            | value :: args =>
              match flag.read value with
              | .error reason => ⟨[], args, some (.badValue value name reason)⟩
              | .ok a => (parseArgs flags args).cons name a

/-- The flags in the order of their names. -/
def sorted (flags : List (Flag α)) : List (Flag α) :=
  flags.mergeSort fun f g => decide (f.name ≤ g.name)

/-- The line that describes a flag.  The usage of a switch of one letter fits on its line. -/
def usageLine (f : Flag α) : Text :=
  let label : Text := if f.placeholder = [] then [] else " " ++ f.placeholder
  let head : Text := "  -" ++ f.name ++ label
  let gap : Text := if head.length ≤ 4 then "\t" else "\n    \t"
  let shown : Text := match f.default? with
    | some value => " (default " ++ value ++ ")"
    | none => []
  head ++ gap ++ f.usage ++ shown ++ "\n"

/-- The description of all flags. -/
def usageText (flags : List (Flag α)) : Text := (sorted flags).flatMap usageLine

end Flag

/-- The variables that flags write to, and the names of the flags that were given. -/
structure FlagState (σ : Type) where
  values : σ
  given : List Text

namespace FlagState

variable {σ α : Type}

/-- One occurrence of a flag: its value is written, and its name is remembered. -/
def record (write : σ → α → σ) (s : FlagState σ) (occurrence : Text × α) : FlagState σ :=
  ⟨write s.values occurrence.2, s.given.insert occurrence.1⟩

/-- The state after some occurrences, before which the variables have their defaults. -/
def ofGiven (write : σ → α → σ) (defaults : σ) (occurrences : List (Text × α)) : FlagState σ :=
  occurrences.foldl (record write) ⟨defaults, []⟩

/-- The flags that were given, in the order of their names, with what they show. -/
def visited (shown : σ → Text → Text) (s : FlagState σ) : List GivenFlag :=
  (s.given.mergeSort fun a b => decide (a ≤ b)).map fun name => ⟨name, shown s.values name⟩

end FlagState

/-! ### The flags of the rules -/

/-- Switch values. -/
def boolWords : List (String × Bool) := [
  ("1", true), ("t", true), ("T", true), ("TRUE", true), ("true", true), ("True", true),
  ("0", false), ("f", false), ("F", false), ("FALSE", false), ("false", false), ("False", false)]

/-- Further switch values, for the rules. -/
def onOffWords : List (String × Bool) := [
  ("on", true), ("On", true), ("ON", true), ("off", false), ("Off", false), ("OFF", false)]

/-- The truth value of a word. -/
def readWord? (words : List (String × Bool)) (t : Text) : Option Bool :=
  (words.find? fun w => (w.1 : Text) == t).map (·.2)

/-- The word for a truth value. -/
def boolWord (b : Bool) : Text := if b then "true" else "false"

/-- The text that shows the value of a setting. -/
def Setting.shown : Setting → Text
  | .rule _ on => boolWord on
  | .logger l => boolWord l.isSome
  | .paramEligibility level => level.text.toOption.getD []
  | .resultEligibility level => level.text.toOption.getD []
  | .multiProperty level => level.text.toOption.getD []

/-- The switch of a rule. -/
def ruleFlag (r : Rule) (usage : Text) : Flag Setting where
  name := r.key
  isSwitch := true
  placeholder := []
  usage := usage
  default? := some "true"
  read t :=
    match readWord? (onOffWords ++ boolWords) t with
    | some on => .ok (.rule r on)
    | none => .error ("strconv.ParseBool: parsing " ++ Text.quote t ++ ": invalid syntax")

/-- The flag of a level. -/
def levelFlag (name usage default : Text) (read : Text → Except LevelError Setting) :
    Flag Setting where
  name := name
  isSwitch := false
  placeholder := "value"
  usage := usage
  default? := some default
  read t := (read t).mapError LevelError.message

/-- The flags that configure the rules. -/
def ruleFlags : List (Flag Setting) := [
  ruleFlag .param "add declared parameter types",
  ruleFlag .result "add declared return types",
  ruleFlag .property "add declared property types",
  levelFlag "param-eligibility"
    "methods receiving parameter types: all, interfaces or no-overrides" "all"
    fun t => (Eligibility.ofText t).map Setting.paramEligibility,
  levelFlag "return-eligibility"
    "methods receiving return types: all, interfaces or no-overrides" "all"
    fun t => (Eligibility.ofText t).map Setting.resultEligibility,
  levelFlag "multi-property"
    "statements declaring several properties: skip or reject" "skip"
    fun t => (MultiProperty.ofText t).map Setting.multiProperty]

/-- The text that shows the value of a flag of the rules. -/
def Config.shownFlag (c : Config) (name : Text) : Text :=
  ((c.flagField? name).map Setting.shown).getD []

/-- The option that a command line with only these flags makes. -/
def Options.ofRuleFlags (given : List (Text × Setting)) : Options :=
  let s := FlagState.ofGiven Config.set .default given
  .flags s.values (s.visited Config.shownFlag)

end DocPromotion
