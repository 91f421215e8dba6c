import DocPromotion.BitMask
import DocPromotion.LogRecord

/-!
The configuration of the rules.

A configuration starts with defaults, and options change it.  An option is a setting, which sets
one field, or the flags of a command line, which copy the fields whose flags were given, or a list
of options, which are applied from left to right.
-/

namespace DocPromotion

/-- The rules, one for each kind of declaration. -/
inductive Rule where
  | param
  | result
  | property
deriving Repr, DecidableEq

namespace Rule

/-- All rules, in the order in which they are listed. -/
def all : List Rule := [.param, .result, .property]

/-- The flag of a rule in a set of rules. -/
def flag : Rule → BitVec 8
  | .param => 1
  | .result => 2
  | .property => 4

/-- The name of a rule. -/
def name : Rule → Text
  | .param => "param-type-from-doc"
  | .result => "return-type-from-doc"
  | .property => "property-type-from-doc"

/-- What a rule does, in one sentence. -/
def description : Rule → Text
  | .param => "Add declared types to method parameters from documentation"
  | .result => "Add declared return types to methods from documentation"
  | .property => "Add declared types to properties from documentation"

/-- The key under which a rule is switched on or off. -/
def key : Rule → Text
  | .param => "params"
  | .result => "returns"
  | .property => "properties"

end Rule

/-- A logger, told from others by its number. -/
structure Logger where
  number : Nat
deriving Repr, DecidableEq

/-- The logger of the program itself. -/
def Logger.standard : Logger := ⟨0⟩

/-- As a logger, `true` stands for the one of the program, and `false` for none. -/
instance : Coe Bool (Option Logger) := ⟨fun on => if on then some .standard else none⟩

/-- One field of the configuration with the value it is set to. -/
inductive Setting where
  | rule (rule : Rule) (on : Bool)
  | paramEligibility (level : Eligibility)
  | resultEligibility (level : Eligibility)
  | multiProperty (level : MultiProperty)
  /-- Who keeps the records, if anyone does. -/
  | logger (logger : Option Logger)
deriving Repr, DecidableEq

namespace Setting

/-- The key of the field that a setting sets. -/
def key : Setting → Text
  | .rule r _ => r.key
  | .paramEligibility _ => "param-eligibility"
  | .resultEligibility _ => "return-eligibility"
  | .multiProperty _ => "multi-property"
  | .logger _ => "logger"

/-- The value of a setting, for records. -/
def value : Setting → LogValue
  | .rule _ on => .flag on
  | .paramEligibility level => .ofLevel level.text
  | .resultEligibility level => .ofLevel level.text
  | .multiProperty level => .ofLevel level.text
  | .logger l => .flag l.isSome

end Setting

/-- What the rules need to know. -/
structure Config where
  rules : BitMask 8
  paramEligibility : Eligibility
  resultEligibility : Eligibility
  multiProperty : MultiProperty
  logger : Option Logger
deriving Repr, DecidableEq

namespace Config

/-- By default every rule is enabled and applies to all methods. -/
def default : Config where
  rules := .ofFlags (Rule.all.map Rule.flag)
  paramEligibility := .all
  resultEligibility := .all
  multiProperty := .skip
  logger := none

/-- Whether a rule is enabled. -/
def enabled (c : Config) (r : Rule) : Bool := c.rules.enabled r.flag

/-- The enabled rules. -/
def enabledRules (c : Config) : List Rule := Rule.all.filter c.enabled

/-- The configuration with one field set. -/
def set (c : Config) : Setting → Config
  | .rule r on => { c with rules := c.rules.set r.flag on }
  | .paramEligibility level => { c with paramEligibility := level }
  | .resultEligibility level => { c with resultEligibility := level }
  | .multiProperty level => { c with multiProperty := level }
  | .logger l => { c with logger := l }

/-- The fields that have flags, each with the name of its flag. -/
def flagFields (c : Config) : List (Text × Setting) := [
  ("params", .rule .param (c.enabled .param)),
  ("returns", .rule .result (c.enabled .result)),
  ("properties", .rule .property (c.enabled .property)),
  ("param-eligibility", .paramEligibility c.paramEligibility),
  ("return-eligibility", .resultEligibility c.resultEligibility),
  ("multi-property", .multiProperty c.multiProperty)]

/-- The field of the flag with a name, if it has one. -/
def flagField? (c : Config) (name : Text) : Option Setting :=
  (c.flagFields.find? (·.1 = name)).map (·.2)

/-- The configuration with the field of a flag copied from other values. -/
def copyFlag (values c : Config) (name : Text) : Config :=
  match values.flagField? name with
  | some s => c.set s
  | none => c

end Config

/-- A command line flag that was given, with its value as it is shown. -/
structure GivenFlag where
  name : Text
  shown : Text
deriving Repr, DecidableEq

/-- Options for building a configuration. -/
inductive Options where
  /-- An option that is left out. -/
  | absent
  | setting (setting : Setting)
  /-- The flags of a command line: the values that they write to, and those that were given. -/
  | flags (values : Config) (given : List GivenFlag)
  | nested (options : List Options)
deriving Repr

namespace Options

mutual

/-- Changes a configuration by an option.  Flags that were not given change nothing. -/
def apply : Options → Config → Config
  | .absent, c => c
  | .setting s, c => c.set s
  | .flags values given, c => given.foldl (fun c f => values.copyFlag c f.name) c
  | .nested options, c => applyList options c

/-- Changes a configuration by a list of options, from left to right. -/
def applyList : List Options → Config → Config
  | [], c => c
  | o :: os, c => applyList os (o.apply c)

end

/-- The flags that were given, for records. -/
def flagsValue (given : List GivenFlag) : LogValue :=
  .groupOf (given.map fun f => (f.name, .text f.shown))

mutual

/-- The attributes that show an option in a record.  Nested options are shown in place. -/
def attributes : Options → List (Text × LogValue)
  | .absent => [("nil", .text "<nil>")]
  | .setting s => [(s.key, s.value)]
  | .flags _ given => [("flags", flagsValue given)]
  | .nested options => attributesOfList options

/-- The attributes that show a list of options in a record. -/
def attributesOfList : List Options → List (Text × LogValue)
  | [] => []
  | o :: os => o.attributes ++ attributesOfList os

end

/-- The attribute that shows options in a record. -/
def logged (o : Options) : LogValue := .groupOf o.attributes

/-- The configuration that options give. -/
def config (o : Options) : Config := o.apply .default

/-- A configuration without any rule is worth a warning. -/
def warnings (o : Options) : List LogRecord :=
  if o.config.rules.isEmpty && o.config.logger.isSome then
    [⟨.warn, "No rules enabled", [("options", o.logged)]⟩]
  else []

end Options

end DocPromotion
