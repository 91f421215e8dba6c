import DocPromotion.Config
import DocPromotion.DeclaredType

/-!
The rules that promote documentation types to declared types.

A rule does not touch a declaration.  It looks at a view of it and answers with the steps to take,
in order: questions about the class, records, types to set, tags to remove.  Whoever owns the
declaration performs the steps.  So the same rules serve declarations of any origin, and what a
rule does is a list that can be reasoned about.
-/

namespace DocPromotion

/-- Why a declaration is left as it is. -/
inductive SkipReason where
  | typed
  | undocumented
  | declined
  | ineligible
  | multiple
  | other (code : UInt8)
deriving Repr, DecidableEq

namespace SkipReason

/-- The reason with a given code. -/
def ofCode : UInt8 → SkipReason
  | 0 => .typed
  | 1 => .undocumented
  | 2 => .declined
  | 3 => .ineligible
  | 4 => .multiple
  | n => .other n

/-- The name of a reason. -/
def label : SkipReason → Text
  | .typed => "typed"
  | .undocumented => "undocumented"
  | .declined => "declined"
  | .ineligible => "ineligible"
  | .multiple => "multiple"
  | .other n => strayLabel "SkipReason" n

end SkipReason

/-! ### What a rule sees -/

/-- What documentation says about a declaration. -/
inductive Documented where
  /-- There is no tag. -/
  | missing
  /-- There is a tag without a type. -/
  | untyped
  | typed (type : DocType)
deriving Repr, DecidableEq

/-- The documentation of a declaration. -/
structure DocView where
  param : Text → Documented
  result : Documented
  var : Documented

/-- A parameter.  A promoted parameter declares a property as well. -/
structure ParamView where
  name : Text
  typed : Bool
  promoted : Bool
deriving Repr, DecidableEq

/-- A method. -/
structure MethodView where
  name : Text
  params : List ParamView
  resultTyped : Bool
  doc : Option DocView

/-- A property statement. -/
structure PropertyView where
  names : List Text
  typed : Bool
  doc : Option DocView

/-- The class that declares a method. -/
structure ClassView where
  isInterface : Bool
  /-- Whether an ancestor declares a method with the given name. -/
  ancestorDeclares : Text → Bool

/-- What can be done for a declaration besides setting its type. -/
structure Facilities where
  /-- Redundant tags can be removed. -/
  tags : Bool
  /-- Documentation can be rendered again. -/
  docs : Bool
  /-- Parameters can be marked for printing from scratch. -/
  nodes : Bool
  /-- Classes can be looked up; the class that declares the method, if it is known. -/
  classes : Option (Option ClassView)

/-- No facilities at all. -/
def Facilities.none : Facilities := ⟨false, false, false, .none⟩

/-! ### What a rule does -/

/-- One step of a rule. -/
inductive Step where
  /-- Looks up the class that declares the method. -/
  | resolveClass
  /-- Asks whether the class is an interface. -/
  | askInterface (answer : Bool)
  /-- Asks whether an ancestor of the class declares a method. -/
  | askAncestor (name : Text) (answer : Bool)
  | log (record : LogRecord)
  /-- Declares the type of the parameter at a position. -/
  | setParam (index : Nat) (name : Text) (type : DeclaredType)
  /-- Marks the parameter at a position for printing from scratch. -/
  | invalidate (index : Nat) (name : Text)
  | removeParamTag (name : Text)
  | setResult (type : DeclaredType)
  | removeResultTag
  /-- Renders the documentation of the method again. -/
  | refresh
  | setProperty (type : DeclaredType)
  | removeVarTag
deriving Repr

/-- Why a declaration is refused. -/
inductive RuleError where
  | multipleProperties (names : List Text)
deriving Repr, DecidableEq

/-- The wording of an error. -/
def RuleError.message : RuleError → Text
  | .multipleProperties names =>
    "multiple properties declared in one statement: $" ++ Text.joinWith ", $" names

/-- What a rule answers: the steps to take, whether they change the declaration, and the error
to report. -/
structure Outcome where
  steps : List Step
  changed : Bool
  error : Option RuleError
deriving Repr

namespace Outcome

/-- Nothing to do. -/
def idle : Outcome := ⟨[], false, none⟩

/-- Nothing to do but the given steps. -/
def unchanged (steps : List Step) : Outcome := ⟨steps, false, none⟩

/-- One outcome after another; the first error is reported. -/
def append (a b : Outcome) : Outcome :=
  ⟨a.steps ++ b.steps, a.changed || b.changed, a.error.or b.error⟩

end Outcome

/-- The word for whether a declaration was changed. -/
def resultLabel (changed : Bool) : Text := if changed then "changed" else "unchanged"

/-- What is done about a single declared type. -/
inductive Decision where
  | skip (reason : SkipReason)
  | declare (type : DeclaredType)
deriving Repr, DecidableEq

/-- A documented type is declared, unless there is no declared type for it. -/
def Documented.decision (site : Site) : Documented → Decision
  | .missing => .skip .undocumented
  | .untyped => .skip .declined
  | .typed t =>
    match t.declared? site with
    | some d => .declare d
    | none => .skip .declined

/-- The record of a decision. -/
def Decision.record (site : Site) (name : Text) : Decision → LogRecord
  | .skip reason =>
    ⟨.debug, "Skipping declaration",
      [("site", .text site.label), ("name", .text name), ("reason", .text reason.label)]⟩
  | .declare type =>
    ⟨.debug, "Adding declared type",
      [("site", .text site.label), ("name", .text name), ("type", .text type.spelling)]⟩

/-- Records a decision, if anyone keeps records. -/
def Decision.note (logger : Option Logger) (site : Site) (name : Text) (d : Decision) :
    List Step :=
  match logger with
  | some _ => [.log (d.record site name)]
  | none => []

/-! ### Eligibility -/

/-- The questions that decide whether a method may receive declared types, and the decision.
Only what is known is restricted: a method of an unknown class is eligible. -/
def Eligibility.check (level : Eligibility) (classes : Option (Option ClassView)) (name : Text) :
    List Step × Bool :=
  match level, classes with
  | .all, _ => ([], true)
  | _, none => ([], true)
  | _, some none => ([.resolveClass], true)
  | .interfaces, some (some c) => ([.resolveClass, .askInterface c.isInterface], c.isInterface)
  | .noOverrides, some (some c) =>
    ([.resolveClass, .askAncestor name (c.ancestorDeclares name)], !c.ancestorDeclares name)
  | .other _, some (some _) => ([.resolveClass], true)

/-! ### The rules -/

/-- What is done about a parameter. -/
def ParamView.decision (doc : Option DocView) (p : ParamView) : Decision :=
  if p.typed then .skip .typed
  else
    match doc with
    | none => .skip .undocumented
    | some doc => (doc.param p.name).decision .param

/-- The steps for the parameter at a position. -/
def paramSteps (logger : Option Logger) (nodes : Bool) (doc : Option DocView) (index : Nat)
    (p : ParamView) : List Step :=
  let d := p.decision doc
  d.note logger .param p.name ++
    match d with
    | .skip _ => []
    | .declare type =>
      .setParam index p.name type :: if p.promoted && nodes then [.invalidate index p.name] else []

/-- The names of the parameters that receive a type. -/
def declaredParams (m : MethodView) : List Text :=
  m.params.filterMap fun p =>
    match p.decision m.doc with
    | .skip _ => none
    | .declare _ => some p.name

/-- Declares the types of parameters from their tags, in the order of their declaration, and then
asks for the removal of the tags that were used. -/
def paramRule (c : Config) (f : Facilities) (m : MethodView) : Outcome :=
  match c.paramEligibility.check f.classes m.name with
  | (questions, false) =>
    .unchanged (questions ++ (Decision.skip .ineligible).note c.logger .param m.name)
  | (questions, true) =>
    let names := declaredParams m
    let sets := (m.params.mapIdx (paramSteps c.logger f.nodes m.doc)).flatten
    let removals := if f.tags then names.map Step.removeParamTag else []
    ⟨questions ++ sets ++ removals, !names.isEmpty, none⟩

/-- What is done about a return value. -/
def MethodView.resultDecision (m : MethodView) : Decision :=
  if m.resultTyped then .skip .typed
  else
    match m.doc with
    | none => .skip .undocumented
    | some doc => doc.result.decision .result

/-- Declares the type of a return value from its tag, asks for the removal of the tag and for
rendering the documentation again. -/
def resultRule (c : Config) (f : Facilities) (m : MethodView) : Outcome :=
  match c.resultEligibility.check f.classes m.name with
  | (questions, false) =>
    .unchanged (questions ++ (Decision.skip .ineligible).note c.logger .result m.name)
  | (questions, true) =>
    let d := m.resultDecision
    let note := d.note c.logger .result m.name
    match d with
    | .skip _ => .unchanged (questions ++ note)
    | .declare type =>
      let removal := if f.tags then [Step.removeResultTag] else []
      let refresh := if f.docs then [Step.refresh] else []
      ⟨questions ++ note ++ .setResult type :: (removal ++ refresh), true, none⟩

/-- What is done about a property statement. -/
def PropertyView.decision (p : PropertyView) : Decision :=
  if 1 < p.names.length then .skip .multiple
  else if p.typed then .skip .typed
  else
    match p.doc with
    | none => .skip .undocumented
    | some doc => doc.var.decision .property

/-- Declares the type of a property from its tag and asks for the removal of the tag. -/
def propertyRule (c : Config) (f : Facilities) (p : PropertyView) : Outcome :=
  let d := p.decision
  let note := d.note c.logger .property (Text.joinWith ", " p.names)
  match d with
  | .skip .multiple =>
    ⟨note, false, if c.multiProperty = .reject then some (.multipleProperties p.names) else none⟩
  | .skip _ => .unchanged note
  | .declare type =>
    ⟨note ++ .setProperty type :: (if f.tags then [Step.removeVarTag] else []), true, none⟩

/-! ### Performing the steps -/

/-- A way to apply a rule: look, decide, and perform the steps one after the other. -/
def applyRule {α ν : Type} (view : α → ν) (perform : α → Step → α) (rule : ν → Outcome) (a : α) :
    α × Outcome :=
  let out := rule (view a)
  (out.steps.foldl perform a, out)

/-- Applies the enabled rules to a method: the rule for parameters, then the one for the return
value.  The first error ends this, and a change by the rule with the error is not reported. -/
def applyMethodRules {α : Type} (view : α → MethodView) (perform : α → Step → α) (c : Config)
    (f : Facilities) (m : α) : α × Outcome :=
  let (m, params) :=
    if c.enabled .param then applyRule view perform (paramRule c f) m else (m, .idle)
  match params.error with
  | some e => (m, ⟨params.steps, false, some e⟩)
  | none =>
    let (m, result) :=
      if c.enabled .result then applyRule view perform (resultRule c f) m else (m, .idle)
    match result.error with
    | some e => (m, ⟨params.steps ++ result.steps, params.changed, some e⟩)
    | none => (m, params.append result)

/-- Applies the rule for properties, if it is enabled. -/
def applyPropertyRules {α : Type} (view : α → PropertyView) (perform : α → Step → α) (c : Config)
    (f : Facilities) (p : α) : α × Outcome :=
  if c.enabled .property then applyRule view perform (propertyRule c f) p else (p, .idle)

/-- A view of a method after a step: what has been declared is typed. -/
def MethodView.perform (m : MethodView) : Step → MethodView
  | .setParam i _ _ => { m with params := m.params.modify i fun p => { p with typed := true } }
  | .setResult _ => { m with resultTyped := true }
  | _ => m

/-- A view of a property statement after a step. -/
def PropertyView.perform (p : PropertyView) : Step → PropertyView
  | .setProperty _ => { p with typed := true }
  | _ => p

end DocPromotion
