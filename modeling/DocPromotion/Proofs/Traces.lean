import DocPromotion.Proofs.RuleEffect

/-!
The traces of the rules.

A rule runs against a host of any kind, and the host sees a list of steps.  Which lists it may see
is described here as the rule goes along: the questions about the class (`Asks`), one exit for each
site with the record of it (`Exit`), the loop over the parameters, which collects the names of those
that receive a type (`ParamLoop`), and the loop over these names, in which the host answers whether
it has removed a tag (`RemovalLoop`).  A host may answer whatever it likes, and differently every
time.  Records are written out with all they say, and each of them is written once if there is a
logger (`Logs`).

There is exactly one trace, whatever the host answers (`paramTrace_iff`, `resultTrace_iff`).  The
answers to removals count as changes, but they are asked for only where a type has been set.
-/

namespace DocPromotion

/-! ### What may happen -/

/-- The questions about the class of a method at a level of eligibility, and whether the method is
admitted.  The class is looked up at most once, and asked at most one question. -/
inductive Asks (name : Text) :
    Eligibility → Option (Option ClassView) → List Step → Bool → Prop where
  | unrestricted {classes} : Asks name .all classes [] true
  | noClasses {level} : Asks name level none [] true
  | unknown {level} : level ≠ .all → Asks name level (some none) [.resolveClass] true
  | interfaces {c} : Asks name .interfaces (some (some c))
      [.resolveClass, .askInterface c.isInterface] c.isInterface
  | noOverrides {c} : Asks name .noOverrides (some (some c))
      [.resolveClass, .askAncestor name (c.ancestorDeclares name)] (!c.ancestorDeclares name)
  | other {code c} : Asks name (.other code) (some (some c)) [.resolveClass] true

/-- The record of a site that is left as it is. -/
def skipRecord (site name reason : Text) : LogRecord where
  severity := .debug
  message := "Skipping declaration"
  attributes := [("site", .text site), ("name", .text name), ("reason", .text reason)]

/-- The record of a site that receives a type. -/
def addRecord (site name type : Text) : LogRecord where
  severity := .debug
  message := "Adding declared type"
  attributes := [("site", .text site), ("name", .text name), ("type", .text type)]

/-- A record is written once if there is a logger, and else not at all. -/
inductive Logs (record : LogRecord) : Option Logger → List Step → Prop where
  | written {l} : Logs record (some l) [.log record]
  | silent : Logs record none []

/-- The ways to leave a site, with the record of it and the type that is declared: it has a type,
there is no documentation or no tag for it, the tag has no type or one that cannot be declared, or
a type is declared. -/
inductive Exit (site : Site) (label name : Text) (typed : Bool) (tag : Option Documented) :
    LogRecord → Option DeclaredType → Prop where
  | typed : typed = true → Exit site label name typed tag (skipRecord label name "typed") none
  | noDoc : typed = false → tag = none →
      Exit site label name typed tag (skipRecord label name "undocumented") none
  | noTag : typed = false → tag = some .missing →
      Exit site label name typed tag (skipRecord label name "undocumented") none
  | noType : typed = false → tag = some .untyped →
      Exit site label name typed tag (skipRecord label name "declined") none
  | declined {t} : typed = false → tag = some (.typed t) → t.declared? site = none →
      Exit site label name typed tag (skipRecord label name "declined") none
  | declared {t type} : typed = false → tag = some (.typed t) → t.declared? site = some type →
      Exit site label name typed tag (addRecord label name type.spelling) (some type)

/-- The exit for a parameter. -/
def ParamView.Leaves (doc : Option DocView) (p : ParamView) (record : LogRecord)
    (type? : Option DeclaredType) : Prop :=
  Exit .param "param" p.name p.typed (doc.map (·.param p.name)) record type?

/-- The exit for a return value. -/
def MethodView.Leaves (m : MethodView) (record : LogRecord) (type? : Option DeclaredType) : Prop :=
  Exit .result "return" m.name m.resultTyped (m.doc.map (·.result)) record type?

/-- The loop over the parameters from a position on: its steps, and the names that it collects.
Each parameter is recorded once.  One that receives a type is invalidated if it is promoted. -/
inductive ParamLoop (logger : Option Logger) (nodes : Bool) (doc : Option DocView) :
    Nat → List ParamView → List Step → List Text → Prop where
  | done {i} : ParamLoop logger nodes doc i [] [] []
  | skip {i p ps record note steps names} : p.Leaves doc record none → Logs record logger note →
      ParamLoop logger nodes doc (i + 1) ps steps names →
      ParamLoop logger nodes doc i (p :: ps) (note ++ steps) names
  | declare {i p ps record type note steps names} :
      p.Leaves doc record (some type) → Logs record logger note →
      ParamLoop logger nodes doc (i + 1) ps steps names →
      ParamLoop logger nodes doc i (p :: ps)
        (note ++ .setParam i p.name type ::
          ((if p.promoted && nodes then [.invalidate i p.name] else []) ++ steps))
        (p.name :: names)

/-- The loop over the collected names: its steps, and whether there has been a change, before and
after.  The answer to each request depends on all that the host has seen. -/
inductive RemovalLoop (answer : List Step → Bool) :
    List Step → List Text → Bool → List Step → Bool → Prop where
  | done {seen changed} : RemovalLoop answer seen [] changed [] changed
  | ask {seen name names changed steps result} :
      RemovalLoop answer (seen ++ [.removeParamTag name]) names
        (changed || answer (seen ++ [.removeParamTag name])) steps result →
      RemovalLoop answer seen (name :: names) changed (.removeParamTag name :: steps) result

/-- What the rule for parameters may do, when the host answers the requests to remove tags in a
given way. -/
inductive ParamTrace (answer : List Step → Bool) (c : Config) (f : Facilities) (m : MethodView) :
    Outcome → Prop where
  | refused {questions note} : Asks m.name c.paramEligibility f.classes questions false →
      Logs (skipRecord "param" m.name "ineligible") c.logger note →
      ParamTrace answer c f m ⟨questions ++ note, false, none⟩
  | withoutTags {questions sets names} : f.tags = false →
      Asks m.name c.paramEligibility f.classes questions true →
      ParamLoop c.logger f.nodes m.doc 0 m.params sets names →
      ParamTrace answer c f m ⟨questions ++ sets, !names.isEmpty, none⟩
  | withTags {questions sets names removals changed} : f.tags = true →
      Asks m.name c.paramEligibility f.classes questions true →
      ParamLoop c.logger f.nodes m.doc 0 m.params sets names →
      RemovalLoop answer (questions ++ sets) names (!names.isEmpty) removals changed →
      ParamTrace answer c f m ⟨questions ++ sets ++ removals, changed, none⟩

/-- What the rule for return values may do.  Nothing depends on whether the tag is removed. -/
inductive ResultTrace (c : Config) (f : Facilities) (m : MethodView) : Outcome → Prop where
  | refused {questions note} : Asks m.name c.resultEligibility f.classes questions false →
      Logs (skipRecord "return" m.name "ineligible") c.logger note →
      ResultTrace c f m ⟨questions ++ note, false, none⟩
  | skip {questions record note} : Asks m.name c.resultEligibility f.classes questions true →
      m.Leaves record none → Logs record c.logger note →
      ResultTrace c f m ⟨questions ++ note, false, none⟩
  | declare {questions record type note} :
      Asks m.name c.resultEligibility f.classes questions true →
      m.Leaves record (some type) → Logs record c.logger note →
      ResultTrace c f m
        ⟨questions ++ note ++ .setResult type ::
          ((if f.tags then [.removeResultTag] else []) ++ if f.docs then [.refresh] else []),
          true, none⟩

/-! ### Questions and exits -/

theorem asks_iff {name : Text} {level : Eligibility} {classes : Option (Option ClassView)}
    {questions : List Step} {admitted : Bool} :
    Asks name level classes questions admitted ↔
      level.check classes name = (questions, admitted) := by
  constructor
  · intro h
    cases h with
    | unrestricted => rfl
    | noClasses => cases level <;> rfl
    | unknown hlevel =>
      cases level with
      | all => exact absurd rfl hlevel
      | _ => rfl
    | interfaces => rfl
    | noOverrides => rfl
    | other => rfl
  · intro h
    obtain ⟨rfl, rfl⟩ := Prod.mk.inj h
    match level, classes with
    | .all, _ => exact .unrestricted
    | .interfaces, none | .noOverrides, none | .other _, none => exact .noClasses
    | .interfaces, some none => exact .unknown (by simp)
    | .noOverrides, some none => exact .unknown (by simp)
    | .other _, some none => exact .unknown (by simp)
    | .interfaces, some (some _) => exact .interfaces
    | .noOverrides, some (some _) => exact .noOverrides
    | .other _, some (some _) => exact .other

/-- What is recorded about a decision is what a trace records about it. -/
theorem logs_record_iff {d : Decision} {site : Site} {name : Text} {logger : Option Logger}
    {note : List Step} :
    Logs (d.record site name) logger note ↔ note = d.note logger site name := by
  constructor
  · intro h
    cases h with
    | written => rfl
    | silent => rfl
  · rintro rfl
    cases logger with
    | none => exact .silent
    | some l => exact .written

theorem refused_iff (site : Site) {name : Text} {logger : Option Logger} {note : List Step} :
    Logs (skipRecord site.label name "ineligible") logger note ↔
      note = (Decision.skip .ineligible).note logger site name :=
  @logs_record_iff (.skip .ineligible) site name logger note

/-- What is done about a site, given whether it has a type and what its tag is. -/
def exitDecision (site : Site) (typed : Bool) (tag : Option Documented) : Decision :=
  if typed then .skip .typed else (tag.map (·.decision site)).getD (.skip .undocumented)

/-- There is one way to leave a site. -/
theorem exit_iff {site : Site} {name : Text} {typed : Bool} {tag : Option Documented}
    {record : LogRecord} {type? : Option DeclaredType} :
    Exit site site.label name typed tag record type? ↔
      record = (exitDecision site typed tag).record site name ∧
        type? = (exitDecision site typed tag).type? := by
  unfold exitDecision
  constructor
  · intro h
    cases h with
    | typed ht => rw [ht]; exact ⟨rfl, rfl⟩
    | noDoc ht htag => rw [ht, htag]; exact ⟨rfl, rfl⟩
    | noTag ht htag => rw [ht, htag]; exact ⟨rfl, rfl⟩
    | noType ht htag => rw [ht, htag]; exact ⟨rfl, rfl⟩
    | declined ht htag hd => simp [ht, htag, hd, Documented.decision, Decision.record,
        Decision.type?, skipRecord, SkipReason.label]
    | declared ht htag hd => simp [ht, htag, hd, Documented.decision, Decision.record,
        Decision.type?, addRecord]
  · rintro ⟨rfl, rfl⟩
    cases typed with
    | true => exact .typed rfl
    | false =>
      cases tag with
      | none => exact .noDoc rfl rfl
      | some documented =>
        cases documented with
        | missing => exact .noTag rfl rfl
        | untyped => exact .noType rfl rfl
        | typed t =>
          simp only [Option.map_some, Option.getD_some, Documented.decision, Bool.false_eq_true,
            if_false]
          cases hd : t.declared? site with
          | none => exact .declined rfl rfl hd
          | some type => exact .declared rfl rfl hd

theorem exit_skip_iff {site : Site} {name : Text} {typed : Bool} {tag : Option Documented}
    {record : LogRecord} :
    Exit site site.label name typed tag record none ↔
      ∃ reason, exitDecision site typed tag = .skip reason ∧
        record = (Decision.skip reason).record site name := by
  rw [exit_iff]
  cases exitDecision site typed tag with
  | skip reason => simp [Decision.type?]
  | declare type => simp [Decision.type?]

theorem exit_declare_iff {site : Site} {name : Text} {typed : Bool} {tag : Option Documented}
    {record : LogRecord} {type : DeclaredType} :
    Exit site site.label name typed tag record (some type) ↔
      exitDecision site typed tag = .declare type ∧
        record = (Decision.declare type).record site name := by
  rw [exit_iff]
  cases exitDecision site typed tag with
  | skip reason => simp [Decision.type?]
  | declare type' =>
    rw [Decision.type?, Option.some_inj, Decision.declare.injEq, eq_comm (a := type)]
    constructor
    · rintro ⟨rfl, rfl⟩
      exact ⟨rfl, rfl⟩
    · rintro ⟨rfl, rfl⟩
      exact ⟨rfl, rfl⟩

theorem ParamView.decision_eq (doc : Option DocView) (p : ParamView) :
    p.decision doc = exitDecision .param p.typed (doc.map (·.param p.name)) := by
  cases doc <;> rfl

theorem MethodView.resultDecision_eq (m : MethodView) :
    m.resultDecision = exitDecision .result m.resultTyped (m.doc.map (·.result)) := by
  unfold resultDecision
  cases m.doc <;> rfl

/-! ### The loops -/

/-- The names of the parameters that receive a type. -/
def collectedNames (doc : Option DocView) (ps : List ParamView) : List Text :=
  ps.filterMap fun p => (p.decision doc).type?.map fun _ => p.name

theorem declaredParams_eq (m : MethodView) : declaredParams m = collectedNames m.doc m.params := by
  unfold declaredParams collectedNames
  congr 1
  funext p
  cases p.decision m.doc <;> rfl

/-- The steps for the parameters from a position on. -/
def loopSteps (logger : Option Logger) (nodes : Bool) (doc : Option DocView) (i : Nat)
    (ps : List ParamView) : List Step :=
  (ps.mapIdx fun k => paramSteps logger nodes doc (i + k)).flatten

section

variable {logger : Option Logger} {nodes : Bool} {doc : Option DocView} {i : Nat}
  {p : ParamView} {ps : List ParamView} {steps : List Step} {names : List Text}

theorem loopSteps_cons : loopSteps logger nodes doc i (p :: ps) =
    paramSteps logger nodes doc i p ++ loopSteps logger nodes doc (i + 1) ps := by
  have hshift : (fun k => paramSteps logger nodes doc (i + (k + 1))) =
      fun k => paramSteps logger nodes doc (i + 1 + k) := by
    funext k
    rw [Nat.add_assoc, Nat.add_comm 1]
  rw [loopSteps, List.mapIdx_cons, List.flatten_cons, Nat.add_zero, loopSteps, ← hshift]

/-- What happens at one parameter is what its exit says. -/
theorem paramLoop_cons_iff : ParamLoop logger nodes doc i (p :: ps) steps names ↔
    ∃ rest restNames, ParamLoop logger nodes doc (i + 1) ps rest restNames ∧
      steps = paramSteps logger nodes doc i p ++ rest ∧
      names = collectedNames doc [p] ++ restNames := by
  constructor
  · intro h
    cases h with
    | skip hexit hnote hrest =>
      obtain ⟨reason, hdecision, rfl⟩ := exit_skip_iff.mp hexit
      obtain rfl := logs_record_iff.mp hnote
      rw [← ParamView.decision_eq] at hdecision
      refine ⟨_, _, hrest, ?_, ?_⟩
      · simp [paramSteps, hdecision]
      · simp [collectedNames, hdecision, Decision.type?]
    | declare hexit hnote hrest =>
      obtain ⟨hdecision, rfl⟩ := exit_declare_iff.mp hexit
      obtain rfl := logs_record_iff.mp hnote
      rw [← ParamView.decision_eq] at hdecision
      refine ⟨_, _, hrest, ?_, ?_⟩
      · simp [paramSteps, hdecision]
      · simp [collectedNames, hdecision, Decision.type?]
  · rintro ⟨rest, restNames, hrest, rfl, rfl⟩
    have hexit := ParamView.decision_eq doc p
    cases hdecision : p.decision doc with
    | skip reason =>
      rw [hdecision] at hexit
      have hloop : ParamLoop logger nodes doc i (p :: ps) _ _ :=
        .skip (exit_skip_iff.mpr ⟨reason, hexit.symm, rfl⟩) (logs_record_iff.mpr rfl) hrest
      simpa [paramSteps, collectedNames, hdecision, Decision.type?] using hloop
    | declare type =>
      rw [hdecision] at hexit
      have hloop : ParamLoop logger nodes doc i (p :: ps) _ _ :=
        .declare (exit_declare_iff.mpr ⟨hexit.symm, rfl⟩) (logs_record_iff.mpr rfl) hrest
      simpa [paramSteps, collectedNames, hdecision, Decision.type?] using hloop

/-- **The loop over the parameters has one run.** -/
theorem paramLoop_iff : ParamLoop logger nodes doc i ps steps names ↔
    steps = loopSteps logger nodes doc i ps ∧ names = collectedNames doc ps := by
  induction ps generalizing i steps names with
  | nil =>
    constructor
    · rintro ⟨⟩
      exact ⟨rfl, rfl⟩
    · rintro ⟨rfl, rfl⟩
      exact .done
  | cons p ps ih =>
    have hnames : collectedNames doc (p :: ps) = collectedNames doc [p] ++ collectedNames doc ps :=
      List.filterMap_append (l := [p])
    rw [paramLoop_cons_iff, loopSteps_cons, hnames]
    simp only [ih]
    constructor
    · rintro ⟨_, _, ⟨rfl, rfl⟩, rfl, rfl⟩
      exact ⟨rfl, rfl⟩
    · rintro ⟨rfl, rfl⟩
      exact ⟨_, _, ⟨rfl, rfl⟩, rfl, rfl⟩

end

section

variable {answer : List Step → Bool} {seen steps : List Step} {names : List Text}
  {changed result : Bool}

/-- Every name is asked for once, in order.  What has changed stays so, whatever the answers. -/
theorem RemovalLoop.spec (h : RemovalLoop answer seen names changed steps result) :
    steps = names.map .removeParamTag ∧ (changed = true → result = true) := by
  induction h with
  | done => exact ⟨rfl, id⟩
  | ask hrest ih =>
    obtain ⟨hsteps, hresult⟩ := ih
    refine ⟨by rw [hsteps, List.map_cons], fun hchanged => hresult ?_⟩
    rw [hchanged, Bool.true_or]

theorem exists_removalLoop (answer : List Step → Bool) (seen : List Step) (names : List Text)
    (changed : Bool) : ∃ steps result, RemovalLoop answer seen names changed steps result := by
  induction names generalizing seen changed with
  | nil => exact ⟨[], changed, .done⟩
  | cons name names ih =>
    obtain ⟨steps, result, hrest⟩ := ih (seen ++ [.removeParamTag name])
      (changed || answer (seen ++ [.removeParamTag name]))
    exact ⟨_, _, .ask hrest⟩

/-- **The loop over the names of parameters with a new type has one run**: where there is a name,
there has been a change before. -/
theorem removalLoop_iff : RemovalLoop answer seen names (!names.isEmpty) steps result ↔
    steps = names.map .removeParamTag ∧ result = !names.isEmpty := by
  have hforward : ∀ {steps result},
      RemovalLoop answer seen names (!names.isEmpty) steps result →
        steps = names.map .removeParamTag ∧ result = !names.isEmpty := by
    intro steps result h
    refine ⟨h.spec.1, ?_⟩
    cases names with
    | nil =>
      cases h
      rfl
    | cons name names => exact h.spec.2 rfl
  refine ⟨hforward, ?_⟩
  rintro ⟨rfl, rfl⟩
  obtain ⟨steps, result, h⟩ := exists_removalLoop answer seen names (!names.isEmpty)
  obtain ⟨rfl, rfl⟩ := hforward h
  exact h

end

/-! ### The rules -/

section

variable {answer : List Step → Bool} {c : Config} {f : Facilities} {m : MethodView} {out : Outcome}

/-- **The rule for parameters has one trace**, whatever the host answers. -/
theorem paramTrace_iff : ParamTrace answer c f m out ↔ out = paramRule c f m := by
  have hloop : ∀ {sets names}, ParamLoop c.logger f.nodes m.doc 0 m.params sets names ↔
      sets = (m.params.mapIdx (paramSteps c.logger f.nodes m.doc)).flatten ∧
        names = declaredParams m := by
    intro sets names
    rw [paramLoop_iff, declaredParams_eq, loopSteps]
    simp only [Nat.zero_add]
  constructor
  · intro h
    cases h with
    | refused hasks hnote =>
      obtain rfl := (refused_iff .param).mp hnote
      rw [paramRule, asks_iff.mp hasks]
      rfl
    | withoutTags htags hasks hsets =>
      obtain ⟨rfl, rfl⟩ := hloop.mp hsets
      rw [paramRule, asks_iff.mp hasks]
      simp [htags]
    | withTags htags hasks hsets hremovals =>
      obtain ⟨rfl, rfl⟩ := hloop.mp hsets
      obtain ⟨rfl, rfl⟩ := removalLoop_iff.mp hremovals
      rw [paramRule, asks_iff.mp hasks]
      simp [htags]
  · rintro rfl
    rw [paramRule]
    cases hcheck : c.paramEligibility.check f.classes m.name with
    | mk questions admitted =>
      have hasks := asks_iff.mpr hcheck
      cases admitted with
      | false => exact .refused hasks ((refused_iff .param).mpr rfl)
      | true =>
        have hsets := hloop.mpr ⟨rfl, rfl⟩
        cases htags : f.tags with
        | false =>
          have htrace : ParamTrace answer c f m _ := .withoutTags htags hasks hsets
          simpa using htrace
        | true =>
          exact .withTags htags hasks hsets (removalLoop_iff.mpr ⟨rfl, rfl⟩)

/-- **The rule for return values has one trace.** -/
theorem resultTrace_iff : ResultTrace c f m out ↔ out = resultRule c f m := by
  constructor
  · intro h
    cases h with
    | refused hasks hnote =>
      obtain rfl := (refused_iff .result).mp hnote
      rw [resultRule, asks_iff.mp hasks]
      rfl
    | skip hasks hexit hnote =>
      obtain ⟨reason, hdecision, rfl⟩ := exit_skip_iff.mp hexit
      obtain rfl := logs_record_iff.mp hnote
      rw [resultRule, asks_iff.mp hasks]
      simp [MethodView.resultDecision_eq, hdecision, Outcome.unchanged]
    | declare hasks hexit hnote =>
      obtain ⟨hdecision, rfl⟩ := exit_declare_iff.mp hexit
      obtain rfl := logs_record_iff.mp hnote
      rw [resultRule, asks_iff.mp hasks]
      simp [MethodView.resultDecision_eq, hdecision]
  · rintro rfl
    rw [resultRule]
    cases hcheck : c.resultEligibility.check f.classes m.name with
    | mk questions admitted =>
      have hasks := asks_iff.mpr hcheck
      cases admitted with
      | false => exact .refused hasks ((refused_iff .result).mpr rfl)
      | true =>
        dsimp only
        rw [MethodView.resultDecision_eq]
        cases hdecision : exitDecision .result m.resultTyped (m.doc.map (·.result)) with
        | skip reason =>
          exact .skip hasks (exit_skip_iff.mpr ⟨reason, hdecision, rfl⟩) (logs_record_iff.mpr rfl)
        | declare type =>
          exact .declare hasks (exit_declare_iff.mpr ⟨hdecision, rfl⟩) (logs_record_iff.mpr rfl)

/-! ### Changes -/

theorem not_setParam_of_silent {steps : List Step} (h : ∀ s ∈ steps, s.isSilent = true) (i : Nat)
    (name : Text) (type : DeclaredType) : Step.setParam i name type ∉ steps :=
  fun hmem => Bool.false_ne_true (h _ hmem)

/-- No type is set by writing a record. -/
theorem Logs.not_setParam {record : LogRecord} {logger : Option Logger} {note : List Step}
    (h : Logs record logger note) (i : Nat) (name : Text) (type : DeclaredType) :
    Step.setParam i name type ∉ note := by
  cases h with
  | written => simp
  | silent => simp

/-- A name is collected if and only if a type is set. -/
theorem ParamLoop.names_ne_nil_iff {logger : Option Logger} {nodes : Bool}
    {doc : Option DocView} {i : Nat} {ps : List ParamView} {steps : List Step} {names : List Text}
    (h : ParamLoop logger nodes doc i ps steps names) :
    names ≠ [] ↔ ∃ k name type, Step.setParam k name type ∈ steps := by
  induction h with
  | done => simp
  | skip _ hnote _ ih => simp only [ih, List.mem_append, hnote.not_setParam, false_or]
  | @declare k p _ _ type _ _ _ _ _ _ _ =>
    refine ⟨fun _ => ⟨k, p.name, type, ?_⟩, fun _ => List.cons_ne_nil _ _⟩
    simp

/-- The rule for parameters reports a change if and only if it sets a type. -/
theorem ParamTrace.changed_iff (h : ParamTrace answer c f m out) :
    out.changed = true ↔ ∃ i name type, Step.setParam i name type ∈ out.steps := by
  have hquestions : ∀ {questions admitted},
      Asks m.name c.paramEligibility f.classes questions admitted → ∀ i name type,
        Step.setParam i name type ∉ questions := by
    intro questions admitted hasks
    have hsilent := Eligibility.check_silent c.paramEligibility f.classes m.name
    rw [asks_iff.mp hasks] at hsilent
    exact not_setParam_of_silent hsilent
  have hnames : ∀ {names : List Text}, (!names.isEmpty) = true ↔ names ≠ [] := by simp
  cases h with
  | refused hasks hnote => simp [hquestions hasks, hnote.not_setParam]
  | withoutTags htags hasks hsets =>
    rw [hnames, hsets.names_ne_nil_iff]
    simp [hquestions hasks]
  | withTags htags hasks hsets hremovals =>
    obtain ⟨rfl, rfl⟩ := removalLoop_iff.mp hremovals
    rw [hnames, hsets.names_ne_nil_iff]
    simp [hquestions hasks]

end

/-! ### Both rules -/

/-- What each of the rules for methods may do on a host, one after the other.  A rule that is not
enabled does nothing.  The rule for return values sees what the steps of the rule for parameters
have left. -/
structure MethodTraces {α : Type} (view : α → MethodView) (perform : α → Step → α) (c : Config)
    (f : Facilities) (a : α) (params result : Outcome) : Prop where
  first : if c.enabled .param then ∀ answer, ParamTrace answer c f (view a) params
    else params = .idle
  second : if c.enabled .result then ResultTrace c f (view (params.steps.foldl perform a)) result
    else result = .idle

theorem exists_methodTraces {α : Type} (view : α → MethodView) (perform : α → Step → α)
    (c : Config) (f : Facilities) (a : α) :
    ∃ params result, MethodTraces view perform c f a params result ∧
      applyMethodRules view perform c f a =
        ((params.steps ++ result.steps).foldl perform a,
          ⟨params.steps ++ result.steps, params.changed || result.changed, none⟩) := by
  set params := if c.enabled .param then paramRule c f (view a) else .idle with hparams
  set left := params.steps.foldl perform a with hleft
  set result := if c.enabled .result then resultRule c f (view left) else .idle with hresult
  refine ⟨params, result, ⟨?_, ?_⟩, ?_⟩
  · split
    next hon => exact fun answer => paramTrace_iff.mpr (by rw [hparams, if_pos hon])
    next hoff => rw [hparams, if_neg hoff]
  · split
    next hon => exact resultTrace_iff.mpr (by rw [hresult, if_pos hon])
    next hoff => rw [hresult, if_neg hoff]
  · have happend : params.append result =
        ⟨params.steps ++ result.steps, params.changed || result.changed, none⟩ := by
      rw [Outcome.append, hparams, hresult, error_if (paramRule_error c f (view a)),
        error_if (resultRule_error c f (view left))]
      rfl
    rw [List.foldl_append, ← happend]
    exact applyMethodRules_eq c (applyRule_if view _ _ a) (applyRule_if view _ _ left)

/-- **Each rule has one trace**, on a host of any kind that answers whatever it likes.  The rule for
parameters reports a change if and only if it sets a type, and never an error.  The enabled rules
for a method are applied one after the other: the steps of the rule for return values follow those
of the rule for parameters, and there is a change if one of them reports it. -/
theorem rules_have_one_trace (c : Config) (f : Facilities) :
    (∀ (answer : List Step → Bool) (m : MethodView) (out : Outcome),
      ParamTrace answer c f m out ↔ out = paramRule c f m) ∧
    (∀ m : MethodView,
      ((paramRule c f m).changed = true ↔
        ∃ i name type, Step.setParam i name type ∈ (paramRule c f m).steps) ∧
      (paramRule c f m).error = none) ∧
    (∀ (m : MethodView) (out : Outcome), ResultTrace c f m out ↔ out = resultRule c f m) ∧
    ∀ {α : Type} (view : α → MethodView) (perform : α → Step → α) (a : α),
      ∃ params result, MethodTraces view perform c f a params result ∧
        applyMethodRules view perform c f a =
          ((params.steps ++ result.steps).foldl perform a,
            ⟨params.steps ++ result.steps, params.changed || result.changed, none⟩) := by
  refine ⟨fun answer m out => paramTrace_iff, fun m => ?_, fun m out => resultTrace_iff, ?_⟩
  · have htrace : ParamTrace (fun _ => false) c f m (paramRule c f m) := paramTrace_iff.mpr rfl
    exact ⟨htrace.changed_iff, paramRule_error c f m⟩
  · exact fun view perform a => exists_methodTraces view perform c f a

end DocPromotion
