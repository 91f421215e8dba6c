import DocPromotion.Source.Refactor
import Mathlib

/-!
What the rules do to the declarations of a source file.

A rule answers with a list of steps, and the steps are performed one after the other.  Here the
result is given in one piece: `Method.promoteParams`, `Method.promoteResult` and
`Property.promote`.  Everything that is said about refactoring later goes through
`Method.refactor_eq` and `Property.refactor_eq`, which say that the enabled rules have exactly
this effect on the declarations they admit, and what they report.

The rules read a documentation block only through its first tag for a site, so that is what the
decisions are expressed by (`Method.paramTag?`, `Method.resultTag?`, `Property.varTag?`).
-/

namespace DocPromotion

/-! ### Decisions -/

/-- The first tag of a parameter. -/
def Method.paramTag? (m : Method) (name : Text) : Option Tag := m.doc.bind (·.param? name)

/-- The tag of the return value. -/
def Method.resultTag? (m : Method) : Option Tag := m.doc.bind DocBlock.result

/-- The tag of a property statement. -/
def Property.varTag? (p : Property) : Option Tag := p.doc.bind DocBlock.var

/-- What is done about a site that has no declared type, given its tag. -/
def tagDecision (names : Option Resolver) (site : Site) (tag : Option Tag) : Decision :=
  (Documented.ofTag? names tag).decision site

/-- What is done about a parameter of a method. -/
def Method.paramDecision (names : Option Resolver) (m : Method) (p : Param) : Decision :=
  if p.isTyped then .skip .typed else tagDecision names .param (m.paramTag? p.name)

/-- What is done about the return value of a method. -/
def Method.resultDecision (names : Option Resolver) (m : Method) : Decision :=
  if m.result.isEmpty then tagDecision names .result m.resultTag? else .skip .typed

/-- What is done about a property statement. -/
def Property.decision (names : Option Resolver) (p : Property) : Decision :=
  if 1 < p.names.length then .skip .multiple
  else if p.declared.isEmpty then tagDecision names .property p.varTag? else .skip .typed

/-- The declared type that a decision sets. -/
def Decision.type? : Decision → Option DeclaredType
  | .skip _ => none
  | .declare type => some type

/-- A declaration comes from a tag whose type can be declared at the site. -/
theorem tagDecision_eq_declare {names : Option Resolver} {site : Site} {tag : Option Tag}
    {type : DeclaredType} (h : tagDecision names site tag = .declare type) :
    ∃ t, tag = some t ∧ (t.docType names).declared? site = some type := by
  unfold tagDecision at h
  cases tag with
  | none => cases h
  | some t =>
    simp only [Documented.ofTag?, Documented.decision] at h
    split at h
    next d hd =>
      obtain rfl := Decision.declare.inj h
      exact ⟨t, rfl, hd⟩
    next => cases h

section

variable {names : Option Resolver} {type : DeclaredType}

theorem Method.paramDecision_eq_declare {m : Method} {p : Param}
    (h : m.paramDecision names p = .declare type) :
    p.declared = [] ∧ tagDecision names .param (m.paramTag? p.name) = .declare type := by
  unfold Method.paramDecision at h
  split at h
  next => cases h
  next ht => exact ⟨by simpa [Param.isTyped] using ht, h⟩

theorem Method.resultDecision_eq_declare {m : Method}
    (h : m.resultDecision names = .declare type) :
    m.result = [] ∧ tagDecision names .result m.resultTag? = .declare type := by
  unfold Method.resultDecision at h
  split at h
  next ht => exact ⟨by simpa using ht, h⟩
  next => cases h

theorem Property.decision_eq_declare {p : Property} (h : p.decision names = .declare type) :
    p.declared = [] ∧ tagDecision names .property p.varTag? = .declare type := by
  unfold Property.decision at h
  split at h
  next => cases h
  split at h
  next ht => exact ⟨by simpa using ht, h⟩
  next => cases h

end

section

variable (names : Option Resolver)

theorem Method.decision_view (m : Method) (p : Param) :
    p.view.decision (m.view names).doc = m.paramDecision names p := by
  unfold ParamView.decision Method.paramDecision Method.paramTag? tagDecision
  cases hd : m.doc with
  | none => simp [Method.view, hd, Param.view, Documented.ofTag?, Documented.decision]
  | some doc => simp [Method.view, hd, Param.view, DocBlock.view]

theorem Method.resultDecision_view (m : Method) :
    (m.view names).resultDecision = m.resultDecision names := by
  unfold MethodView.resultDecision Method.resultDecision Method.resultTag? tagDecision
  cases hd : m.doc with
  | none => cases hr : m.result <;> simp [Method.view, hd, hr, Documented.ofTag?, Documented.decision]
  | some doc => cases hr : m.result <;> simp [Method.view, hd, hr, DocBlock.view]

theorem Property.decision_view (p : Property) : (p.view names).decision = p.decision names := by
  unfold PropertyView.decision Property.decision Property.varTag? tagDecision
  cases hd : p.doc with
  | none =>
    cases hr : p.declared <;> simp [Property.view, hd, hr, Documented.ofTag?, Documented.decision]
  | some doc => cases hr : p.declared <;> simp [Property.view, hd, hr, DocBlock.view]

/-- The parameters that receive a type, by name. -/
def Method.promotedNames (m : Method) : List Text :=
  m.params.filterMap fun p => (m.paramDecision names p).type?.map fun _ => p.name

theorem Method.declaredParams_view (m : Method) :
    declaredParams (m.view names) = m.promotedNames names := by
  unfold declaredParams Method.promotedNames
  rw [show (m.view names).params = m.params.map Param.view from rfl, List.filterMap_map]
  congr 1
  funext p
  rw [← Method.decision_view, Function.comp_apply]
  cases p.view.decision (m.view names).doc <;> rfl

theorem Method.mem_promotedNames {m : Method} {name : Text} :
    name ∈ m.promotedNames names ↔
      ∃ p ∈ m.params, p.name = name ∧ ∃ type, m.paramDecision names p = .declare type := by
  unfold Method.promotedNames
  rw [List.mem_filterMap]
  constructor
  · rintro ⟨p, hp, h⟩
    cases hd : m.paramDecision names p with
    | skip reason => simp [hd, Decision.type?] at h
    | declare type => exact ⟨p, hp, by simpa [hd, Decision.type?] using h, type, hd⟩
  · rintro ⟨p, hp, rfl, type, hd⟩
    exact ⟨p, hp, by simp [hd, Decision.type?]⟩

/-! ### The effect in one piece -/

/-- A parameter after its rule. -/
def Method.promoteParam (m : Method) (p : Param) : Param :=
  match m.paramDecision names p with
  | .skip _ => p
  | .declare type =>
    { p with declared := type.spelling, invalidated := p.isPromoted || p.invalidated }

theorem Method.promoteParam_of_skip {names : Option Resolver} {m : Method} {p : Param}
    {reason : SkipReason} (h : m.paramDecision names p = .skip reason) :
    m.promoteParam names p = p := by
  rw [Method.promoteParam, h]

theorem Method.promoteParam_of_declare {names : Option Resolver} {m : Method} {p : Param}
    {type : DeclaredType} (h : m.paramDecision names p = .declare type) :
    m.promoteParam names p =
      { p with declared := type.spelling, invalidated := p.isPromoted || p.invalidated } := by
  rw [Method.promoteParam, h]

/-- A method without the first tag of a parameter, if that tag is redundant. -/
def Method.dropParamTag (m : Method) (name : Text) : Method := (m.removeParamTag? names name).getD m

/-- A method after the rule for parameters. -/
def Method.promoteParams (m : Method) : Method :=
  (m.promotedNames names).foldl (Method.dropParamTag names)
    { m with params := m.params.map (m.promoteParam names) }

/-- A method after the rule for return values. -/
def Method.promoteResult (m : Method) : Method :=
  match m.resultDecision names with
  | .skip _ => m
  | .declare type => (((m.setResult type).removeResultTag? names).getD (m.setResult type)).refresh

/-- A property statement after its rule. -/
def Property.promote (p : Property) : Property :=
  match p.decision names with
  | .skip _ => p
  | .declare type => ((p.setType type).removeVarTag? names).getD (p.setType type)

/-! ### Steps that change nothing -/

/-- Questions and records. -/
def Step.isSilent : Step → Bool
  | .resolveClass | .askInterface _ | .askAncestor _ _ | .log _ => true
  | _ => false

theorem Decision.note_silent (d : Decision) (logger : Option Logger) (site : Site) (name : Text) :
    ∀ s ∈ d.note logger site name, s.isSilent = true := by
  unfold Decision.note
  cases logger <;> simp [Step.isSilent]

theorem Eligibility.check_silent (level : Eligibility) (classes : Option (Option ClassView))
    (name : Text) : ∀ s ∈ (level.check classes name).1, s.isSilent = true := by
  unfold Eligibility.check
  split <;> simp [Step.isSilent]

theorem foldl_perform_silent {α : Type} {perform : α → Step → α}
    (h : ∀ (a : α) (s : Step), s.isSilent = true → perform a s = a) {steps : List Step}
    (hs : ∀ s ∈ steps, s.isSilent = true) (a : α) : steps.foldl perform a = a := by
  induction steps with
  | nil => rfl
  | cons s steps ih =>
    rw [List.foldl_cons, h a s (hs s (List.mem_cons_self ..))]
    exact ih fun s' hs' => hs s' (List.mem_cons_of_mem _ hs')

theorem Method.perform_silent (m : Method) (s : Step) (h : s.isSilent = true) :
    m.perform names s = m := by
  cases s <;> first | rfl | cases h

theorem Property.perform_silent (p : Property) (s : Step) (h : s.isSilent = true) :
    p.perform names s = p := by
  cases s <;> first | rfl | cases h

/-! ### The steps of the rules -/

theorem modify_append_cons {α : Type} (f : α → α) (xs : List α) (x : α) (ys : List α) :
    (xs ++ x :: ys).modify xs.length f = xs ++ f x :: ys := by
  induction xs with
  | nil => rfl
  | cons y xs ih => simp [ih]

/-- The steps for one parameter, with the parameters before and after it. -/
theorem Method.foldl_paramSteps (m : Method) (logger : Option Logger)
    (before after : List Param) (p : Param) :
    (paramSteps logger true (m.view names).doc before.length p.view).foldl (Method.perform names)
        { m with params := before ++ p :: after } =
      { m with params := before ++ m.promoteParam names p :: after } := by
  unfold paramSteps Method.promoteParam
  rw [Method.decision_view, List.foldl_append,
    foldl_perform_silent (Method.perform_silent names) (Decision.note_silent _ _ _ _)]
  cases m.paramDecision names p with
  | skip reason => rfl
  | declare type =>
    cases hp : p.isPromoted <;>
      simp [hp, Param.view, Method.perform, Method.setParam, Method.invalidate, modify_append_cons]

/-- The steps for all parameters, from left to right. -/
theorem Method.foldl_allParamSteps (m : Method) (logger : Option Logger) (after : List Param) :
    ∀ before : List Param,
      ((after.map Param.view).mapIdx fun i =>
          paramSteps logger true (m.view names).doc (before.length + i)).flatten.foldl
            (Method.perform names) { m with params := before ++ after } =
        { m with params := before ++ after.map (m.promoteParam names) } := by
  induction after with
  | nil =>
    intro before
    rfl
  | cons p after ih =>
    intro before
    -- the decisions read the documentation only, so those about the rest are not affected by the
    -- step for `p`
    have hrest := ih (before ++ [m.promoteParam names p])
    rw [List.map_cons, List.mapIdx_cons, List.flatten_cons, List.foldl_append, Nat.add_zero,
      Method.foldl_paramSteps]
    simp only [List.append_assoc, List.length_append, List.length_singleton, Nat.add_assoc,
      Nat.add_comm 1, List.singleton_append] at hrest
    exact hrest

/-- The rule for parameters, for a method that it admits. -/
theorem Method.foldl_paramRule (m : Method) (logger : Option Logger) :
    (((m.view names).params.mapIdx (paramSteps logger true (m.view names).doc)).flatten ++
        (declaredParams (m.view names)).map Step.removeParamTag).foldl (Method.perform names) m =
      m.promoteParams names := by
  -- first all types are set, then the tags are removed
  have hsets := m.foldl_allParamSteps names logger m.params []
  simp only [List.length_nil, Nat.zero_add, List.nil_append] at hsets
  rw [List.foldl_append, show (m.view names).params = m.params.map Param.view from rfl, hsets,
    List.foldl_map, Method.declaredParams_view]
  rfl

end

/-! ### Applying the rules -/

/-- Whether a rule with an eligibility level may touch a method. -/
def Scope.admits (s : Scope) (level : Eligibility) (name : Text) : Bool :=
  (level.check s.facilities.classes name).2

/-- Why a property statement is refused. -/
def Property.refusal? (c : Config) (p : Property) : Option RuleError :=
  if 1 < p.names.length ∧ c.multiProperty = .reject then some (.multipleProperties p.names) else none

/-- A method after the rule for parameters, if that is enabled and admits the method. -/
def Method.afterParams (c : Config) (s : Scope) (m : Method) : Method :=
  if c.enabled .param && s.admits c.paramEligibility m.name then m.promoteParams s.names else m

/-- A method after the rule for return values, if that is enabled and admits the method. -/
def Method.afterResult (c : Config) (s : Scope) (m : Method) : Method :=
  if c.enabled .result && s.admits c.resultEligibility m.name then m.promoteResult s.names else m

/-- Whether a parameter of a method receives a type. -/
def Method.paramsChange (c : Config) (s : Scope) (m : Method) : Bool :=
  c.enabled .param && s.admits c.paramEligibility m.name && !(m.promotedNames s.names).isEmpty

/-- Whether the return value of a method receives a type. -/
def Method.resultChange (c : Config) (s : Scope) (m : Method) : Bool :=
  c.enabled .result && s.admits c.resultEligibility m.name &&
    (m.resultDecision s.names).type?.isSome

section

variable (c : Config) (s : Scope)

theorem Method.applyRule_paramRule (m : Method) : ∃ steps,
    m.applyRule s (paramRule c) =
      (if s.admits c.paramEligibility m.name then m.promoteParams s.names else m,
        ⟨steps, s.admits c.paramEligibility m.name && !(m.promotedNames s.names).isEmpty, none⟩) := by
  have hq := Eligibility.check_silent c.paramEligibility s.facilities.classes m.name
  unfold Method.applyRule DocPromotion.applyRule paramRule Scope.admits
  rw [show (m.view s.names).name = m.name from rfl]
  generalize c.paramEligibility.check s.facilities.classes m.name = answer at hq ⊢
  obtain ⟨questions, admitted⟩ := answer
  cases admitted with
  | false =>
    refine ⟨questions ++ (Decision.skip .ineligible).note c.logger .param m.name, ?_⟩
    simp only [Outcome.unchanged, Bool.false_and, Bool.false_eq_true, if_false]
    rw [List.foldl_append, foldl_perform_silent (Method.perform_silent s.names) hq,
      foldl_perform_silent (Method.perform_silent s.names) (Decision.note_silent _ _ _ _)]
  | true =>
    simp only [Scope.facilities, Bool.true_and, if_true]
    rw [List.append_assoc, List.foldl_append,
      foldl_perform_silent (Method.perform_silent s.names) hq, Method.foldl_paramRule,
      Method.declaredParams_view]
    exact ⟨_, rfl⟩

theorem Method.applyRule_resultRule (m : Method) : ∃ steps,
    m.applyRule s (resultRule c) =
      (if s.admits c.resultEligibility m.name then m.promoteResult s.names else m,
        ⟨steps, s.admits c.resultEligibility m.name && (m.resultDecision s.names).type?.isSome,
          none⟩) := by
  have hq := Eligibility.check_silent c.resultEligibility s.facilities.classes m.name
  unfold Method.applyRule DocPromotion.applyRule resultRule Scope.admits Method.promoteResult
  rw [show (m.view s.names).name = m.name from rfl, Method.resultDecision_view]
  generalize c.resultEligibility.check s.facilities.classes m.name = answer at hq ⊢
  obtain ⟨questions, admitted⟩ := answer
  cases admitted with
  | false =>
    refine ⟨questions ++ (Decision.skip .ineligible).note c.logger .result m.name, ?_⟩
    simp only [Outcome.unchanged, Bool.false_and, Bool.false_eq_true, if_false]
    rw [List.foldl_append, foldl_perform_silent (Method.perform_silent s.names) hq,
      foldl_perform_silent (Method.perform_silent s.names) (Decision.note_silent _ _ _ _)]
  | true =>
    cases hd : m.resultDecision s.names with
    | skip reason =>
      refine ⟨questions ++ (Decision.skip reason).note c.logger .result m.name, ?_⟩
      simp only [Outcome.unchanged, Bool.true_and, if_true, Decision.type?, Option.isSome_none]
      rw [List.foldl_append, foldl_perform_silent (Method.perform_silent s.names) hq,
        foldl_perform_silent (Method.perform_silent s.names) (Decision.note_silent _ _ _ _)]
    | declare type =>
      simp only [Scope.facilities, Bool.true_and, if_true, Decision.type?, Option.isSome_some]
      rw [List.append_assoc, List.foldl_append,
        foldl_perform_silent (Method.perform_silent s.names) hq, List.foldl_append,
        foldl_perform_silent (Method.perform_silent s.names) (Decision.note_silent _ _ _ _)]
      exact ⟨_, rfl⟩

theorem tagDecision_ne_multiple (names : Option Resolver) (site : Site) (tag : Option Tag) :
    tagDecision names site tag ≠ .skip .multiple := by
  unfold tagDecision
  cases tag with
  | none => simp [Documented.ofTag?, Documented.decision]
  | some t =>
    simp only [Documented.ofTag?, Documented.decision]
    split <;> simp

/-- A statement is skipped for its number of names exactly if it declares several. -/
theorem Property.decision_eq_multiple_iff (names : Option Resolver) (p : Property) :
    p.decision names = .skip .multiple ↔ 1 < p.names.length := by
  unfold Property.decision
  by_cases h : 1 < p.names.length
  · simp [h]
  · rw [if_neg h]
    split
    · simp [h, tagDecision_ne_multiple]
    · simp [h]

theorem Property.applyRule_propertyRule (p : Property) : ∃ steps,
    p.applyRule s (propertyRule c) =
      (p.promote s.names, ⟨steps, (p.decision s.names).type?.isSome, p.refusal? c⟩) := by
  have hmultiple := Property.decision_eq_multiple_iff s.names p
  unfold Property.applyRule DocPromotion.applyRule propertyRule Property.promote Property.refusal?
  rw [show (p.view s.names).names = p.names from rfl, Property.decision_view]
  cases hd : p.decision s.names with
  | skip reason =>
    -- only a statement with several names can be refused, all others are passed over
    rw [hd] at hmultiple
    refine ⟨(Decision.skip reason).note c.logger .property (Text.joinWith ", " p.names), ?_⟩
    by_cases hr : reason = .multiple
    · subst hr
      simp only [hmultiple.mp rfl, true_and, Decision.type?, Option.isSome_none]
      rw [foldl_perform_silent (Property.perform_silent s.names) (Decision.note_silent _ _ _ _)]
    · have hlen : ¬ 1 < p.names.length := fun h => hr (by simpa using hmultiple.mpr h)
      simp only [hlen, false_and, if_false, Decision.type?, Option.isSome_none]
      cases reason <;> first
        | exact absurd rfl hr
        | simp only [Outcome.unchanged]
          rw [foldl_perform_silent (Property.perform_silent s.names)
            (Decision.note_silent _ _ _ _)]
  | declare type =>
    have hlen : ¬ 1 < p.names.length := fun h => by simpa [hd] using hmultiple.mpr h
    simp only [hlen, false_and, if_false, Decision.type?, Option.isSome_some, Scope.facilities,
      if_true]
    rw [List.foldl_append,
      foldl_perform_silent (Property.perform_silent s.names) (Decision.note_silent _ _ _ _)]
    exact ⟨_, rfl⟩

/-- The rule for parameters, if it is enabled. -/
theorem Method.applyParams_eq (m : Method) : ∃ steps,
    (if c.enabled .param then m.applyRule s (paramRule c) else (m, .idle)) =
      (m.afterParams c s, ⟨steps, m.paramsChange c s, none⟩) := by
  unfold Method.afterParams Method.paramsChange
  cases c.enabled .param with
  | false => exact ⟨[], rfl⟩
  | true =>
    obtain ⟨steps, h⟩ := m.applyRule_paramRule c s
    exact ⟨steps, by simpa using h⟩

/-- The rule for return values, if it is enabled. -/
theorem Method.applyResult_eq (m : Method) : ∃ steps,
    (if c.enabled .result then m.applyRule s (resultRule c) else (m, .idle)) =
      (m.afterResult c s, ⟨steps, m.resultChange c s, none⟩) := by
  unfold Method.afterResult Method.resultChange
  cases c.enabled .result with
  | false => exact ⟨[], rfl⟩
  | true =>
    obtain ⟨steps, h⟩ := m.applyRule_resultRule c s
    exact ⟨steps, by simpa using h⟩

theorem paramRule_error (f : Facilities) (m : MethodView) : (paramRule c f m).error = none := by
  unfold paramRule
  split <;> rfl

theorem resultRule_error (f : Facilities) (m : MethodView) : (resultRule c f m).error = none := by
  unfold resultRule
  split
  · rfl
  · dsimp only
    split <;> rfl

/-- A rule that may not be enabled, and the steps that it performs. -/
theorem applyRule_if {α ν : Type} {perform : α → Step → α} (view : α → ν) (rule : ν → Outcome)
    (enabled : Bool) (a : α) :
    (if enabled then applyRule view perform rule a else (a, .idle)) =
      ((if enabled then rule (view a) else .idle).steps.foldl perform a,
        if enabled then rule (view a) else .idle) := by
  cases enabled <;> rfl

theorem error_if {out : Outcome} (h : out.error = none) (enabled : Bool) :
    (if enabled then out else .idle).error = none := by
  cases enabled with
  | false => rfl
  | true => exact h

/-- No rule for methods fails, so that both of them are applied. -/
theorem applyMethodRules_eq {α : Type} {view : α → MethodView} {perform : α → Step → α}
    {f : Facilities} {a left right : α} {params result : Outcome}
    (hparams : (if c.enabled .param then applyRule view perform (paramRule c f) a
      else (a, .idle)) = (left, params))
    (hresult : (if c.enabled .result then applyRule view perform (resultRule c f) left
      else (left, .idle)) = (right, result)) :
    applyMethodRules view perform c f a = (right, params.append result) := by
  have hfirst : params.error = none := by
    rw [applyRule_if] at hparams
    obtain ⟨-, rfl⟩ := Prod.mk.inj hparams
    exact error_if (paramRule_error c f (view a)) _
  have hsecond : result.error = none := by
    rw [applyRule_if] at hresult
    obtain ⟨-, rfl⟩ := Prod.mk.inj hresult
    exact error_if (resultRule_error c f (view left)) _
  unfold applyMethodRules
  rw [hparams]
  dsimp only
  rw [hfirst]
  dsimp only
  rw [hresult]
  dsimp only
  rw [hsecond]

/-- **What refactoring does to a method, and what it reports.** -/
theorem Method.refactor_eq (m : Method) : ∃ steps,
    m.refactor c s =
      ((m.afterParams c s).afterResult c s,
        ⟨steps, m.paramsChange c s || (m.afterParams c s).resultChange c s, none⟩) := by
  obtain ⟨steps₁, h₁⟩ := m.applyParams_eq c s
  obtain ⟨steps₂, h₂⟩ := (m.afterParams c s).applyResult_eq c s
  exact ⟨steps₁ ++ steps₂, applyMethodRules_eq c h₁ h₂⟩

theorem Method.error_refactor (m : Method) : (m.refactor c s).2.error = none := by
  obtain ⟨steps, h⟩ := m.refactor_eq c s
  rw [h]

/-- Methods are never refused. -/
theorem Method.errors_ofMethod_refactor (m : Method) (fqn name : Text) :
    (Report.ofMethod fqn name (m.refactor c s).2).errors = [] := by
  rw [Report.ofMethod, m.error_refactor]
  rfl

/-- **What refactoring does to a property statement, and what it reports.** -/
theorem Property.refactor_eq (p : Property) : ∃ steps,
    p.refactor c s =
      if c.enabled .property then
        (p.promote s.names, ⟨steps, (p.decision s.names).type?.isSome, p.refusal? c⟩)
      else (p, .idle) := by
  obtain ⟨steps, h⟩ := p.applyRule_propertyRule c s
  refine ⟨steps, ?_⟩
  unfold Property.applyRule at h
  unfold Property.refactor applyPropertyRules
  rw [h]

end

end DocPromotion
