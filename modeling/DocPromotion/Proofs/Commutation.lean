import DocPromotion.Proofs.Addresses
import DocPromotion.Proofs.Idempotence
import DocPromotion.Proofs.KeptTags

/-!
The order in which rules are applied does not matter.

Two uses of rules can get in each other's way in two places only.  The rules for parameters and for
return values share the documentation block of a method, and either of them may drop it; they
commute on every method (`Method.promoteResult_promoteParams`).  And whether a rule admits a method
depends on other classes, but on nothing that a rule changes (`Address.scope_putMethod`).

So a use of a rule has the same outcome before and after any other, and two uses commute in every
workspace (`RuleUse.independent_of_ne`).  What holds for two uses holds for all orders of any number
of them, by induction.
-/

namespace DocPromotion

/-! ### Two rules for one method -/

section

variable (names : Option Resolver)

theorem Method.promoteParam_promoteResult (m : Method) :
    (m.promoteResult names).promoteParam names = m.promoteParam names := by
  funext p
  unfold Method.promoteParam
  rw [Method.paramDecision_promoteResult]

theorem Method.keptTags_promoteResult (m : Method) (tags : List Tag) :
    (m.promoteResult names).keptTags names tags = m.keptTags names tags := by
  unfold Method.keptTags
  rw [Method.promotedNames_promoteResult, Method.params_promoteResult,
    Method.promoteParam_promoteResult]

/-- Whichever of the rules comes first, it leaves the same documentation for the other. -/
theorem Method.promoteResult_promoteParams (m : Method) :
    (m.promoteParams names).promoteResult names = (m.promoteResult names).promoteParams names := by
  cases hd : m.resultDecision names with
  | skip reason =>
    rw [Method.promoteResult_eq_self names hd,
      Method.promoteResult_eq_self names ((m.resultDecision_promoteParams names).trans hd)]
  | declare type =>
    obtain ⟨t, htag, -⟩ := tagDecision_eq_declare (Method.resultDecision_eq_declare hd).2
    obtain ⟨b, hdoc, hresult⟩ := Option.bind_eq_some_iff.mp htag
    have hafter := (m.resultDecision_promoteParams names).trans hd
    rw [Method.promoteResult_of_declare names hafter, Method.promoteParams_eq names m,
      Method.promoteParams_eq names (m.promoteResult names), Method.promoteParam_promoteResult,
      Method.params_promoteResult]
    simp only [Method.keptTags_promoteResult]
    rw [Method.promoteResult_of_declare names hd]
    simp only [hdoc, Option.bind_some, DocBlock.withParams_of_result hresult]
    congr 1
    -- without the tag of the return value the block may be empty, then there were no other tags
    generalize b.result.filter _ = kept
    cases hempty : ({ b with result := kept } : DocBlock).isEmpty with
    | true =>
      obtain ⟨-, hparams, -, -⟩ := DocBlock.isEmpty_iff.mp hempty
      have hnil : m.keptTags names b.params = b.params := by
        have hsublist := m.keptTags_sublist names b.params
        rw [show b.params = [] from hparams] at hsublist ⊢
        exact List.sublist_nil.mp hsublist
      rw [hnil, DocBlock.prune, hempty]
      rfl
    | false =>
      rw [DocBlock.prune_of_ne_nil hempty, Option.bind_some, DocBlock.withParams]
      split
      next hsame =>
        rw [show m.keptTags names b.params = b.params from hsame, DocBlock.prune_of_ne_nil hempty]
      next => rfl

end

/-- What is decided about a parameter depends on its first tag. -/
theorem ParamView.decision_view (names : Option Resolver) (m : Method) (p : ParamView) :
    p.decision (m.view names).doc =
      if p.typed then .skip .typed else tagDecision names .param (m.paramTag? p.name) := by
  unfold ParamView.decision Method.paramTag? tagDecision
  cases hdoc : m.doc with
  | none => simp [Method.view, hdoc, Documented.ofTag?, Documented.decision]
  | some b => simp [Method.view, hdoc, DocBlock.view]

/-- What the rule for parameters answers depends on the name, the parameters and what is decided
about them. -/
theorem paramRule_congr (c : Config) (f : Facilities) {v v' : MethodView} (hname : v'.name = v.name)
    (hparams : v'.params = v.params)
    (hdoc : ∀ p : ParamView, p.decision v'.doc = p.decision v.doc) :
    paramRule c f v' = paramRule c f v := by
  unfold paramRule declaredParams paramSteps
  simp only [hname, hparams, hdoc]

theorem resultRule_congr (c : Config) (f : Facilities) {v v' : MethodView}
    (hname : v'.name = v.name) (hdecision : v'.resultDecision = v.resultDecision) :
    resultRule c f v' = resultRule c f v := by
  unfold resultRule
  rw [hname, hdecision]

section

variable (c : Config) (s : Scope)

theorem Method.applyRule_paramRule_fst (m : Method) :
    (m.applyRule s (paramRule c)).1 =
      if s.admits c.paramEligibility m.name then m.promoteParams s.names else m := by
  obtain ⟨steps, h⟩ := m.applyRule_paramRule c s
  rw [h]

theorem Method.applyRule_resultRule_fst (m : Method) :
    (m.applyRule s (resultRule c)).1 =
      if s.admits c.resultEligibility m.name then m.promoteResult s.names else m := by
  obtain ⟨steps, h⟩ := m.applyRule_resultRule c s
  rw [h]

@[simp] theorem Method.name_applyRule_paramRule (m : Method) :
    (m.applyRule s (paramRule c)).1.name = m.name := by
  rw [Method.applyRule_paramRule_fst]
  split
  · exact m.name_promoteParams s.names
  · rfl

@[simp] theorem Method.name_applyRule_resultRule (m : Method) :
    (m.applyRule s (resultRule c)).1.name = m.name := by
  rw [Method.applyRule_resultRule_fst]
  split
  · exact m.name_promoteResult s.names
  · rfl

theorem Method.applyRule_comm (m : Method) :
    ((m.applyRule s (paramRule c)).1.applyRule s (resultRule c)).1 =
      ((m.applyRule s (resultRule c)).1.applyRule s (paramRule c)).1 := by
  rw [Method.applyRule_resultRule_fst c s (m.applyRule s (paramRule c)).1,
    Method.applyRule_paramRule_fst c s (m.applyRule s (resultRule c)).1,
    Method.name_applyRule_paramRule, Method.name_applyRule_resultRule,
    Method.applyRule_paramRule_fst, Method.applyRule_resultRule_fst]
  cases s.admits c.paramEligibility m.name with
  | false => rfl
  | true =>
    cases s.admits c.resultEligibility m.name with
    | false => rfl
    | true => exact m.promoteResult_promoteParams s.names

/-- The rule for parameters answers the same before and after the one for return values. -/
theorem Method.outcome_paramRule (m : Method) :
    ((m.applyRule s (resultRule c)).1.applyRule s (paramRule c)).2 =
      (m.applyRule s (paramRule c)).2 := by
  have htag : ∀ name, (m.applyRule s (resultRule c)).1.paramTag? name = m.paramTag? name := by
    intro name
    rw [Method.applyRule_resultRule_fst]
    split
    · exact m.paramTag?_promoteResult s.names name
    · rfl
  have hparams : (m.applyRule s (resultRule c)).1.params = m.params := by
    rw [Method.applyRule_resultRule_fst]
    split
    · exact m.params_promoteResult s.names
    · rfl
  refine paramRule_congr c s.facilities (m.name_applyRule_resultRule c s) ?_ ?_
  · exact congrArg (List.map Param.view) hparams
  · intro p
    rw [ParamView.decision_view, ParamView.decision_view, htag]

/-- The rule for return values answers the same before and after the one for parameters. -/
theorem Method.outcome_resultRule (m : Method) :
    ((m.applyRule s (paramRule c)).1.applyRule s (resultRule c)).2 =
      (m.applyRule s (resultRule c)).2 := by
  refine resultRule_congr c s.facilities (m.name_applyRule_paramRule c s) ?_
  rw [Method.resultDecision_view, Method.resultDecision_view, Method.applyRule_paramRule_fst]
  split
  · exact m.resultDecision_promoteParams s.names
  · rfl

end

/-! ### Changes of a workspace -/

/-- Two changes of a workspace that do not depend on each other: they can be swapped, and neither
changes the outcome of the other. -/
structure Independent (f g : Workspace → Workspace × Outcome) : Prop where
  swap : ∀ w, (g (f w).1).1 = (f (g w).1).1
  left : ∀ w, (f (g w).1).2 = (f w).2
  right : ∀ w, (g (f w).1).2 = (g w).2

theorem Independent.symm {f g : Workspace → Workspace × Outcome} (h : Independent f g) :
    Independent g f := ⟨fun w => (h.swap w).symm, h.right, h.left⟩

/-- A change of one declaration, which may depend on its surroundings. -/
structure Edit (α : Type) where
  get? : Workspace → Option α
  put : Workspace → α → Workspace
  act : Workspace → α → α × Outcome
  /-- The outcome if there is no declaration. -/
  fallback : Outcome

namespace Edit

variable {α β : Type}

/-- A workspace after a change. -/
def run (e : Edit α) (w : Workspace) : Workspace × Outcome :=
  match e.get? w with
  | some x => (e.put w (e.act w x).1, (e.act w x).2)
  | none => (w, e.fallback)

theorem run_of_some {e : Edit α} {w : Workspace} {x : α} (h : e.get? w = some x) :
    e.run w = (e.put w (e.act w x).1, (e.act w x).2) := by
  rw [run, h]

theorem run_of_none {e : Edit α} {w : Workspace} (h : e.get? w = none) :
    e.run w = (w, e.fallback) := by
  rw [run, h]

/-- A change that another one does not see, neither in its declaration nor in the surroundings. -/
structure Hidden (e : Edit α) (e' : Edit β) : Prop where
  get? : ∀ {w x}, e.get? w = some x → e'.get? (e.put w (e.act w x).1) = e'.get? w
  act : ∀ {w x}, e.get? w = some x → e'.act (e.put w (e.act w x).1) = e'.act w

theorem Hidden.run_snd {e : Edit α} {e' : Edit β} (h : e.Hidden e') (w : Workspace) :
    (e'.run (e.run w).1).2 = (e'.run w).2 := by
  cases hx : e.get? w with
  | none => rw [run_of_none hx]
  | some x =>
    rw [run_of_some hx]
    cases hy : e'.get? w with
    | none => rw [run_of_none hy, run_of_none ((h.get? hx).trans hy)]
    | some y => rw [run_of_some hy, run_of_some ((h.get? hx).trans hy), h.act hx]

/-- Changes that do not see each other and put their declarations at different places. -/
theorem independent {e : Edit α} {e' : Edit β} (h : e.Hidden e') (h' : e'.Hidden e)
    (hput : ∀ w x y, e'.put (e.put w x) y = e.put (e'.put w y) x) :
    Independent e.run e'.run := by
  refine ⟨fun w => ?_, h'.run_snd, h.run_snd⟩
  cases hx : e.get? w with
  | none =>
    cases hy : e'.get? w with
    | none => rw [run_of_none hx, run_of_none hy, run_of_none hx]
    | some y =>
      rw [run_of_none hx, run_of_some hy, run_of_none ((h'.get? hy).trans hx)]
  | some x =>
    cases hy : e'.get? w with
    | none => rw [run_of_none hy, run_of_some hx, run_of_none ((h.get? hx).trans hy)]
    | some y =>
      rw [run_of_some hx, run_of_some hy, run_of_some ((h.get? hx).trans hy),
        run_of_some ((h'.get? hy).trans hx), h.act hx, h'.act hy, hput]

end Edit

/-! ### Uses of rules -/

/-- The use of a rule on the declaration at an address. -/
structure RuleUse where
  rule : Rule
  address : Address
deriving DecidableEq

/-- Applies a rule to a declaration, whether or not the rule is enabled. -/
def RuleUse.apply (c : Config) (u : RuleUse) (w : Workspace) : Workspace × Outcome :=
  match u.rule with
  | .param => w.applyMethodRule u.address (paramRule c)
  | .result => w.applyMethodRule u.address (resultRule c)
  | .property => w.applyPropertyRule u.address (propertyRule c)

/-- A rule for methods, as a change. -/
def Edit.ofMethod (a : Address) (rule : Facilities → MethodView → Outcome) : Edit Method where
  get? w := w.method? a
  put w m := w.putMethod a m
  act w m := m.applyRule (a.scope w) rule
  fallback :=
    match a with
    | .foreign name => rule Scope.detached.facilities (foreignMethod name)
    | _ => .idle

/-- A rule for properties, as a change. -/
def Edit.ofProperty (a : Address) (rule : Facilities → PropertyView → Outcome) :
    Edit Property where
  get? w := w.property? a
  put w p := w.putProperty a p
  act w p := p.applyRule (a.scope w) rule
  fallback :=
    match a with
    | .foreign name => rule Scope.detached.facilities (foreignProperty name)
    | _ => .idle

theorem Workspace.applyMethodRule_eq_run (w : Workspace) (a : Address)
    (rule : Facilities → MethodView → Outcome) :
    w.applyMethodRule a rule = (Edit.ofMethod a rule).run w := by
  unfold Workspace.applyMethodRule Edit.run
  rw [show (Edit.ofMethod a rule).get? w = w.method? a from rfl]
  cases w.method? a with
  | none => cases a <;> rfl
  | some m => rfl

theorem Workspace.applyPropertyRule_eq_run (w : Workspace) (a : Address)
    (rule : Facilities → PropertyView → Outcome) :
    w.applyPropertyRule a rule = (Edit.ofProperty a rule).run w := by
  unfold Workspace.applyPropertyRule Edit.run
  rw [show (Edit.ofProperty a rule).get? w = w.property? a from rfl]
  cases w.property? a with
  | none => cases a <;> rfl
  | some p => rfl

namespace Edit

variable {r r' : Facilities → MethodView → Outcome} {q q' : Facilities → PropertyView → Outcome}

/-- Rules that keep the name of a method. -/
def KeepsName (r : Facilities → MethodView → Outcome) : Prop :=
  ∀ (s : Scope) (m : Method), (m.applyRule s r).1.name = m.name

theorem run_ofMethod {w : Workspace} {a : Address} {m : Method} (h : w.method? a = some m) :
    (ofMethod a r).run w =
      (w.putMethod a (m.applyRule (a.scope w) r).1, (m.applyRule (a.scope w) r).2) :=
  run_of_some (e := ofMethod a r) h

/-- Two rules for one method, one after the other. -/
theorem run_run_ofMethod (hr : KeepsName r) {w : Workspace} {a : Address} {m : Method}
    (h : w.method? a = some m) :
    (ofMethod a r').run ((ofMethod a r).run w).1 =
      (w.putMethod a ((m.applyRule (a.scope w) r).1.applyRule (a.scope w) r').1,
        ((m.applyRule (a.scope w) r).1.applyRule (a.scope w) r').2) := by
  rw [run_ofMethod h, run_ofMethod (w.method?_putMethod_self h _),
    Address.scope_putMethod h (hr _ m) a, Workspace.putMethod_putMethod_self]

theorem act_ofMethod_put (hr : KeepsName r) {w : Workspace} {a : Address} {m : Method}
    (h : w.method? a = some m) (b : Address) :
    (ofMethod b r').act (w.putMethod a (m.applyRule (a.scope w) r).1) = (ofMethod b r').act w := by
  funext m'
  simp only [ofMethod, Address.scope_putMethod h (hr _ m) b]

theorem hidden_methods (hr : KeepsName r) {a b : Address} (hab : a ≠ b) :
    (ofMethod a r).Hidden (ofMethod b r') where
  get? _ := Workspace.method?_putMethod_of_ne _ hab _
  act h := act_ofMethod_put hr h b

theorem hidden_method_property (hr : KeepsName r) (a b : Address) :
    (ofMethod a r).Hidden (ofProperty b q) where
  get? _ := Workspace.property?_putMethod _ a b _
  act {w m} h := by
    funext p
    have hscope := Address.scope_putMethod h (hr (a.scope w) m) b
    simp only [ofMethod, ofProperty]
    rw [hscope]

theorem hidden_property_method (a b : Address) : (ofProperty a q).Hidden (ofMethod b r) where
  get? _ := Workspace.method?_putProperty _ a b _
  act _ := by
    funext m
    simp only [ofProperty, ofMethod, Address.scope_putProperty]

theorem hidden_properties {a b : Address} (hab : a ≠ b) :
    (ofProperty a q).Hidden (ofProperty b q') where
  get? _ := Workspace.property?_putProperty_of_ne _ hab _
  act _ := by
    funext p
    simp only [ofProperty, Address.scope_putProperty]

theorem independent_methods (hr : KeepsName r) (hr' : KeepsName r') {a b : Address} (hab : a ≠ b) :
    Independent (ofMethod a r).run (ofMethod b r').run :=
  independent (hidden_methods hr hab) (hidden_methods hr' hab.symm) fun w m m' =>
    w.putMethod_comm hab m m'

theorem independent_method_property (hr : KeepsName r) (a b : Address) :
    Independent (ofMethod a r).run (ofProperty b q).run :=
  independent (hidden_method_property hr a b) (hidden_property_method b a) fun w m p =>
    w.putMethod_putProperty_comm a b m p

theorem independent_properties {a b : Address} (hab : a ≠ b) :
    Independent (ofProperty a q).run (ofProperty b q').run :=
  independent (hidden_properties hab) (hidden_properties hab.symm) fun w p p' =>
    w.putProperty_comm hab p p'

end Edit

section

variable (c : Config)

theorem keepsName_paramRule : Edit.KeepsName (paramRule c) :=
  fun s m => m.name_applyRule_paramRule c s

theorem keepsName_resultRule : Edit.KeepsName (resultRule c) :=
  fun s m => m.name_applyRule_resultRule c s

/-- The two rules for one method share its documentation. -/
theorem independent_same_method (a : Address) :
    Independent (Edit.ofMethod a (paramRule c)).run (Edit.ofMethod a (resultRule c)).run := by
  have hnone : ∀ {w : Workspace}, w.method? a = none → ∀ r, ((Edit.ofMethod a r).run w).1 = w := by
    intro w hm r
    rw [Edit.run_of_none (e := Edit.ofMethod a r) hm]
  constructor
  all_goals
    intro w
    rcases Option.eq_none_or_eq_some (w.method? a) with hm | ⟨m, hm⟩
  · rw [hnone hm (paramRule c), hnone hm (resultRule c), hnone hm (paramRule c)]
  · rw [Edit.run_run_ofMethod (keepsName_paramRule c) hm,
      Edit.run_run_ofMethod (keepsName_resultRule c) hm, m.applyRule_comm c (a.scope w)]
  · rw [hnone hm]
  · rw [Edit.run_run_ofMethod (keepsName_resultRule c) hm, m.outcome_paramRule c (a.scope w),
      Edit.run_ofMethod hm]
  · rw [hnone hm]
  · rw [Edit.run_run_ofMethod (keepsName_paramRule c) hm, m.outcome_resultRule c (a.scope w),
      Edit.run_ofMethod hm]

/-! ### Any two uses -/

theorem RuleUse.apply_param (a : Address) :
    RuleUse.apply c ⟨.param, a⟩ = (Edit.ofMethod a (paramRule c)).run :=
  funext fun w => w.applyMethodRule_eq_run a _

theorem RuleUse.apply_result (a : Address) :
    RuleUse.apply c ⟨.result, a⟩ = (Edit.ofMethod a (resultRule c)).run :=
  funext fun w => w.applyMethodRule_eq_run a _

theorem RuleUse.apply_property (a : Address) :
    RuleUse.apply c ⟨.property, a⟩ = (Edit.ofProperty a (propertyRule c)).run :=
  funext fun w => w.applyPropertyRule_eq_run a _

/-- The rule for parameters of one method and the rule for the return value of any method. -/
theorem independent_param_result (a b : Address) :
    Independent (RuleUse.apply c ⟨.param, a⟩) (RuleUse.apply c ⟨.result, b⟩) := by
  rw [RuleUse.apply_param, RuleUse.apply_result]
  by_cases hab : a = b
  · rw [hab]
    exact independent_same_method c b
  · exact Edit.independent_methods (keepsName_paramRule c) (keepsName_resultRule c) hab

/-- **Two uses of rules do not depend on each other**, unless they are the same. -/
theorem RuleUse.independent_of_ne {u v : RuleUse} (h : u ≠ v) :
    Independent (u.apply c) (v.apply c) := by
  obtain ⟨rule, a⟩ := u
  obtain ⟨rule', b⟩ := v
  have haddress : rule = rule' → a ≠ b := by
    rintro rfl rfl
    exact h rfl
  cases rule with
  | param =>
    cases rule' with
    | param =>
      rw [apply_param, apply_param]
      exact Edit.independent_methods (keepsName_paramRule c) (keepsName_paramRule c)
        (haddress rfl)
    | result => exact independent_param_result c a b
    | property =>
      rw [apply_param, apply_property]
      exact Edit.independent_method_property (keepsName_paramRule c) a b
  | result =>
    cases rule' with
    | param => exact (independent_param_result c b a).symm
    | result =>
      rw [apply_result, apply_result]
      exact Edit.independent_methods (keepsName_resultRule c) (keepsName_resultRule c)
        (haddress rfl)
    | property =>
      rw [apply_result, apply_property]
      exact Edit.independent_method_property (keepsName_resultRule c) a b
  | property =>
    cases rule' with
    | param =>
      rw [apply_property, apply_param]
      exact (Edit.independent_method_property (keepsName_paramRule c) b a).symm
    | result =>
      rw [apply_property, apply_result]
      exact (Edit.independent_method_property (keepsName_resultRule c) b a).symm
    | property =>
      rw [apply_property, apply_property]
      exact Edit.independent_properties (haddress rfl)

end

/-! ### Any order -/

/-- Applies rules one after the other.  The outcomes come in the same order. -/
def Workspace.applyUses (c : Config) (w : Workspace) : List RuleUse → Workspace × List Outcome
  | [] => (w, [])
  | u :: us =>
    let (w, out) := u.apply c w
    let (w, outs) := w.applyUses c us
    (w, out :: outs)

namespace Workspace

variable (c : Config)

theorem applyUses_cons (w : Workspace) (u : RuleUse) (us : List RuleUse) :
    w.applyUses c (u :: us) =
      (((u.apply c w).1.applyUses c us).1, (u.apply c w).2 :: ((u.apply c w).1.applyUses c us).2) :=
  rfl

/-- A rule that is used once has the outcome that it has in the beginning. -/
theorem applyUses_snd {us : List RuleUse} (h : us.Nodup) :
    ∀ w : Workspace, (w.applyUses c us).2 = us.map fun u => (u.apply c w).2 := by
  induction us with
  | nil => exact fun _ => rfl
  | cons u us ih =>
    intro w
    obtain ⟨hu, hus⟩ := List.nodup_cons.mp h
    rw [applyUses_cons, ih hus, List.map_cons]
    dsimp only
    congr 1
    refine List.map_congr_left fun v hv => ?_
    have hne : u ≠ v := by
      rintro rfl
      exact hu hv
    exact (RuleUse.independent_of_ne c hne).right w

/-- Different uses in any order lead to the same workspace. -/
theorem applyUses_fst_perm {us us' : List RuleUse} (hperm : us.Perm us') :
    us.Nodup → ∀ w : Workspace, (w.applyUses c us).1 = (w.applyUses c us').1 := by
  induction hperm with
  | nil => exact fun _ _ => rfl
  | cons u _ ih =>
    intro hnodup w
    exact ih (List.nodup_cons.mp hnodup).2 _
  | swap u v us =>
    intro hnodup w
    have hne : v ≠ u := by
      rintro rfl
      exact (List.nodup_cons.mp hnodup).1 List.mem_cons_self
    rw [applyUses_cons, applyUses_cons, applyUses_cons, applyUses_cons]
    dsimp only
    rw [(RuleUse.independent_of_ne c hne).swap w]
  | trans hperm _ ih₁ ih₂ =>
    intro hnodup w
    exact (ih₁ hnodup w).trans (ih₂ (hperm.nodup_iff.mp hnodup) w)

end Workspace

/-- The uses of rules on the declarations of a file. -/
def SourceFile.HasUse (f : SourceFile) (u : RuleUse) : Prop :=
  ∃ cls index d, u.address = .inClass cls index ∧ f.classes[cls]? = some d ∧
    match u.rule with
    | .property => index < d.properties.length
    | _ => index < d.methods.length

/-- An order in which every rule is applied to every declaration of a file once. -/
structure SourceFile.IsOrder (f : SourceFile) (us : List RuleUse) : Prop where
  once : us.Nodup
  all : ∀ u, u ∈ us ↔ f.HasUse u

/-- **The order of rules does not matter.**  If every rule is applied once to every declaration of a
file, then each of them has an outcome that does not depend on the order, and so is the file that
results, with the marks on its parameters and methods. -/
theorem Workspace.rules_in_any_order (c : Config) (w : Workspace) {us us' : List RuleUse}
    (h : w.file.IsOrder us) (h' : w.file.IsOrder us') :
    (w.applyUses c us).1 = (w.applyUses c us').1 ∧
      (w.applyUses c us).2 = us.map (fun u => (u.apply c w).2) ∧
      (w.applyUses c us').2 = us'.map (fun u => (u.apply c w).2) := by
  have hperm : us.Perm us' := by
    rw [List.perm_ext_iff_of_nodup h.once h'.once]
    exact fun u => (h.all u).trans (h'.all u).symm
  exact ⟨applyUses_fst_perm c hperm h.once w, applyUses_snd c h.once w,
    applyUses_snd c h'.once w⟩

/-- A file with a method and a property.  The method has one block for both of its rules. -/
def SourceFile.sample : SourceFile where
  ns := []
  uses := []
  classes := [{
    name := "A"
    isInterface := false
    parents := []
    methods := [{
      name := "f"
      doc := some ⟨[], [⟨"x", "int", []⟩], some ⟨[], "A", []⟩, none⟩
      params := [⟨"x", [], "private", false⟩]
      result := []
      refreshed := false }]
    properties := [⟨["p"], [], some ⟨[], [], none, some ⟨[], "int[]", []⟩⟩⟩] }]

/-- The uses of rules on that file. -/
def RuleUse.sample : List RuleUse :=
  [⟨.param, .inClass 0 0⟩, ⟨.result, .inClass 0 0⟩, ⟨.property, .inClass 0 0⟩]

theorem SourceFile.isOrder_sample : SourceFile.sample.IsOrder RuleUse.sample := by
  refine ⟨by decide, fun u => ⟨fun hu => ?_, ?_⟩⟩
  · simp only [RuleUse.sample, List.mem_cons, List.not_mem_nil, or_false] at hu
    rcases hu with rfl | rfl | rfl <;> exact ⟨0, 0, _, rfl, rfl, by decide⟩
  · obtain ⟨rule, a⟩ := u
    rintro ⟨cls, index, d, rfl, hd, hindex⟩
    obtain ⟨hcls, rfl⟩ := List.getElem?_eq_some_iff.mp hd
    obtain rfl : cls = 0 := by simpa [SourceFile.sample] using hcls
    obtain rfl : index = 0 := by cases rule <;> simpa [SourceFile.sample] using hindex
    cases rule <;> simp [RuleUse.sample]

theorem SourceFile.IsOrder.reverse {f : SourceFile} {us : List RuleUse} (h : f.IsOrder us) :
    f.IsOrder us.reverse :=
  ⟨us.reverse_perm.nodup_iff.mpr h.once, fun u => List.mem_reverse.trans (h.all u)⟩

theorem Workspace.rules_in_any_order_sample :
    SourceFile.sample.IsOrder RuleUse.sample ∧ SourceFile.sample.IsOrder RuleUse.sample.reverse ∧
      (applyUses .default ⟨.sample, [], [], []⟩ RuleUse.sample).1 =
        (applyUses .default ⟨.sample, [], [], []⟩ RuleUse.sample.reverse).1 :=
  ⟨SourceFile.isOrder_sample, SourceFile.isOrder_sample.reverse,
    (rules_in_any_order .default ⟨.sample, [], [], []⟩ SourceFile.isOrder_sample
      SourceFile.isOrder_sample.reverse).1⟩

end DocPromotion
