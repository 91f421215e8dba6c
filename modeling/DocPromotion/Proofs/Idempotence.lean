import DocPromotion.Proofs.Outline

/-!
Refactoring a file a second time changes nothing.

The first run removes tags, so the second one reads a different documentation.  What matters is
that no site is left over for it.  A parameter that received a type is typed now.  One that did
not is typed already, or its first tag declares nothing; then no parameter of the same name
received a type either, so none of its tags was removed, and the tag still declares nothing
(`Method.promotedNames_promoteParams`).

The errors of the second run are those of the first, since a statement is refused for its names
alone.  Records may differ: what was added at first is skipped as typed later.
-/

namespace DocPromotion

/-! ### Declared types are never empty -/

theorem ScalarKind.label_ne_nil (kind : ScalarKind) : kind.label ≠ [] := by
  cases kind with
  | other code => simp [ScalarKind.label, strayLabel, Text.ofString, Text.ofChars]
  | _ => decide

theorem DocType.spelling_declared?_ne_nil {site : Site} {t : DocType} {type : DeclaredType}
    (h : t.declared? site = some type) : type.spelling ≠ [] := by
  cases t with
  | nominal name =>
    obtain rfl := Option.some.inj h
    simp [DeclaredType.spelling]
  | aliased short fqn =>
    obtain rfl := Option.some.inj h
    simp [DeclaredType.spelling]
  | array s =>
    obtain rfl := Option.some.inj h
    decide
  | iterable s =>
    obtain rfl := Option.some.inj h
    decide
  | scalar kind =>
    obtain rfl := Option.some.inj h
    exact kind.label_ne_nil
  | void =>
    simp only [DocType.declared?] at h
    split at h
    · obtain rfl := Option.some.inj h
      decide
    · cases h
  | unrepresentable s => cases h

theorem spelling_tagDecision_ne_nil {names : Option Resolver} {site : Site} {tag : Option Tag}
    {type : DeclaredType} (h : tagDecision names site tag = .declare type) :
    type.spelling ≠ [] := by
  obtain ⟨t, -, ht⟩ := tagDecision_eq_declare h
  exact DocType.spelling_declared?_ne_nil ht

section

variable (names : Option Resolver)

/-! ### Nothing is left over -/

/-- A parameter that the rule has been applied to is not decided upon again. -/
theorem Method.paramDecision_promoteParams (m : Method) (p : Param) :
    ∃ reason,
      (m.promoteParams names).paramDecision names (m.promoteParam names p) = .skip reason := by
  cases hd : m.paramDecision names p with
  | declare type =>
    -- the parameter is typed now
    have hne : type.spelling ≠ [] :=
      spelling_tagDecision_ne_nil (Method.paramDecision_eq_declare hd).2
    refine ⟨.typed, ?_⟩
    rw [Method.promoteParam_of_declare hd, Method.paramDecision, if_pos]
    simpa [Param.isTyped] using hne
  | skip reason =>
    -- the parameter is as it was, and so is its tag
    refine ⟨reason, ?_⟩
    rw [Method.promoteParam_of_skip hd]
    by_cases ht : p.isTyped
    · rw [← hd, Method.paramDecision, Method.paramDecision, if_pos ht, if_pos ht]
    · -- another parameter of the same name would have been skipped for the same tag
      have hname : p.name ∉ m.promotedNames names := by
        rw [Method.mem_promotedNames]
        rintro ⟨q, -, hq, type, hdq⟩
        have htag := (Method.paramDecision_eq_declare hdq).2
        rw [hq] at htag
        rw [Method.paramDecision, if_neg ht, htag] at hd
        cases hd
      rw [← hd, Method.paramDecision, Method.paramDecision, if_neg ht, if_neg ht,
        Method.paramTag?_promoteParams names hname]

theorem Method.promotedNames_promoteParams (m : Method) :
    (m.promoteParams names).promotedNames names = [] := by
  rw [List.eq_nil_iff_forall_not_mem]
  intro name hname
  obtain ⟨q, hq, -, type, hd⟩ := (Method.mem_promotedNames names).mp hname
  rw [Method.params_promoteParams, List.mem_map] at hq
  obtain ⟨p, -, rfl⟩ := hq
  obtain ⟨reason, hskip⟩ := m.paramDecision_promoteParams names p
  rw [hskip] at hd
  cases hd

/-- A method none of whose parameters receives a type is left as it is. -/
theorem Method.promoteParams_eq_self {m : Method} (h : m.promotedNames names = []) :
    m.promoteParams names = m := by
  have hparams : m.params.map (m.promoteParam names) = m.params := by
    refine (List.map_congr_left fun p hp => ?_).trans (List.map_id m.params)
    cases hd : m.paramDecision names p with
    | skip reason => exact Method.promoteParam_of_skip hd
    | declare type =>
      have hname : p.name ∈ m.promotedNames names :=
        (Method.mem_promotedNames names).mpr ⟨p, hp, rfl, type, hd⟩
      rw [h] at hname
      cases hname
  unfold Method.promoteParams
  rw [h, hparams]
  rfl

theorem Method.resultDecision_promoteResult (m : Method) :
    ∃ reason, (m.promoteResult names).resultDecision names = .skip reason := by
  cases hd : m.resultDecision names with
  | skip reason => exact ⟨reason, by rw [Method.promoteResult, hd]; exact hd⟩
  | declare type =>
    refine ⟨.typed, ?_⟩
    have hne : type.spelling ≠ [] :=
      spelling_tagDecision_ne_nil (Method.resultDecision_eq_declare hd).2
    unfold Method.resultDecision
    rw [Method.result_promoteResult, hd]
    simp [Decision.type?, hne]

theorem Method.promoteResult_eq_self {m : Method} {reason : SkipReason}
    (h : m.resultDecision names = .skip reason) : m.promoteResult names = m := by
  rw [Method.promoteResult, h]

theorem Property.decision_promote (p : Property) :
    ∃ reason, (p.promote names).decision names = .skip reason := by
  cases hd : p.decision names with
  | skip reason => exact ⟨reason, by rw [Property.promote, hd]; exact hd⟩
  | declare type =>
    refine ⟨.typed, ?_⟩
    have hlen : ¬ 1 < p.names.length := by
      intro hlen
      rw [(Property.decision_eq_multiple_iff names p).mpr hlen] at hd
      cases hd
    have hne : type.spelling ≠ [] :=
      spelling_tagDecision_ne_nil (Property.decision_eq_declare hd).2
    unfold Property.decision
    rw [Property.names_promote, if_neg hlen, Property.declared_promote, hd]
    simp [Decision.type?, hne]

theorem Property.promote_eq_self {p : Property} {reason : SkipReason}
    (h : p.decision names = .skip reason) : p.promote names = p := by
  rw [Property.promote, h]

end

/-! ### Declarations -/

section

variable (c : Config) (s : Scope)

/-- The rule for parameters finds nothing to do after a whole run. -/
theorem Method.paramsChange_refactor (m : Method) :
    ((m.afterParams c s).afterResult c s).paramsChange c s = false := by
  have hresult : ∀ m : Method,
      (m.afterResult c s).promotedNames s.names = m.promotedNames s.names := by
    intro m
    unfold Method.afterResult
    split
    · exact m.promotedNames_promoteResult s.names
    · rfl
  unfold Method.paramsChange
  rw [hresult, Method.name_afterResult, Method.name_afterParams]
  by_cases h : (c.enabled .param && s.admits c.paramEligibility m.name) = true
  · rw [Method.afterParams, if_pos h, Method.promotedNames_promoteParams]
    simp
  · simp only [Bool.not_eq_true] at h
    rw [h, Bool.false_and]

theorem Method.afterParams_eq_self {m : Method} (h : m.paramsChange c s = false) :
    m.afterParams c s = m := by
  unfold Method.afterParams
  split
  next hrule =>
    apply Method.promoteParams_eq_self
    rw [Method.paramsChange, hrule] at h
    simpa using h
  next => rfl

/-- The rule for return values finds nothing to do after it has been applied. -/
theorem Method.resultChange_afterResult (m : Method) :
    (m.afterResult c s).resultChange c s = false := by
  unfold Method.resultChange
  rw [Method.name_afterResult]
  by_cases h : (c.enabled .result && s.admits c.resultEligibility m.name) = true
  · obtain ⟨reason, hskip⟩ := m.resultDecision_promoteResult s.names
    rw [Method.afterResult, if_pos h, hskip]
    simp [Decision.type?]
  · simp only [Bool.not_eq_true] at h
    rw [h, Bool.false_and]

theorem Method.afterResult_eq_self {m : Method} (h : m.resultChange c s = false) :
    m.afterResult c s = m := by
  unfold Method.afterResult
  split
  next hrule =>
    rw [Method.resultChange, hrule] at h
    cases hd : m.resultDecision s.names with
    | skip reason => exact Method.promoteResult_eq_self s.names hd
    | declare type =>
      rw [hd] at h
      cases h
  next => rfl

/-- A second run leaves a method as it is. -/
theorem Method.refactor_refactor (m : Method) : ∃ steps,
    (m.refactor c s).1.refactor c s = ((m.refactor c s).1, ⟨steps, false, none⟩) := by
  -- the second run is the same closed form again, with nothing left to do in either rule
  obtain ⟨steps₁, h₁⟩ := m.refactor_eq c s
  obtain ⟨steps₂, h₂⟩ := ((m.afterParams c s).afterResult c s).refactor_eq c s
  refine ⟨steps₂, ?_⟩
  have hparams := m.paramsChange_refactor c s
  have hresult := (m.afterParams c s).resultChange_afterResult c s
  rw [Method.afterParams_eq_self c s hparams, Method.afterResult_eq_self c s hresult, hparams,
    hresult] at h₂
  rw [h₁]
  exact h₂

theorem Property.names_refactor (p : Property) : (p.refactor c s).1.names = p.names := by
  obtain ⟨steps, h⟩ := p.refactor_eq c s
  rw [h]
  split
  · exact p.names_promote s.names
  · rfl

/-- A second run leaves a property statement as it is and refuses it for the same reason. -/
theorem Property.refactor_refactor (p : Property) : ∃ steps,
    (p.refactor c s).1.refactor c s =
      ((p.refactor c s).1, ⟨steps, false, (p.refactor c s).2.error⟩) := by
  obtain ⟨steps₁, h₁⟩ := p.refactor_eq c s
  by_cases hrule : c.enabled .property = true
  · rw [if_pos hrule] at h₁
    obtain ⟨steps₂, h₂⟩ := (p.promote s.names).refactor_eq c s
    obtain ⟨reason, hskip⟩ := p.decision_promote s.names
    refine ⟨steps₂, ?_⟩
    rw [if_pos hrule, Property.promote_eq_self s.names hskip, hskip] at h₂
    rw [h₁]
    refine h₂.trans ?_
    simp [Decision.type?, Property.refusal?]
  · rw [if_neg hrule] at h₁
    refine ⟨[], ?_⟩
    rw [h₁]
    exact h₁

end

/-! ### Reports -/

namespace Report

theorem changed_concat (rs : List Report) :
    (concat rs).changed = (rs.map Report.changed).sum := by
  rw [List.sum, List.foldr_map]
  rfl

/-- The report of a second run: no changes, and the errors of the first run. -/
def IsRepeat (first second : Report) : Prop :=
  second.changed = 0 ∧ second.errors = first.errors

theorem IsRepeat.concat {firsts seconds : List Report} (h : List.Forall₂ IsRepeat firsts seconds) :
    IsRepeat (Report.concat firsts) (Report.concat seconds) := by
  induction h with
  | nil => exact ⟨rfl, rfl⟩
  | cons hr _ ih =>
    obtain ⟨hchanged, herrors⟩ := hr
    obtain ⟨hchanged', herrors'⟩ := ih
    constructor
    · simp only [changed_concat, List.map_cons, List.sum_cons] at hchanged' ⊢
      omega
    · simp only [Report.concat, List.flatMap_cons] at herrors' ⊢
      rw [herrors, herrors']

end Report

/-! ### Files -/

namespace SourceFile

/-- A second run leaves a class as it is. -/
theorem refactorClass_refactorClass (c : Config) (f : SourceFile) (i : Nat) (d : ClassDecl) :
    ((f.refactor c).1.refactorClass c i (f.refactorClass c i d).1).1 =
        (f.refactorClass c i d).1 ∧
      Report.IsRepeat (f.refactorClass c i d).2
        ((f.refactor c).1.refactorClass c i (f.refactorClass c i d).1).2 := by
  -- both runs see the same scope
  rw [refactorClass_eq c (f.refactor c).1, scope_refactor, refactorClass_eq c f]
  dsimp only
  constructor
  · -- every property statement and every method is as the first run left it
    have hproperty : ∀ p : Property, ((p.refactor c (f.scope i)).1.refactor c (f.scope i)).1 =
        (p.refactor c (f.scope i)).1 := by
      intro p
      obtain ⟨steps, h⟩ := p.refactor_refactor c (f.scope i)
      rw [h]
    have hmethod : ∀ m : Method, ((m.refactor c (f.scope i)).1.refactor c (f.scope i)).1 =
        (m.refactor c (f.scope i)).1 := by
      intro m
      obtain ⟨steps, h⟩ := m.refactor_refactor c (f.scope i)
      rw [h]
    simp only [List.map_map, Function.comp_def, hproperty, hmethod]
  · apply Report.IsRepeat.concat
    refine List.rel_append ?_ ?_
    · rw [List.map_map, List.forall₂_map_left_iff, List.forall₂_map_right_iff, List.forall₂_same]
      intro p _
      obtain ⟨steps, h⟩ := p.refactor_refactor c (f.scope i)
      rw [Function.comp_apply, h, Property.names_refactor]
      exact ⟨rfl, rfl⟩
    · rw [List.map_map, List.forall₂_map_left_iff, List.forall₂_map_right_iff, List.forall₂_same]
      intro m _
      rw [Function.comp_apply]
      constructor
      · obtain ⟨steps, h⟩ := m.refactor_refactor c (f.scope i)
        rw [h]
        rfl
      · rw [Method.errors_ofMethod_refactor, Method.errors_ofMethod_refactor]

/-- A second run leaves a file as it is. -/
theorem refactor_refactor_fst (c : Config) (f : SourceFile) :
    ((f.refactor c).1.refactor c).1 = (f.refactor c).1 := by
  have hclasses : ((f.refactor c).1.refactor c).1.classes = (f.refactor c).1.classes := by
    calc ((f.refactor c).1.refactor c).1.classes
        = (f.refactor c).1.classes.mapIdx
            (fun i d => ((f.refactor c).1.refactorClass c i d).1) := classes_refactor c _
      _ = f.classes.mapIdx (fun i d =>
            ((f.refactor c).1.refactorClass c i (f.refactorClass c i d).1).1) := by
          rw [classes_refactor c f, List.mapIdx_mapIdx]
          rfl
      _ = f.classes.mapIdx (fun i d => (f.refactorClass c i d).1) := by
          simp only [(refactorClass_refactorClass c f _ _).1]
      _ = (f.refactor c).1.classes := (classes_refactor c f).symm
  show { (f.refactor c).1 with classes := ((f.refactor c).1.refactor c).1.classes } = _
  rw [hclasses]

/-- A second run repeats the errors of the first and changes nothing. -/
theorem isRepeat_refactor (c : Config) (f : SourceFile) :
    Report.IsRepeat (f.refactor c).2 ((f.refactor c).1.refactor c).2 := by
  have hsecond : (f.refactor c).1.classes.mapIdx ((f.refactor c).1.refactorClass c) =
      f.classes.mapIdx fun i d =>
        (f.refactor c).1.refactorClass c i (f.refactorClass c i d).1 := by
    rw [classes_refactor c f, List.mapIdx_mapIdx]
    rfl
  apply Report.IsRepeat.concat
  rw [hsecond, List.forall₂_map_left_iff, List.forall₂_map_right_iff]
  apply forall₂_mapIdx
  intro i d
  exact (refactorClass_refactorClass c f i d).2

/-- **Refactoring is idempotent.**  A second run with the same configuration changes no
declaration, reports the same errors in the same order, and leaves the file as it is, with the
marks on its parameters and methods. -/
theorem refactor_idempotent (c : Config) (f : SourceFile) :
    let first := f.refactor c
    let second := first.1.refactor c
    second.1 = first.1 ∧ second.2.changed = 0 ∧ second.2.errors = first.2.errors ∧
      second.2.errorText? = first.2.errorText? := by
  intro first second
  obtain ⟨hchanged, herrors⟩ := isRepeat_refactor c f
  refine ⟨refactor_refactor_fst c f, hchanged, herrors, ?_⟩
  rw [Report.errorText?, herrors, Report.errorText?]

end SourceFile

end DocPromotion
