import DocPromotion.Proofs.RuleEffect

/-!
What removing tags leaves alone.

The rules for parameters and return values share one documentation block, and each of them may
remove tags from it or drop it altogether.  They do not get in each other's way: removing the tags
of some parameters keeps the first tag of every other parameter and the tag of the return value
(`Method.foldl_dropParamTag`), and the rule for return values keeps all tags of parameters
(`Method.paramTag?_promoteResult`).
-/

namespace DocPromotion

/-! ### Documentation blocks -/

theorem DocBlock.isEmpty_iff {b : DocBlock} :
    b.isEmpty = true ↔ b.summary = [] ∧ b.params = [] ∧ b.result = none ∧ b.var = none := by
  simp [DocBlock.isEmpty, and_assoc]

/-- A block that is dropped had no tags. -/
theorem DocBlock.param?_prune (b : DocBlock) (name : Text) :
    b.prune.bind (·.param? name) = b.param? name := by
  unfold DocBlock.prune
  split
  next h =>
    obtain ⟨-, hparams, -, -⟩ := DocBlock.isEmpty_iff.mp h
    simp [DocBlock.param?, hparams]
  next => rfl

theorem DocBlock.result_prune (b : DocBlock) : b.prune.bind DocBlock.result = b.result := by
  unfold DocBlock.prune
  split
  next h =>
    obtain ⟨-, -, hresult, -⟩ := DocBlock.isEmpty_iff.mp h
    rw [hresult]
    rfl
  next => rfl

/-- Erasing the first item with a tag of one name keeps the first with a tag of every other. -/
theorem find?_eraseP_of_ne {α : Type} (tagOf : α → Tag) {name other : Text} (h : other ≠ name)
    (items : List α) :
    (items.eraseP fun x => (tagOf x).name == name).find? (fun x => (tagOf x).name == other) =
      items.find? fun x => (tagOf x).name == other := by
  induction items with
  | nil => rfl
  | cons x items ih =>
    by_cases ht : (tagOf x).name = name
    -- the tag that is erased is not one of the other name
    · have hother : ((tagOf x).name == other) = false := by
        rw [beq_eq_false_iff_ne, ht]
        exact fun hc => h hc.symm
      rw [List.eraseP_cons_of_pos (by simpa using ht), List.find?_cons_of_neg (by simp [hother])]
    · rw [List.eraseP_cons_of_neg (by simpa using ht), List.find?_cons, List.find?_cons, ih]

/-! ### Tags of parameters -/

section

variable (names : Option Resolver)

/-- What it takes to remove the tag of a parameter, and what is left. -/
theorem Method.removeParamTag?_eq_some {m m' : Method} {name : Text}
    (h : m.removeParamTag? names name = some m') :
    ∃ doc p tag, m.doc = some doc ∧ m.param? name = some p ∧ doc.param? name = some tag ∧
      tag.isRedundant names p.declared = true ∧
      m' = { m with doc := { doc with params := doc.params.eraseP (·.name == name) }.prune } := by
  simp only [Method.removeParamTag?, Option.bind_eq_bind, Option.bind_eq_some_iff] at h
  obtain ⟨doc, hdoc, p, hp, tag, htag, h⟩ := h
  split at h
  next hred => exact ⟨doc, p, tag, hdoc, hp, htag, hred, (Option.some.inj h).symm⟩
  next => cases h

/-- Removing the tag of one parameter changes nothing but the documentation, and keeps the other
tags. -/
theorem Method.dropParamTag_frame (m : Method) (name : Text) : ∃ doc,
    m.dropParamTag names name = { m with doc := doc } ∧
      (∀ other, other ≠ name → doc.bind (·.param? other) = m.paramTag? other) ∧
      doc.bind DocBlock.result = m.resultTag? := by
  unfold Method.dropParamTag
  cases h : m.removeParamTag? names name with
  | none => exact ⟨m.doc, rfl, fun _ _ => rfl, rfl⟩
  | some m' =>
    obtain ⟨doc, p, tag, hdoc, -, -, -, rfl⟩ := Method.removeParamTag?_eq_some names h
    refine ⟨_, rfl, fun other hother => ?_, ?_⟩
    · rw [DocBlock.param?_prune, Method.paramTag?, hdoc]
      exact find?_eraseP_of_ne id hother doc.params
    · rw [DocBlock.result_prune, Method.resultTag?, hdoc]
      rfl

/-- The same for any number of parameters. -/
theorem Method.foldl_dropParamTag (removed : List Text) :
    ∀ m : Method, ∃ doc,
      removed.foldl (Method.dropParamTag names) m = { m with doc := doc } ∧
        (∀ other, other ∉ removed → doc.bind (·.param? other) = m.paramTag? other) ∧
        doc.bind DocBlock.result = m.resultTag? := by
  induction removed with
  | nil =>
    intro m
    exact ⟨m.doc, rfl, fun _ _ => rfl, rfl⟩
  | cons name removed ih =>
    intro m
    -- a name may occur again in `removed`, then its next tag is looked at
    obtain ⟨doc, hm, hparam, hresult⟩ := m.dropParamTag_frame names name
    obtain ⟨doc', hm', hparam', hresult'⟩ := ih { m with doc := doc }
    refine ⟨doc', ?_, fun other hother => ?_, hresult'.trans hresult⟩
    · rw [List.foldl_cons, hm, hm']
    · rw [List.mem_cons, not_or] at hother
      rw [hparam' other hother.2]
      exact hparam other hother.1

/-- The rule for parameters changes the parameters and the documentation, and keeps the tags of the
parameters that receive no type. -/
theorem Method.promoteParams_frame (m : Method) : ∃ doc,
    m.promoteParams names = { m with params := m.params.map (m.promoteParam names), doc := doc } ∧
      (∀ other, other ∉ m.promotedNames names → doc.bind (·.param? other) = m.paramTag? other) ∧
      doc.bind DocBlock.result = m.resultTag? :=
  Method.foldl_dropParamTag names (m.promotedNames names)
    { m with params := m.params.map (m.promoteParam names) }

@[simp] theorem Method.name_promoteParams (m : Method) :
    (m.promoteParams names).name = m.name := by
  obtain ⟨doc, hm, -, -⟩ := m.promoteParams_frame names
  rw [hm]

@[simp] theorem Method.result_promoteParams (m : Method) :
    (m.promoteParams names).result = m.result := by
  obtain ⟨doc, hm, -, -⟩ := m.promoteParams_frame names
  rw [hm]

@[simp] theorem Method.params_promoteParams (m : Method) :
    (m.promoteParams names).params = m.params.map (m.promoteParam names) := by
  obtain ⟨doc, hm, -, -⟩ := m.promoteParams_frame names
  rw [hm]

theorem Method.paramTag?_promoteParams {m : Method} {name : Text}
    (h : name ∉ m.promotedNames names) :
    (m.promoteParams names).paramTag? name = m.paramTag? name := by
  obtain ⟨doc, hm, hparam, -⟩ := m.promoteParams_frame names
  rw [hm]
  exact hparam name h

@[simp] theorem Method.resultTag?_promoteParams (m : Method) :
    (m.promoteParams names).resultTag? = m.resultTag? := by
  obtain ⟨doc, hm, -, hresult⟩ := m.promoteParams_frame names
  rw [hm]
  exact hresult

/-- So the rule for return values decides the same before and after it. -/
@[simp] theorem Method.resultDecision_promoteParams (m : Method) :
    (m.promoteParams names).resultDecision names = m.resultDecision names := by
  unfold Method.resultDecision
  rw [Method.result_promoteParams, Method.resultTag?_promoteParams]

/-! ### Tags of return values -/

theorem Method.removeResultTag?_eq_some {m m' : Method}
    (h : m.removeResultTag? names = some m') :
    ∃ doc tag, m.doc = some doc ∧ doc.result = some tag ∧
      tag.isRedundant names m.result = true ∧
      m' = { m with doc := { doc with result := none }.prune } := by
  simp only [Method.removeResultTag?, Option.bind_eq_bind, Option.bind_eq_some_iff] at h
  obtain ⟨doc, hdoc, tag, htag, h⟩ := h
  split at h
  next hred => exact ⟨doc, tag, hdoc, htag, hred, (Option.some.inj h).symm⟩
  next => cases h

theorem Method.paramTag?_removeResultTag (m : Method) (name : Text) :
    ((m.removeResultTag? names).getD m).paramTag? name = m.paramTag? name := by
  cases h : m.removeResultTag? names with
  | none => rfl
  | some m' =>
    obtain ⟨doc, tag, hdoc, -, -, rfl⟩ := Method.removeResultTag?_eq_some names h
    simp only [Option.getD_some, Method.paramTag?, hdoc]
    exact DocBlock.param?_prune _ name

/-- Rendering the documentation again keeps every tag. -/
theorem Method.paramTag?_refresh (m : Method) (name : Text) :
    m.refresh.paramTag? name = m.paramTag? name := by
  unfold Method.paramTag? Method.refresh
  cases m.doc with
  | none => rfl
  | some doc => exact DocBlock.param?_prune doc name

/-- The rule for return values keeps all tags of parameters. -/
@[simp] theorem Method.paramTag?_promoteResult (m : Method) (name : Text) :
    (m.promoteResult names).paramTag? name = m.paramTag? name := by
  unfold Method.promoteResult
  split
  next => rfl
  next type _ =>
    rw [Method.paramTag?_refresh, Method.paramTag?_removeResultTag]
    rfl

/-- Apart from the documentation, the rule for return values changes what it is about only. -/
theorem Method.promoteResult_frame (m : Method) : ∃ doc refreshed,
    m.promoteResult names =
      { m with
        result := ((m.resultDecision names).type?.map DeclaredType.spelling).getD m.result
        doc := doc
        refreshed := refreshed } := by
  unfold Method.promoteResult
  cases m.resultDecision names with
  | skip reason => exact ⟨m.doc, m.refreshed, rfl⟩
  | declare type =>
    dsimp only
    cases h : (m.setResult type).removeResultTag? names with
    | none => exact ⟨m.doc.bind DocBlock.prune, true, rfl⟩
    | some m' =>
      obtain ⟨doc, tag, -, -, -, rfl⟩ := Method.removeResultTag?_eq_some names h
      exact ⟨{ doc with result := none }.prune.bind DocBlock.prune, true, rfl⟩

@[simp] theorem Method.name_promoteResult (m : Method) :
    (m.promoteResult names).name = m.name := by
  obtain ⟨doc, refreshed, hm⟩ := m.promoteResult_frame names
  rw [hm]

@[simp] theorem Method.params_promoteResult (m : Method) :
    (m.promoteResult names).params = m.params := by
  obtain ⟨doc, refreshed, hm⟩ := m.promoteResult_frame names
  rw [hm]

theorem Method.result_promoteResult (m : Method) :
    (m.promoteResult names).result =
      ((m.resultDecision names).type?.map DeclaredType.spelling).getD m.result := by
  obtain ⟨doc, refreshed, hm⟩ := m.promoteResult_frame names
  rw [hm]

@[simp] theorem Method.paramDecision_promoteResult (m : Method) (p : Param) :
    (m.promoteResult names).paramDecision names p = m.paramDecision names p := by
  unfold Method.paramDecision
  rw [Method.paramTag?_promoteResult]

@[simp] theorem Method.promotedNames_promoteResult (m : Method) :
    (m.promoteResult names).promotedNames names = m.promotedNames names := by
  unfold Method.promotedNames
  rw [Method.params_promoteResult]
  simp only [Method.paramDecision_promoteResult]

/-! ### Tags of properties -/

theorem Property.removeVarTag?_eq_some {p p' : Property}
    (h : p.removeVarTag? names = some p') :
    ∃ doc tag, p.doc = some doc ∧ doc.var = some tag ∧
      tag.isRedundant names p.declared = true ∧
      p' = { p with doc := { doc with var := none }.prune } := by
  simp only [Property.removeVarTag?, Option.bind_eq_bind, Option.bind_eq_some_iff] at h
  obtain ⟨doc, hdoc, tag, htag, h⟩ := h
  split at h
  next hred => exact ⟨doc, tag, hdoc, htag, hred, (Option.some.inj h).symm⟩
  next => cases h

theorem Property.promote_frame (p : Property) : ∃ doc,
    p.promote names =
      { p with
        declared := ((p.decision names).type?.map DeclaredType.spelling).getD p.declared
        doc := doc } := by
  unfold Property.promote
  cases p.decision names with
  | skip reason => exact ⟨p.doc, rfl⟩
  | declare type =>
    dsimp only
    cases h : (p.setType type).removeVarTag? names with
    | none => exact ⟨p.doc, rfl⟩
    | some p' =>
      obtain ⟨doc, tag, -, -, -, rfl⟩ := Property.removeVarTag?_eq_some names h
      exact ⟨{ doc with var := none }.prune, rfl⟩

@[simp] theorem Property.names_promote (p : Property) : (p.promote names).names = p.names := by
  obtain ⟨doc, hp⟩ := p.promote_frame names
  rw [hp]

theorem Property.declared_promote (p : Property) :
    (p.promote names).declared =
      ((p.decision names).type?.map DeclaredType.spelling).getD p.declared := by
  obtain ⟨doc, hp⟩ := p.promote_frame names
  rw [hp]

end

end DocPromotion
