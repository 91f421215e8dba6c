import DocPromotion.Proofs.Commutation
import DocPromotion.Proofs.ImportOrder
import DocPromotion.Proofs.RemovedTags
import DocPromotion.Proofs.RoundTrip

/-!
Refactoring does not see what is not written.

A file and its normal form differ in empty documentation blocks, in the order of imports and in the
marks on parameters and methods.  None of this is seen by the rules.  An empty block has no tag, so
every rule gives the same answer for both (`Method.paramRule_normal`, `Method.resultRule_normal`,
`Property.propertyRule_normal`), every step leaves both with the same normal form
(`Method.normal_perform`, `Property.normal_perform`), and imports that can be told apart are found
in any order (`AliasesApart.resolve_sortedUses`).  So a file that has been loaded again is
refactored as the file itself (`SourceFile.report_refactor_normal`,
`SourceFile.normal_refactor_normal`).
-/

namespace DocPromotion

/-! ### Documentation -/

/-- The blocks that are written. -/
theorem bind_prune_bind_prune (doc : Option DocBlock) :
    (doc.bind DocBlock.prune).bind DocBlock.prune = doc.bind DocBlock.prune := by
  cases doc with
  | none => rfl
  | some b => exact b.prune_bind_prune

/-- A block is written unless it is empty. -/
theorem eq_empty_or_bind_prune (doc : Option DocBlock) :
    doc = some ⟨[], [], none, none⟩ ∨ doc.bind DocBlock.prune = doc := by
  cases doc with
  | none => exact .inr rfl
  | some b =>
    cases hempty : b.isEmpty with
    | true =>
      obtain ⟨hsummary, hparams, hresult, hvar⟩ := DocBlock.isEmpty_iff.mp hempty
      left
      cases b
      simp_all
    | false => exact .inr (DocBlock.prune_of_ne_nil hempty)

theorem Method.paramTag?_normal (m : Method) (name : Text) :
    m.normal.paramTag? name = m.paramTag? name := by
  show (m.doc.bind DocBlock.prune).bind _ = m.doc.bind _
  cases m.doc with
  | none => rfl
  | some b => exact b.param?_prune name

theorem Method.resultTag?_normal (m : Method) : m.normal.resultTag? = m.resultTag? := by
  show (m.doc.bind DocBlock.prune).bind _ = m.doc.bind _
  cases m.doc with
  | none => rfl
  | some b => exact b.result_prune

theorem Property.varTag?_normal (p : Property) : p.normal.varTag? = p.varTag? := by
  show (p.doc.bind DocBlock.prune).bind _ = p.doc.bind _
  cases p.doc with
  | none => rfl
  | some b => exact b.var_prune

/-! ### What the rules answer -/

section

variable (c : Config) (f : Facilities) (names : Option Resolver)

theorem Method.paramRule_normal (m : Method) :
    paramRule c f (m.normal.view names) = paramRule c f (m.view names) := by
  refine paramRule_congr c f rfl ?_ ?_
  · show (m.params.map Param.normal).map Param.view = m.params.map Param.view
    rw [List.map_map]
    rfl
  · intro p
    rw [ParamView.decision_view, ParamView.decision_view, Method.paramTag?_normal]

theorem Method.resultRule_normal (m : Method) :
    resultRule c f (m.normal.view names) = resultRule c f (m.view names) := by
  refine resultRule_congr c f rfl ?_
  rw [Method.resultDecision_view, Method.resultDecision_view, Method.resultDecision,
    Method.resultTag?_normal]
  rfl

theorem Property.propertyRule_normal (p : Property) :
    propertyRule c f (p.normal.view names) = propertyRule c f (p.view names) := by
  have hdecision : (p.normal.view names).decision = (p.view names).decision := by
    rw [Property.decision_view, Property.decision_view, Property.decision,
      Property.varTag?_normal]
    rfl
  unfold propertyRule
  rw [hdecision]
  rfl

/-! ### What the steps do -/

/-- Changing an item of a list of normal forms. -/
theorem map_modify_map {α : Type} {norm g : α → α} (hnorm : ∀ a, norm (norm a) = norm a)
    (hg : ∀ a, norm (g (norm a)) = norm (g a)) (l : List α) (i : Nat) :
    ((l.map norm).modify i g).map norm = (l.modify i g).map norm := by
  induction l generalizing i with
  | nil => simp
  | cons a l ih =>
    cases i with
    | zero => simp [hg, hnorm]
    | succ i => simp [hnorm, ih]

@[simp] theorem Param.normal_normal (p : Param) : p.normal.normal = p.normal := rfl

/-- The normal form of a method with another documentation. -/
theorem Method.normal_withDoc (m : Method) (doc : Option DocBlock) :
    Method.normal { m.normal with doc := doc } = Method.normal { m with doc := doc } := by
  simp [Method.normal]

theorem Method.param?_normal (m : Method) (name : Text) :
    m.normal.param? name = (m.param? name).map Param.normal := by
  show (m.params.map Param.normal).find? _ = _
  rw [List.find?_map]
  rfl

theorem Method.normal_normal (m : Method) : m.normal.normal = m.normal := by
  simp [Method.normal, bind_prune_bind_prune]

theorem Property.normal_normal (p : Property) : p.normal.normal = p.normal := by
  simp [Property.normal, bind_prune_bind_prune]

/-- The normal form of a method with a parameter changed. -/
theorem Method.normal_modifyParam {m : Method} {g : Param → Param} (index : Nat)
    (hg : ∀ p : Param, (g p.normal).normal = (g p).normal) :
    Method.normal { m.normal with params := m.normal.params.modify index g } =
      Method.normal { m with params := m.params.modify index g } := by
  have hparams := map_modify_map Param.normal_normal hg m.params index
  simp only [Method.normal, bind_prune_bind_prune, hparams]

theorem Method.normal_removeParamTag? (name : Text) (m : Method) :
    (m.normal.removeParamTag? names name).map Method.normal =
      (m.removeParamTag? names name).map Method.normal := by
  rcases eq_empty_or_bind_prune m.doc with hdoc | hdoc
  · -- there is no tag in either of them
    simp [Method.removeParamTag?, Method.normal, hdoc, DocBlock.prune, DocBlock.isEmpty,
      DocBlock.param?]
  · have hnormal : m.normal.doc = m.doc := hdoc
    unfold Method.removeParamTag?
    rw [Method.param?_normal, hnormal]
    cases m.doc with
    | none => rfl
    | some b =>
      cases m.param? name with
      | none => rfl
      | some p =>
        cases htag : b.param? name with
        | none => simp [htag]
        | some t =>
          have hdeclared : p.normal.declared = p.declared := rfl
          simp only [Option.bind_eq_bind, Option.bind_some, Option.map_some, htag, hdeclared]
          split
          · exact congrArg some (m.normal_withDoc _)
          · rfl

theorem Method.normal_removeResultTag? (m : Method) :
    (m.normal.removeResultTag? names).map Method.normal =
      (m.removeResultTag? names).map Method.normal := by
  rcases eq_empty_or_bind_prune m.doc with hdoc | hdoc
  · simp [Method.removeResultTag?, Method.normal, hdoc, DocBlock.prune, DocBlock.isEmpty]
  · have hnormal : m.normal.doc = m.doc := hdoc
    have hresult : m.normal.result = m.result := rfl
    unfold Method.removeResultTag?
    rw [hnormal]
    cases m.doc with
    | none => rfl
    | some b =>
      cases htag : b.result with
      | none => simp [htag]
      | some t =>
        simp only [Option.bind_eq_bind, Option.bind_some, htag, hresult]
        split
        · exact congrArg some (m.normal_withDoc _)
        · rfl

theorem Property.normal_removeVarTag? (p : Property) :
    (p.normal.removeVarTag? names).map Property.normal =
      (p.removeVarTag? names).map Property.normal := by
  rcases eq_empty_or_bind_prune p.doc with hdoc | hdoc
  · simp [Property.removeVarTag?, Property.normal, hdoc, DocBlock.prune, DocBlock.isEmpty]
  · have hnormal : p.normal = p := by
      unfold Property.normal
      rw [hdoc]
    rw [hnormal]

/-- Something that may be removed, and the whole if it is not. -/
theorem normal_getD {α : Type} {norm : α → α} {a b : α} {a? b? : Option α} (h : norm a = norm b)
    (hremoved : a?.map norm = b?.map norm) : norm (a?.getD a) = norm (b?.getD b) := by
  rw [← Option.getD_map norm a a?, ← Option.getD_map norm b b?, h, hremoved]

/-- **A step leaves a method and its normal form with the same normal form.** -/
theorem Method.normal_perform (m : Method) (step : Step) :
    (m.normal.perform names step).normal = (m.perform names step).normal := by
  cases step with
  | setParam index name type => exact m.normal_modifyParam index fun _ => rfl
  | invalidate index name => exact m.normal_modifyParam index fun _ => rfl
  | removeParamTag name =>
    exact normal_getD m.normal_normal (m.normal_removeParamTag? names name)
  | setResult type => simp [Method.perform, Method.setResult, Method.normal, bind_prune_bind_prune]
  | removeResultTag => exact normal_getD m.normal_normal (m.normal_removeResultTag? names)
  | refresh => simp [Method.perform, Method.refresh, Method.normal, bind_prune_bind_prune]
  | _ => exact m.normal_normal

theorem Property.normal_perform (p : Property) (step : Step) :
    (p.normal.perform names step).normal = (p.perform names step).normal := by
  cases step with
  | setProperty type =>
    simp [Property.perform, Property.setType, Property.normal, bind_prune_bind_prune]
  | removeVarTag => exact normal_getD p.normal_normal (p.normal_removeVarTag? names)
  | _ => exact p.normal_normal

end

/-! ### Refactoring -/

/-- Results with the same normal form and the same outcome. -/
structure SameUpTo {α : Type} (norm : α → α) (r r' : α × Outcome) : Prop where
  fst : norm r.1 = norm r'.1
  snd : r.2 = r'.2

section

variable {α ν : Type} {view : α → ν} {perform : α → Step → α} {norm : α → α}

/-- Steps that respect normal forms do so one after the other. -/
theorem norm_foldl (hperform : ∀ a step, norm (perform (norm a) step) = norm (perform a step))
    (steps : List Step) {a b : α} (h : norm a = norm b) :
    norm (steps.foldl perform a) = norm (steps.foldl perform b) := by
  induction steps generalizing a b with
  | nil => exact h
  | cons step steps ih =>
    refine ih ?_
    rw [← hperform a, ← hperform b, h]

/-- A rule that does not see more than normal forms, applied to the same normal form. -/
theorem sameUpTo_applyRule {rule : ν → Outcome}
    (hperform : ∀ a step, norm (perform (norm a) step) = norm (perform a step))
    (hrule : ∀ a, rule (view (norm a)) = rule (view a)) {a b : α} (h : norm a = norm b) :
    SameUpTo norm (applyRule view perform rule a) (applyRule view perform rule b) := by
  have hout : rule (view a) = rule (view b) := by
    rw [← hrule a, ← hrule b, h]
  refine ⟨?_, hout⟩
  show norm ((rule (view a)).steps.foldl perform a) = norm ((rule (view b)).steps.foldl perform b)
  rw [hout]
  exact norm_foldl hperform _ h

/-- The same for a rule that may not be enabled. -/
theorem sameUpTo_applyIf {rule : ν → Outcome} (enabled : Bool)
    (hperform : ∀ a step, norm (perform (norm a) step) = norm (perform a step))
    (hrule : ∀ a, rule (view (norm a)) = rule (view a)) {a b : α} (h : norm a = norm b) :
    SameUpTo norm (if enabled then applyRule view perform rule a else (a, .idle))
      (if enabled then applyRule view perform rule b else (b, .idle)) := by
  cases enabled with
  | false => exact ⟨h, rfl⟩
  | true => exact sameUpTo_applyRule hperform hrule h

end

section

variable (c : Config) (s : Scope)

theorem Method.sameUpTo_refactor (m : Method) :
    SameUpTo Method.normal (m.normal.refactor c s) (m.refactor c s) := by
  have hparam := sameUpTo_applyIf (c.enabled .param) (Method.normal_perform s.names)
    (Method.paramRule_normal c s.facilities s.names) m.normal_normal
  have hresult := sameUpTo_applyIf (c.enabled .result) (Method.normal_perform s.names)
    (Method.resultRule_normal c s.facilities s.names) hparam.fst
  unfold Method.refactor
  rw [applyMethodRules_eq c rfl rfl, applyMethodRules_eq c rfl rfl]
  exact ⟨hresult.fst, congrArg₂ Outcome.append hparam.snd hresult.snd⟩

theorem Property.sameUpTo_refactor (p : Property) :
    SameUpTo Property.normal (p.normal.refactor c s) (p.refactor c s) :=
  sameUpTo_applyIf (c.enabled .property) (Property.normal_perform s.names)
    (Property.propertyRule_normal c s.facilities s.names) p.normal_normal

end

/-! ### Imports -/

/-- Imports that can be told apart: by their aliases up to case, by what is written for the aliases,
and by the order in which they are written. -/
structure ImportsApart (uses : List (Text × Text)) : Prop where
  aliases : AliasesApart uses
  keys : KeysApart uses
  order : (sortedUses uses).Pairwise fun u v => Text.naturalLess v.1 u.1 = false

section

variable {uses : List (Text × Text)}

/-- Names stand for the same classes when the imports have been sorted. -/
theorem AliasesApart.resolve_sortedUses (h : AliasesApart uses) (ns : Text) :
    ImportTable.resolve ⟨ns, sortedUses uses⟩ = ImportTable.resolve ⟨ns, uses⟩ :=
  h.resolve_perm (sortedUses_perm uses) ns

/-- Imports that have been sorted stay as they are. -/
theorem ImportsApart.sortedUses_sortedUses (h : ImportsApart uses) :
    sortedUses (sortedUses uses) = sortedUses uses := by
  refine List.mergeSort_of_pairwise (h.order.imp ?_)
  intro u v huv
  rw [huv]
  rfl

end

/-! ### Texts -/

theorem Method.toNode_normal (m : Method) : m.normal.toNode = m.toNode := by
  have hparams : (m.params.map Param.normal).map Param.toNode = m.params.map Param.toNode := by
    rw [List.map_map]
    rfl
  simp only [Method.toNode, Method.normal, docField, bind_prune_bind_prune, hparams]

theorem Property.toNode_normal (p : Property) : p.normal.toNode = p.toNode := by
  simp only [Property.toNode, Property.normal, docField, bind_prune_bind_prune]

theorem ClassDecl.toNode_normal (d : ClassDecl) : d.normal.toNode = d.toNode := by
  have hmethods : d.normal.methods.map Method.toNode = d.methods.map Method.toNode := by
    show (d.methods.map Method.normal).map Method.toNode = _
    rw [List.map_map]
    exact List.map_congr_left fun m _ => m.toNode_normal
  have hproperties : d.normal.properties.map Property.toNode =
      d.properties.map Property.toNode := by
    show (d.properties.map Property.normal).map Property.toNode = _
    rw [List.map_map]
    exact List.map_congr_left fun p _ => p.toNode_normal
  rw [ClassDecl.toNode, hmethods, hproperties]
  rfl

/-! ### Files -/

namespace SourceFile

variable {f : SourceFile}

theorem sameHierarchy_normal (h : AliasesApart f.uses) : SameHierarchy f f.normal := by
  refine ⟨rfl, h.resolve_sortedUses f.ns, ?_⟩
  show (f.classes.map ClassDecl.normal).map ClassDecl.outline = _
  rw [List.map_map]
  refine List.map_congr_left fun d _ => ?_
  simp [ClassDecl.normal, ClassDecl.outline, Method.normal, Method.outline]

theorem toNode_normal (h : ImportsApart f.uses) : f.normal.toNode = f.toNode := by
  have huses : usesField (sortedUses f.uses) = usesField f.uses := by
    have hempty : (sortedUses f.uses).isEmpty = f.uses.isEmpty := by
      rw [Bool.eq_iff_iff, List.isEmpty_iff, List.isEmpty_iff, ← List.length_eq_zero_iff,
        (sortedUses_perm f.uses).length_eq, List.length_eq_zero_iff]
    rw [usesField, usesField, hempty, h.sortedUses_sortedUses]
  have hclasses : (f.classes.map ClassDecl.normal).map ClassDecl.toNode =
      f.classes.map ClassDecl.toNode := by
    rw [List.map_map]
    exact List.map_congr_left fun d _ => d.toNode_normal
  simp only [toNode, normal, hclasses, huses]

/-- **A file and its normal form have the same text.** -/
theorem encode_normal (h : ImportsApart f.uses) : f.normal.encode = f.encode := by
  rw [encode, toNode_normal h, encode]

theorem refactorClass_normal (c : Config) (h : AliasesApart f.uses) (i : Nat) (d : ClassDecl) :
    (f.normal.refactorClass c i d.normal).1.normal = (f.refactorClass c i d).1.normal ∧
      (f.normal.refactorClass c i d.normal).2 = (f.refactorClass c i d).2 := by
  -- both are refactored in the same scope
  have hmethod : ∀ m : Method, SameUpTo Method.normal (m.normal.refactor c (f.scope i))
      (m.refactor c (f.scope i)) := fun m => m.sameUpTo_refactor c (f.scope i)
  have hproperty : ∀ p : Property, SameUpTo Property.normal (p.normal.refactor c (f.scope i))
      (p.refactor c (f.scope i)) := fun p => p.sameUpTo_refactor c (f.scope i)
  rw [refactorClass_eq, refactorClass_eq, (sameHierarchy_normal h).scope]
  constructor
  · simp only [ClassDecl.normal, List.map_map, Function.comp_def, (hmethod _).fst,
      (hproperty _).fst]
  · have hnames : ∀ p : Property, p.normal.names = p.names := fun _ => rfl
    simp only [ClassDecl.normal, List.map_map, Function.comp_def, (hmethod _).snd,
      (hproperty _).snd, hnames]
    rfl

theorem mapIdx_refactorClass_normal (c : Config) (f : SourceFile) :
    f.normal.classes.mapIdx (f.normal.refactorClass c) =
      f.classes.mapIdx fun i d => f.normal.refactorClass c i d.normal := by
  apply List.ext_getElem?
  intro i
  rw [List.getElem?_mapIdx, List.getElem?_mapIdx]
  show Option.map _ (f.classes.map ClassDecl.normal)[i]? = _
  rw [List.getElem?_map, Option.map_map]
  rfl

/-- **Refactoring a file and its normal form gives the same report.** -/
theorem report_refactor_normal (c : Config) (h : AliasesApart f.uses) :
    (f.normal.refactor c).2 = (f.refactor c).2 := by
  show Report.concat ((f.normal.classes.mapIdx (f.normal.refactorClass c)).map (·.2)) =
    Report.concat ((f.classes.mapIdx (f.refactorClass c)).map (·.2))
  rw [mapIdx_refactorClass_normal, map_mapIdx, map_mapIdx]
  simp only [(refactorClass_normal c h _ _).2]

/-- **Refactoring a file and its normal form gives the same normal form.** -/
theorem normal_refactor_normal (c : Config) (h : ImportsApart f.uses) :
    (f.normal.refactor c).1.normal = (f.refactor c).1.normal := by
  have hclasses : (f.normal.refactor c).1.classes.map ClassDecl.normal =
      (f.refactor c).1.classes.map ClassDecl.normal := by
    show ((f.normal.classes.mapIdx (f.normal.refactorClass c)).map (·.1)).map _ =
      ((f.classes.mapIdx (f.refactorClass c)).map (·.1)).map _
    rw [mapIdx_refactorClass_normal, map_mapIdx, map_mapIdx, map_mapIdx, map_mapIdx]
    simp only [(refactorClass_normal c h.aliases _ _).1]
  show SourceFile.mk f.ns (sortedUses (sortedUses f.uses)) _ = ⟨f.ns, sortedUses f.uses, _⟩
  rw [h.sortedUses_sortedUses, hclasses]

end SourceFile

end DocPromotion
