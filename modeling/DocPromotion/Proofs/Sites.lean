import DocPromotion.Proofs.DeclaredForm
import DocPromotion.Proofs.Idempotence
import DocPromotion.Proofs.KeptTags

/-!
Which sites refactoring changes, and what it reports.

A site receives a declared type exactly if it has none, its rule is enabled and admits it, and its
first tag can be read as a type that can be declared (`Site.Declares`).  The tag is the one that is
there before the run.  Names, visibilities, summaries and everything else that is no type stays as
it is (`SourceFile.Refactored`).

The report counts the declarations that are different afterwards (`SourceFile.changed_refactor`).
What differs is the source: marks on parameters and methods do not count, but no mark is set without
a type being declared.
-/

namespace DocPromotion

/-! ### Sites -/

/-- A tag that is there, can be read, and has a type that can be declared at a site. -/
def Site.Reads (site : Site) (names : Option Resolver) (tag : Option Tag) (type : DeclaredType) :
    Prop :=
  ∃ t d, tag = some t ∧ DocType.parse names t.type = .ok d ∧ d.declared? site = some type

theorem tagDecision_eq_declare_iff {names : Option Resolver} {site : Site} {tag : Option Tag}
    {type : DeclaredType} :
    tagDecision names site tag = .declare type ↔ site.Reads names tag type := by
  constructor
  · intro h
    obtain ⟨t, rfl, hd⟩ := tagDecision_eq_declare h
    unfold Tag.docType at hd
    split at hd
    next d hparse => exact ⟨t, d, rfl, hparse, hd⟩
    next => cases hd
  · rintro ⟨t, d, rfl, hparse, hd⟩
    simp only [tagDecision, Documented.ofTag?, Tag.docType, hparse, Documented.decision, hd]

/-- What becomes of the declared type of a site, if its rule is enabled and admits it exactly if
`allowed` holds. -/
structure Site.Declares (site : Site) (names : Option Resolver) (allowed : Prop)
    (tag : Option Tag) (before after : Text) : Prop where
  differs_iff : after ≠ before ↔ before = [] ∧ allowed ∧ ∃ type, site.Reads names tag type
  eq_spelling : ∀ type, after ≠ before → site.Reads names tag type → after = type.spelling

/-- A type that is set under the right conditions, and only then. -/
theorem Site.Declares.of_set {site : Site} {names : Option Resolver} {allowed : Prop}
    {tag : Option Tag} {before after : Text} {set? : Option DeclaredType}
    (hset : ∀ type, set? = some type ↔ before = [] ∧ allowed ∧ site.Reads names tag type)
    (hafter : after = (set?.map DeclaredType.spelling).getD before) :
    site.Declares names allowed tag before after := by
  cases set? with
  | none =>
    have hsame : after = before := hafter
    refine ⟨⟨fun h => absurd hsame h, ?_⟩, fun _ h => absurd hsame h⟩
    rintro ⟨hbefore, hallowed, type, hreads⟩
    cases (hset type).mpr ⟨hbefore, hallowed, hreads⟩
  | some type =>
    obtain ⟨hbefore, hallowed, hreads⟩ := (hset type).mp rfl
    have hne : after ≠ before := by
      rw [hafter, hbefore]
      exact spelling_tagDecision_ne_nil (tagDecision_eq_declare_iff.mpr hreads)
    refine ⟨⟨fun _ => ⟨hbefore, hallowed, type, hreads⟩, fun _ => hne⟩, ?_⟩
    intro type' _ hreads'
    obtain rfl : type = type' :=
      Option.some.inj ((hset type').mpr ⟨hbefore, hallowed, hreads'⟩)
    exact hafter

theorem Decision.type?_eq_some {d : Decision} {type : DeclaredType} :
    d.type? = some type ↔ d = .declare type := by
  cases d <;> simp [Decision.type?]

section

variable {names : Option Resolver} {type : DeclaredType}

theorem Method.paramDecision_eq_declare_iff {m : Method} {p : Param} :
    m.paramDecision names p = .declare type ↔
      p.declared = [] ∧ Site.Reads .param names (m.paramTag? p.name) type := by
  rw [← tagDecision_eq_declare_iff]
  refine ⟨Method.paramDecision_eq_declare, ?_⟩
  rintro ⟨hdeclared, htag⟩
  rw [Method.paramDecision, if_neg (by simp [Param.isTyped, hdeclared]), htag]

theorem Method.resultDecision_eq_declare_iff {m : Method} :
    m.resultDecision names = .declare type ↔
      m.result = [] ∧ Site.Reads .result names m.resultTag? type := by
  rw [← tagDecision_eq_declare_iff]
  refine ⟨Method.resultDecision_eq_declare, ?_⟩
  rintro ⟨hresult, htag⟩
  rw [Method.resultDecision, if_pos (by simp [hresult]), htag]

theorem Property.decision_eq_declare_iff {p : Property} :
    p.decision names = .declare type ↔
      p.declared = [] ∧ p.names.length ≤ 1 ∧ Site.Reads .property names p.varTag? type := by
  rw [← tagDecision_eq_declare_iff]
  constructor
  · intro h
    have hlen : ¬ 1 < p.names.length := by
      intro hlen
      rw [(Property.decision_eq_multiple_iff names p).mpr hlen] at h
      cases h
    obtain ⟨hdeclared, htag⟩ := Property.decision_eq_declare h
    exact ⟨hdeclared, by omega, htag⟩
  · rintro ⟨hdeclared, hlen, htag⟩
    rw [Property.decision, if_neg (by omega), if_pos (by simp [hdeclared]), htag]

end

/-! ### Summaries -/

/-- The summary of a block that may be missing. -/
def summaryOf (doc : Option DocBlock) : Text := (doc.map DocBlock.summary).getD []

/-- A block that is dropped had no summary. -/
theorem summaryOf_prune (b : DocBlock) : summaryOf b.prune = b.summary := by
  unfold DocBlock.prune
  split
  next h => exact (DocBlock.isEmpty_iff.mp h).1.symm
  next => rfl

theorem summaryOf_withParams (b : DocBlock) (tags : List Tag) :
    summaryOf (b.withParams tags) = b.summary := by
  unfold DocBlock.withParams
  split
  · rfl
  · exact summaryOf_prune _

theorem summaryOf_bind {doc : Option DocBlock} {g : DocBlock → Option DocBlock}
    (h : ∀ b, summaryOf (g b) = b.summary) : summaryOf (doc.bind g) = summaryOf doc := by
  cases doc with
  | none => rfl
  | some b => exact h b

/-! ### Declarations -/

/-- A parameter of the method `m`, before and after. -/
structure Param.Refactored (c : Config) (s : Scope) (m : Method) (p p' : Param) : Prop where
  name : p'.name = p.name
  visibility : p'.visibility = p.visibility
  declared : Site.Declares .param s.names
    (c.enabled .param = true ∧ s.admits c.paramEligibility m.name = true)
    (m.paramTag? p.name) p.declared p'.declared

/-- A method, before and after. -/
structure Method.Refactored (c : Config) (s : Scope) (m m' : Method) : Prop where
  name : m'.name = m.name
  summary : summaryOf m'.doc = summaryOf m.doc
  params : List.Forall₂ (Param.Refactored c s m) m.params m'.params
  result : Site.Declares .result s.names
    (c.enabled .result = true ∧ s.admits c.resultEligibility m.name = true)
    m.resultTag? m.result m'.result

/-- A property statement, before and after. -/
structure Property.Refactored (c : Config) (s : Scope) (p p' : Property) : Prop where
  names : p'.names = p.names
  summary : summaryOf p'.doc = summaryOf p.doc
  declared : Site.Declares .property s.names (c.enabled .property = true ∧ p.names.length ≤ 1)
    p.varTag? p.declared p'.declared

section

variable (c : Config) (s : Scope)

/-! ### What the rules do to them -/

/-- The type that a parameter receives, if the rule for parameters touches its method. -/
def Method.paramType? (m : Method) (p : Param) : Option DeclaredType :=
  if c.enabled .param && s.admits c.paramEligibility m.name then (m.paramDecision s.names p).type?
  else none

/-- The type that a return value receives, if its rule touches the method. -/
def Method.resultType? (m : Method) : Option DeclaredType :=
  if c.enabled .result && s.admits c.resultEligibility m.name then
    (m.resultDecision s.names).type?
  else none

/-- The type that a property receives, if its rule is enabled. -/
def Property.type? (p : Property) : Option DeclaredType :=
  if c.enabled .property then (p.decision s.names).type? else none

theorem Method.paramType?_eq_some {m : Method} {p : Param} {type : DeclaredType} :
    m.paramType? c s p = some type ↔ p.declared = [] ∧
      (c.enabled .param = true ∧ s.admits c.paramEligibility m.name = true) ∧
      Site.Reads .param s.names (m.paramTag? p.name) type := by
  rw [and_left_comm, ← Method.paramDecision_eq_declare_iff, ← Decision.type?_eq_some,
    ← Bool.and_eq_true, Method.paramType?]
  split
  next h => simp [h]
  next h => simp [h]

theorem Method.resultType?_eq_some {m : Method} {type : DeclaredType} :
    m.resultType? c s = some type ↔ m.result = [] ∧
      (c.enabled .result = true ∧ s.admits c.resultEligibility m.name = true) ∧
      Site.Reads .result s.names m.resultTag? type := by
  rw [and_left_comm, ← Method.resultDecision_eq_declare_iff, ← Decision.type?_eq_some,
    ← Bool.and_eq_true, Method.resultType?]
  split
  next h => simp [h]
  next h => simp [h]

theorem Property.type?_eq_some {p : Property} {type : DeclaredType} :
    p.type? c s = some type ↔ p.declared = [] ∧
      (c.enabled .property = true ∧ p.names.length ≤ 1) ∧
      Site.Reads .property s.names p.varTag? type := by
  rw [and_assoc, and_left_comm, ← Property.decision_eq_declare_iff, ← Decision.type?_eq_some,
    Property.type?]
  split
  next h => simp [h]
  next h => simp [h]

theorem Method.name_promoteParam (names : Option Resolver) (m : Method) (p : Param) :
    (m.promoteParam names p).name = p.name := by
  unfold Method.promoteParam
  split <;> rfl

theorem Method.visibility_promoteParam (names : Option Resolver) (m : Method) (p : Param) :
    (m.promoteParam names p).visibility = p.visibility := by
  unfold Method.promoteParam
  split <;> rfl

/-- A parameter after a run. -/
def Method.refactorParam (m : Method) (p : Param) : Param :=
  if c.enabled .param && s.admits c.paramEligibility m.name then m.promoteParam s.names p else p

theorem Method.refactored_refactorParam (m : Method) (p : Param) :
    p.Refactored c s m (m.refactorParam c s p) := by
  unfold Method.refactorParam
  refine ⟨?_, ?_, .of_set (fun _ => Method.paramType?_eq_some c s) ?_⟩
  · split
    · exact m.name_promoteParam s.names p
    · rfl
  · split
    · exact m.visibility_promoteParam s.names p
    · rfl
  · unfold Method.paramType?
    split
    · exact m.declared_promoteParam s.names p
    · rfl

theorem Method.params_refactor (m : Method) :
    (m.refactor c s).1.params = m.params.map (m.refactorParam c s) := by
  obtain ⟨steps, h⟩ := m.refactor_eq c s
  have hresult : ((m.afterParams c s).afterResult c s).params = (m.afterParams c s).params := by
    unfold Method.afterResult
    split
    · exact Method.params_promoteResult s.names _
    · rfl
  rw [h]
  dsimp only
  rw [hresult]
  unfold Method.afterParams Method.refactorParam
  split
  · exact m.params_promoteParams s.names
  · exact (List.map_id' m.params).symm

/-- The return value of a method after a run.  The rule for parameters has come before, but it does
not touch the tag of the return value. -/
theorem Method.result_refactor (m : Method) :
    (m.refactor c s).1.result =
      ((m.resultType? c s).map DeclaredType.spelling).getD m.result := by
  obtain ⟨steps, h⟩ := m.refactor_eq c s
  have hresult : (m.afterParams c s).result = m.result := by
    unfold Method.afterParams
    split
    · exact m.result_promoteParams s.names
    · rfl
  have hdecision : (m.afterParams c s).resultDecision s.names = m.resultDecision s.names := by
    unfold Method.afterParams
    split
    · exact m.resultDecision_promoteParams s.names
    · rfl
  rw [h]
  dsimp only
  unfold Method.afterResult Method.resultType?
  rw [Method.name_afterParams]
  split
  · rw [Method.result_promoteResult, hdecision, hresult]
  · exact hresult

theorem Property.declared_refactor (p : Property) :
    (p.refactor c s).1.declared =
      ((p.type? c s).map DeclaredType.spelling).getD p.declared := by
  obtain ⟨steps, h⟩ := p.refactor_eq c s
  rw [h]
  unfold Property.type?
  split
  · exact p.declared_promote s.names
  · rfl

theorem Method.summaryOf_refactor (m : Method) :
    summaryOf (m.refactor c s).1.doc = summaryOf m.doc := by
  have hparams : ∀ m : Method, summaryOf (m.afterParams c s).doc = summaryOf m.doc := by
    intro m
    unfold Method.afterParams
    split
    · rw [Method.promoteParams_eq]
      exact summaryOf_bind fun b => summaryOf_withParams b _
    · rfl
  have hresult : ∀ m : Method, summaryOf (m.afterResult c s).doc = summaryOf m.doc := by
    intro m
    unfold Method.afterResult
    split
    next =>
      cases hd : m.resultDecision s.names with
      | skip reason => rw [Method.promoteResult_eq_self s.names hd]
      | declare type =>
        rw [Method.promoteResult_of_declare s.names hd]
        exact summaryOf_bind fun b => summaryOf_prune _
    next => rfl
  obtain ⟨steps, h⟩ := m.refactor_eq c s
  rw [h]
  exact (hresult _).trans (hparams m)

theorem Property.summaryOf_refactor (p : Property) :
    summaryOf (p.refactor c s).1.doc = summaryOf p.doc := by
  obtain ⟨steps, h⟩ := p.refactor_eq c s
  rw [h]
  split
  next =>
    cases hd : p.decision s.names with
    | skip reason => rw [Property.promote_eq_self s.names hd]
    | declare type =>
      rw [Property.promote_of_declare s.names hd]
      exact summaryOf_bind fun b => summaryOf_prune _
  next => rfl

theorem Method.refactored (m : Method) : m.Refactored c s (m.refactor c s).1 where
  name := by
    obtain ⟨steps, h⟩ := m.refactor_eq c s
    rw [h, Method.name_afterResult, Method.name_afterParams]
  summary := m.summaryOf_refactor c s
  params := by
    rw [Method.params_refactor, List.forall₂_map_right_iff, List.forall₂_same]
    exact fun p _ => m.refactored_refactorParam c s p
  result := .of_set (fun _ => Method.resultType?_eq_some c s) (m.result_refactor c s)

theorem Property.refactored (p : Property) : p.Refactored c s (p.refactor c s).1 where
  names := p.names_refactor c s
  summary := p.summaryOf_refactor c s
  declared := .of_set (fun _ => Property.type?_eq_some c s) (p.declared_refactor c s)

end

/-! ### Differences -/

/-- The part of a method that is source, without the marks. -/
def Method.source (m : Method) : Method :=
  { m with params := m.params.map fun p => { p with invalidated := false }, refreshed := false }

/-- The part of a class that is source. -/
def ClassDecl.source (d : ClassDecl) : ClassDecl :=
  { d with methods := d.methods.map Method.source }

/-- The part of a file that is source. -/
def SourceFile.source (f : SourceFile) : SourceFile :=
  { f with classes := f.classes.map ClassDecl.source }

/-- The number of places in which two lists differ. -/
def countDifferent {α : Type} [DecidableEq α] (l l' : List α) : Nat :=
  (l.zip l').countP fun (x, x') => x ≠ x'

/-- The number of property statements and methods in which the sources of two classes differ. -/
def ClassDecl.countDifferent (d d' : ClassDecl) : Nat :=
  DocPromotion.countDifferent d.source.properties d'.source.properties +
    DocPromotion.countDifferent d.source.methods d'.source.methods

/-- The number of property statements and methods in which the sources of two files differ. -/
def SourceFile.countDifferent (f f' : SourceFile) : Nat :=
  ((f.classes.zip f'.classes).map fun (d, d') => d.countDifferent d').sum

/-- Counting what a function changes. -/
theorem countDifferent_map {α β : Type} [DecidableEq β] {g g' : α → β} {changed : α → Bool}
    (h : ∀ x, changed x = true ↔ g x ≠ g' x) (l : List α) :
    DocPromotion.countDifferent (l.map g) (l.map g') =
      (l.map fun x => if changed x then 1 else 0).sum := by
  induction l with
  | nil => rfl
  | cons x l ih =>
    rw [DocPromotion.countDifferent] at ih ⊢
    rw [List.map_cons, List.map_cons, List.zip_cons_cons, List.countP_cons, ih, List.map_cons,
      List.sum_cons, Nat.add_comm]
    congr 1
    by_cases hx : changed x = true
    · simp [hx, (h x).mp hx]
    · have hsame : g x = g' x := by
        by_contra hne
        exact hx ((h x).mpr hne)
      simp [hx, hsame]

section

variable (c : Config) (s : Scope)

/-- A method that is reported as unchanged is left as it is, with its marks. -/
theorem Method.refactor_fst_of_unchanged {m : Method}
    (h : (m.refactor c s).2.changed = false) : (m.refactor c s).1 = m := by
  obtain ⟨steps, heq⟩ := m.refactor_eq c s
  rw [heq] at h ⊢
  obtain ⟨hparams, hresult⟩ := Bool.or_eq_false_iff.mp h
  rw [Method.afterParams_eq_self c s hparams] at hresult ⊢
  exact Method.afterResult_eq_self c s hresult

/-- A method that is reported as changed has received a type. -/
theorem Method.exists_type_of_changed {m : Method} (h : (m.refactor c s).2.changed = true) :
    (∃ p ∈ m.params, ∃ type, m.paramType? c s p = some type) ∨
      ∃ type, m.resultType? c s = some type := by
  obtain ⟨steps, heq⟩ := m.refactor_eq c s
  rw [heq] at h
  rcases Bool.or_eq_true_iff.mp h with hparams | hresult
  · left
    obtain ⟨hrule, hnames⟩ := Bool.and_eq_true_iff.mp hparams
    obtain ⟨name, hname⟩ : ∃ name, name ∈ m.promotedNames s.names :=
      List.exists_mem_of_ne_nil _ (by simpa using hnames)
    obtain ⟨p, hp, -, type, hd⟩ := (Method.mem_promotedNames s.names).mp hname
    exact ⟨p, hp, type, by rw [Method.paramType?, if_pos hrule, hd, Decision.type?]⟩
  · right
    obtain ⟨hrule, htype⟩ := Bool.and_eq_true_iff.mp hresult
    rw [Method.name_afterParams] at hrule
    have hdecision : (m.afterParams c s).resultDecision s.names = m.resultDecision s.names := by
      unfold Method.afterParams
      split
      · exact m.resultDecision_promoteParams s.names
      · rfl
    rw [hdecision] at htype
    rw [Method.resultType?, if_pos hrule]
    exact Option.isSome_iff_exists.mp htype

/-- A method is reported as changed exactly if its source is different afterwards. -/
theorem Method.changed_refactor (m : Method) :
    (m.refactor c s).2.changed = true ↔ m.source ≠ (m.refactor c s).1.source := by
  constructor
  · -- a site that received a type had none before
    intro hchanged hsame
    rcases Method.exists_type_of_changed c s hchanged with ⟨p, hp, type, htype⟩ | ⟨type, htype⟩
    · have hdeclared : m.params.map Param.declared =
          m.params.map fun p => (m.refactorParam c s p).declared := by
        have hparams := congrArg (fun m : Method => m.params.map Param.declared) hsame
        simpa [Method.source, Method.params_refactor, Function.comp_def] using hparams
      obtain ⟨hempty, hallowed, hreads⟩ := (Method.paramType?_eq_some c s).mp htype
      have hne := (m.refactored_refactorParam c s p).declared.differs_iff.mpr
        ⟨hempty, hallowed, type, hreads⟩
      exact hne (List.map_inj_left.mp hdeclared p hp).symm
    · obtain ⟨hempty, hallowed, hreads⟩ := (Method.resultType?_eq_some c s).mp htype
      have hne := (m.refactored c s).result.differs_iff.mpr ⟨hempty, hallowed, type, hreads⟩
      exact hne (congrArg Method.result hsame).symm
  · intro hne
    by_contra hchanged
    rw [Method.refactor_fst_of_unchanged c s (by simpa using hchanged)] at hne
    exact hne rfl

theorem Property.changed_refactor (p : Property) :
    (p.refactor c s).2.changed = true ↔ p ≠ (p.refactor c s).1 := by
  obtain ⟨steps, h⟩ := p.refactor_eq c s
  by_cases hrule : c.enabled .property = true
  · rw [if_pos hrule] at h
    rw [h]
    cases hd : p.decision s.names with
    | skip reason => simp [Decision.type?, Property.promote_eq_self s.names hd]
    | declare type =>
      have hne : p ≠ p.promote s.names := by
        intro hsame
        have hdeclared := congrArg Property.declared hsame
        rw [Property.declared_promote, hd, (Property.decision_eq_declare hd).1] at hdeclared
        exact spelling_tagDecision_ne_nil (Property.decision_eq_declare hd).2 hdeclared.symm
      simp [Decision.type?, hne]
  · rw [if_neg hrule] at h
    rw [h]
    simp [Outcome.idle]

end

theorem map_mapIdx {α β γ : Type} (g : β → γ) (F : Nat → α → β) (l : List α) :
    (l.mapIdx F).map g = l.mapIdx fun i a => g (F i a) := by
  apply List.ext_getElem?
  intro i
  rw [List.getElem?_map, List.getElem?_mapIdx, List.getElem?_mapIdx, Option.map_map]
  rfl

theorem countDifferent_self {α : Type} [DecidableEq α] (l : List α) :
    DocPromotion.countDifferent l l = 0 := by
  induction l with
  | nil => rfl
  | cons x l ih =>
    rw [DocPromotion.countDifferent] at ih ⊢
    rw [List.zip_cons_cons, List.countP_cons, ih]
    simp

/-! ### Files -/

/-- A class, before and after. -/
structure ClassDecl.Refactored (c : Config) (s : Scope) (d d' : ClassDecl) : Prop where
  name : d'.name = d.name
  isInterface : d'.isInterface = d.isInterface
  parents : d'.parents = d.parents
  properties : List.Forall₂ (Property.Refactored c s) d.properties d'.properties
  methods : List.Forall₂ (Method.Refactored c s) d.methods d'.methods

/-- A file, before and after.  The scope of a class is that before the run. -/
structure SourceFile.Refactored (c : Config) (f f' : SourceFile) : Prop where
  ns : f'.ns = f.ns
  uses : f'.uses = f.uses
  length : f'.classes.length = f.classes.length
  classes : ∀ (i : Nat) (d d' : ClassDecl), f.classes[i]? = some d → f'.classes[i]? = some d' →
    d.Refactored c (f.scope i) d'

namespace SourceFile

variable (c : Config) (f : SourceFile)

theorem refactored_refactorClass (i : Nat) (d : ClassDecl) :
    d.Refactored c (f.scope i) (f.refactorClass c i d).1 := by
  rw [refactorClass_eq]
  refine ⟨rfl, rfl, rfl, ?_, ?_⟩
  · rw [List.forall₂_map_right_iff, List.forall₂_same]
    exact fun p _ => p.refactored c (f.scope i)
  · rw [List.forall₂_map_right_iff, List.forall₂_same]
    exact fun m _ => m.refactored c (f.scope i)

theorem refactored : f.Refactored c (f.refactor c).1 where
  ns := rfl
  uses := rfl
  length := by rw [classes_refactor, List.length_mapIdx]
  classes := by
    intro i d d' hd hd'
    rw [classes_refactor, List.getElem?_mapIdx, hd] at hd'
    obtain rfl := Option.some.inj hd'
    exact f.refactored_refactorClass c i d

theorem changed_refactorClass (i : Nat) (d : ClassDecl) :
    (f.refactorClass c i d).2.changed = d.countDifferent (f.refactorClass c i d).1 := by
  have hproperties : DocPromotion.countDifferent d.properties
      (d.properties.map fun p => (p.refactor c (f.scope i)).1) =
        (d.properties.map fun p =>
          if (p.refactor c (f.scope i)).2.changed then 1 else 0).sum := by
    have hcount := countDifferent_map (fun p => Property.changed_refactor c (f.scope i) p)
      d.properties
    rw [List.map_id'] at hcount
    exact hcount
  have hmethods : DocPromotion.countDifferent (d.methods.map Method.source)
      ((d.methods.map fun m => (m.refactor c (f.scope i)).1).map Method.source) =
        (d.methods.map fun m => if (m.refactor c (f.scope i)).2.changed then 1 else 0).sum := by
    rw [List.map_map]
    exact countDifferent_map (fun m => Method.changed_refactor c (f.scope i) m) d.methods
  rw [refactorClass_eq]
  unfold ClassDecl.countDifferent ClassDecl.source
  dsimp only
  rw [hproperties, hmethods]
  simp [Report.changed_concat, Report.ofProperty, Report.ofMethod, Function.comp_def]

theorem changed_eq_sum :
    (f.refactor c).2.changed =
      (f.classes.mapIdx fun i d => (f.refactorClass c i d).2.changed).sum := by
  simp only [refactor, Report.changed_concat, map_mapIdx]

/-- The report counts the declarations whose source is different. -/
theorem changed_refactor : (f.refactor c).2.changed = f.countDifferent (f.refactor c).1 := by
  have hzip : f.classes.zip (f.refactor c).1.classes =
      f.classes.mapIdx fun i d => (d, (f.refactorClass c i d).1) := by
    rw [classes_refactor]
    apply List.ext_getElem
    · simp
    · simp
  rw [changed_eq_sum, countDifferent, hzip, map_mapIdx]
  simp only [changed_refactorClass]

/-! ### Runs without changes -/

/-- A class without changes is left as it is, with its marks. -/
theorem refactorClass_fst_of_unchanged {i : Nat} {d : ClassDecl}
    (h : (f.refactorClass c i d).2.changed = 0) : (f.refactorClass c i d).1 = d := by
  rw [refactorClass_eq] at h ⊢
  simp only [Report.changed_concat, List.map_append, List.map_map, List.sum_append, Nat.add_eq_zero_iff,
    List.sum_eq_zero_iff_forall_eq_nat, List.forall_mem_map] at h
  obtain ⟨hproperties, hmethods⟩ := h
  have hproperty : ∀ p ∈ d.properties, (p.refactor c (f.scope i)).1 = p := by
    intro p hp
    have hunchanged : ¬ (p.refactor c (f.scope i)).2.changed = true := by
      simpa [Report.ofProperty] using hproperties p hp
    rw [Property.changed_refactor, not_not] at hunchanged
    exact hunchanged.symm
  have hmethod : ∀ m ∈ d.methods, (m.refactor c (f.scope i)).1 = m := by
    intro m hm
    exact Method.refactor_fst_of_unchanged c (f.scope i)
      (by simpa [Report.ofMethod] using hmethods m hm)
  dsimp only
  rw [List.map_congr_left hproperty, List.map_congr_left hmethod, List.map_id', List.map_id']

theorem refactor_fst_of_unchanged (h : (f.refactor c).2.changed = 0) : (f.refactor c).1 = f := by
  rw [changed_eq_sum, List.sum_eq_zero_iff_forall_eq_nat] at h
  have hclass : ∀ i d, f.classes[i]? = some d → (f.refactorClass c i d).1 = d := by
    intro i d hd
    apply f.refactorClass_fst_of_unchanged c
    apply h
    rw [List.mem_iff_getElem?]
    exact ⟨i, by rw [List.getElem?_mapIdx, hd, Option.map_some]⟩
  have hclasses : (f.refactor c).1.classes = f.classes := by
    rw [classes_refactor]
    apply List.ext_getElem?
    intro i
    rw [List.getElem?_mapIdx]
    cases hd : f.classes[i]? with
    | none => rfl
    | some d => rw [Option.map_some, hclass i d hd]
  show { f with classes := (f.refactor c).1.classes } = f
  rw [hclasses]

/-- If the source is the same, nothing is counted. -/
theorem changed_eq_zero_of_source (h : (f.refactor c).1.source = f.source) :
    (f.refactor c).2.changed = 0 := by
  rw [changed_eq_sum, List.sum_eq_zero_iff_forall_eq_nat]
  intro n hn
  obtain ⟨i, hn⟩ := List.mem_iff_getElem?.mp hn
  rw [List.getElem?_mapIdx] at hn
  obtain ⟨d, hd, rfl⟩ := Option.map_eq_some_iff.mp hn
  have hsource : (f.refactorClass c i d).1.source = d.source := by
    have hget := congrArg (fun f : SourceFile => f.classes[i]?) h
    simpa [SourceFile.source, classes_refactor, hd] using hget
  rw [changed_refactorClass, ClassDecl.countDifferent, hsource, countDifferent_self,
    countDifferent_self]

/-- **Refactoring changes exactly the sites it should, never overwrites a type, and reports what it
changed.**  A site receives a type if and only if it has none, its rule is enabled and admits it,
and its first tag says one; then it receives the type that the tag says.  Nothing but types and
tags is different afterwards, the number reported is that of the declarations whose source is
different, and it is zero exactly if the file is the same. -/
theorem refactor_exact :
    f.Refactored c (f.refactor c).1 ∧
      (f.refactor c).2.changed = f.countDifferent (f.refactor c).1 ∧
      ((f.refactor c).2.changed = 0 ↔ (f.refactor c).1.source = f.source) ∧
      ((f.refactor c).2.changed = 0 ↔ (f.refactor c).1 = f) := by
  refine ⟨f.refactored c, f.changed_refactor c, ⟨fun h => ?_, f.changed_eq_zero_of_source c⟩,
    ⟨f.refactor_fst_of_unchanged c, fun h => ?_⟩⟩
  · rw [f.refactor_fst_of_unchanged c h]
  · exact f.changed_eq_zero_of_source c (by rw [h])

end SourceFile

end DocPromotion
