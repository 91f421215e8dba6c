import DocPromotion.Proofs.Sites

/-!
Which tags refactoring removes.

No documentation is lost: a tag is removed only if it says no more than the declared type that its
site has afterwards (`Tag.IsRestated`), and all other tags stay, in their order.  Conversely, a tag
that a type has been read from is removed as soon as nothing but the type is in it (`Tag.IsBare`),
provided that no two parameters of the method have the same name.

A tag may occur twice in a block, so a tag of a parameter is told from others by its place.  If
several parameters have the same name, each of them that receives a type may cost one tag, and all
these tags are compared with the declared type of the first (`exists_of_not_mem_foldl_dropFirst`).
-/

namespace DocPromotion

/-! ### Tags that say no more than a type -/

/-- Whether nothing but a type is in a tag: there is no description, and an array or iterable is
spelled as its keyword. -/
def Tag.IsBare (names : Option Resolver) (t : Tag) : Prop :=
  t.description = [] ∧ (t.docType names).plain? ≠ some false

/-- Whether a tag says no more than the declared type of a site. -/
def Tag.IsRestated (names : Option Resolver) (site : Site) (declared : Text) (t : Tag) : Prop :=
  t.IsBare names ∧ ∃ type, site.Reads names (some t) type ∧ declared = type.spelling

theorem Site.reads_some_iff {site : Site} {names : Option Resolver} {t : Tag}
    {type : DeclaredType} :
    site.Reads names (some t) type ↔ (t.docType names).declared? site = some type := by
  unfold Site.Reads Tag.docType
  constructor
  · rintro ⟨t', d, h, hparse, hd⟩
    obtain rfl := Option.some.inj h
    rw [hparse]
    exact hd
  · intro h
    split at h
    next d hparse => exact ⟨t, d, rfl, hparse, h⟩
    next => cases h

theorem Tag.isRedundant_iff {names : Option Resolver} {declared : Text} {t : Tag} :
    t.isRedundant names declared = true ↔
      t.description = [] ∧ declared ≠ [] ∧ covers declared (t.docType names) = true := by
  unfold Tag.isRedundant Tag.docType
  cases DocType.parse names t.type with
  | ok d => simp [and_assoc]
  | error e => simp [covers]

theorem Tag.covers_iff {site : Site} {d : DocType} {type : DeclaredType} {declared : Text}
    (h : d.declared? site = some type) :
    covers declared d = true ↔ d.plain? ≠ some false ∧ declared = type.spelling := by
  cases d with
  | nominal name =>
    obtain rfl := Option.some.inj h
    simp [covers, DocType.plain?, DeclaredType.spelling]
  | aliased short fqn =>
    obtain rfl := Option.some.inj h
    simp [covers, DocType.plain?, DeclaredType.spelling]
  | array s =>
    obtain rfl := Option.some.inj h
    simp only [covers, DocType.plain?, DeclaredType.spelling, Bool.and_eq_true, beq_iff_eq, ne_eq,
      Option.some_inj, Bool.not_eq_false]
  | iterable s =>
    obtain rfl := Option.some.inj h
    simp only [covers, DocType.plain?, DeclaredType.spelling, Bool.and_eq_true, beq_iff_eq, ne_eq,
      Option.some_inj, Bool.not_eq_false]
  | scalar kind =>
    obtain rfl := Option.some.inj h
    simp [covers, DocType.plain?, DeclaredType.spelling]
  | void =>
    simp only [DocType.declared?] at h
    split at h
    · obtain rfl := Option.some.inj h
      simp [covers, DocType.plain?, DeclaredType.spelling]
    · cases h
  | unrepresentable s => cases h

/-- A tag whose type can be declared is redundant if nothing but that type is in it. -/
theorem Tag.isRedundant_iff_of_reads {names : Option Resolver} {site : Site} {t : Tag}
    {type : DeclaredType} {declared : Text} (h : site.Reads names (some t) type) :
    t.isRedundant names declared = true ↔ t.IsBare names ∧ declared = type.spelling := by
  have hd := Site.reads_some_iff.mp h
  have hne := DocType.spelling_declared?_ne_nil hd
  rw [Tag.isRedundant_iff, Tag.covers_iff hd, Tag.IsBare]
  constructor
  · rintro ⟨hdescription, -, hplain, hdeclared⟩
    exact ⟨⟨hdescription, hplain⟩, hdeclared⟩
  · rintro ⟨⟨hdescription, hplain⟩, rfl⟩
    exact ⟨hdescription, hne, hplain, rfl⟩

/-- Void is declared where it is allowed only. -/
theorem DocType.spelling_declared?_ne_void {site : Site} {d : DocType} {type : DeclaredType}
    (h : d.declared? site = some type) (hsite : site.allowsVoid = false) :
    type.spelling ≠ "void" := by
  intro hvoid
  have hhead := congrArg List.head? hvoid
  have hbackslash : some Text.backslash ≠ List.head? "void" := by decide
  cases d with
  | nominal name =>
    obtain rfl := Option.some.inj h
    exact hbackslash hhead
  | aliased short fqn =>
    obtain rfl := Option.some.inj h
    exact hbackslash hhead
  | array s =>
    obtain rfl := Option.some.inj h
    exact absurd hvoid (by decide)
  | iterable s =>
    obtain rfl := Option.some.inj h
    exact absurd hvoid (by decide)
  | scalar kind =>
    obtain rfl := Option.some.inj h
    cases kind with
    | other code =>
      have hstray : some (Text.byte 'S') ≠ List.head? "void" := by decide
      exact hstray hhead
    | _ => exact absurd hvoid (by decide)
  | void => simp [DocType.declared?, hsite] at h
  | unrepresentable s => cases h

/-- A redundant tag says no more than the declared type. -/
theorem Tag.isRestated_of_isRedundant {names : Option Resolver} {site : Site} {declared : Text}
    {t : Tag} (h : t.isRedundant names declared = true)
    (hvoid : declared = "void" → site.allowsVoid = true) : t.IsRestated names site declared := by
  obtain ⟨type, hd⟩ : ∃ type, (t.docType names).declared? site = some type := by
    have hcovers := (Tag.isRedundant_iff.mp h).2.2
    cases hd : t.docType names with
    | void =>
      rw [hd] at hcovers
      exact ⟨.keyword "void", if_pos (hvoid (by simpa [covers] using hcovers))⟩
    | unrepresentable s =>
      rw [hd] at hcovers
      cases hcovers
    | _ => exact ⟨_, rfl⟩
  have hreads := Site.reads_some_iff.mpr hd
  obtain ⟨hbare, hdeclared⟩ := (Tag.isRedundant_iff_of_reads hreads).mp h
  exact ⟨hbare, type, hreads, hdeclared⟩

/-! ### What becomes of the tags of a site -/

/-- What becomes of the only tag of a site, whose declared type changes from `before` to `after`. -/
structure Site.KeepsTag (site : Site) (names : Option Resolver) (before after : Text)
    (tag tag' : Option Tag) : Prop where
  same_or_gone : tag' = tag ∨ tag' = none
  restated : ∀ t, tag = some t → tag' = none → t.IsRestated names site after
  gone_iff : ∀ t, tag = some t → (tag' = none ↔ after ≠ before ∧ t.IsBare names)

/-- Whether a parameter of the given name receives a declared type. -/
def ReceivesType (params params' : List Param) (name : Text) : Prop :=
  ∃ q ∈ params.zip params', q.1.name = name ∧ q.2.declared ≠ q.1.declared

/-- Whether a tag says no more than the declared type of the parameter it is about. -/
def IsRestatedParam (names : Option Resolver) (params : List Param) (t : Tag) : Prop :=
  ∃ p, params.find? (·.name == t.name) = some p ∧ t.IsRestated names .param p.declared

/-- What becomes of the tags of the parameters of a method.  The tags that are kept are given with
their places.  A type is read from the first tag of its name. -/
structure KeepsParamTags (names : Option Resolver) (params params' : List Param)
    (tags tags' : List Tag) (kept : List (Tag × Nat)) : Prop where
  sublist : kept.Sublist tags.zipIdx
  eq_map : tags' = kept.map Prod.fst
  restated : ∀ x ∈ tags.zipIdx, x ∉ kept →
    ReceivesType params params' x.1.name ∧ IsRestatedParam names params' x.1
  /-- Only the first tag of a name can be removed, if there is one parameter of that name. -/
  gone_iff : (params.map Param.name).Nodup → ∀ x ∈ tags.zipIdx,
    (x ∉ kept ↔ ReceivesType params params' x.1.name ∧
      (tags.zipIdx.find? fun y => y.1.name == x.1.name) = some x ∧ x.1.IsBare names)

theorem Site.KeepsTag.refl (site : Site) (names : Option Resolver) (declared : Text)
    (tag : Option Tag) : site.KeepsTag names declared declared tag tag where
  same_or_gone := .inl rfl
  restated := by
    rintro t rfl h
    cases h
  gone_iff := by
    rintro t rfl
    simp

/-- The tag that a type has been read from. -/
theorem Site.KeepsTag.of_reads {site : Site} {names : Option Resolver} {tag : Option Tag}
    {type : DeclaredType} {before : Text} (hreads : site.Reads names tag type)
    (hbefore : before = []) :
    site.KeepsTag names before type.spelling tag
      (tag.filter fun t => !t.isRedundant names type.spelling) := by
  obtain ⟨t, d, rfl, hparse, hd⟩ := id hreads
  have hne : type.spelling ≠ before := hbefore ▸ DocType.spelling_declared?_ne_nil hd
  have hbare : t.isRedundant names type.spelling = true ↔ t.IsBare names := by
    rw [Tag.isRedundant_iff_of_reads hreads]
    exact and_iff_left rfl
  rw [Option.filter_some]
  by_cases hredundant : t.isRedundant names type.spelling = true
  · rw [if_neg (by simp [hredundant])]
    refine ⟨.inr rfl, ?_, ?_⟩
    · rintro t' h -
      obtain rfl := Option.some.inj h
      exact ⟨hbare.mp hredundant, type, hreads, rfl⟩
    · rintro t' h
      obtain rfl := Option.some.inj h
      simp [hne, hbare.mp hredundant]
  · rw [if_pos (by simpa using hredundant)]
    refine ⟨.inl rfl, (fun _ _ h => nomatch h), ?_⟩
    rintro t' h
    obtain rfl := Option.some.inj h
    simp [mt hbare.mpr hredundant]

theorem receivesType_map_iff {params : List Param} {g : Param → Param} {name : Text} :
    ReceivesType params (params.map g) name ↔
      ∃ p ∈ params, p.name = name ∧ (g p).declared ≠ p.declared := by
  unfold ReceivesType
  rw [← List.map_prod_left_eq_zip]
  simp only [List.mem_map, exists_exists_and_eq_and]

theorem not_receivesType_self (params : List Param) (name : Text) :
    ¬ ReceivesType params params name := by
  have hself : ReceivesType params (params.map id) name ↔ _ := receivesType_map_iff
  rw [List.map_id] at hself
  rw [hself]
  rintro ⟨p, -, -, hne⟩
  exact hne rfl

theorem KeepsParamTags.refl (names : Option Resolver) (params : List Param) (tags : List Tag) :
    KeepsParamTags names params params tags tags tags.zipIdx where
  sublist := .refl _
  eq_map := (List.zipIdx_map_fst 0 tags).symm
  restated := fun x hx hgone => absurd hx hgone
  gone_iff := by
    intro _ x hx
    simp [hx, not_receivesType_self]

/-! ### The tags of parameters -/

/-- The tags of parameters in a block that may be missing. -/
def paramTagsOf (doc : Option DocBlock) : List Tag := (doc.map DocBlock.params).getD []

theorem paramTagsOf_prune (b : DocBlock) : paramTagsOf b.prune = b.params := by
  unfold DocBlock.prune
  split
  next h => exact (DocBlock.isEmpty_iff.mp h).2.1.symm
  next => rfl

theorem DocBlock.var_prune (b : DocBlock) : b.prune.bind DocBlock.var = b.var := by
  unfold DocBlock.prune
  split
  next h => exact (DocBlock.isEmpty_iff.mp h).2.2.2.symm
  next => rfl

theorem Method.paramTag?_eq (m : Method) (name : Text) :
    m.paramTag? name = (paramTagsOf m.doc).find? (·.name == name) := by
  unfold Method.paramTag? paramTagsOf
  cases m.doc <;> rfl

theorem find?_name_of_nodup {params : List Param} (h : (params.map Param.name).Nodup) {p : Param}
    (hp : p ∈ params) : params.find? (·.name == p.name) = some p := by
  obtain ⟨q, hq⟩ : ∃ q, params.find? (·.name == p.name) = some q := by
    rw [← Option.isSome_iff_exists, List.find?_isSome]
    exact ⟨p, hp, beq_self_eq_true p.name⟩
  have hname : q.name = p.name := by simpa using List.find?_some hq
  rw [hq, List.inj_on_of_nodup_map h (List.mem_of_find?_eq_some hq) hp hname]

section

variable (names : Option Resolver)

theorem isRemovable_iff {params : List Param} {t : Tag} :
    isRemovable names params t = true ↔
      ∃ p, params.find? (·.name == t.name) = some p ∧ t.isRedundant names p.declared = true :=
  Option.any_eq_true ..

theorem Method.receivesType_iff {m : Method} {name : Text} :
    ReceivesType m.params (m.params.map (m.promoteParam names)) name ↔
      name ∈ m.promotedNames names := by
  have hdeclares : ∀ p, (m.promoteParam names p).declared ≠ p.declared ↔
      ∃ type, m.paramDecision names p = .declare type := by
    intro p
    rw [Method.declared_promoteParam]
    cases hd : m.paramDecision names p with
    | skip reason => simp [Decision.type?]
    | declare type =>
      obtain ⟨hdeclared, htag⟩ := Method.paramDecision_eq_declare hd
      simp [Decision.type?, hdeclared, spelling_tagDecision_ne_nil htag]
  rw [receivesType_map_iff, Method.mem_promotedNames]
  simp only [hdeclares]

theorem Method.promotedNames_sublist (m : Method) :
    (m.promotedNames names).Sublist (m.params.map Param.name) := by
  unfold Method.promotedNames
  induction m.params with
  | nil => exact .slnil
  | cons p params ih =>
    rw [List.filterMap_cons, List.map_cons]
    cases m.paramDecision names p with
    | skip reason => exact ih.cons p.name
    | declare type => exact ih.cons_cons p.name

/-- What the first tag of a promoted name says. -/
theorem Method.reads_of_mem_promotedNames {m : Method} {name : Text}
    (h : name ∈ m.promotedNames names) :
    ∃ p ∈ m.params, ∃ type, p.name = name ∧
      Site.Reads .param names ((paramTagsOf m.doc).find? (·.name == name)) type ∧
      (m.promoteParam names p).declared = type.spelling := by
  obtain ⟨p, hp, rfl, type, hd⟩ := (Method.mem_promotedNames names).mp h
  refine ⟨p, hp, type, rfl, ?_, ?_⟩
  · rw [← Method.paramTag?_eq]
    exact (Method.paramDecision_eq_declare_iff.mp hd).2
  · rw [Method.promoteParam_of_declare hd]

theorem find?_eq_map_zipIdx {tags : List Tag} {name : Text} :
    tags.find? (·.name == name) =
      (tags.zipIdx.find? fun y => y.1.name == name).map Prod.fst := by
  conv_lhs => rw [← List.zipIdx_map_fst 0 tags, List.find?_map]
  rfl

/-- Tags are compared with the declared type of the first parameter of their name.  If the first of
them is removed, that type does not say void. -/
theorem Method.isRestatedParam_of_isRemovable {m : Method} {t first : Tag}
    (hname : t.name ∈ m.promotedNames names)
    (hfirst : (paramTagsOf m.doc).find? (·.name == t.name) = some first)
    (ht : isRemovable names (m.params.map (m.promoteParam names)) t = true)
    (hfirstRemovable : isRemovable names (m.params.map (m.promoteParam names)) first = true) :
    IsRestatedParam names (m.params.map (m.promoteParam names)) t := by
  obtain ⟨p, hp, hredundant⟩ := (isRemovable_iff names).mp ht
  refine ⟨p, hp, Tag.isRestated_of_isRedundant hredundant fun hvoid => ?_⟩
  obtain ⟨p', hp', hredundant'⟩ := (isRemovable_iff names).mp hfirstRemovable
  have hfirstName : first.name = t.name := by simpa using List.find?_some hfirst
  rw [hfirstName, hp] at hp'
  obtain rfl := Option.some.inj hp'
  obtain ⟨-, -, type, -, hreads, -⟩ := Method.reads_of_mem_promotedNames names hname
  rw [hfirst] at hreads
  have hdeclared := ((Tag.isRedundant_iff_of_reads hreads).mp hredundant').2
  have hne := DocType.spelling_declared?_ne_void (Site.reads_some_iff.mp hreads) rfl
  exact absurd (hdeclared.symm.trans hvoid) hne

/-- If there is one parameter of a name, the first tag of that name is compared with the type that
has been read from it. -/
theorem Method.isRemovable_iff_isBare {m : Method} {t : Tag}
    (hparams : (m.params.map Param.name).Nodup) (hname : t.name ∈ m.promotedNames names)
    (hfirst : (paramTagsOf m.doc).find? (·.name == t.name) = some t) :
    isRemovable names (m.params.map (m.promoteParam names)) t = true ↔ t.IsBare names := by
  have hparams' : ((m.params.map (m.promoteParam names)).map Param.name).Nodup := by
    have hmap : (m.params.map (m.promoteParam names)).map Param.name = m.params.map Param.name := by
      rw [List.map_map]
      exact List.map_congr_left fun p _ => m.name_promoteParam names p
    rwa [hmap]
  obtain ⟨p, hp, type, hpname, hreads, hdeclared⟩ := Method.reads_of_mem_promotedNames names hname
  rw [hfirst] at hreads
  have hfind := find?_name_of_nodup hparams' (List.mem_map_of_mem (f := m.promoteParam names) hp)
  rw [Method.name_promoteParam, hpname] at hfind
  rw [isRemovable, hfind, Option.any_some, hdeclared, Tag.isRedundant_iff_of_reads hreads]
  exact and_iff_left rfl

theorem Method.keepsParamTags_promoteParam (m : Method) :
    KeepsParamTags names m.params (m.params.map (m.promoteParam names)) (paramTagsOf m.doc)
      (m.keptTags names (paramTagsOf m.doc))
      ((m.promotedNames names).foldl
        (dropFirst Prod.fst (isRemovable names (m.params.map (m.promoteParam names))))
        (paramTagsOf m.doc).zipIdx) := by
  -- with their places, tags are different from each other
  have hnodup : (paramTagsOf m.doc).zipIdx.Nodup :=
    .of_map Prod.snd (List.nodup_zipIdx_map_snd _)
  refine ⟨foldl_dropFirst_sublist .., ?_, ?_, ?_⟩
  · rw [map_foldl_dropFirst, List.zipIdx_map_fst]
    rfl
  · intro x hx hgone
    obtain ⟨hname, hremovable, first, hfirst, hfirstRemovable⟩ :=
      exists_of_not_mem_foldl_dropFirst _ _ hnodup hx hgone
    refine ⟨(Method.receivesType_iff names).mpr hname, ?_⟩
    refine Method.isRestatedParam_of_isRemovable names hname ?_ hremovable hfirstRemovable
    rw [find?_eq_map_zipIdx, hfirst, Option.map_some]
  · intro hparams x hx
    have hnames := (m.promotedNames_sublist names).nodup hparams
    rw [not_mem_foldl_dropFirst hnames _ hnodup hx, Method.receivesType_iff]
    refine and_congr_right fun hname => and_congr_right fun hfirst => ?_
    apply Method.isRemovable_iff_isBare names hparams hname
    rw [find?_eq_map_zipIdx, hfirst, Option.map_some]

theorem paramTagsOf_withParams (b : DocBlock) (tags : List Tag) :
    paramTagsOf (b.withParams tags) = tags := by
  unfold DocBlock.withParams
  split
  next h => exact h.symm
  next => exact paramTagsOf_prune _

theorem DocBlock.var_withParams (b : DocBlock) (tags : List Tag) :
    (b.withParams tags).bind DocBlock.var = b.var := by
  unfold DocBlock.withParams
  split
  · rfl
  · exact DocBlock.var_prune _

theorem Method.paramTagsOf_promoteParams (m : Method) :
    paramTagsOf (m.promoteParams names).doc = m.keptTags names (paramTagsOf m.doc) := by
  rw [Method.promoteParams_eq]
  cases m.doc with
  | none => exact (List.sublist_nil.mp (m.keptTags_sublist names [])).symm
  | some b => exact paramTagsOf_withParams b _

theorem Method.var_promoteParams (m : Method) :
    (m.promoteParams names).doc.bind DocBlock.var = m.doc.bind DocBlock.var := by
  rw [Method.promoteParams_eq]
  cases m.doc with
  | none => rfl
  | some b => exact DocBlock.var_withParams b _

/-! ### The rule for return values -/

/-- The rule for return values keeps all tags but its own. -/
theorem Method.otherTags_promoteResult (m : Method) :
    paramTagsOf (m.promoteResult names).doc = paramTagsOf m.doc ∧
      (m.promoteResult names).doc.bind DocBlock.var = m.doc.bind DocBlock.var := by
  cases hd : m.resultDecision names with
  | skip reason =>
    rw [Method.promoteResult_eq_self names hd]
    exact ⟨rfl, rfl⟩
  | declare type =>
    rw [Method.promoteResult_of_declare names hd]
    cases m.doc with
    | none => exact ⟨rfl, rfl⟩
    | some b => exact ⟨paramTagsOf_prune _, DocBlock.var_prune _⟩

theorem Method.keepsTag_promoteResult (m : Method) :
    Site.KeepsTag .result names m.result (m.promoteResult names).result m.resultTag?
      (m.promoteResult names).resultTag? := by
  cases hd : m.resultDecision names with
  | skip reason =>
    rw [Method.promoteResult_eq_self names hd]
    exact .refl ..
  | declare type =>
    obtain ⟨hresult, hreads⟩ := Method.resultDecision_eq_declare_iff.mp hd
    have htag : (m.promoteResult names).resultTag? =
        m.resultTag?.filter fun t => !t.isRedundant names type.spelling := by
      rw [Method.promoteResult_of_declare names hd, Method.resultTag?, Method.resultTag?]
      cases m.doc with
      | none => rfl
      | some b => exact DocBlock.result_prune _
    rw [htag, Method.promoteResult_of_declare names hd]
    exact .of_reads hreads hresult

/-! ### The rule for properties -/

theorem Property.keepsTag_promote (p : Property) :
    Site.KeepsTag .property names p.declared (p.promote names).declared p.varTag?
      (p.promote names).varTag? := by
  cases hd : p.decision names with
  | skip reason =>
    rw [Property.promote_eq_self names hd]
    exact .refl ..
  | declare type =>
    obtain ⟨hdeclared, -, hreads⟩ := Property.decision_eq_declare_iff.mp hd
    have htag : (p.promote names).varTag? =
        p.varTag?.filter fun t => !t.isRedundant names type.spelling := by
      rw [Property.promote_of_declare names hd, Property.varTag?, Property.varTag?]
      cases p.doc with
      | none => rfl
      | some b => exact DocBlock.var_prune _
    rw [htag, Property.promote_of_declare names hd]
    exact .of_reads hreads hdeclared

/-- The rule for properties keeps all tags but its own. -/
theorem Property.otherTags_promote (p : Property) :
    paramTagsOf (p.promote names).doc = paramTagsOf p.doc ∧
      (p.promote names).doc.bind DocBlock.result = p.doc.bind DocBlock.result := by
  cases hd : p.decision names with
  | skip reason =>
    rw [Property.promote_eq_self names hd]
    exact ⟨rfl, rfl⟩
  | declare type =>
    rw [Property.promote_of_declare names hd]
    cases p.doc with
    | none => exact ⟨rfl, rfl⟩
    | some b => exact ⟨paramTagsOf_prune _, DocBlock.result_prune _⟩

end

/-! ### Declarations -/

/-- The documentation of a method before and after a run.  A block is dropped only if it has no
summary and all that its tags say is declared. -/
structure Method.KeepsDocumentation (names : Option Resolver) (m m' : Method) : Prop where
  summary : summaryOf m'.doc = summaryOf m.doc
  params : ∃ kept,
    KeepsParamTags names m.params m'.params (paramTagsOf m.doc) (paramTagsOf m'.doc) kept
  result : Site.KeepsTag .result names m.result m'.result m.resultTag? m'.resultTag?
  var : m'.doc.bind DocBlock.var = m.doc.bind DocBlock.var
  dropped : ∀ b, m.doc = some b → m'.doc = none →
    b.summary = [] ∧ (∀ t ∈ b.params, IsRestatedParam names m'.params t) ∧
      (∀ t, b.result = some t → t.IsRestated names .result m'.result) ∧ b.var = none

/-- The documentation of a property statement before and after a run. -/
structure Property.KeepsDocumentation (names : Option Resolver) (p p' : Property) : Prop where
  summary : summaryOf p'.doc = summaryOf p.doc
  params : paramTagsOf p'.doc = paramTagsOf p.doc
  result : p'.doc.bind DocBlock.result = p.doc.bind DocBlock.result
  var : Site.KeepsTag .property names p.declared p'.declared p.varTag? p'.varTag?
  dropped : ∀ b, p.doc = some b → p'.doc = none →
    b.summary = [] ∧ b.params = [] ∧ b.result = none ∧
      ∀ t, b.var = some t → t.IsRestated names .property p'.declared

/-- The documentation of the members of a class before and after a run. -/
structure ClassDecl.KeepsDocumentation (names : Option Resolver) (d d' : ClassDecl) : Prop where
  properties : List.Forall₂ (Property.KeepsDocumentation names) d.properties d'.properties
  methods : List.Forall₂ (Method.KeepsDocumentation names) d.methods d'.methods

/-- Whatever is in a block that is dropped has been removed before. -/
theorem Method.KeepsDocumentation.of_tags {names : Option Resolver} {m m' : Method}
    (summary : summaryOf m'.doc = summaryOf m.doc)
    (params : ∃ kept,
      KeepsParamTags names m.params m'.params (paramTagsOf m.doc) (paramTagsOf m'.doc) kept)
    (result : Site.KeepsTag .result names m.result m'.result m.resultTag? m'.resultTag?)
    (var : m'.doc.bind DocBlock.var = m.doc.bind DocBlock.var) :
    m.KeepsDocumentation names m' := by
  refine ⟨summary, params, result, var, fun b hdoc hdoc' => ?_⟩
  rw [hdoc, hdoc'] at summary var
  refine ⟨summary.symm, fun t ht => ?_, fun t ht => ?_, var.symm⟩
  · obtain ⟨kept, hkept⟩ := params
    rw [hdoc, hdoc'] at hkept
    have hnil : kept = [] := List.map_eq_nil_iff.mp hkept.eq_map.symm
    obtain ⟨x, hx, rfl⟩ : ∃ x ∈ b.params.zipIdx, x.1 = t := by
      rw [← List.mem_map, List.zipIdx_map_fst]
      exact ht
    exact (hkept.restated x hx (by simp [hnil])).2
  · rw [Method.resultTag?, hdoc, Method.resultTag?, hdoc'] at result
    exact result.restated t ht rfl

theorem Property.KeepsDocumentation.of_tags {names : Option Resolver} {p p' : Property}
    (summary : summaryOf p'.doc = summaryOf p.doc)
    (params : paramTagsOf p'.doc = paramTagsOf p.doc)
    (result : p'.doc.bind DocBlock.result = p.doc.bind DocBlock.result)
    (var : Site.KeepsTag .property names p.declared p'.declared p.varTag? p'.varTag?) :
    p.KeepsDocumentation names p' := by
  refine ⟨summary, params, result, var, fun b hdoc hdoc' => ?_⟩
  rw [hdoc, hdoc'] at summary params result
  refine ⟨summary.symm, params.symm, result.symm, fun t ht => ?_⟩
  rw [Property.varTag?, hdoc, Property.varTag?, hdoc'] at var
  exact var.restated t ht rfl

section

variable (c : Config) (s : Scope)

theorem Method.keepsParamTags_afterParams (m : Method) : ∃ kept,
    KeepsParamTags s.names m.params (m.afterParams c s).params (paramTagsOf m.doc)
      (paramTagsOf (m.afterParams c s).doc) kept := by
  unfold Method.afterParams
  split
  · rw [Method.params_promoteParams, Method.paramTagsOf_promoteParams]
    exact ⟨_, m.keepsParamTags_promoteParam s.names⟩
  · exact ⟨_, .refl ..⟩

/-- The rules see to their own tags, and neither touches those of the other. -/
theorem Method.keepsDocumentation_refactor (m : Method) :
    m.KeepsDocumentation s.names (m.refactor c s).1 := by
  have hparams := m.keepsParamTags_afterParams c s
  have hresult : (m.afterParams c s).result = m.result ∧
      (m.afterParams c s).resultTag? = m.resultTag? ∧
      (m.afterParams c s).doc.bind DocBlock.var = m.doc.bind DocBlock.var := by
    unfold Method.afterParams
    split
    · exact ⟨m.result_promoteParams s.names, m.resultTag?_promoteParams s.names,
        m.var_promoteParams s.names⟩
    · exact ⟨rfl, rfl, rfl⟩
  have hsummary := m.summaryOf_refactor c s
  obtain ⟨steps, h⟩ := m.refactor_eq c s
  rw [h] at hsummary ⊢
  generalize m.afterParams c s = m₁ at hparams hresult hsummary ⊢
  obtain ⟨hresult, hresultTag, hvar⟩ := hresult
  -- what is left is about the rule for return values, on a method whose tags are known
  apply Method.KeepsDocumentation.of_tags hsummary
  · unfold Method.afterResult
    split
    · rw [Method.params_promoteResult, (m₁.otherTags_promoteResult s.names).1]
      exact hparams
    · exact hparams
  · rw [← hresult, ← hresultTag]
    unfold Method.afterResult
    split
    · exact m₁.keepsTag_promoteResult s.names
    · exact .refl ..
  · rw [← hvar]
    unfold Method.afterResult
    split
    · exact (m₁.otherTags_promoteResult s.names).2
    · rfl

theorem Property.keepsDocumentation_refactor (p : Property) :
    p.KeepsDocumentation s.names (p.refactor c s).1 := by
  have hsummary := p.summaryOf_refactor c s
  obtain ⟨steps, h⟩ := p.refactor_eq c s
  rw [h] at hsummary ⊢
  by_cases hrule : c.enabled .property = true
  · rw [if_pos hrule] at hsummary ⊢
    obtain ⟨hparams, hresult⟩ := p.otherTags_promote s.names
    exact .of_tags hsummary hparams hresult (p.keepsTag_promote s.names)
  · rw [if_neg hrule] at hsummary ⊢
    exact .of_tags hsummary rfl rfl (.refl ..)

end

/-- **Refactoring loses no documentation.**  A tag is removed only if it says no more than the
declared type of its site, so all else that is documented stays in place, and a block is dropped
only if nothing is left in it.  A site that receives a type costs the tag that the type was read
from, if and only if nothing but the type is in that tag; tags of other sites stay. -/
theorem SourceFile.refactor_keeps_documentation (c : Config) (f : SourceFile) :
    List.Forall₂ (ClassDecl.KeepsDocumentation (some f.imports.resolve)) f.classes
      (f.refactor c).1.classes := by
  apply f.forall₂_classes_refactor c
  intro i d
  rw [refactorClass_eq]
  constructor
  · rw [List.forall₂_map_right_iff, List.forall₂_same]
    exact fun p _ => p.keepsDocumentation_refactor c (f.scope i)
  · rw [List.forall₂_map_right_iff, List.forall₂_same]
    exact fun m _ => m.keepsDocumentation_refactor c (f.scope i)

end DocPromotion
