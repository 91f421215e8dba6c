import DocPromotion.Proofs.TagRemoval

/-!
What is left of a documentation block.

The rules remove tags one by one, and drop a block as soon as it is empty.  Seen from the end, the
block holds the tags that are kept, and it is dropped if something was removed and nothing is left:
`Method.promoteParams_eq` for the rule for parameters, `Method.promoteResult_of_declare` for the one
for return values and `Property.promote_of_declare` for properties.

Several parameters may have the same name, and so may several tags.  Each parameter that receives
a type asks for the first tag of its name that is still there (`dropFirst`).  As long as every name
is asked for once, only first tags are dropped (`not_mem_foldl_dropFirst`).
-/

namespace DocPromotion

/-! ### The first tag of a name -/

section

variable {α : Type} (tagOf : α → Tag) (removable : Tag → Bool)

/-- Items without the first one that has a tag of the given name, if that tag can be removed.  The
items are tags, or something that comes with a tag. -/
def dropFirst (items : List α) (name : Text) : List α :=
  if (items.find? fun x => (tagOf x).name == name).any fun x => removable (tagOf x) then
    items.eraseP fun x => (tagOf x).name == name
  else items

theorem dropFirst_sublist (items : List α) (name : Text) :
    (dropFirst tagOf removable items name).Sublist items := by
  unfold dropFirst
  split
  · exact List.eraseP_sublist
  · exact List.Sublist.refl items

theorem foldl_dropFirst_sublist (names : List Text) :
    ∀ items : List α, (names.foldl (dropFirst tagOf removable) items).Sublist items := by
  induction names with
  | nil => exact fun items => List.Sublist.refl items
  | cons name names ih =>
    intro items
    exact (ih _).trans (dropFirst_sublist tagOf removable items name)

end

section

variable {α : Type} {tagOf : α → Tag} {removable : Tag → Bool}

/-- Nothing but the first item of a name is dropped. -/
theorem mem_dropFirst {items : List α} (hitems : items.Nodup) {name : Text} {x : α} :
    x ∈ dropFirst tagOf removable items name ↔
      x ∈ items ∧
        ¬ ((items.find? fun y => (tagOf y).name == name) = some x ∧
          removable (tagOf x) = true) := by
  unfold dropFirst
  rcases Option.eq_none_or_eq_some (items.find? fun y => (tagOf y).name == name) with
    hfind | ⟨first, hfind⟩
  · simp [hfind]
  · rw [hfind, Option.any_some, Option.some_inj]
    by_cases hremovable : removable (tagOf first) = true
    · rw [if_pos hremovable]
      obtain ⟨hfirst, before, after, rfl, hbefore⟩ := List.find?_eq_some_iff_append.mp hfind
      have hnotMem : first ∉ before ++ after :=
        (List.nodup_cons.mp (List.perm_middle.nodup_iff.mp hitems)).1
      rw [List.eraseP_append_right _ (by simpa using hbefore),
        List.eraseP_cons_of_pos (p := fun y => (tagOf y).name == name) hfirst]
      constructor
      · intro hx
        refine ⟨?_, ?_⟩
        · rw [List.mem_append] at hx
          rw [List.mem_append, List.mem_cons]
          exact hx.imp_right .inr
        · rintro ⟨rfl, -⟩
          exact hnotMem hx
      · rintro ⟨hx, hne⟩
        rw [List.mem_append, List.mem_cons] at hx
        rw [List.mem_append]
        rcases hx with hx | rfl | hx
        · exact .inl hx
        · exact absurd ⟨rfl, hremovable⟩ hne
        · exact .inr hx
    · rw [if_neg hremovable]
      constructor
      · intro hx
        refine ⟨hx, ?_⟩
        rintro ⟨rfl, h⟩
        exact hremovable h
      · exact And.left

theorem find?_dropFirst_of_ne {name other : Text} (h : other ≠ name) (items : List α) :
    (dropFirst tagOf removable items name).find? (fun x => (tagOf x).name == other) =
      items.find? fun x => (tagOf x).name == other := by
  unfold dropFirst
  split
  · exact find?_eraseP_of_ne tagOf h items
  · rfl

theorem nodup_dropFirst {items : List α} (h : items.Nodup) (name : Text) :
    (dropFirst tagOf removable items name).Nodup :=
  h.sublist (dropFirst_sublist tagOf removable items name)

/-- An item that is dropped can be removed, and so can the first one of its name. -/
theorem exists_of_not_mem_foldl_dropFirst {x : α} (names : List Text) :
    ∀ items : List α, items.Nodup → x ∈ items →
      x ∉ names.foldl (dropFirst tagOf removable) items →
        (tagOf x).name ∈ names ∧ removable (tagOf x) = true ∧
          ∃ first, (items.find? fun y => (tagOf y).name == (tagOf x).name) = some first ∧
            removable (tagOf first) = true := by
  induction names with
  | nil =>
    intro items _ hx hgone
    exact absurd hx hgone
  | cons name names ih =>
    intro items hitems hx hgone
    rw [List.foldl_cons] at hgone
    by_cases hkept : x ∈ dropFirst tagOf removable items name
    · obtain ⟨hname, hremovable, first, hfirst, hfirstRemovable⟩ :=
        ih _ (nodup_dropFirst hitems name) hkept hgone
      refine ⟨List.mem_cons_of_mem _ hname, hremovable, ?_⟩
      by_cases hsame : (tagOf x).name = name
      · -- either the first item has been dropped already, or it is still the first
        by_cases hdropped : (items.find? fun y => (tagOf y).name == name).any
            (fun y => removable (tagOf y)) = true
        · obtain ⟨first', hfirst', hremovable'⟩ := (Option.any_eq_true ..).mp hdropped
          rw [hsame]
          exact ⟨first', hfirst', hremovable'⟩
        · rw [dropFirst, if_neg hdropped] at hfirst
          exact ⟨first, hfirst, hfirstRemovable⟩
      · rw [find?_dropFirst_of_ne hsame] at hfirst
        exact ⟨first, hfirst, hfirstRemovable⟩
    · have hfirst : (items.find? fun y => (tagOf y).name == name) = some x ∧
          removable (tagOf x) = true :=
        Classical.byContradiction fun hne => hkept ((mem_dropFirst hitems).mpr ⟨hx, hne⟩)
      have hname : (tagOf x).name = name := by simpa using List.find?_some hfirst.1
      refine ⟨by rw [hname]; exact List.mem_cons_self .., hfirst.2, x, ?_, hfirst.2⟩
      rw [hname]
      exact hfirst.1

/-- If no name is asked for twice, exactly the first items that can be removed are dropped. -/
theorem not_mem_foldl_dropFirst {x : α} {names : List Text} (hnames : names.Nodup) :
    ∀ items : List α, items.Nodup → x ∈ items →
      (x ∉ names.foldl (dropFirst tagOf removable) items ↔
        (tagOf x).name ∈ names ∧
          (items.find? fun y => (tagOf y).name == (tagOf x).name) = some x ∧
            removable (tagOf x) = true) := by
  induction names with
  | nil => simp +contextual
  | cons name names ih =>
    intro items hitems hx
    obtain ⟨hname, hnames⟩ := List.nodup_cons.mp hnames
    rw [List.foldl_cons, List.mem_cons]
    by_cases hsame : (tagOf x).name = name
    · -- the items of this name are not looked at again
      have hdrop : x ∉ names.foldl (dropFirst tagOf removable)
          (dropFirst tagOf removable items name) ↔ x ∉ dropFirst tagOf removable items name := by
        constructor
        · intro hgone hkept
          have hagain :=
            (exists_of_not_mem_foldl_dropFirst names _ (nodup_dropFirst hitems name) hkept hgone).1
          rw [hsame] at hagain
          exact hname hagain
        · intro hgone hkept
          exact hgone ((foldl_dropFirst_sublist tagOf removable names _).mem hkept)
      rw [hdrop, mem_dropFirst hitems, hsame]
      simp [hx]
    · have hkept : x ∈ dropFirst tagOf removable items name := by
        rw [mem_dropFirst hitems]
        refine ⟨hx, fun hfirst => hsame ?_⟩
        simpa using List.find?_some hfirst.1
      rw [ih hnames _ (nodup_dropFirst hitems name) hkept, find?_dropFirst_of_ne hsame]
      simp [hsame]

/-- Dropping items drops their tags. -/
theorem map_foldl_dropFirst (names : List Text) (items : List α) :
    (names.foldl (dropFirst tagOf removable) items).map tagOf =
      names.foldl (dropFirst id removable) (items.map tagOf) := by
  symm
  apply List.foldl_hom
  intro items name
  simp only [dropFirst, List.find?_map, List.eraseP_map, Option.any_map, Function.comp_def, id_eq]
  split <;> rfl

end

/-! ### Blocks with fewer tags -/

/-- A block with other tags for parameters.  It is dropped if that leaves it empty, but a block
whose tags do not change is not looked at. -/
def DocBlock.withParams (b : DocBlock) (tags : List Tag) : Option DocBlock :=
  if tags = b.params then some b else { b with params := tags }.prune

@[simp] theorem DocBlock.withParams_self (b : DocBlock) : b.withParams b.params = some b :=
  if_pos rfl

theorem DocBlock.prune_of_ne_nil {b : DocBlock} (h : b.isEmpty = false) : b.prune = some b := by
  rw [DocBlock.prune, h]
  rfl

/-- A block is not dropped for its tags of parameters, if there is one for the return value. -/
theorem DocBlock.withParams_of_result {b : DocBlock} {t : Tag} (h : b.result = some t)
    (tags : List Tag) : b.withParams tags = some { b with params := tags } := by
  have hsome : ({ b with params := tags } : DocBlock).isEmpty = false := by
    simp [DocBlock.isEmpty, h]
  unfold DocBlock.withParams
  split
  next htags => rw [htags]
  next => exact DocBlock.prune_of_ne_nil hsome

/-- Taking tags away in two steps. -/
theorem DocBlock.withParams_bind (keep : List Tag → List Tag) {b : DocBlock} {tags : List Tag}
    (h : tags.Sublist b.params) (hkeep : (keep tags).Sublist tags) :
    (b.withParams tags).bind (fun b' => b'.withParams (keep b'.params)) =
      b.withParams (keep tags) := by
  by_cases htags : tags = b.params
  · rw [htags, DocBlock.withParams_self]
    rfl
  · -- tags that have been taken away do not come back
    have hne : keep tags ≠ b.params := by
      intro heq
      rw [heq] at hkeep
      exact htags (h.eq_of_length_le hkeep.length_le)
    rw [DocBlock.withParams, if_neg htags, DocBlock.withParams, if_neg hne]
    cases hempty : ({ b with params := tags } : DocBlock).isEmpty with
    | true =>
      have hnil : keep tags = tags := by
        obtain ⟨-, hnil, -, -⟩ := DocBlock.isEmpty_iff.mp hempty
        change tags = [] at hnil
        rw [hnil] at hkeep ⊢
        exact List.sublist_nil.mp hkeep
      rw [hnil, DocBlock.prune, hempty]
      rfl
    | false =>
      rw [DocBlock.prune_of_ne_nil hempty, Option.bind_some, DocBlock.withParams]
      split
      next hsame =>
        change keep tags = tags at hsame
        rw [hsame, DocBlock.prune_of_ne_nil hempty]
      next => rfl

/-- An empty block stays dropped. -/
theorem DocBlock.prune_bind_prune (b : DocBlock) : b.prune.bind DocBlock.prune = b.prune := by
  unfold DocBlock.prune
  split
  next => rfl
  next h => rw [Option.bind_some, if_neg h]

/-! ### The rule for parameters -/

section

variable (names : Option Resolver)

/-- Whether a tag says no more than the declared type of the first parameter of its name. -/
def isRemovable (params : List Param) (t : Tag) : Bool :=
  (params.find? (·.name == t.name)).any fun p => t.isRedundant names p.declared

/-- The tags of parameters that are left by the rule for parameters. -/
def Method.keptTags (m : Method) (tags : List Tag) : List Tag :=
  (m.promotedNames names).foldl
    (dropFirst id (isRemovable names (m.params.map (m.promoteParam names)))) tags

theorem Method.keptTags_sublist (m : Method) (tags : List Tag) :
    (m.keptTags names tags).Sublist tags := foldl_dropFirst_sublist id _ _ tags

theorem Method.dropParamTag_eq (m : Method) (name : Text) :
    m.dropParamTag names name =
      { m with doc := m.doc.bind fun b =>
          b.withParams (dropFirst id (isRemovable names m.params) b.params name) } := by
  obtain ⟨_, doc, params, _, _⟩ := m
  cases doc with
  | none => rfl
  | some b =>
    simp only [Method.dropParamTag, Method.removeParamTag?, Method.param?, DocBlock.param?,
      Option.bind_eq_bind, Option.bind_some, dropFirst, id_eq]
    rcases Option.eq_none_or_eq_some (b.params.find? (·.name == name)) with htag | ⟨tag, htag⟩
    · simp [htag]
    · have hname : tag.name = name := by simpa using List.find?_some htag
      simp only [htag, Option.any_some, isRemovable, hname]
      rcases Option.eq_none_or_eq_some (params.find? (·.name == name)) with hparam | ⟨p, hparam⟩
      · simp [hparam]
      · simp only [hparam, Option.bind_some, Option.any_some]
        cases hred : tag.isRedundant names p.declared with
        | false => simp
        | true =>
          -- a tag is removed, so this is not the block that is not looked at
          have hne : b.params.eraseP (·.name == name) ≠ b.params := by
            intro heq
            have hmem := List.mem_of_find?_eq_some htag
            have hlen := List.length_eraseP_of_mem hmem (List.find?_some htag)
            have hpos := List.length_pos_of_mem hmem
            rw [heq] at hlen
            omega
          simp [DocBlock.withParams, hne]

/-- Removing the tags of several parameters, in one piece. -/
theorem Method.foldl_dropParamTag_eq (removed : List Text) : ∀ m : Method,
    removed.foldl (Method.dropParamTag names) m =
      { m with doc := m.doc.bind fun b =>
          b.withParams (removed.foldl (dropFirst id (isRemovable names m.params)) b.params) } := by
  induction removed with
  | nil =>
    intro m
    cases hdoc : m.doc <;> simp [← hdoc]
  | cons name removed ih =>
    intro m
    rw [List.foldl_cons, Method.dropParamTag_eq, ih]
    congr 1
    rw [Option.bind_assoc]
    congr 1
    funext b
    rw [List.foldl_cons]
    exact DocBlock.withParams_bind (removed.foldl (dropFirst id (isRemovable names m.params)) ·)
      (dropFirst_sublist id _ _ _) (foldl_dropFirst_sublist id _ _ _)

/-- **The rule for parameters in one piece.** -/
theorem Method.promoteParams_eq (m : Method) :
    m.promoteParams names =
      { m with
        params := m.params.map (m.promoteParam names)
        doc := m.doc.bind fun b => b.withParams (m.keptTags names b.params) } := by
  unfold Method.promoteParams
  rw [Method.foldl_dropParamTag_eq]
  rfl

/-! ### The rule for return values -/

/-- **The rule for return values in one piece**, for a method whose return value receives a type. -/
theorem Method.promoteResult_of_declare {m : Method} {type : DeclaredType}
    (h : m.resultDecision names = .declare type) :
    m.promoteResult names =
      { m with
        result := type.spelling
        doc := m.doc.bind fun b => { b with
          result := b.result.filter fun t => !t.isRedundant names type.spelling }.prune
        refreshed := true } := by
  obtain ⟨_, doc, _, _, _⟩ := m
  unfold Method.promoteResult
  rw [h]
  simp only [Method.setResult, Method.removeResultTag?, Method.refresh]
  cases doc with
  | none => rfl
  | some b =>
    obtain ⟨_, _, result, _⟩ := b
    cases result with
    | none => rfl
    | some t =>
      cases hred : t.isRedundant names type.spelling <;>
        simp [hred, DocBlock.prune_bind_prune, Option.filter_some]

/-! ### The rule for properties -/

theorem Property.promote_of_declare {p : Property} {type : DeclaredType}
    (h : p.decision names = .declare type) :
    p.promote names =
      { p with
        declared := type.spelling
        doc := p.doc.bind fun b => { b with
          var := b.var.filter fun t => !t.isRedundant names type.spelling }.prune } := by
  -- the type is read from a tag, so a block that keeps it is not empty
  obtain ⟨t, htag, -⟩ := tagDecision_eq_declare (Property.decision_eq_declare h).2
  obtain ⟨_, _, doc⟩ := p
  obtain ⟨⟨_, _, _, var⟩, hdoc, hvar⟩ := Option.bind_eq_some_iff.mp htag
  obtain rfl : doc = _ := hdoc
  obtain rfl : var = _ := hvar
  unfold Property.promote
  rw [h]
  simp only [Property.setType, Property.removeVarTag?]
  cases hred : t.isRedundant names type.spelling with
  | true => simp [hred, Option.filter_some]
  | false => simp [hred, Option.filter_some, DocBlock.prune, DocBlock.isEmpty]

end

end DocPromotion
