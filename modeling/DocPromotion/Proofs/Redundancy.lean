import DocPromotion.Proofs.RemovedTags
import DocPromotion.Source.Workspace

/-!
A tag is redundant if and only if it would be declared as what is declared already.

Whether a tag is redundant is decided by comparing its type with a declared type, kind by kind.
Which type is declared for a tag is decided elsewhere.  The two agree (`Tag.isRedundant_iff_repeats`)
on return values, where every type that can be declared at all can be declared.

So the three ways to remove a tag can be described without the test (`Method.DropsParamTag`,
`Method.DropsResultTag`, `Property.DropsVarTag`): each of them removes one tag, and only if that tag
repeats the declared type.
-/

namespace DocPromotion

/-! ### Tags that repeat a declared type -/

/-- A tag repeats a declared type: it has no description, its type can be read, the type would be
declared in the same way for a return value, and an array or iterable is spelled as its keyword. -/
def Tag.Repeats (names : Option Resolver) (declared : Text) (t : Tag) : Prop :=
  t.description = [] ∧ ∃ d type, DocType.parse names t.type = .ok d ∧
    d.declared? .result = some type ∧ type.spelling = declared ∧
    (d.isIterable = true → d.plain? = some true)

/-- Types that are neither arrays nor iterables have no plain spelling. -/
theorem DocType.plain?_ne_false_iff {d : DocType} :
    d.plain? ≠ some false ↔ (d.isIterable = true → d.plain? = some true) := by
  cases d with
  | array s => simp only [plain?, isIterable, ne_eq, Option.some_inj, Bool.not_eq_false, true_implies]
  | iterable s =>
    simp only [plain?, isIterable, ne_eq, Option.some_inj, Bool.not_eq_false, true_implies]
  | _ => simp [plain?, isIterable]

theorem Tag.isRedundant_iff_repeats {names : Option Resolver} {declared : Text} {t : Tag} :
    t.isRedundant names declared = true ↔ t.Repeats names declared := by
  constructor
  · intro h
    have hvoid : declared = "void" → Site.result.allowsVoid = true := fun _ => rfl
    obtain ⟨⟨hdescription, hplain⟩, type, ⟨t', d, ht, hparse, hd⟩, hdeclared⟩ :=
      Tag.isRestated_of_isRedundant h hvoid
    obtain rfl := Option.some.inj ht
    rw [Tag.docType, hparse] at hplain
    exact ⟨hdescription, d, type, hparse, hd, hdeclared.symm, DocType.plain?_ne_false_iff.mp hplain⟩
  · rintro ⟨hdescription, d, type, hparse, hd, hdeclared, hplain⟩
    have hreads : Site.Reads .result names (some t) type := ⟨t, d, rfl, hparse, hd⟩
    rw [Tag.isRedundant_iff_of_reads hreads]
    refine ⟨⟨hdescription, ?_⟩, hdeclared.symm⟩
    rw [Tag.docType, hparse]
    exact DocType.plain?_ne_false_iff.mpr hplain

/-! ### What is removed -/

/-- A method without the first tag of the given name, which repeats the declared type of the first
parameter of that name. -/
inductive Method.DropsParamTag (names : Option Resolver) (name : Text) (m : Method) :
    Method → Prop where
  | intro {doc : DocBlock} {p : Param} {before after : List Tag} {tag : Tag} :
      m.doc = some doc → m.param? name = some p →
      doc.params = before ++ tag :: after → (∀ t ∈ before, t.name ≠ name) → tag.name = name →
      tag.Repeats names p.declared →
      DropsParamTag names name m { m with doc := { doc with params := before ++ after }.prune }

/-- A method without the tag of its return value, which repeats the declared type. -/
inductive Method.DropsResultTag (names : Option Resolver) (m : Method) : Method → Prop where
  | intro {doc : DocBlock} {tag : Tag} :
      m.doc = some doc → doc.result = some tag → tag.Repeats names m.result →
      DropsResultTag names m { m with doc := { doc with result := none }.prune }

/-- A property statement without its tag, which repeats the declared type. -/
inductive Property.DropsVarTag (names : Option Resolver) (p : Property) : Property → Prop where
  | intro {doc : DocBlock} {tag : Tag} :
      p.doc = some doc → doc.var = some tag → tag.Repeats names p.declared →
      DropsVarTag names p { p with doc := { doc with var := none }.prune }

/-- The first tag of a name, and the tags without it. -/
theorem DocBlock.param?_eq_some_iff {b : DocBlock} {name : Text} {tag : Tag} :
    b.param? name = some tag ↔
      tag.name = name ∧ ∃ before after, b.params = before ++ tag :: after ∧
        ∀ t ∈ before, t.name ≠ name := by
  unfold DocBlock.param?
  rw [List.find?_eq_some_iff_append]
  simp

theorem eraseP_name_of_split {before after : List Tag} {tag : Tag} {name : Text}
    (hbefore : ∀ t ∈ before, t.name ≠ name) (htag : tag.name = name) :
    (before ++ tag :: after).eraseP (·.name == name) = before ++ after := by
  rw [List.eraseP_append_right _ (by simpa using hbefore),
    List.eraseP_cons_of_pos (by simpa using htag)]

section

variable {names : Option Resolver}

theorem Method.removeParamTag?_eq_some_iff {m m' : Method} {name : Text} :
    m.removeParamTag? names name = some m' ↔ m.DropsParamTag names name m' := by
  constructor
  · intro h
    obtain ⟨doc, p, tag, hdoc, hp, htag, hredundant, rfl⟩ := Method.removeParamTag?_eq_some names h
    obtain ⟨hname, before, after, hparams, hbefore⟩ := DocBlock.param?_eq_some_iff.mp htag
    rw [hparams, eraseP_name_of_split hbefore hname]
    exact .intro hdoc hp hparams hbefore hname (Tag.isRedundant_iff_repeats.mp hredundant)
  · rintro @⟨doc, p, before, after, tag, hdoc, hp, hparams, hbefore, hname, hrepeats⟩
    have htag : doc.param? name = some tag :=
      DocBlock.param?_eq_some_iff.mpr ⟨hname, before, after, hparams, hbefore⟩
    have hredundant := Tag.isRedundant_iff_repeats.mpr hrepeats
    simp only [Method.removeParamTag?, hdoc, hp, htag, hredundant, Option.bind_eq_bind,
      Option.bind_some, if_true, hparams, eraseP_name_of_split hbefore hname]
    rfl

theorem Method.removeResultTag?_eq_some_iff {m m' : Method} :
    m.removeResultTag? names = some m' ↔ m.DropsResultTag names m' := by
  constructor
  · intro h
    obtain ⟨doc, tag, hdoc, htag, hredundant, rfl⟩ := Method.removeResultTag?_eq_some names h
    exact .intro hdoc htag (Tag.isRedundant_iff_repeats.mp hredundant)
  · rintro @⟨doc, tag, hdoc, htag, hrepeats⟩
    have hredundant := Tag.isRedundant_iff_repeats.mpr hrepeats
    simp only [Method.removeResultTag?, hdoc, htag, hredundant, Option.bind_eq_bind,
      Option.bind_some, if_true]
    rfl

theorem Property.removeVarTag?_eq_some_iff {p p' : Property} :
    p.removeVarTag? names = some p' ↔ p.DropsVarTag names p' := by
  constructor
  · intro h
    obtain ⟨doc, tag, hdoc, htag, hredundant, rfl⟩ := Property.removeVarTag?_eq_some names h
    exact .intro hdoc htag (Tag.isRedundant_iff_repeats.mp hredundant)
  · rintro @⟨doc, tag, hdoc, htag, hrepeats⟩
    have hredundant := Tag.isRedundant_iff_repeats.mpr hrepeats
    simp only [Property.removeVarTag?, hdoc, htag, hredundant, Option.bind_eq_bind,
      Option.bind_some, if_true]
    rfl

end

/-! ### Removing from a workspace -/

/-- What an operation on a workspace does that removes something from one declaration and answers
whether it has.  The declaration is `found`, and is put back by `put`. -/
structure Workspace.Removes {α : Type} (w : Workspace) (found : Option α) (put : α → Workspace)
    (Drops : α → α → Prop) (out : Workspace × Bool) : Prop where
  answer_iff : out.2 = true ↔ ∃ x x', found = some x ∧ Drops x x'
  removed : ∀ x x', found = some x → Drops x x' → out.1 = put x'
  kept : out.2 = false → out.1 = w

/-- Looking for the declaration, trying to remove something from it, and answering what came of it. -/
theorem Workspace.removes_of_bind {α : Type} {w : Workspace} {found : Option α}
    {put : α → Workspace} {Drops : α → α → Prop} {remove? : α → Option α}
    {out : Workspace × Bool} (h : ∀ {x x'}, remove? x = some x' ↔ Drops x x')
    (hsome : ∀ x', found.bind remove? = some x' → out = (put x', true))
    (hnone : found.bind remove? = none → out = (w, false)) : w.Removes found put Drops out := by
  have hdrops : ∀ x', found.bind remove? = some x' ↔ ∃ x, found = some x ∧ Drops x x' := by
    intro x'
    rw [Option.bind_eq_some_iff]
    exact exists_congr fun x => and_congr_right fun _ => h
  cases hfound : found.bind remove? with
  | none =>
    have hno : ∀ x x', found = some x → ¬ Drops x x' := by
      intro x x' hx hd
      have hsome := (hdrops x').mpr ⟨x, hx, hd⟩
      rw [hfound] at hsome
      cases hsome
    rw [hnone hfound]
    refine ⟨⟨fun hanswer => absurd hanswer Bool.false_ne_true, ?_⟩, ?_, fun _ => rfl⟩
    · rintro ⟨x, x', hx, hd⟩
      exact absurd hd (hno x x' hx)
    · intro x x' hx hd
      exact absurd hd (hno x x' hx)
  | some y =>
    obtain ⟨x, hx, hd⟩ := (hdrops y).mp hfound
    rw [hsome y hfound]
    refine ⟨⟨fun _ => ⟨x, y, hx, hd⟩, fun _ => rfl⟩, ?_, fun hkept => by cases hkept⟩
    intro x₁ x' hx₁ hd'
    -- what is left of the declaration is determined
    have hsame := (hdrops x').mpr ⟨x₁, hx₁, hd'⟩
    rw [hfound] at hsame
    rw [Option.some.inj hsame]

theorem Workspace.removes_removeFromMethod (w : Workspace) (a : Address)
    {g : Option Resolver → Method → Option Method} {Drops : Method → Method → Prop}
    (h : ∀ {m m'}, g (a.scope w).names m = some m' ↔ Drops m m') :
    w.Removes (w.method? a) (w.putMethod a) Drops (w.removeFromMethod a g) := by
  refine Workspace.removes_of_bind h (fun m hm => ?_) fun hm => ?_
  · rw [Workspace.removeFromMethod, hm]
  · rw [Workspace.removeFromMethod, hm]

theorem Workspace.removes_removeVarTag (w : Workspace) (a : Address) :
    w.Removes (w.property? a) (w.putProperty a) (Property.DropsVarTag (a.scope w).names)
      (w.removeVarTag a) := by
  refine Workspace.removes_of_bind Property.removeVarTag?_eq_some_iff (fun p hp => ?_) fun hp => ?_
  · rw [Workspace.removeVarTag, hp]
  · rw [Workspace.removeVarTag, hp]

/-- **A tag is redundant if and only if it repeats the declared type**, that is, has no description
and a type that would be declared as it.  Each way to remove a tag, called for any declaration in
any state, removes one tag and answers yes if that tag repeats the declared type, and otherwise
changes nothing and answers no.  For a parameter, the first tag of its name is compared with the
first parameter of that name. -/
theorem redundant_iff_declared_alike :
    (∀ (names : Option Resolver) (declared : Text) (tag : Option Tag),
      tag.any (Tag.isRedundant names declared) = true ↔
        ∃ t, tag = some t ∧ t.Repeats names declared) ∧
    (∀ (w : Workspace) (a : Address) (name : Text),
      w.Removes (w.method? a) (w.putMethod a) (Method.DropsParamTag (a.scope w).names name)
        (w.removeFromMethod a fun names => Method.removeParamTag? names name)) ∧
    (∀ (w : Workspace) (a : Address),
      w.Removes (w.method? a) (w.putMethod a) (Method.DropsResultTag (a.scope w).names)
        (w.removeFromMethod a Method.removeResultTag?)) ∧
    (∀ (w : Workspace) (a : Address),
      w.Removes (w.property? a) (w.putProperty a) (Property.DropsVarTag (a.scope w).names)
        (w.removeVarTag a)) := by
  refine ⟨?_, ?_, ?_, ?_⟩
  · intro names declared tag
    cases tag with
    | none => simp
    | some t => simp [Tag.isRedundant_iff_repeats]
  · intro w a name
    exact w.removes_removeFromMethod a Method.removeParamTag?_eq_some_iff
  · intro w a
    exact w.removes_removeFromMethod a Method.removeResultTag?_eq_some_iff
  · intro w a
    exact w.removes_removeVarTag a

end DocPromotion
