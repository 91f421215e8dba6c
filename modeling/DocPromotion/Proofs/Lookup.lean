import DocPromotion.Proofs.ImportOrder

/-!
A promoted type means the class that the documentation means.

A class name is qualified in three places: where documentation is read, where a class is declared,
and where a class is looked up.  A lookup finds the last class with the fully qualified name that a
name stands for (`SourceFile.lookup_eq_some_iff`), and documentation is read as this same fully
qualified name (`DocType.StandsFor.resolveName_eq`).  The declared type is the fully qualified name
after a backslash, so it is looked up as it stands.
-/

namespace DocPromotion

/-! ### The last class with a name -/

namespace SourceFile

variable {f : SourceFile} {fqn : Text} {i j : Nat}

/-- The class at a position is the last one in the file that has a fully qualified name, in lower
case. -/
structure IsLastNamed (f : SourceFile) (fqn : Text) (i : Nat) : Prop where
  named : ∃ c, f.classes[i]? = some c ∧ Text.lower (f.fqn c) = Text.lower fqn
  last : ∀ k c, i < k → f.classes[k]? = some c → Text.lower (f.fqn c) ≠ Text.lower fqn

theorem isNamed_iff {c : ClassDecl} :
    f.isNamed fqn c = true ↔ Text.lower (f.fqn c) = Text.lower fqn := by
  rw [isNamed, beq_iff_eq]

theorem findLast?_eq_none_iff {cs : List ClassDecl} :
    f.findLast? fqn i cs = none ↔ ∀ c ∈ cs, ¬ f.isNamed fqn c = true := by
  induction cs generalizing i with
  | nil => simp [findLast?]
  | cons c cs ih =>
    rw [findLast?, Option.or_eq_none_iff, ih, List.forall_mem_cons, and_comm]
    simp

/-- What is found in a list has the name, and nothing after it has. -/
theorem findLast?_eq_some {cs : List ClassDecl} (h : f.findLast? fqn i cs = some j) :
    ∃ n c, j = i + n ∧ cs[n]? = some c ∧ f.isNamed fqn c = true ∧
      ∀ m d, n < m → cs[m]? = some d → ¬ f.isNamed fqn d = true := by
  induction cs generalizing i with
  | nil => cases h
  | cons c cs ih =>
    rw [findLast?] at h
    cases hrest : f.findLast? fqn (i + 1) cs with
    | some k =>
      rw [hrest, Option.some_or] at h
      obtain rfl := Option.some.inj h
      obtain ⟨n, d, hk, hd, hnamed, hlast⟩ := ih hrest
      refine ⟨n + 1, d, by omega, hd, hnamed, fun m e hm he => ?_⟩
      obtain ⟨m, rfl⟩ : ∃ m', m = m' + 1 := ⟨m - 1, by omega⟩
      exact hlast m e (by omega) he
    | none =>
      -- no later class has the name, so it is the first one
      rw [hrest, Option.none_or] at h
      split at h
      next hnamed =>
        obtain rfl := Option.some.inj h
        refine ⟨0, c, rfl, rfl, hnamed, fun m e hm he => ?_⟩
        obtain ⟨m, rfl⟩ : ∃ m', m = m' + 1 := ⟨m - 1, by omega⟩
        exact findLast?_eq_none_iff.mp hrest e (List.mem_of_getElem? he)
      next => cases h

theorem IsLastNamed.unique (hi : f.IsLastNamed fqn i) (hj : f.IsLastNamed fqn j) : i = j := by
  obtain ⟨c, hc, hcName⟩ := hi.named
  obtain ⟨d, hd, hdName⟩ := hj.named
  rcases Nat.lt_trichotomy i j with hlt | heq | hgt
  · exact absurd hdName (hi.last j d hlt hd)
  · exact heq
  · exact absurd hcName (hj.last i c hgt hc)

/-! ### Looking up a name -/

theorem lookup_eq_none_iff {name : Text} :
    f.lookup name = none ↔
      ∀ c ∈ f.classes, Text.lower (f.fqn c) ≠ Text.lower (f.resolveName name) := by
  rw [lookup, findLast?_eq_none_iff]
  simp only [isNamed_iff, ne_eq]

/-- **A lookup finds the last class with the name.** -/
theorem lookup_eq_some_iff {name : Text} :
    f.lookup name = some i ↔ f.IsLastNamed (f.resolveName name) i := by
  have hsound : ∀ {i}, f.lookup name = some i → f.IsLastNamed (f.resolveName name) i := by
    intro i h
    obtain ⟨n, c, hn, hc, hnamed, hlast⟩ := findLast?_eq_some h
    obtain rfl : i = n := by omega
    refine ⟨⟨c, hc, isNamed_iff.mp hnamed⟩, fun k d hk hd hname => ?_⟩
    exact hlast k d hk hd (isNamed_iff.mpr hname)
  refine ⟨hsound, fun h => ?_⟩
  cases hlookup : f.lookup name with
  | none =>
    obtain ⟨c, hc, hname⟩ := h.named
    exact absurd hname (lookup_eq_none_iff.mp hlookup c (List.mem_of_getElem? hc))
  | some j => rw [h.unique (hsound hlookup)]

/-- Names that stand for the same class are looked up alike. -/
theorem lookup_congr {n m : Text} (h : f.resolveName n = f.resolveName m) :
    f.lookup n = f.lookup m := by
  rw [lookup, lookup, h]

/-- A name after a backslash is fully qualified. -/
theorem resolveName_backslash (f : SourceFile) (fqn : Text) :
    f.resolveName ([Text.backslash] ++ fqn) = fqn := by
  simp [resolveName, Text.cutBackslash?]

theorem resolveName_of_cut {name : Text} (h : Text.cutBackslash? name = none) :
    f.resolveName name = (f.imports.resolve name).fqn := by
  rw [resolveName, h]

/-- The name of a class stands for the class, unless it starts with an alias. -/
theorem resolveName_name {c : ClassDecl} (hcut : Text.cutBackslash? c.name = none)
    (halias : ∀ use ∈ f.uses, Text.equalFold use.1 (Text.firstSegment c.name) = false) :
    f.resolveName c.name = f.fqn c := by
  have hnone : f.imports.alias? (Text.firstSegment c.name) = none :=
    ImportTable.alias?_eq_none_iff.mpr halias
  rw [resolveName_of_cut hcut, ImportTable.resolve_of_no_alias hnone]
  rfl

end SourceFile

/-! ### What documentation stands for -/

namespace DocType

/-- A documentation type is the class with a fully qualified name, written as it is or by an
alias. -/
def StandsFor (t : DocType) (fqn : Text) : Prop := t = .nominal fqn ∨ ∃ short, t = .aliased short fqn

variable {t : DocType} {fqn name : Text}

@[simp] theorem standsFor_nominal {n : Text} : (nominal n).StandsFor fqn ↔ n = fqn := by
  simp [StandsFor]

@[simp] theorem standsFor_aliased {short n : Text} :
    (aliased short n).StandsFor fqn ↔ n = fqn := by
  simp [StandsFor]

@[simp] theorem not_standsFor_unrepresentable {s : Text} :
    ¬ (unrepresentable s).StandsFor fqn := by
  simp [StandsFor]

theorem StandsFor.declared?_eq (h : t.StandsFor fqn) (site : Site) :
    t.declared? site = some (.nominal fqn) := by
  rcases h with rfl | ⟨short, rfl⟩
  · rfl
  · rfl

/-- Keywords are no classes. -/
theorem not_standsFor_of_ofKeyword? {word : List Char} {spelling : Text}
    (h : ofKeyword? word spelling = some t) : ¬ t.StandsFor fqn := by
  unfold ofKeyword? at h
  unfold StandsFor
  repeat' split at h
  all_goals cases h
  all_goals simp

theorem StandsFor.resolveName_of_ofClassName? {f : SourceFile} (h : t.StandsFor fqn)
    (ht : ofClassName? (some f.imports.resolve) name = some t) : f.resolveName name = fqn := by
  unfold ofClassName? at ht
  unfold SourceFile.resolveName
  cases hcut : Text.cutBackslash? name with
  | some rest =>
    rw [hcut] at ht
    dsimp only at ht ⊢
    split at ht
    next =>
      obtain rfl := Option.some.inj ht
      exact standsFor_nominal.mp h
    next => cases ht
  | none =>
    rw [hcut] at ht
    dsimp only at ht ⊢
    split at ht
    next =>
      -- the answer of the imports is a class or malformed
      split at ht
      next =>
        obtain rfl := Option.some.inj ht
        exact absurd h not_standsFor_unrepresentable
      next =>
        split at ht
        · obtain rfl := Option.some.inj ht
          exact standsFor_aliased.mp h
        · obtain rfl := Option.some.inj ht
          exact standsFor_nominal.mp h
    next => cases ht

/-- **Documentation is read as the class that the name stands for in the file.** -/
theorem StandsFor.resolveName_eq {f : SourceFile} (h : t.StandsFor fqn)
    (ht : ofName? (some f.imports.resolve) name = some t) : f.resolveName name = fqn := by
  unfold ofName? at ht
  split at ht
  next hkeyword =>
    obtain rfl := Option.some.inj ht
    exact absurd h (not_standsFor_of_ofKeyword? hkeyword)
  next =>
    split at ht
    next =>
      obtain rfl := Option.some.inj ht
      exact absurd h not_standsFor_unrepresentable
    next => exact h.resolveName_of_ofClassName? ht

end DocType

/-! ### Main statement -/

namespace SourceFile

/-- **Promotion does not change which class is meant.**  In a file in which no two aliases are equal
up to case, a name is read as a class, going through the imports in any order.  Then the name itself
and the declared type are looked up alike: both are the last class with the fully qualified name that
documentation stands for, or there is none.  So an entry in a list of parents means the same class
whether it is written as the name or as the declared type.

A class that is the last one with its fully qualified name, in lower case, is found by this name
after a backslash, and by its own name, if that has no leading backslash and does not start with an
alias. -/
theorem promotion_keeps_class (f : SourceFile) (h : AliasesApart f.uses) :
    (∀ (names : Resolver) (name fqn : Text) (t : DocType) (site : Site) (type : DeclaredType),
      f.imports.ResolvesInSomeOrder names → DocType.ofName? (some names) name = some t →
        t.StandsFor fqn → t.declared? site = some type →
          f.lookup name = f.lookup type.spelling ∧
          (∀ i, f.lookup type.spelling = some i ↔ f.IsLastNamed fqn i) ∧
          ∀ (c : ClassDecl) (before after : List Text), c.parents = before ++ name :: after →
            f.parentsOf c =
              f.parentsOf { c with parents := before ++ type.spelling :: after }) ∧
    ∀ (i : Nat) (c : ClassDecl), f.classes[i]? = some c →
      (∀ j d, i < j → f.classes[j]? = some d → Text.lower (f.fqn d) ≠ Text.lower (f.fqn c)) →
        f.lookup ([Text.backslash] ++ f.fqn c) = some i ∧
        (Text.cutBackslash? c.name = none →
          (∀ use ∈ f.uses, Text.equalFold use.1 (Text.firstSegment c.name) = false) →
            f.lookup c.name = some i) := by
  constructor
  · intro names name fqn t site type hnames ht hfqn htype
    obtain rfl := h.resolver_eq hnames
    obtain rfl : DeclaredType.nominal fqn = type := by
      rw [hfqn.declared?_eq site] at htype
      exact Option.some.inj htype
    have hspelling : f.resolveName (DeclaredType.nominal fqn).spelling = fqn :=
      f.resolveName_backslash fqn
    have hsame : f.lookup name = f.lookup (DeclaredType.nominal fqn).spelling :=
      lookup_congr ((hfqn.resolveName_eq ht).trans hspelling.symm)
    refine ⟨hsame, fun i => ?_, fun c before after hparents => ?_⟩
    · rw [lookup_eq_some_iff, hspelling]
    · rw [parentsOf, parentsOf, hparents]
      simp only [List.filterMap_append, List.filterMap_cons, hsame]
  · intro i c hc hlast
    have hnamed : f.IsLastNamed (f.fqn c) i := ⟨⟨c, hc, rfl⟩, hlast⟩
    constructor
    · rw [lookup_eq_some_iff, resolveName_backslash]
      exact hnamed
    · intro hcut halias
      rw [lookup_eq_some_iff, resolveName_name hcut halias]
      exact hnamed

/-- A class that is declared twice, in different case, in a namespace with backslashes around it. -/
def twice : SourceFile where
  ns := "\\App\\"
  uses := [("Ext", "\\App"), ("x", "Y")]
  classes := [⟨"Base", false, [], [], []⟩, ⟨"base", false, [], [], []⟩,
    ⟨"Child", false, ["EXT\\Base"], [], []⟩]

/-- The second of the two classes is meant, by whatever name. -/
theorem promotion_keeps_class_twice :
    AliasesApart twice.uses ∧
      DocType.ofName? (some twice.imports.resolve) "EXT\\Base" =
        some (.aliased "EXT\\Base" "App\\Base") ∧
      twice.lookup "EXT\\Base" = twice.lookup "\\App\\Base" ∧
      twice.lookup ([Text.backslash] ++ twice.fqn ⟨"base", false, [], [], []⟩) = some 1 ∧
      twice.lookup "base" = some 1 := by
  have hapart : AliasesApart twice.uses := by
    unfold AliasesApart
    decide +kernel
  have hname : DocType.ofName? (some twice.imports.resolve) "EXT\\Base" =
      some (.aliased "EXT\\Base" "App\\Base") := by decide +kernel
  have hall := promotion_keeps_class twice hapart
  have hmeant := hall.1 twice.imports.resolve "EXT\\Base" "App\\Base" _ .param _
    (fun name => ⟨_, List.Perm.refl _, rfl⟩) hname (.inr ⟨_, rfl⟩) rfl
  have hlast : ∀ j d, 1 < j → twice.classes[j]? = some d →
      Text.lower (twice.fqn d) ≠ Text.lower (twice.fqn ⟨"base", false, [], [], []⟩) := by
    intro j d hj hd
    obtain rfl : j = 2 := by
      have hlt : j < 3 := (List.getElem?_eq_some_iff.mp hd).1
      omega
    obtain rfl := Option.some.inj hd
    decide +kernel
  obtain ⟨hfull, hown⟩ := hall.2 1 _ rfl hlast
  exact ⟨hapart, hname, hmeant.1, hfull, hown (by decide) (by decide +kernel)⟩

end SourceFile

end DocPromotion
