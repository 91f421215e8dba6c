import DocPromotion.Proofs.TagRemoval

/-!
The class hierarchy does not change while a file is refactored.

Whether a rule admits a method may depend on other classes of the file, which have been refactored
already or not.  This makes no difference: the hierarchy can be read off from the outline of a
file, its classes with the names of their methods (`SourceFile.scope_outline`), and refactoring
keeps the outline (`SourceFile.outline_refactor`).
-/

namespace DocPromotion

/-- A method of which only the name is known. -/
def Method.outline (m : Method) : Method := ⟨m.name, none, [], [], false⟩

/-- A class with the names of its methods. -/
def ClassDecl.outline (d : ClassDecl) : ClassDecl :=
  { d with methods := d.methods.map Method.outline, properties := [] }

namespace SourceFile

/-- A file with nothing but its class hierarchy. -/
def outline (f : SourceFile) : SourceFile := { f with classes := f.classes.map ClassDecl.outline }

/-! ### Looking up classes -/

/-- Files with the same class hierarchy: names stand for the same classes, and the classes have the
same outlines. -/
structure SameHierarchy (f g : SourceFile) : Prop where
  ns : g.ns = f.ns
  resolve : g.imports.resolve = f.imports.resolve
  classes : g.classes.map ClassDecl.outline = f.classes.map ClassDecl.outline

theorem sameHierarchy_outline (f : SourceFile) : SameHierarchy f.outline f := by
  refine ⟨rfl, rfl, ?_⟩
  -- the outline of an outline is the outline itself
  show _ = (f.classes.map ClassDecl.outline).map ClassDecl.outline
  rw [List.map_map]
  refine List.map_congr_left fun d _ => ?_
  simp [ClassDecl.outline, Method.outline]

theorem declares_outline (name : Text) (d : ClassDecl) :
    declares name d.outline = declares name d := by
  unfold declares
  rw [show d.outline.methods = d.methods.map Method.outline from rfl, List.any_map]
  rfl

namespace SameHierarchy

variable {f g : SourceFile} {d e : ClassDecl}

theorem getElem? (h : SameHierarchy f g) (i : Nat) :
    g.classes[i]?.map ClassDecl.outline = f.classes[i]?.map ClassDecl.outline := by
  rw [← List.getElem?_map, h.classes, List.getElem?_map]

theorem getElem?_of_none (h : SameHierarchy f g) {i : Nat} (hd : f.classes[i]? = none) :
    g.classes[i]? = none := by
  have he := h.getElem? i
  rwa [hd, Option.map_none, Option.map_eq_none_iff] at he

theorem getElem?_of_some (h : SameHierarchy f g) {i : Nat} (hd : f.classes[i]? = some d) :
    ∃ e, g.classes[i]? = some e ∧ e.outline = d.outline := by
  have he := h.getElem? i
  rwa [hd, Option.map_some, Option.map_eq_some_iff] at he

theorem length_classes (h : SameHierarchy f g) : g.classes.length = f.classes.length := by
  simpa using congrArg List.length h.classes

theorem findLast? (h : SameHierarchy f g) (fqn : Text) {cs es : List ClassDecl}
    (hcs : es.map ClassDecl.outline = cs.map ClassDecl.outline) :
    ∀ i, g.findLast? fqn i es = f.findLast? fqn i cs := by
  induction cs generalizing es with
  | nil =>
    intro i
    obtain rfl : es = [] := by simpa using hcs
    rfl
  | cons d cs ih =>
    intro i
    obtain ⟨e, es, rfl, he, hes⟩ := List.map_eq_cons_iff.mp hcs
    have hname : e.name = d.name := by
      show e.outline.name = d.outline.name
      rw [he]
    have hnamed : g.isNamed fqn e = f.isNamed fqn d := by
      rw [isNamed, isNamed, SourceFile.fqn, SourceFile.fqn, h.ns, hname]
    rw [SourceFile.findLast?, SourceFile.findLast?, ih hes, hnamed]

theorem lookup (h : SameHierarchy f g) : g.lookup = f.lookup := by
  funext name
  have hname : g.resolveName name = f.resolveName name := by
    unfold resolveName
    rw [h.resolve]
  rw [SourceFile.lookup, SourceFile.lookup, hname]
  exact h.findLast? _ h.classes 0

theorem parentsOf (h : SameHierarchy f g) (he : e.outline = d.outline) :
    g.parentsOf e = f.parentsOf d := by
  have hparents : e.parents = d.parents := by
    show e.outline.parents = d.outline.parents
    rw [he]
  rw [SourceFile.parentsOf, SourceFile.parentsOf, h.lookup, hparents]

theorem searchAncestors (h : SameHierarchy f g) (name : Text) (fresh queue : List Nat) :
    g.searchAncestors name fresh queue = f.searchAncestors name fresh queue := by
  fun_induction f.searchAncestors name fresh queue with
  | case1 => rw [SourceFile.searchAncestors]
  | case2 fresh i queue hi hd ih =>
    rw [SourceFile.searchAncestors, if_pos hi, h.getElem?_of_none hd]
    exact ih
  | case3 fresh i queue hi d hd ih =>
    -- the class itself is asked for the method, its parents are searched later
    obtain ⟨e, he, hout⟩ := h.getElem?_of_some hd
    rw [SourceFile.searchAncestors, if_pos hi, he]
    simp only
    rw [← declares_outline, hout, declares_outline, h.parentsOf hout, ih]
  | case4 fresh i queue hi ih =>
    rw [SourceFile.searchAncestors, if_neg hi]
    exact ih

theorem ancestorDeclares (h : SameHierarchy f g) (i : Nat) :
    g.ancestorDeclares i = f.ancestorDeclares i := by
  funext name
  unfold SourceFile.ancestorDeclares
  cases hd : f.classes[i]? with
  | none => rw [h.getElem?_of_none hd]
  | some d =>
    obtain ⟨e, he, hout⟩ := h.getElem?_of_some hd
    rw [he]
    simp only
    rw [h.searchAncestors, h.parentsOf hout, h.length_classes]

/-- All that the rules know about the surroundings of a declaration is the class hierarchy. -/
theorem scope (h : SameHierarchy f g) (i : Nat) : g.scope i = f.scope i := by
  unfold SourceFile.scope classView?
  rw [h.resolve, h.ancestorDeclares]
  cases hd : f.classes[i]? with
  | none => rw [h.getElem?_of_none hd]
  | some d =>
    obtain ⟨e, he, hout⟩ := h.getElem?_of_some hd
    have hinterface : e.isInterface = d.isInterface := by
      show e.outline.isInterface = d.outline.isInterface
      rw [hout]
    rw [he, Option.map_some, Option.map_some, hinterface]

end SameHierarchy

theorem scope_outline (f : SourceFile) (i : Nat) : f.outline.scope i = f.scope i :=
  ((sameHierarchy_outline f).scope i).symm

end SourceFile

/-! ### Refactoring keeps the outline -/

section

variable (c : Config) (s : Scope)

@[simp] theorem Method.name_afterParams (m : Method) : (m.afterParams c s).name = m.name := by
  unfold Method.afterParams
  split
  · exact m.name_promoteParams s.names
  · rfl

@[simp] theorem Method.name_afterResult (m : Method) : (m.afterResult c s).name = m.name := by
  unfold Method.afterResult
  split
  · exact m.name_promoteResult s.names
  · rfl

theorem Method.outline_refactor (m : Method) : (m.refactor c s).1.outline = m.outline := by
  obtain ⟨steps, h⟩ := m.refactor_eq c s
  rw [h]
  simp [Method.outline]

end

theorem forall₂_mapIdx {α β γ : Type} {R : β → γ → Prop} {F : Nat → α → β} {G : Nat → α → γ}
    (h : ∀ i a, R (F i a) (G i a)) (l : List α) :
    List.Forall₂ R (l.mapIdx F) (l.mapIdx G) := by
  rw [List.forall₂_iff_get]
  refine ⟨by simp, fun i h₁ h₂ => ?_⟩
  simp only [List.get_eq_getElem, List.getElem_mapIdx]
  exact h i _

namespace SourceFile

/-- The parts of a class, each refactored on its own. -/
theorem refactorClass_eq (c : Config) (f : SourceFile) (i : Nat) (d : ClassDecl) :
    f.refactorClass c i d =
      ({ d with
          properties := d.properties.map fun p => (p.refactor c (f.scope i)).1
          methods := d.methods.map fun m => (m.refactor c (f.scope i)).1 },
        .concat (
          (d.properties.map fun p => .ofProperty (f.fqn d) p.names (p.refactor c (f.scope i)).2) ++
            d.methods.map fun m =>
              .ofMethod (f.fqn d) m.name (m.refactor c (f.scope i)).2)) := by
  unfold refactorClass
  simp only [← List.map_prod_left_eq_zip, List.map_map]
  rfl

theorem classes_refactor (c : Config) (f : SourceFile) :
    (f.refactor c).1.classes = f.classes.mapIdx fun i d => (f.refactorClass c i d).1 := by
  apply List.ext_getElem?
  intro i
  simp only [refactor, List.getElem?_map, List.getElem?_mapIdx, Option.map_map]
  rfl

/-- What refactoring does to every class, it does to the classes of a file, each at its place. -/
theorem forall₂_classes_refactor (c : Config) (f : SourceFile) {R : ClassDecl → ClassDecl → Prop}
    (h : ∀ i d, R d (f.refactorClass c i d).1) :
    List.Forall₂ R f.classes (f.refactor c).1.classes := by
  have hself : f.classes.mapIdx (fun _ d => d) = f.classes := by
    apply List.ext_getElem?
    simp
  have hclasses := forall₂_mapIdx h f.classes
  rw [hself, ← classes_refactor] at hclasses
  exact hclasses

theorem outline_refactorClass (c : Config) (f : SourceFile) (i : Nat) (d : ClassDecl) :
    (f.refactorClass c i d).1.outline = d.outline := by
  rw [refactorClass_eq]
  simp [ClassDecl.outline, Method.outline_refactor]

theorem outline_refactor (c : Config) (f : SourceFile) : (f.refactor c).1.outline = f.outline := by
  have hclasses : (f.refactor c).1.classes.map ClassDecl.outline =
      f.classes.map ClassDecl.outline := by
    rw [classes_refactor]
    apply List.ext_getElem?
    intro i
    simp only [List.getElem?_map, List.getElem?_mapIdx, Option.map_map]
    congr 1
    funext d
    exact f.outline_refactorClass c i d
  unfold outline
  rw [hclasses]
  rfl

/-- Refactoring does not change what the rules know about the surroundings of a declaration. -/
theorem scope_refactor (c : Config) (f : SourceFile) (i : Nat) :
    (f.refactor c).1.scope i = f.scope i := by
  rw [← scope_outline, outline_refactor, scope_outline]

end SourceFile

end DocPromotion
