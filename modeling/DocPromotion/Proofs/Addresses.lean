import DocPromotion.Proofs.Outline
import DocPromotion.Source.Workspace

/-!
Declarations at different addresses of a workspace.

Putting a declaration at an address is seen at that address only
(`Workspace.method?_putMethod_self`, `Workspace.method?_putMethod_of_ne`), and at different
addresses it can be done in either order.  As long as the name of a method is kept, the scope of
every declaration stays what it was (`Address.scope_putMethod`): the class hierarchy does not depend
on anything else.
-/

namespace DocPromotion

/-- What is seen of a class is what was there before, if a change cannot be seen in it. -/
theorem getElem?_modify_bind {β : Type} {classes : List ClassDecl} {i j : Nat}
    {g : ClassDecl → ClassDecl} {see : ClassDecl → Option β}
    (h : i = j → ∀ d, see (g d) = see d) :
    (classes.modify i g)[j]?.bind see = classes[j]?.bind see := by
  rw [List.getElem?_modify]
  cases classes[j]? with
  | none => rfl
  | some d =>
    by_cases hij : i = j
    · simp [hij, h hij d]
    · simp [hij]

/-- Changing two classes, or one class in two ways that do not depend on each other. -/
theorem modify_modify_comm {classes : List ClassDecl} {i j : Nat} {g g' : ClassDecl → ClassDecl}
    (h : i = j → ∀ d, g' (g d) = g (g' d)) :
    (classes.modify i g).modify j g' = (classes.modify j g').modify i g := by
  by_cases hij : i = j
  · subst hij
    rw [List.modify_modify_eq, List.modify_modify_eq]
    congr 1
    funext d
    exact h rfl d
  · exact List.modify_modify_ne g g' classes hij

theorem Address.index_ne {cls cls' index index' : Nat}
    (h : Address.inClass cls index ≠ .inClass cls' index') (hcls : cls = cls') :
    index ≠ index' := by
  rintro rfl
  exact h (by rw [hcls])

namespace Workspace

variable (w : Workspace)

/-! ### Seeing what has been put -/

theorem method?_putMethod_self {a : Address} {m : Method} (h : w.method? a = some m)
    (m' : Method) : (w.putMethod a m').method? a = some m' := by
  cases a with
  | inClass cls index =>
    obtain ⟨d, hd, hm⟩ := Option.bind_eq_some_iff.mp h
    obtain ⟨hlt, -⟩ := List.getElem?_eq_some_iff.mp hm
    simp [putMethod, method?, hd, hlt]
  | loose index =>
    obtain ⟨hlt, -⟩ := List.getElem?_eq_some_iff.mp h
    simp [putMethod, method?, hlt]
  | foreign name => cases h

theorem method?_putMethod_of_ne {a b : Address} (h : a ≠ b) (m : Method) :
    (w.putMethod a m).method? b = w.method? b := by
  cases a with
  | inClass cls index =>
    cases b with
    | inClass cls' index' =>
      refine getElem?_modify_bind fun hcls d => ?_
      exact List.getElem?_set_ne (Address.index_ne h hcls)
    | _ => rfl
  | loose index =>
    cases b with
    | loose index' => exact List.getElem?_set_ne fun hindex => h (by rw [hindex])
    | _ => rfl
  | foreign name => rfl

@[simp] theorem property?_putMethod (a b : Address) (m : Method) :
    (w.putMethod a m).property? b = w.property? b := by
  cases a with
  | inClass cls index =>
    cases b with
    | inClass cls' index' => exact getElem?_modify_bind fun _ _ => rfl
    | _ => rfl
  | _ => rfl

theorem property?_putProperty_self {a : Address} {p : Property} (h : w.property? a = some p)
    (p' : Property) : (w.putProperty a p').property? a = some p' := by
  cases a with
  | inClass cls index =>
    obtain ⟨d, hd, hp⟩ := Option.bind_eq_some_iff.mp h
    obtain ⟨hlt, -⟩ := List.getElem?_eq_some_iff.mp hp
    simp [putProperty, property?, hd, hlt]
  | loose index =>
    obtain ⟨hlt, -⟩ := List.getElem?_eq_some_iff.mp h
    simp [putProperty, property?, hlt]
  | foreign name => cases h

theorem property?_putProperty_of_ne {a b : Address} (h : a ≠ b) (p : Property) :
    (w.putProperty a p).property? b = w.property? b := by
  cases a with
  | inClass cls index =>
    cases b with
    | inClass cls' index' =>
      refine getElem?_modify_bind fun hcls d => ?_
      exact List.getElem?_set_ne (Address.index_ne h hcls)
    | _ => rfl
  | loose index =>
    cases b with
    | loose index' => exact List.getElem?_set_ne fun hindex => h (by rw [hindex])
    | _ => rfl
  | foreign name => rfl

@[simp] theorem method?_putProperty (a b : Address) (p : Property) :
    (w.putProperty a p).method? b = w.method? b := by
  cases a with
  | inClass cls index =>
    cases b with
    | inClass cls' index' => exact getElem?_modify_bind fun _ _ => rfl
    | _ => rfl
  | _ => rfl

/-! ### Putting twice -/

theorem putMethod_putMethod_self (a : Address) (m m' : Method) :
    (w.putMethod a m).putMethod a m' = w.putMethod a m' := by
  cases a with
  | inClass cls index =>
    simp only [putMethod, List.modify_modify_eq]
    congr 3
    funext d
    simp
  | loose index => simp [putMethod]
  | foreign name => rfl

theorem putMethod_comm {a b : Address} (h : a ≠ b) (m m' : Method) :
    (w.putMethod a m).putMethod b m' = (w.putMethod b m').putMethod a m := by
  cases a with
  | inClass cls index =>
    cases b with
    | inClass cls' index' =>
      simp only [putMethod]
      rw [modify_modify_comm]
      intro hcls d
      simp only [List.set_comm _ _ (Address.index_ne h hcls)]
    | _ => rfl
  | loose index =>
    cases b with
    | loose index' =>
      have hindex : index ≠ index' := fun hindex => h (by rw [hindex])
      simp only [putMethod, List.set_comm _ _ hindex]
    | _ => rfl
  | foreign name => cases b <;> rfl

theorem putProperty_comm {a b : Address} (h : a ≠ b) (p p' : Property) :
    (w.putProperty a p).putProperty b p' = (w.putProperty b p').putProperty a p := by
  cases a with
  | inClass cls index =>
    cases b with
    | inClass cls' index' =>
      simp only [putProperty]
      rw [modify_modify_comm]
      intro hcls d
      simp only [List.set_comm _ _ (Address.index_ne h hcls)]
    | _ => rfl
  | loose index =>
    cases b with
    | loose index' =>
      have hindex : index ≠ index' := fun hindex => h (by rw [hindex])
      simp only [putProperty, List.set_comm _ _ hindex]
    | _ => rfl
  | foreign name => cases b <;> rfl

/-- A method and a property statement never have the same place, even at the same address. -/
theorem putMethod_putProperty_comm (a b : Address) (m : Method) (p : Property) :
    (w.putMethod a m).putProperty b p = (w.putProperty b p).putMethod a m := by
  cases a with
  | inClass cls index =>
    cases b with
    | inClass cls' index' =>
      simp only [putMethod, putProperty]
      rw [modify_modify_comm]
      exact fun _ _ => rfl
    | _ => rfl
  | _ => cases b <;> rfl

end Workspace

/-! ### The surroundings of a declaration -/

/-- A change of one class that keeps its outline keeps the outline of the file. -/
theorem SourceFile.outline_modify {f : SourceFile} {cls : Nat} {g : ClassDecl → ClassDecl}
    (h : ∀ d, f.classes[cls]? = some d → (g d).outline = d.outline) :
    ({ f with classes := f.classes.modify cls g } : SourceFile).outline = f.outline := by
  have hclasses : (f.classes.modify cls g).map ClassDecl.outline =
      f.classes.map ClassDecl.outline := by
    apply List.ext_getElem?
    intro i
    rw [List.getElem?_map, List.getElem?_map, List.getElem?_modify]
    cases hd : f.classes[i]? with
    | none => rfl
    | some d =>
      by_cases hi : cls = i
      · subst hi
        simp [h d hd]
      · simp [hi]
  unfold SourceFile.outline
  rw [hclasses]

/-- A method may be replaced by one of the same name. -/
theorem ClassDecl.outline_set {d : ClassDecl} {index : Nat} {m m' : Method}
    (h : d.methods[index]? = some m) (hname : m'.name = m.name) :
    ({ d with methods := d.methods.set index m' } : ClassDecl).outline = d.outline := by
  have houtline : m'.outline = m.outline := by rw [Method.outline, hname, Method.outline]
  have hmethods : (d.methods.set index m').map Method.outline = d.methods.map Method.outline := by
    obtain ⟨hlt, hm⟩ := List.getElem?_eq_some_iff.mp h
    rw [List.map_set, houtline, ← hm]
    simp [← List.map_set]
  unfold ClassDecl.outline
  rw [hmethods]

theorem Workspace.outline_putMethod {w : Workspace} {a : Address} {m m' : Method}
    (h : w.method? a = some m) (hname : m'.name = m.name) :
    (w.putMethod a m').file.outline = w.file.outline := by
  cases a with
  | inClass cls index =>
    apply SourceFile.outline_modify
    intro d hd
    simp only [Workspace.method?, hd, Option.bind_some] at h
    exact ClassDecl.outline_set h hname
  | _ => rfl

theorem Workspace.outline_putProperty (w : Workspace) (a : Address) (p : Property) :
    (w.putProperty a p).file.outline = w.file.outline := by
  cases a with
  | inClass cls index => exact SourceFile.outline_modify fun d _ => rfl
  | _ => rfl

namespace Address

/-- The scopes in a file depend on its outline only. -/
theorem scope_of_outline {w w' : Workspace} (h : w'.file.outline = w.file.outline) (b : Address) :
    b.scope w' = b.scope w := by
  cases b with
  | inClass cls index =>
    simp only [scope]
    rw [← SourceFile.scope_outline, h, SourceFile.scope_outline]
  | _ => rfl

theorem scope_putMethod {w : Workspace} {a : Address} {m m' : Method} (h : w.method? a = some m)
    (hname : m'.name = m.name) (b : Address) : b.scope (w.putMethod a m') = b.scope w :=
  scope_of_outline (Workspace.outline_putMethod h hname) b

@[simp] theorem scope_putProperty (w : Workspace) (a : Address) (p : Property) (b : Address) :
    b.scope (w.putProperty a p) = b.scope w :=
  scope_of_outline (w.outline_putProperty a p) b

end Address

end DocPromotion
