import DocPromotion.Proofs.Notifications
import DocPromotion.Proofs.Separation

/-!
Refactoring a file is a walk.

A file is refactored in one piece: every declaration is taken as it is at the beginning.  A walk
takes the declarations one after the other (`SourceFile.calls`), and each call finds what the calls
before it have left (`Workspace.callAll`, `Workspace.reportAll`).  Both give the same file and the
same report (`Workspace.refactor_is_walk`).  A call changes the declaration that it is for and no
other one (`Workspace.property?_call_of_ne`, `Workspace.method?_call_of_ne`), and it keeps the
outline of the file (`Workspace.outline_call`), on which the scopes of all declarations depend.
-/

namespace DocPromotion

/-! ### The walk -/

/-- The calls for the class at a position: for its property statements, then for its methods. -/
def ClassDecl.calls (c : Config) (cls : Nat) (d : ClassDecl) : List Call :=
  (List.range d.properties.length).map (fun index => .property c (.inClass cls index)) ++
    (List.range d.methods.length).map fun index => .method c (.inClass cls index)

/-- The calls for a file, class after class. -/
def SourceFile.calls (c : Config) (f : SourceFile) : List Call :=
  (f.classes.mapIdx (ClassDecl.calls c)).flatten

/-- What a call is for: a method or a property statement, and its address. -/
def Call.target : Call → Address ⊕ Address
  | .method _ a => .inl a
  | .property _ a => .inr a

namespace Workspace

/-- The full name of the class that an address is in. -/
def fqnAt (w : Workspace) : Address → Text
  | .inClass cls _ => ((w.file.classes[cls]?).map w.file.fqn).getD []
  | _ => []

/-- What a call reports, under the names that the declaration has. -/
def report (w : Workspace) : Call → Report
  | .method c a =>
    .ofMethod (w.fqnAt a) (((w.method? a).map Method.name).getD []) (w.refactorMethod c a).2
  | .property c a =>
    .ofProperty (w.fqnAt a) (((w.property? a).map Property.names).getD [])
      (w.refactorProperty c a).2

/-- The reports of calls, each of which finds what the calls before it have left. -/
def reportAll (w : Workspace) : List Call → List Report
  | [] => []
  | x :: calls => w.report x :: (w.call x).reportAll calls

/-! ### A single call -/

variable {w : Workspace} {x : Call} {a : Address}

/-- A call keeps the outline of the file, and therefore all scopes. -/
theorem outline_call (w : Workspace) (x : Call) : (w.call x).file.outline = w.file.outline := by
  cases x with
  | method c b =>
    rw [call, refactorMethod_fst, modifyMethod]
    cases hm : w.method? b with
    | none => rfl
    | some m =>
      have hname : (m.refactor c (b.scope w)).1.name = m.name := by
        show (m.refactor c (b.scope w)).1.outline.name = m.outline.name
        rw [m.outline_refactor]
      exact outline_putMethod hm hname
  | property c b =>
    rw [call, refactorProperty_fst, modifyProperty]
    cases w.property? b with
    | none => rfl
    | some p => exact w.outline_putProperty b _

theorem scope_call (w : Workspace) (x : Call) (a : Address) : a.scope (w.call x) = a.scope w :=
  Address.scope_of_outline (w.outline_call x) a

theorem fqnAt_call (w : Workspace) (x : Call) (a : Address) : (w.call x).fqnAt a = w.fqnAt a := by
  -- the name of a class can be read off from the outline
  have houtline : ∀ f : SourceFile, ∀ cls : Nat,
      (f.classes[cls]?).map f.fqn = (f.outline.classes[cls]?).map f.outline.fqn := by
    intro f cls
    rw [SourceFile.outline, List.getElem?_map, Option.map_map]
    rfl
  cases a with
  | inClass cls index => rw [fqnAt, fqnAt, houtline, w.outline_call x, ← houtline]
  | _ => rfl

theorem looseClasses_call (w : Workspace) (x : Call) :
    (w.call x).looseClasses = w.looseClasses := by
  cases x with
  | method c b =>
    rw [call, refactorMethod_fst, modifyMethod]
    cases w.method? b with
    | none => rfl
    | some m => cases b <;> rfl
  | property c b =>
    rw [call, refactorProperty_fst, modifyProperty]
    cases w.property? b with
    | none => rfl
    | some p => cases b <;> rfl

theorem method?_call_self (w : Workspace) (c : Config) (a : Address) :
    (w.call (.method c a)).method? a =
      (w.method? a).map fun m => (m.refactor c (a.scope w)).1 := by
  rw [call, refactorMethod_fst, modifyMethod]
  cases hm : w.method? a with
  | none => exact hm
  | some m => exact w.method?_putMethod_self hm _

theorem method?_call_of_ne (h : x.target ≠ .inl a) : (w.call x).method? a = w.method? a := by
  cases x with
  | method c b =>
    rw [call, refactorMethod_fst, modifyMethod]
    cases w.method? b with
    | none => rfl
    | some m => exact w.method?_putMethod_of_ne (fun hab => h (congrArg Sum.inl hab)) _
  | property c b =>
    rw [call, refactorProperty_fst, modifyProperty]
    cases w.property? b with
    | none => rfl
    | some p => exact w.method?_putProperty b a _

theorem property?_call_self (w : Workspace) (c : Config) (a : Address) :
    (w.call (.property c a)).property? a =
      (w.property? a).map fun p => (p.refactor c (a.scope w)).1 := by
  rw [call, refactorProperty_fst, modifyProperty]
  cases hp : w.property? a with
  | none => exact hp
  | some p => exact w.property?_putProperty_self hp _

theorem property?_call_of_ne (h : x.target ≠ .inr a) : (w.call x).property? a = w.property? a := by
  cases x with
  | method c b =>
    rw [call, refactorMethod_fst, modifyMethod]
    cases w.method? b with
    | none => rfl
    | some m => exact w.property?_putMethod b a _
  | property c b =>
    rw [call, refactorProperty_fst, modifyProperty]
    cases w.property? b with
    | none => rfl
    | some p => exact w.property?_putProperty_of_ne (fun hab => h (congrArg Sum.inr hab)) _

/-- What a call reports does not depend on calls for other declarations. -/
theorem report_call_of_ne {y : Call} (h : x.target ≠ y.target) :
    (w.call x).report y = w.report y := by
  cases y with
  | method c a =>
    have hm : (w.call x).method? a = w.method? a := method?_call_of_ne h
    have hout : ((w.call x).refactorMethod c a).2 = (w.refactorMethod c a).2 := by
      unfold refactorMethod
      rw [hm, w.scope_call x a]
      cases a <;> cases w.method? _ <;> rfl
    rw [report, report, hm, hout, fqnAt_call]
  | property c a =>
    have hp : (w.call x).property? a = w.property? a := property?_call_of_ne h
    have hout : ((w.call x).refactorProperty c a).2 = (w.refactorProperty c a).2 := by
      unfold refactorProperty
      rw [hp, w.scope_call x a]
      cases a <;> cases w.property? _ <;> rfl
    rw [report, report, hp, hout, fqnAt_call]

/-! ### Calls one after the other -/

variable {calls : List Call}

/-- What no call changes. -/
theorem see_callAll {β : Type} (see : Workspace → β)
    (h : ∀ x ∈ calls, ∀ w, see (w.call x) = see w) (w : Workspace) :
    see (w.callAll calls) = see w := by
  induction calls generalizing w with
  | nil => rfl
  | cons x calls ih =>
    exact (ih (fun y hy => h y (List.mem_cons_of_mem x hy)) (w.call x)).trans
      (h x List.mem_cons_self w)

/-- What one call changes, and calls for other declarations do not. -/
theorem see_callAll_of_mem {β : Type} (see after : Workspace → β)
    (hone : (calls.map Call.target).Nodup) (hx : x ∈ calls) (hself : ∀ w, see (w.call x) = after w)
    (hsee : ∀ y : Call, y.target ≠ x.target → ∀ w, see (w.call y) = see w)
    (hafter : ∀ y : Call, y.target ≠ x.target → ∀ w, after (w.call y) = after w) (w : Workspace) :
    see (w.callAll calls) = after w := by
  induction calls generalizing w with
  | nil => cases hx
  | cons y calls ih =>
    obtain ⟨hy, hone⟩ := List.nodup_cons.mp hone
    have hne : ∀ z ∈ calls, z.target ≠ y.target :=
      fun z hz htarget => hy (List.mem_map.mpr ⟨z, hz, htarget⟩)
    show see ((w.call y).callAll calls) = after w
    rcases List.mem_cons.mp hx with rfl | hx
    · rw [see_callAll see (fun z hz => hsee z (hne z hz)), hself]
    · rw [ih hone hx, hafter y (hne x hx).symm]

/-- **A declaration with one call is refactored as it was at the beginning.** -/
theorem method?_callAll {c : Config} (hone : (calls.map Call.target).Nodup)
    (h : .method c a ∈ calls) :
    (w.callAll calls).method? a = (w.method? a).map fun m => (m.refactor c (a.scope w)).1 := by
  refine see_callAll_of_mem (fun w => w.method? a)
    (fun w => (w.method? a).map fun m => (m.refactor c (a.scope w)).1) hone h
    (fun w => w.method?_call_self c a) (fun y hy w => method?_call_of_ne hy) (fun y hy w => ?_) w
  rw [method?_call_of_ne hy, w.scope_call y a]

theorem property?_callAll {c : Config} (hone : (calls.map Call.target).Nodup)
    (h : .property c a ∈ calls) :
    (w.callAll calls).property? a =
      (w.property? a).map fun p => (p.refactor c (a.scope w)).1 := by
  refine see_callAll_of_mem (fun w => w.property? a)
    (fun w => (w.property? a).map fun p => (p.refactor c (a.scope w)).1) hone h
    (fun w => w.property?_call_self c a) (fun y hy w => property?_call_of_ne hy)
    (fun y hy w => ?_) w
  rw [property?_call_of_ne hy, w.scope_call y a]

/-- Calls for different declarations report what each of them would report at the beginning. -/
theorem reportAll_eq (hone : (calls.map Call.target).Nodup) :
    w.reportAll calls = calls.map w.report := by
  induction calls generalizing w with
  | nil => rfl
  | cons x calls ih =>
    obtain ⟨hx, hone⟩ := List.nodup_cons.mp hone
    rw [reportAll, ih hone, List.map_cons]
    congr 1
    refine List.map_congr_left fun y hy => report_call_of_ne fun htarget => ?_
    exact hx (List.mem_map.mpr ⟨y, hy, htarget.symm⟩)

end Workspace

/-! ### The calls for a file -/

theorem ClassDecl.mem_calls {c : Config} {cls : Nat} {d : ClassDecl} {x : Call} :
    x ∈ d.calls c cls ↔
      (∃ index < d.properties.length, x = .property c (.inClass cls index)) ∨
        ∃ index < d.methods.length, x = .method c (.inClass cls index) := by
  simp [calls, eq_comm]

theorem ClassDecl.nodup_target_calls (c : Config) (cls : Nat) (d : ClassDecl) :
    ((d.calls c cls).map Call.target).Nodup := by
  rw [calls, List.map_append, List.map_map, List.map_map, List.nodup_append]
  refine ⟨?_, ?_, ?_⟩
  · refine List.nodup_range.map fun i j hij => ?_
    simpa [Call.target] using hij
  · refine List.nodup_range.map fun i j hij => ?_
    simpa [Call.target] using hij
  · simp [Call.target]

namespace SourceFile

variable {c : Config} {f : SourceFile} {cls index : Nat}

theorem mem_calls {x : Call} :
    x ∈ f.calls c ↔ ∃ cls, ∃ d : ClassDecl, f.classes[cls]? = some d ∧ x ∈ d.calls c cls := by
  unfold calls
  rw [List.mem_flatten]
  constructor
  · rintro ⟨l, hl, hx⟩
    obtain ⟨cls, hcls⟩ := List.mem_iff_getElem?.mp hl
    rw [List.getElem?_mapIdx] at hcls
    obtain ⟨d, hd, rfl⟩ := Option.map_eq_some_iff.mp hcls
    exact ⟨cls, d, hd, hx⟩
  · rintro ⟨cls, d, hd, hx⟩
    refine ⟨d.calls c cls, List.mem_iff_getElem?.mpr ⟨cls, ?_⟩, hx⟩
    rw [List.getElem?_mapIdx, hd, Option.map_some]

/-- **Every declaration has one call.** -/
theorem nodup_target_calls (c : Config) (f : SourceFile) :
    ((f.calls c).map Call.target).Nodup := by
  rw [calls, List.map_flatten, map_mapIdx, List.nodup_flatten]
  constructor
  · intro l hl
    obtain ⟨cls, hcls⟩ := List.mem_iff_getElem?.mp hl
    rw [List.getElem?_mapIdx] at hcls
    obtain ⟨d, -, rfl⟩ := Option.map_eq_some_iff.mp hcls
    exact d.nodup_target_calls c cls
  · -- calls for different classes are for different declarations
    rw [List.pairwise_iff_getElem]
    intro i j hi hj hij t ht ht'
    simp only [List.getElem_mapIdx, List.mem_map, ClassDecl.mem_calls] at ht ht'
    obtain ⟨x, ⟨index, -, rfl⟩ | ⟨index, -, rfl⟩, rfl⟩ := ht <;>
      obtain ⟨y, ⟨index', -, rfl⟩ | ⟨index', -, rfl⟩, hy⟩ := ht' <;>
      simp [Call.target] at hy
    · omega
    · omega

/-- A file is given by its outline and its declarations. -/
theorem ext_of_declarations {g : SourceFile} (houtline : f.outline = g.outline)
    (hmethods : ∀ cls index, f.method? cls index = g.method? cls index)
    (hproperties : ∀ cls index, f.property? cls index = g.property? cls index) : f = g := by
  obtain ⟨ns, uses, classes⟩ := f
  obtain ⟨ns', uses', classes'⟩ := g
  simp only [outline, SourceFile.mk.injEq] at houtline
  obtain ⟨rfl, rfl, hclasses⟩ := houtline
  congr 1
  apply List.ext_getElem?
  intro cls
  have hcls : (classes[cls]?).map ClassDecl.outline = (classes'[cls]?).map ClassDecl.outline := by
    rw [← List.getElem?_map, hclasses, List.getElem?_map]
  have hmethods := hmethods cls
  have hproperties := hproperties cls
  simp only [method?, property?] at hmethods hproperties
  cases hd : classes[cls]? with
  | none =>
    rw [hd] at hcls
    exact (Option.map_eq_none_iff.mp hcls.symm).symm
  | some d =>
    rw [hd] at hcls hmethods hproperties
    obtain ⟨e, he, hde⟩ := Option.map_eq_some_iff.mp hcls.symm
    rw [he] at hmethods hproperties ⊢
    have hm : d.methods = e.methods := List.ext_getElem? hmethods
    have hp : d.properties = e.properties := List.ext_getElem? hproperties
    obtain ⟨name, isInterface, parents, methods, properties⟩ := d
    obtain ⟨name', isInterface', parents', methods', properties'⟩ := e
    simp only [ClassDecl.outline, ClassDecl.mk.injEq] at hde
    obtain ⟨rfl, rfl, rfl, -⟩ := hde
    obtain rfl : methods = methods' := hm
    obtain rfl : properties = properties' := hp
    rfl

/-- There are no calls but for declarations of the file. -/
theorem exists_method_of_target {x : Call} {a : Address} (hx : x ∈ f.calls c)
    (ha : x.target = .inl a) :
    ∃ cls index, a = .inClass cls index ∧ f.method? cls index ≠ none := by
  obtain ⟨cls, d, hd, hx⟩ := mem_calls.mp hx
  rcases ClassDecl.mem_calls.mp hx with ⟨index, hlt, rfl⟩ | ⟨index, hlt, rfl⟩
  · cases ha
  · exact ⟨cls, index, (Sum.inl.inj ha).symm, by simpa [method?, hd] using hlt⟩

theorem exists_property_of_target {x : Call} {a : Address} (hx : x ∈ f.calls c)
    (ha : x.target = .inr a) :
    ∃ cls index, a = .inClass cls index ∧ f.property? cls index ≠ none := by
  obtain ⟨cls, d, hd, hx⟩ := mem_calls.mp hx
  rcases ClassDecl.mem_calls.mp hx with ⟨index, hlt, rfl⟩ | ⟨index, hlt, rfl⟩
  · exact ⟨cls, index, (Sum.inr.inj ha).symm, by simpa [property?, hd] using hlt⟩
  · cases ha

theorem method_mem_calls {m : Method} (h : f.method? cls index = some m) :
    .method c (.inClass cls index) ∈ f.calls c := by
  obtain ⟨d, hd, hm⟩ := Option.bind_eq_some_iff.mp h
  obtain ⟨hlt, -⟩ := List.getElem?_eq_some_iff.mp hm
  exact mem_calls.mpr ⟨cls, d, hd, ClassDecl.mem_calls.mpr (.inr ⟨index, hlt, rfl⟩)⟩

theorem property_mem_calls {p : Property} (h : f.property? cls index = some p) :
    .property c (.inClass cls index) ∈ f.calls c := by
  obtain ⟨d, hd, hp⟩ := Option.bind_eq_some_iff.mp h
  obtain ⟨hlt, -⟩ := List.getElem?_eq_some_iff.mp hp
  exact mem_calls.mpr ⟨cls, d, hd, ClassDecl.mem_calls.mpr (.inl ⟨index, hlt, rfl⟩)⟩

/-- What the calls for a class report at the beginning. -/
theorem map_report_calls {w : Workspace} {d : ClassDecl} (hd : w.file.classes[cls]? = some d) :
    (d.calls c cls).map w.report =
      (d.properties.map fun p =>
          .ofProperty (w.file.fqn d) p.names (p.refactor c (w.file.scope cls)).2) ++
        d.methods.map fun m =>
          .ofMethod (w.file.fqn d) m.name (m.refactor c (w.file.scope cls)).2 := by
  rw [ClassDecl.calls, List.map_append, List.map_map, List.map_map]
  congr 1
  · apply List.ext_getElem
    · simp
    · intro index h _
      have hlt : index < d.properties.length := by simpa using h
      have hp : w.property? (.inClass cls index) = some d.properties[index] := by
        simp [Workspace.property?, hd]
      simp [Workspace.report, Workspace.fqnAt, Workspace.refactorProperty, hd, hp, Address.scope]
  · apply List.ext_getElem
    · simp
    · intro index h _
      have hlt : index < d.methods.length := by simpa using h
      have hm : w.method? (.inClass cls index) = some d.methods[index] := by
        simp [Workspace.method?, hd]
      simp [Workspace.report, Workspace.fqnAt, Workspace.refactorMethod, hd, hm, Address.scope]

end SourceFile

/-- It makes no difference whether reports are put together in one step or in two. -/
theorem Report.concat_map_concat (rs : List (List Report)) :
    concat (rs.map concat) = concat rs.flatten := by
  have hflatMap : ∀ {α : Type} (g : Report → List α),
      (rs.flatMap fun r => r.flatMap g) = rs.flatten.flatMap g := by
    intro α g
    rw [← List.flatMap_id, List.flatMap_assoc]
    rfl
  have hchanged : (concat (rs.map concat)).changed = (concat rs.flatten).changed := by
    simp [changed_concat, List.sum_flatten, Function.comp_def]
  have herrors : (concat (rs.map concat)).errors = (concat rs.flatten).errors := by
    simp [concat, List.flatMap_map, ← hflatMap]
  have hrecords : (concat (rs.map concat)).records = (concat rs.flatten).records := by
    simp [concat, List.flatMap_map, ← hflatMap]
  show Report.mk (concat (rs.map concat)).changed (concat (rs.map concat)).errors
    (concat (rs.map concat)).records = _
  rw [hchanged, herrors, hrecords]

namespace Workspace

/-- A workspace is given by the outline of its file, its loose classes and its declarations. -/
theorem ext_of_declarations {w w' : Workspace} (houtline : w.file.outline = w'.file.outline)
    (hclasses : w.looseClasses = w'.looseClasses)
    (hmethods : ∀ a, w.method? a = w'.method? a)
    (hproperties : ∀ a, w.property? a = w'.property? a) : w = w' := by
  have hfile : w.file = w'.file :=
    SourceFile.ext_of_declarations houtline (fun cls index => hmethods (.inClass cls index))
      fun cls index => hproperties (.inClass cls index)
  have hm : w.looseMethods = w'.looseMethods :=
    List.ext_getElem? fun index => hmethods (.loose index)
  have hp : w.looseProperties = w'.looseProperties :=
    List.ext_getElem? fun index => hproperties (.loose index)
  obtain ⟨file, classes, methods, properties⟩ := w
  obtain ⟨file', classes', methods', properties'⟩ := w'
  obtain rfl : file = file' := hfile
  obtain rfl : classes = classes' := hclasses
  obtain rfl : methods = methods' := hm
  obtain rfl : properties = properties' := hp
  rfl

/-- What the calls for a file make of methods. -/
theorem method?_callAll_calls (w : Workspace) (c : Config) (a : Address) :
    (w.callAll (w.file.calls c)).method? a = (w.refactor c).1.method? a := by
  have hother : (∀ x ∈ w.file.calls c, x.target ≠ .inl a) →
      (w.callAll (w.file.calls c)).method? a = w.method? a :=
    fun h => see_callAll (fun w => w.method? a) (fun x hx w => method?_call_of_ne (h x hx)) w
  cases a with
  | inClass cls index =>
    have hrefactor : (w.refactor c).1.method? (.inClass cls index) =
        (w.file.method? cls index).map fun m => (m.refactor c (w.file.scope cls)).1 :=
      w.file.method?_refactor c cls index
    cases hm : w.file.method? cls index with
    | some m =>
      rw [method?_callAll (w.file.nodup_target_calls c) (SourceFile.method_mem_calls hm),
        hrefactor]
      rfl
    | none =>
      rw [hrefactor, hother, hm]
      · exact hm
      · intro x hx htarget
        obtain ⟨_, _, ha, hne⟩ := SourceFile.exists_method_of_target hx htarget
        obtain ⟨rfl, rfl⟩ := Address.inClass.inj ha
        exact hne hm
  | loose index =>
    refine hother fun x hx htarget => ?_
    obtain ⟨_, _, ha, -⟩ := SourceFile.exists_method_of_target hx htarget
    cases ha
  | foreign name => rfl

/-- What the calls for a file make of property statements. -/
theorem property?_callAll_calls (w : Workspace) (c : Config) (a : Address) :
    (w.callAll (w.file.calls c)).property? a = (w.refactor c).1.property? a := by
  have hother : (∀ x ∈ w.file.calls c, x.target ≠ .inr a) →
      (w.callAll (w.file.calls c)).property? a = w.property? a :=
    fun h => see_callAll (fun w => w.property? a) (fun x hx w => property?_call_of_ne (h x hx)) w
  cases a with
  | inClass cls index =>
    have hrefactor : (w.refactor c).1.property? (.inClass cls index) =
        (w.file.property? cls index).map fun p => (p.refactor c (w.file.scope cls)).1 :=
      w.file.property?_refactor c cls index
    cases hp : w.file.property? cls index with
    | some p =>
      rw [property?_callAll (w.file.nodup_target_calls c) (SourceFile.property_mem_calls hp),
        hrefactor]
      rfl
    | none =>
      rw [hrefactor, hother, hp]
      · exact hp
      · intro x hx htarget
        obtain ⟨_, _, ha, hne⟩ := SourceFile.exists_property_of_target hx htarget
        obtain ⟨rfl, rfl⟩ := Address.inClass.inj ha
        exact hne hp
  | loose index =>
    refine hother fun x hx htarget => ?_
    obtain ⟨_, _, ha, -⟩ := SourceFile.exists_property_of_target hx htarget
    cases ha
  | foreign name => rfl

/-- **Refactoring a file is the walk over its declarations**: class after class, the property
statements before the methods, and each call finds what the calls before it have left. -/
theorem refactor_is_walk (w : Workspace) (c : Config) :
    w.refactor c = (w.callAll (w.file.calls c), .concat (w.reportAll (w.file.calls c))) := by
  refine Prod.ext ?_ ?_
  · refine ext_of_declarations ?_ ?_ (fun a => (w.method?_callAll_calls c a).symm)
      fun a => (w.property?_callAll_calls c a).symm
    · rw [see_callAll (fun w => w.file.outline) (fun x _ w => w.outline_call x)]
      exact w.file.outline_refactor c
    · exact (see_callAll (fun w => w.looseClasses) (fun x _ w => w.looseClasses_call x) w).symm
  · rw [reportAll_eq (w.file.nodup_target_calls c), SourceFile.calls, List.map_flatten, map_mapIdx,
      ← Report.concat_map_concat, map_mapIdx]
    show Report.concat ((w.file.classes.mapIdx (w.file.refactorClass c)).map (·.2)) = _
    rw [map_mapIdx]
    congr 1
    apply List.ext_getElem?
    intro cls
    rw [List.getElem?_mapIdx, List.getElem?_mapIdx]
    cases hd : w.file.classes[cls]? with
    | none => rfl
    | some d =>
      rw [Option.map_some, Option.map_some, SourceFile.refactorClass_eq,
        SourceFile.map_report_calls hd]

end Workspace

end DocPromotion
