import DocPromotion.Proofs.Separation

/-!
Marks on parameters and methods.

A parameter that declares a property as well is marked for printing from scratch when it receives a
type, and a method is marked when its return value does.  Here declarations are refactored one by
one, in any order, any number of times and with any configurations, and the marks are exactly those
that the types call for (`Workspace.notifications_exact`).

One relation carries the proof.  A declaration evolves (`Method.Evolves`, `Property.Evolves`) if a
site keeps its type and its mark, or receives a type where it had none and is marked with it, and
if the documentation stays as it is or is left without being empty.  Refactoring makes declarations
evolve, and since a type that is declared stays, evolving is transitive.  So what holds for one call
holds for any number of them (`Workspace.evolves_callAll`).
-/

namespace DocPromotion

/-! ### Evolving sites and blocks -/

/-- A site with its declared type and its mark, before and after.  Not every site is marked when it
receives a type. -/
def SiteEvolves (marked : Bool) (declared declared' : Text) (mark mark' : Bool) : Prop :=
  (declared' = declared ∧ mark' = mark) ∨
    (declared = [] ∧ declared' ≠ [] ∧ mark' = (marked || mark))

theorem SiteEvolves.trans {marked : Bool} {t₁ t₂ t₃ : Text} {mark₁ mark₂ mark₃ : Bool}
    (h : SiteEvolves marked t₁ t₂ mark₁ mark₂) (h' : SiteEvolves marked t₂ t₃ mark₂ mark₃) :
    SiteEvolves marked t₁ t₃ mark₁ mark₃ := by
  rcases h with ⟨rfl, rfl⟩ | ⟨hempty, hne, hmark⟩
  · exact h'
  · rcases h' with ⟨rfl, rfl⟩ | ⟨hempty', -, -⟩
    · exact .inr ⟨hempty, hne, hmark⟩
    · exact absurd hempty' hne

/-- A mark that was not set at first says that a type has been received. -/
theorem SiteEvolves.mark_iff {marked : Bool} {declared declared' : Text} {mark' : Bool}
    (h : SiteEvolves marked declared declared' false mark') :
    mark' = true ↔ marked = true ∧ declared = [] ∧ declared' ≠ [] := by
  rcases h with ⟨rfl, rfl⟩ | ⟨hempty, hne, rfl⟩
  · simp +contextual
  · simp [hempty, hne]

/-- A documentation block that is not left empty, unless it is not touched at all. -/
def DocEvolves (doc doc' : Option DocBlock) : Prop :=
  doc' = doc ∨ ∀ b, doc' = some b → b.isEmpty = false

theorem DocEvolves.trans {doc₁ doc₂ doc₃ : Option DocBlock} (h : DocEvolves doc₁ doc₂)
    (h' : DocEvolves doc₂ doc₃) : DocEvolves doc₁ doc₃ := by
  rcases h' with rfl | h'
  · exact h
  · exact .inr h'

theorem DocBlock.isEmpty_of_prune {b b' : DocBlock} (h : b.prune = some b') :
    b'.isEmpty = false := by
  unfold DocBlock.prune at h
  split at h
  next => cases h
  next hne =>
    obtain rfl := Option.some.inj h
    simpa using hne

theorem docEvolves_bind {doc : Option DocBlock} {g : DocBlock → Option DocBlock}
    (h : ∀ b, DocEvolves (some b) (g b)) : DocEvolves doc (doc.bind g) := by
  cases doc with
  | none => exact .inl rfl
  | some b => exact h b

/-! ### Evolving declarations -/

/-- A parameter before and after. -/
structure Param.Evolves (p p' : Param) : Prop where
  name : p'.name = p.name
  visibility : p'.visibility = p.visibility
  site : SiteEvolves p.isPromoted p.declared p'.declared p.invalidated p'.invalidated

/-- A method before and after. -/
structure Method.Evolves (m m' : Method) : Prop where
  params : List.Forall₂ Param.Evolves m.params m'.params
  result : SiteEvolves true m.result m'.result m.refreshed m'.refreshed
  doc : DocEvolves m.doc m'.doc

/-- A property statement before and after. -/
structure Property.Evolves (p p' : Property) : Prop where
  doc : DocEvolves p.doc p'.doc

theorem Param.Evolves.refl (p : Param) : p.Evolves p := ⟨rfl, rfl, .inl ⟨rfl, rfl⟩⟩

theorem Param.Evolves.trans {p₁ p₂ p₃ : Param} (h : p₁.Evolves p₂) (h' : p₂.Evolves p₃) :
    p₁.Evolves p₃ := by
  have hpromoted : p₂.isPromoted = p₁.isPromoted := by
    rw [Param.isPromoted, h.visibility, Param.isPromoted]
  refine ⟨h'.name.trans h.name, h'.visibility.trans h.visibility, h.site.trans ?_⟩
  rw [← hpromoted]
  exact h'.site

theorem forall₂_trans {α : Type} {R : α → α → Prop} (hR : ∀ x y z, R x y → R y z → R x z)
    {xs ys zs : List α} (h : List.Forall₂ R xs ys) :
    List.Forall₂ R ys zs → List.Forall₂ R xs zs := by
  induction h generalizing zs with
  | nil => exact id
  | cons hxy _ ih =>
    rintro (_ | ⟨hyz, htail⟩)
    exact .cons (hR _ _ _ hxy hyz) (ih htail)

theorem Method.Evolves.refl (m : Method) : m.Evolves m :=
  ⟨List.forall₂_same.mpr fun p _ => .refl p, .inl ⟨rfl, rfl⟩, .inl rfl⟩

theorem Method.Evolves.trans {m₁ m₂ m₃ : Method} (h : m₁.Evolves m₂) (h' : m₂.Evolves m₃) :
    m₁.Evolves m₃ :=
  ⟨forall₂_trans (fun _ _ _ => .trans) h.params h'.params, h.result.trans h'.result,
    h.doc.trans h'.doc⟩

theorem Property.Evolves.refl (p : Property) : p.Evolves p := ⟨.inl rfl⟩

theorem Property.Evolves.trans {p₁ p₂ p₃ : Property} (h : p₁.Evolves p₂) (h' : p₂.Evolves p₃) :
    p₁.Evolves p₃ := ⟨h.doc.trans h'.doc⟩

/-! ### Refactoring -/

section

variable (c : Config) (s : Scope)

theorem Method.evolves_refactorParam (m : Method) (p : Param) :
    p.Evolves (m.refactorParam c s p) := by
  unfold Method.refactorParam
  split
  next =>
    refine ⟨m.name_promoteParam s.names p, m.visibility_promoteParam s.names p, ?_⟩
    cases hd : m.paramDecision s.names p with
    | skip reason =>
      rw [Method.promoteParam_of_skip hd]
      exact .inl ⟨rfl, rfl⟩
    | declare type =>
      obtain ⟨hempty, htag⟩ := Method.paramDecision_eq_declare hd
      rw [Method.promoteParam_of_declare hd]
      exact .inr ⟨hempty, spelling_tagDecision_ne_nil htag, rfl⟩
  next => exact .refl p

/-- The rule for return values leaves a method alone, or it has decided on a type. -/
theorem Method.afterResult_eq_self_or (m : Method) :
    m.afterResult c s = m ∨
      ∃ type, m.resultDecision s.names = .declare type ∧
        m.afterResult c s = m.promoteResult s.names := by
  unfold Method.afterResult
  split
  next =>
    cases hd : m.resultDecision s.names with
    | skip reason => exact .inl (Method.promoteResult_eq_self s.names hd)
    | declare type => exact .inr ⟨type, rfl, rfl⟩
  next => exact .inl rfl

theorem Method.result_evolves_afterResult (m : Method) :
    SiteEvolves true m.result (m.afterResult c s).result m.refreshed
      (m.afterResult c s).refreshed := by
  obtain h | ⟨type, hd, h⟩ := m.afterResult_eq_self_or c s
  · rw [h]
    exact .inl ⟨rfl, rfl⟩
  · obtain ⟨hempty, htag⟩ := Method.resultDecision_eq_declare hd
    rw [h, Method.promoteResult_of_declare s.names hd]
    exact .inr ⟨hempty, spelling_tagDecision_ne_nil htag, rfl⟩

theorem Method.doc_evolves_afterParams (m : Method) :
    DocEvolves m.doc (m.afterParams c s).doc := by
  unfold Method.afterParams
  split
  next =>
    rw [Method.promoteParams_eq]
    apply docEvolves_bind
    intro b
    unfold DocBlock.withParams
    split
    · exact .inl rfl
    · exact .inr fun b' => DocBlock.isEmpty_of_prune
  next => exact .inl rfl

theorem Method.doc_evolves_afterResult (m : Method) :
    DocEvolves m.doc (m.afterResult c s).doc := by
  obtain h | ⟨type, hd, h⟩ := m.afterResult_eq_self_or c s
  · rw [h]
    exact .inl rfl
  · rw [h, Method.promoteResult_of_declare s.names hd]
    exact docEvolves_bind fun b => .inr fun b' => DocBlock.isEmpty_of_prune

/-- **Refactoring makes a method evolve.** -/
theorem Method.evolves_refactor (m : Method) : m.Evolves (m.refactor c s).1 where
  params := by
    rw [Method.params_refactor, List.forall₂_map_right_iff, List.forall₂_same]
    exact fun p _ => m.evolves_refactorParam c s p
  result := by
    have hpart := m.resultPart_refactor c s
    rw [show (m.refactor c s).1.result = (m.afterResult c s).result from
        congrArg ResultPart.declared hpart,
      show (m.refactor c s).1.refreshed = (m.afterResult c s).refreshed from
        congrArg ResultPart.refreshed hpart]
    exact m.result_evolves_afterResult c s
  doc := by
    obtain ⟨steps, h⟩ := m.refactor_eq c s
    rw [h]
    exact (m.doc_evolves_afterParams c s).trans ((m.afterParams c s).doc_evolves_afterResult c s)

theorem Property.evolves_refactor (p : Property) : p.Evolves (p.refactor c s).1 where
  doc := by
    rw [Property.refactor_fst]
    split
    next =>
      cases hd : p.decision s.names with
      | skip reason =>
        rw [Property.promote_eq_self s.names hd]
        exact .inl rfl
      | declare type =>
        rw [Property.promote_of_declare s.names hd]
        exact docEvolves_bind fun b => .inr fun b' => DocBlock.isEmpty_of_prune
    next => exact .inl rfl

end

/-! ### Calls -/

/-- A single declaration to be refactored, with the configuration for it. -/
inductive Call where
  | method (c : Config) (a : Address)
  | property (c : Config) (a : Address)

namespace Workspace

/-- A workspace after a declaration has been refactored. -/
def call (w : Workspace) : Call → Workspace
  | .method c a => (w.refactorMethod c a).1
  | .property c a => (w.refactorProperty c a).1

/-- A workspace after any number of calls. -/
def callAll (w : Workspace) (calls : List Call) : Workspace := calls.foldl call w

/-- A workspace before and after.  Declarations are neither added nor removed. -/
structure Evolves (w w' : Workspace) : Prop where
  method : ∀ a, Option.Rel Method.Evolves (w.method? a) (w'.method? a)
  property : ∀ a, Option.Rel Property.Evolves (w.property? a) (w'.property? a)

theorem rel_refl {α : Type} {R : α → α → Prop} (h : ∀ x, R x x) (x : Option α) :
    Option.Rel R x x := by
  cases x with
  | none => exact .none
  | some x => exact .some (h x)

theorem rel_trans {α : Type} {R : α → α → Prop} (hR : ∀ x y z, R x y → R y z → R x z)
    {x y z : Option α} (h : Option.Rel R x y) (h' : Option.Rel R y z) : Option.Rel R x z := by
  cases h with
  | none => exact h'
  | some hxy =>
    cases h' with
    | some hyz => exact .some (hR _ _ _ hxy hyz)

theorem rel_imp {α : Type} {R S : α → α → Prop} {x y : Option α} (h : Option.Rel R x y)
    (himp : ∀ a, x = some a → ∀ b, R a b → S a b) : Option.Rel S x y := by
  cases h with
  | none => exact .none
  | some hxy => exact .some (himp _ rfl _ hxy)

theorem Evolves.refl (w : Workspace) : w.Evolves w :=
  ⟨fun a => rel_refl .refl (w.method? a), fun a => rel_refl .refl (w.property? a)⟩

theorem Evolves.trans {w₁ w₂ w₃ : Workspace} (h : w₁.Evolves w₂) (h' : w₂.Evolves w₃) :
    w₁.Evolves w₃ :=
  ⟨fun a => rel_trans (fun _ _ _ => .trans) (h.method a) (h'.method a),
    fun a => rel_trans (fun _ _ _ => .trans) (h.property a) (h'.property a)⟩

theorem evolves_modifyMethod (w : Workspace) (a : Address) {g : Method → Method}
    (hg : ∀ m : Method, m.Evolves (g m)) : w.Evolves (w.modifyMethod a g) := by
  unfold modifyMethod
  cases hm : w.method? a with
  | none => exact .refl w
  | some m =>
    dsimp only
    constructor
    · intro b
      by_cases hab : a = b
      · subst hab
        rw [w.method?_putMethod_self hm, hm]
        exact .some (hg m)
      · rw [w.method?_putMethod_of_ne hab]
        exact (Evolves.refl w).method b
    · intro b
      rw [w.property?_putMethod]
      exact (Evolves.refl w).property b

theorem evolves_modifyProperty (w : Workspace) (a : Address) {g : Property → Property}
    (hg : ∀ p : Property, p.Evolves (g p)) : w.Evolves (w.modifyProperty a g) := by
  unfold modifyProperty
  cases hp : w.property? a with
  | none => exact .refl w
  | some p =>
    dsimp only
    constructor
    · intro b
      rw [w.method?_putProperty]
      exact (Evolves.refl w).method b
    · intro b
      by_cases hab : a = b
      · subst hab
        rw [w.property?_putProperty_self hp, hp]
        exact .some (hg p)
      · rw [w.property?_putProperty_of_ne hab]
        exact (Evolves.refl w).property b

theorem refactorMethod_fst (w : Workspace) (c : Config) (a : Address) :
    (w.refactorMethod c a).1 = w.modifyMethod a fun m => (m.refactor c (a.scope w)).1 := by
  unfold refactorMethod modifyMethod
  cases w.method? a with
  | none => cases a <;> rfl
  | some m => rfl

theorem refactorProperty_fst (w : Workspace) (c : Config) (a : Address) :
    (w.refactorProperty c a).1 = w.modifyProperty a fun p => (p.refactor c (a.scope w)).1 := by
  unfold refactorProperty modifyProperty
  cases w.property? a with
  | none => cases a <;> rfl
  | some p => rfl

/-- What one call does. -/
theorem evolves_call (w : Workspace) (x : Call) : w.Evolves (w.call x) := by
  cases x with
  | method c a =>
    rw [call, refactorMethod_fst]
    exact w.evolves_modifyMethod a fun m => m.evolves_refactor c (a.scope w)
  | property c a =>
    rw [call, refactorProperty_fst]
    exact w.evolves_modifyProperty a fun p => p.evolves_refactor c (a.scope w)

/-- What any number of calls does. -/
theorem evolves_callAll (w : Workspace) (calls : List Call) : w.Evolves (w.callAll calls) := by
  induction calls generalizing w with
  | nil => exact .refl w
  | cons x calls ih => exact (w.evolves_call x).trans (ih (w.call x))

/-! ### Documentation blocks -/

/-- The documentation of the method at an address. -/
def methodDoc? (w : Workspace) (a : Address) : Option DocBlock := (w.method? a).bind Method.doc

/-- The documentation of the property statement at an address. -/
def propertyDoc? (w : Workspace) (a : Address) : Option DocBlock :=
  (w.property? a).bind Property.doc

/-- Whether a documentation block is different from that at the start after some of the calls. -/
def DocChanges (w : Workspace) (calls : List Call) (doc? : Workspace → Option DocBlock) : Prop :=
  ∃ done, done <+: calls ∧ doc? (w.callAll done) ≠ doc? w

theorem docEvolves_of_rel {α : Type} {R : α → α → Prop} {doc : α → Option DocBlock}
    (hdoc : ∀ x y, R x y → DocEvolves (doc x) (doc y)) {x y : Option α} (h : Option.Rel R x y) :
    DocEvolves (x.bind doc) (y.bind doc) := by
  cases h with
  | none => exact .inl rfl
  | some hxy => exact hdoc _ _ hxy

theorem Evolves.methodDoc? {w w' : Workspace} (h : w.Evolves w') (a : Address) :
    DocEvolves (w.methodDoc? a) (w'.methodDoc? a) :=
  docEvolves_of_rel (fun _ _ hm => hm.doc) (h.method a)

theorem Evolves.propertyDoc? {w w' : Workspace} (h : w.Evolves w') (a : Address) :
    DocEvolves (w.propertyDoc? a) (w'.propertyDoc? a) :=
  docEvolves_of_rel (fun _ _ hp => hp.doc) (h.property a)

/-- A block that has changed at some time is not empty in the end. -/
theorem isEmpty_of_docChanges {w : Workspace} {calls : List Call}
    {doc? : Workspace → Option DocBlock}
    (hdoc : ∀ w w' : Workspace, w.Evolves w' → DocEvolves (doc? w) (doc? w'))
    (h : w.DocChanges calls doc?) {b : DocBlock} (hb : doc? (w.callAll calls) = some b) :
    b.isEmpty = false := by
  obtain ⟨done, ⟨rest, rfl⟩, hne⟩ := h
  have hsplit : w.callAll (done ++ rest) = (w.callAll done).callAll rest := List.foldl_append
  rw [hsplit] at hb
  rcases hdoc _ _ ((w.callAll done).evolves_callAll rest) with hsame | hpruned
  · -- then it is as it was when it had changed
    rw [hsame] at hb
    rcases hdoc _ _ (w.evolves_callAll done) with hstart | hpruned
    · exact absurd hstart hne
    · exact hpruned b hb
  · exact hpruned b hb

end Workspace

/-! ### Marks -/

/-- Neither the method nor any of its parameters is marked. -/
def Method.IsUnmarked (m : Method) : Prop :=
  m.refreshed = false ∧ ∀ p ∈ m.params, p.invalidated = false

instance (m : Method) : Decidable m.IsUnmarked := inferInstanceAs (Decidable (_ ∧ _))

/-- A workspace without marks. -/
structure Workspace.IsFresh (w : Workspace) : Prop where
  file : ∀ d ∈ w.file.classes, ∀ m ∈ d.methods, m.IsUnmarked
  loose : ∀ m ∈ w.looseMethods, m.IsUnmarked

theorem Workspace.IsFresh.isUnmarked {w : Workspace} (hw : w.IsFresh) {a : Address} {m : Method}
    (h : w.method? a = some m) : m.IsUnmarked := by
  cases a with
  | inClass cls index =>
    obtain ⟨d, hd, hm⟩ := Option.bind_eq_some_iff.mp h
    exact hw.file d (List.mem_of_getElem? hd) m (List.mem_of_getElem? hm)
  | loose index => exact hw.loose m (List.mem_of_getElem? h)
  | foreign name => cases h

/-- The mark of a parameter says whether it has received a type, if it is promoted. -/
structure Param.Notified (p p' : Param) : Prop where
  name : p'.name = p.name
  visibility : p'.visibility = p.visibility
  invalidated_iff : p'.invalidated = true ↔
    p'.isPromoted = true ∧ p.declared = [] ∧ p'.declared ≠ []

/-- The marks of a method say which of its sites have received a type. -/
structure Method.Notified (m m' : Method) : Prop where
  params : List.Forall₂ Param.Notified m.params m'.params
  refreshed_iff : m'.refreshed = true ↔ m.result = [] ∧ m'.result ≠ []

theorem Param.Evolves.notified {p p' : Param} (h : p.Evolves p') (hfresh : p.invalidated = false) :
    p.Notified p' := by
  have hpromoted : p'.isPromoted = p.isPromoted := by
    rw [Param.isPromoted, h.visibility, Param.isPromoted]
  have hsite := h.site
  rw [hfresh] at hsite
  exact ⟨h.name, h.visibility, by rw [hpromoted]; exact hsite.mark_iff⟩

theorem Method.Evolves.notified {m m' : Method} (h : m.Evolves m') (hfresh : m.IsUnmarked) :
    m.Notified m' := by
  obtain ⟨hrefreshed, hparams⟩ := hfresh
  have hresult := h.result
  rw [hrefreshed] at hresult
  refine ⟨?_, by simpa using hresult.mark_iff⟩
  have hboth := (List.forall₂_and_left _ _).mpr ⟨hparams, h.params⟩
  exact hboth.imp fun p p' hp => hp.2.notified hp.1

namespace Workspace

/-- **Marks are exact.**  Starting without marks, declarations are refactored one by one: those of
the file and loose ones, in any order, repeatedly, under any configurations.  Then a parameter is
marked if and only if it is promoted, had no type at the start and has one now, and a method is
marked if and only if its return value had no type at the start and has one now.  A documentation
block that has changed on the way is not left empty. -/
theorem notifications_exact (w : Workspace) (hw : w.IsFresh) (calls : List Call) :
    (∀ a, Option.Rel Method.Notified (w.method? a) ((w.callAll calls).method? a)) ∧
      (∀ a, w.DocChanges calls (methodDoc? · a) →
        ∀ b, (w.callAll calls).methodDoc? a = some b → b.isEmpty = false) ∧
      (∀ a, w.DocChanges calls (propertyDoc? · a) →
        ∀ b, (w.callAll calls).propertyDoc? a = some b → b.isEmpty = false) := by
  refine ⟨fun a => ?_, fun a hchanges b hb => ?_, fun a hchanges b hb => ?_⟩
  · refine rel_imp ((w.evolves_callAll calls).method a) fun m hm m' hevolves => ?_
    exact hevolves.notified (hw.isUnmarked hm)
  · exact isEmpty_of_docChanges (fun _ _ h => h.methodDoc? a) hchanges hb
  · exact isEmpty_of_docChanges (fun _ _ h => h.propertyDoc? a) hchanges hb

/-- The sample, with a loose method beside it. -/
def sample : Workspace where
  file := .sample
  looseClasses := []
  looseMethods := [{
    name := "g"
    doc := some ⟨[], [⟨"y", "int", "how many"⟩], none, none⟩
    params := [⟨"y", [], [], false⟩]
    result := []
    refreshed := false }]
  looseProperties := []

/-- The method of the sample is refactored twice.  Its parameter is promoted, that of the loose
method is not. -/
theorem notifications_exact_sample :
    let calls : List Call := [.method .default (.inClass 0 0), .method .default (.loose 0),
      .method .default (.inClass 0 0)]
    sample.IsFresh ∧
      (∀ a, Option.Rel Method.Notified (sample.method? a) ((sample.callAll calls).method? a)) ∧
      ((sample.callAll calls).method? (.inClass 0 0)).map (·.params.map Param.invalidated) =
        some [true] ∧
      ((sample.callAll calls).method? (.loose 0)).map (·.params.map Param.invalidated) =
        some [false] := by
  intro calls
  have hfresh : sample.IsFresh := ⟨by decide, by decide⟩
  exact ⟨hfresh, (notifications_exact sample hfresh calls).1, by decide +kernel,
    by decide +kernel⟩

end Workspace

end DocPromotion
