import DocPromotion.Proofs.Separation

/-!
Statements that declare several properties.

Such a statement is never changed.  Under level `reject` it is reported as well, and that is the
only difference between the levels (`SourceFile.refactor_fst_multiProperty`).  Refusing a statement
does not end a run: the errors are those of all such statements, in the order of the file
(`SourceFile.errors_refactor`), and every declaration is treated as it is without them
(`SourceFile.property?_refactor`, `SourceFile.method?_refactor`).
-/

namespace DocPromotion

/-- The statements of a class that declare several properties. -/
def ClassDecl.multiStatements (d : ClassDecl) : List Property :=
  d.properties.filter fun p => 1 < p.names.length

/-- The errors for the statements of a file that declare several properties: class after class, and
statement after statement. -/
def SourceFile.refusals (f : SourceFile) : List DeclarationError :=
  f.classes.flatMap fun d =>
    d.multiStatements.map fun p => .property (f.fqn d) p.names (.multipleProperties p.names)

/-! ### Single statements -/

section

variable (c : Config) (s : Scope)

theorem Property.error_refactor (p : Property) :
    (p.refactor c s).2.error =
      if c.enabled .property = true ∧ c.multiProperty = .reject ∧ 1 < p.names.length then
        some (.multipleProperties p.names)
      else none := by
  obtain ⟨steps, h⟩ := p.refactor_eq c s
  rw [h]
  by_cases hrule : c.enabled .property = true
  · simp [hrule, Property.refusal?, and_comm]
  · simp [hrule, Outcome.idle]

/-- The level for statements with several properties is not looked at for methods. -/
theorem Method.refactor_multiProperty (level : MultiProperty) (m : Method) :
    m.refactor (c.set (.multiProperty level)) s = m.refactor c s := rfl

/-- It makes no difference to what becomes of a statement. -/
theorem Property.refactor_fst_multiProperty (level : MultiProperty) (p : Property) :
    (p.refactor (c.set (.multiProperty level)) s).1 = (p.refactor c s).1 := by
  rw [Property.refactor_fst, Property.refactor_fst]
  rfl

end

namespace SourceFile

variable (c : Config) (f : SourceFile)

/-! ### Levels -/

theorem refactorClass_fst_multiProperty (level : MultiProperty) (i : Nat) (d : ClassDecl) :
    (f.refactorClass (c.set (.multiProperty level)) i d).1 = (f.refactorClass c i d).1 := by
  rw [refactorClass_eq, refactorClass_eq]
  simp only [Property.refactor_fst_multiProperty, Method.refactor_multiProperty]

/-- A file ends the same under every level for statements with several properties. -/
theorem refactor_fst_multiProperty (level : MultiProperty) :
    (f.refactor (c.set (.multiProperty level))).1 = (f.refactor c).1 := by
  have hclasses : (f.refactor (c.set (.multiProperty level))).1.classes =
      (f.refactor c).1.classes := by
    rw [classes_refactor, classes_refactor]
    simp only [refactorClass_fst_multiProperty]
  show { f with classes := (f.refactor (c.set (.multiProperty level))).1.classes } =
    { f with classes := (f.refactor c).1.classes }
  rw [hclasses]

/-- So the same number of declarations is changed. -/
theorem changed_multiProperty (level : MultiProperty) :
    (f.refactor (c.set (.multiProperty level))).2.changed = (f.refactor c).2.changed := by
  rw [changed_refactor, changed_refactor, refactor_fst_multiProperty]

/-! ### Errors -/

/-- Methods are never refused, and of the statements only those with several properties are. -/
theorem errors_refactorClass (i : Nat) (d : ClassDecl) :
    (f.refactorClass c i d).2.errors =
      if c.enabled .property = true ∧ c.multiProperty = .reject then
        d.multiStatements.map fun p => .property (f.fqn d) p.names (.multipleProperties p.names)
      else [] := by
  have hmethods : (d.methods.map fun m =>
      Report.ofMethod (f.fqn d) m.name (m.refactor c (f.scope i)).2).flatMap Report.errors =
        [] := by
    simp [List.flatMap_map, Method.errors_ofMethod_refactor]
  rw [refactorClass_eq]
  simp only [Report.concat, List.flatMap_append, hmethods, List.append_nil, List.flatMap_map,
    Report.ofProperty, Property.error_refactor, ClassDecl.multiStatements]
  split
  next h =>
    -- an error for a statement, or none: the statements are filtered
    induction d.properties with
    | nil => rfl
    | cons p properties ih =>
      rw [List.flatMap_cons, ih]
      by_cases hp : 1 < p.names.length
      · simp [h, hp]
      · simp [hp]
  next h =>
    have hnever : ∀ p : Property,
        ¬ (c.enabled .property = true ∧ c.multiProperty = .reject ∧ 1 < p.names.length) :=
      fun p hp => h ⟨hp.1, hp.2.1⟩
    simp [hnever]

theorem mapIdx_eq_map {α β : Type} (g : α → β) (l : List α) :
    (l.mapIdx fun _ a => g a) = l.map g := by
  apply List.ext_getElem?
  simp

/-- The errors of a run. -/
theorem errors_refactor :
    (f.refactor c).2.errors =
      if c.enabled .property = true ∧ c.multiProperty = .reject then f.refusals else [] := by
  have hclasses : (f.refactor c).2.errors =
      (f.classes.mapIdx fun i d => (f.refactorClass c i d).2.errors).flatten := by
    simp only [refactor, Report.concat, List.flatMap, map_mapIdx]
  rw [hclasses]
  simp only [errors_refactorClass]
  split
  next => rw [mapIdx_eq_map, ← List.flatMap_def, refusals]
  next => rw [mapIdx_eq_map, ← List.flatMap_def, List.flatMap_eq_nil_iff.mpr fun _ _ => rfl]

theorem refusals_eq_nil_iff :
    f.refusals = [] ↔ ∀ d ∈ f.classes, ∀ p ∈ d.properties, p.names.length ≤ 1 := by
  simp [refusals, ClassDecl.multiStatements, List.flatMap_eq_nil_iff]

/-- What is said about the statements of a file that declare several properties. -/
def refusalTexts : List Text :=
  f.classes.flatMap fun d => d.multiStatements.map fun p =>
    f.fqn d ++ "::$[" ++ Text.joinWith " " p.names ++ "]: " ++
      ("multiple properties declared in one statement: $" ++ Text.joinWith ", $" p.names)

theorem map_message_refusals : f.refusals.map DeclarationError.message = f.refusalTexts := by
  unfold refusals refusalTexts
  rw [List.map_flatMap]
  congr 1
  funext d
  rw [List.map_map]
  rfl

theorem errorText?_of_errors {r : Report} (h : r.errors = f.refusals) :
    r.errorText? =
      if f.refusalTexts = [] then none else some (Text.joinWith "\n" f.refusalTexts) := by
  unfold Report.errorText?
  rw [h, ← map_message_refusals]
  simp only [List.map_eq_nil_iff, List.isEmpty_iff]

/-- **Rejecting statements that declare several properties only reports them.**  If the rule for
properties is enabled, a file ends under level `reject` as it does under level `skip`, with the same
number of changes.  The errors are those of all statements with several properties, one for each, in
the order of the file, and there is none exactly if there is no such statement.  Under other levels,
or without the rule, there are no errors.  In every run each declaration is treated, whatever has
been refused before it. -/
theorem reject_only_reports (c : Config) (f : SourceFile) :
    let reject := f.refactor (c.set (.multiProperty .reject))
    let skip := f.refactor (c.set (.multiProperty .skip))
    (c.enabled .property = true →
      reject.1 = skip.1 ∧ reject.2.changed = skip.2.changed ∧ reject.2.errors = f.refusals ∧
      reject.2.errorText? =
        (if f.refusalTexts = [] then none else some (Text.joinWith "\n" f.refusalTexts)) ∧
      (reject.2.errorText? = none ↔
        ∀ d ∈ f.classes, ∀ p ∈ d.properties, p.names.length ≤ 1)) ∧
    (c.enabled .property = false ∨ c.multiProperty ≠ .reject →
      (f.refactor c).2.errors = [] ∧ (f.refactor c).2.errorText? = none) ∧
    (∀ cls index,
      (f.refactor c).1.property? cls index =
        (f.property? cls index).map fun p => (p.refactor c (f.scope cls)).1) ∧
    (∀ cls index,
      (f.refactor c).1.method? cls index =
        (f.method? cls index).map fun m => (m.refactor c (f.scope cls)).1) := by
  intro reject skip
  refine ⟨fun hrule => ?_, fun hnone => ?_, f.property?_refactor c, f.method?_refactor c⟩
  · have herrors : reject.2.errors = f.refusals :=
      (f.errors_refactor _).trans (if_pos ⟨hrule, rfl⟩)
    have htext := f.errorText?_of_errors herrors
    refine ⟨?_, ?_, herrors, htext, ?_⟩
    · rw [refactor_fst_multiProperty, refactor_fst_multiProperty]
    · rw [changed_multiProperty, changed_multiProperty]
    · rw [← refusals_eq_nil_iff, htext, ← map_message_refusals]
      simp
  · have herrors : (f.refactor c).2.errors = [] := by
      rw [errors_refactor, if_neg]
      rintro ⟨hrule, hlevel⟩
      rcases hnone with h | h
      · rw [hrule] at h
        cases h
      · exact h hlevel
    exact ⟨herrors, by rw [Report.errorText?, herrors]; rfl⟩

/-- A class with a statement that declares two properties, followed by one that declares one. -/
def statements : SourceFile where
  ns := "N"
  uses := []
  classes := [{
    name := "A"
    isInterface := false
    parents := []
    methods := []
    properties := [⟨["p", "q"], [], none⟩,
      ⟨["r"], [], some ⟨[], [], none, some ⟨[], "int", []⟩⟩⟩] }]

theorem reject_only_reports_statements :
    let reject := statements.refactor (Config.default.set (.multiProperty .reject))
    let skip := statements.refactor (Config.default.set (.multiProperty .skip))
    Config.default.enabled .property = true ∧
      reject.1 = skip.1 ∧ reject.2.changed = skip.2.changed ∧
      (reject.1.property? 0 1).map Property.declared = some "int" ∧
      reject.2.errorText? =
        some "N\\A::$[p q]: multiple properties declared in one statement: $p, $q" := by
  intro reject skip
  have hrule : Config.default.enabled .property = true := by decide
  obtain ⟨hfile, hchanged, -, -, -⟩ := (reject_only_reports .default statements).1 hrule
  exact ⟨hrule, hfile, hchanged, by decide +kernel, by decide +kernel⟩

end SourceFile

end DocPromotion
