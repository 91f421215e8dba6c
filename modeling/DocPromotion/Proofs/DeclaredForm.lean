import DocPromotion.Proofs.GrammarCompleteness
import DocPromotion.Proofs.Outline
import DocPromotion.Proofs.Utf8

/-!
Only well-formed types are ever declared.

A class name reaches a declaration in one of three ways: it is written with a leading backslash, it
is written without one and there is nothing to resolve it, or it is what a resolver answers.  In all
three it is checked to be a class name, whatever the resolver does, and no construct of the grammar
makes a new one.  So the types that are read satisfy `DocType.IsSound`, and declaring them gives
`IsDeclaredForm`: a keyword, or a backslash and a class name.

For a file this means that refactoring either leaves the declared type of a site as it is, or puts
such a form where there was none (`Site.Promotes`).
-/

namespace DocPromotion

/-! ### The forms of declared types -/

/-- An identifier: the encoding of a letter or underscore and then letters, underscores and
digits. -/
def IsIdentifier (t : Text) : Prop :=
  ∃ c cs, t = Text.ofChars (c :: cs) ∧ (c = '_' ∨ Text.isLetter c = true) ∧
    ∀ x ∈ cs, x = '_' ∨ Text.isLetter x = true ∨ Text.isDigit x = true

/-- The keywords that can be declared at every site. -/
def declarableKeywords : List Text := ["array", "iterable", "bool", "int", "float", "string"]

/-- The spellings of well-formed declared types at a site. -/
inductive IsDeclaredForm (site : Site) : Text → Prop where
  | keyword {t : Text} : t ∈ declarableKeywords → IsDeclaredForm site t
  | void : site = .result → IsDeclaredForm site "void"
  | className {segments : List Text} :
      segments ≠ [] → (∀ s ∈ segments, IsIdentifier s) →
      IsDeclaredForm site ([Text.backslash] ++ Text.joinWith [Text.backslash] segments)

/-! ### Class names -/

theorem Text.splitOn_ne_nil (b : UInt8) (t : Text) : splitOn b t ≠ [] := by
  unfold splitOn
  split
  · simp
  · split
    · simp
    · split <;> simp

theorem Text.joinWith_cons (sep t : Text) {ts : List Text} (h : ts ≠ []) :
    joinWith sep (t :: ts) = t ++ sep ++ joinWith sep ts := by
  cases ts with
  | nil => exact absurd rfl h
  | cons t' ts => rfl

/-- The parts of a text make up the text. -/
theorem Text.joinWith_splitOn (b : UInt8) (t : Text) : joinWith [b] (splitOn b t) = t := by
  induction t with
  | nil => rfl
  | cons c rest ih =>
    -- there is a first part of the rest, which `c` either precedes as a separator or belongs to
    cases hparts : splitOn b rest with
    | nil => exact absurd hparts (splitOn_ne_nil b rest)
    | cons part parts =>
      rw [hparts] at ih
      rw [splitOn, hparts]
      split
      next hc =>
        rw [joinWith_cons [b] [] (List.cons_ne_nil part parts), ih, hc]
        rfl
      next =>
        cases parts with
        | nil =>
          rw [joinWith] at ih ⊢
          rw [ih]
        | cons part' parts =>
          rw [joinWith_cons [b] _ (List.cons_ne_nil part' parts)] at ih ⊢
          rw [← ih]
          rfl

/-- A text without the replacement character among its characters is valid. -/
theorem Text.isValid_of_not_mem {t : Text} (h : '\uFFFD' ∉ chars t) : isValid t = true := by
  rw [isValid, List.all_eq_true]
  intro p hp
  rw [Option.isSome_iff_ne_none]
  intro hnone
  have hchar : p.char = '\uFFFD' := by rw [Piece.char, hnone, Option.getD_none]
  exact h (hchar ▸ List.mem_map_of_mem hp)

theorem isIdentifier_replacement :
    ('\uFFFD' == '_' || Text.isLetter '\uFFFD' || Text.isDigit '\uFFFD') = false := by
  decide +kernel

theorem IsIdentifier.of_isIdentifier {t : Text} (h : isIdentifier t = true) : IsIdentifier t := by
  unfold isIdentifier at h
  split at h
  next => cases h
  next c cs hchars =>
    rw [Bool.and_eq_true, List.all_eq_true] at h
    obtain ⟨hc, hcs⟩ := h
    refine ⟨c, cs, ?_, by simpa using hc, ?_⟩
    · -- a stray byte would be read as a character that is not allowed
      have hvalid : Text.isValid t = true := by
        apply Text.isValid_of_not_mem
        rw [hchars]
        intro hmem
        have hbad := isIdentifier_replacement
        rcases List.mem_cons.mp hmem with rfl | hmem
        · rw [hc] at hbad
          cases hbad
        · rw [hcs _ hmem] at hbad
          cases hbad
      rw [← hchars, Text.ofChars_chars hvalid]
    · intro x hx
      have hallowed := hcs x hx
      simpa [or_assoc] using hallowed

theorem IsDeclaredForm.of_isClassName {t : Text} (h : isClassName t = true) (site : Site) :
    IsDeclaredForm site ([Text.backslash] ++ t) := by
  have hform : IsDeclaredForm site
      ([Text.backslash] ++ Text.joinWith [Text.backslash] (Text.splitOn Text.backslash t)) := by
    apply IsDeclaredForm.className (Text.splitOn_ne_nil _ _)
    intro s hs
    exact .of_isIdentifier (List.all_eq_true.mp h s hs)
  rw [Text.joinWith_splitOn] at hform
  exact hform

/-! ### Types that are read -/

namespace DocType

/-- The types that can be read: class names are well-formed, and scalars are known. -/
def IsSound : DocType → Prop
  | .nominal name => isClassName name = true
  | .aliased _ fqn => isClassName fqn = true
  | .scalar kind => ∀ code, kind ≠ .other code
  | _ => True

theorem isSound_of_ofKeyword? {word : List Char} {spelling : Text} {d : DocType}
    (h : ofKeyword? word spelling = some d) : d.IsSound := by
  have hscalars : ∀ e ∈ scalarKeywords, ∀ code, e.2 ≠ .other code := by simp [scalarKeywords]
  unfold ofKeyword? at h
  split at h
  next kind hfind =>
    obtain rfl := Option.some.inj h
    exact hscalars _ (List.mem_of_find?_eq_some hfind)
  next =>
    -- the other keywords stand for types without a name
    repeat' split at h
    all_goals cases h
    all_goals trivial

/-- Class names are checked, those that a resolver answers too. -/
theorem isSound_of_ofClassName? {names : Option Resolver} {name : Text} {d : DocType}
    (h : ofClassName? names name = some d) : d.IsSound := by
  unfold ofClassName? at h
  split at h
  next fqn _ =>
    split at h
    next hfqn =>
      obtain rfl := Option.some.inj h
      exact hfqn
    next => cases h
  next =>
    split at h
    next hname =>
      split at h
      next =>
        obtain rfl := Option.some.inj h
        exact hname
      next resolve =>
        dsimp only at h
        split at h
        next =>
          obtain rfl := Option.some.inj h
          trivial
        next hfqn =>
          have hfqn : isClassName (resolve name).fqn = true := by simpa using hfqn
          split at h
          · obtain rfl := Option.some.inj h
            exact hfqn
          · obtain rfl := Option.some.inj h
            exact hfqn
    next => cases h

theorem isSound_of_ofName? {names : Option Resolver} {name : Text} {d : DocType}
    (h : ofName? names name = some d) : d.IsSound := by
  unfold ofName? at h
  split at h
  next hkeyword =>
    obtain rfl := Option.some.inj h
    exact isSound_of_ofKeyword? hkeyword
  next =>
    split at h
    next =>
      obtain rfl := Option.some.inj h
      trivial
    next => exact isSound_of_ofClassName? h

end DocType

theorem Grammar.withArguments_isSound (d : DocType) (s : Text) : (withArguments d s).IsSound := by
  cases d <;> trivial

theorem Grammar.withShape_isSound (d : DocType) (s : Text) : (withShape d s).IsSound := by
  cases d <;> trivial

/-- Only a bare name, in any number of parentheses, denotes a class or a scalar. -/
theorem Grammar.Denotes.isSound {names : Option Resolver} {expr : Text} {n : Category}
    {ts : List Token} {d : DocType} (h : Denotes names expr n ts d) : d.IsSound := by
  induction h with
  | single _ ih => exact ih
  | bare _ ih => exact ih
  | group _ _ _ ih => exact ih
  | name ht => exact DocType.isSound_of_ofName? ht.2
  | arguments ht _ => exact withArguments_isSound _ _
  | shape ht _ => exact withShape_isSound _ _
  | _ => trivial

theorem DocType.isSound_of_parse {names : Option Resolver} {expr : Text} {t : DocType}
    (h : parse names expr = .ok t) : t.IsSound := (Grammar.denotes_of_parse h).isSound

/-- A tag that cannot be read is unrepresentable. -/
theorem Tag.isSound_docType (names : Option Resolver) (t : Tag) : (t.docType names).IsSound := by
  unfold Tag.docType
  split
  next h => exact DocType.isSound_of_parse h
  next => trivial

/-! ### Declaring them -/

theorem ScalarKind.label_mem {kind : ScalarKind} (h : ∀ code, kind ≠ .other code) :
    kind.label ∈ declarableKeywords := by
  cases kind with
  | other code => exact absurd rfl (h code)
  | _ => decide

theorem DocType.IsSound.isDeclaredForm {t : DocType} (h : t.IsSound) {site : Site}
    {type : DeclaredType} (hd : t.declared? site = some type) :
    IsDeclaredForm site type.spelling := by
  cases t with
  | nominal name =>
    obtain rfl := Option.some.inj hd
    exact .of_isClassName h site
  | aliased short fqn =>
    obtain rfl := Option.some.inj hd
    exact .of_isClassName h site
  | array s =>
    obtain rfl := Option.some.inj hd
    exact .keyword (by decide)
  | iterable s =>
    obtain rfl := Option.some.inj hd
    exact .keyword (by decide)
  | scalar kind =>
    obtain rfl := Option.some.inj hd
    exact .keyword (ScalarKind.label_mem h)
  | void =>
    cases site with
    | result =>
      obtain rfl := Option.some.inj hd
      exact .void rfl
    | _ => cases hd
  | unrepresentable s => cases hd

theorem isDeclaredForm_tagDecision {names : Option Resolver} {site : Site} {tag : Option Tag}
    {type : DeclaredType} (h : tagDecision names site tag = .declare type) :
    IsDeclaredForm site type.spelling := by
  obtain ⟨t, -, ht⟩ := tagDecision_eq_declare h
  exact (t.isSound_docType names).isDeclaredForm ht

/-- Parameters and properties are declared alike. -/
theorem DocType.declared?_property (t : DocType) : t.declared? .property = t.declared? .param := by
  cases t <;> rfl

/-- Return values differ from them in that they can be void. -/
theorem DocType.declared?_result_ne_iff (t : DocType) :
    t.declared? .result ≠ t.declared? .param ↔ t = .void := by
  cases t <;> simp [DocType.declared?, Site.allowsVoid]

/-! ### Refactoring -/

/-- What may become of the declared type of a site: it stays, or a well-formed one is put where
there was none. -/
def Site.Promotes (site : Site) (before after : Text) : Prop :=
  after = before ∨ before = [] ∧ IsDeclaredForm site after

/-- The declared types of a method, before and after. -/
structure Method.Promotes (m m' : Method) : Prop where
  params : List.Forall₂ (fun p p' => Site.Promotes .param p.declared p'.declared)
    m.params m'.params
  result : Site.Promotes .result m.result m'.result

/-- The declared types of a class, before and after. -/
structure ClassDecl.Promotes (d d' : ClassDecl) : Prop where
  properties : List.Forall₂ (fun p p' => Site.Promotes .property p.declared p'.declared)
    d.properties d'.properties
  methods : List.Forall₂ Method.Promotes d.methods d'.methods

theorem Site.Promotes.trans {site : Site} {t₁ t₂ t₃ : Text} (h : site.Promotes t₁ t₂)
    (h' : site.Promotes t₂ t₃) : site.Promotes t₁ t₃ := by
  rcases h' with rfl | ⟨rfl, h'⟩
  · exact h
  · rcases h with h | ⟨h, -⟩
    · exact .inr ⟨h.symm, h'⟩
    · exact .inr ⟨h, h'⟩

/-- A decision promotes, if it declares a type only where there is none, and what a tag says. -/
theorem Site.Promotes.of_decision {names : Option Resolver} {site : Site} {tag : Option Tag}
    {before : Text} {decision : Decision}
    (h : ∀ type, decision = .declare type →
      before = [] ∧ tagDecision names site tag = .declare type) :
    site.Promotes before ((decision.type?.map DeclaredType.spelling).getD before) := by
  cases decision with
  | skip reason => exact .inl rfl
  | declare type =>
    obtain ⟨hbefore, htag⟩ := h type rfl
    exact .inr ⟨hbefore, isDeclaredForm_tagDecision htag⟩

section

variable (names : Option Resolver)

theorem Method.declared_promoteParam (m : Method) (p : Param) :
    (m.promoteParam names p).declared =
      ((m.paramDecision names p).type?.map DeclaredType.spelling).getD p.declared := by
  cases h : m.paramDecision names p with
  | skip reason =>
    rw [Method.promoteParam_of_skip h]
    rfl
  | declare type =>
    rw [Method.promoteParam_of_declare h]
    rfl

theorem Method.promotes_promoteParam (m : Method) (p : Param) :
    Site.Promotes .param p.declared (m.promoteParam names p).declared := by
  rw [Method.declared_promoteParam]
  exact .of_decision fun _ => Method.paramDecision_eq_declare

theorem Method.promotes_promoteResult (m : Method) :
    Site.Promotes .result m.result (m.promoteResult names).result := by
  rw [Method.result_promoteResult]
  exact .of_decision fun _ => Method.resultDecision_eq_declare

theorem Property.promotes_promote (p : Property) :
    Site.Promotes .property p.declared (p.promote names).declared := by
  rw [Property.declared_promote]
  exact .of_decision fun _ => Property.decision_eq_declare

end

section

variable (c : Config) (s : Scope)

theorem Method.promotes_afterParams (m : Method) : m.Promotes (m.afterParams c s) := by
  unfold Method.afterParams
  split
  · refine ⟨?_, .inl (m.result_promoteParams s.names)⟩
    rw [Method.params_promoteParams, List.forall₂_map_right_iff, List.forall₂_same]
    exact fun p _ => m.promotes_promoteParam s.names p
  · exact ⟨List.forall₂_same.mpr fun p _ => .inl rfl, .inl rfl⟩

/-- The rule for return values comes second, so it is about a method that has been promoted. -/
theorem Method.Promotes.afterResult {m m' : Method} (h : m.Promotes m') :
    m.Promotes (m'.afterResult c s) := by
  unfold Method.afterResult
  split
  · obtain ⟨hparams, hresult⟩ := h
    refine ⟨?_, hresult.trans (m'.promotes_promoteResult s.names)⟩
    rw [Method.params_promoteResult]
    exact hparams
  · exact h

theorem Method.promotes_refactor (m : Method) : m.Promotes (m.refactor c s).1 := by
  obtain ⟨steps, h⟩ := m.refactor_eq c s
  rw [h]
  exact (m.promotes_afterParams c s).afterResult c s

theorem Property.promotes_refactor (p : Property) :
    Site.Promotes .property p.declared (p.refactor c s).1.declared := by
  obtain ⟨steps, h⟩ := p.refactor_eq c s
  rw [h]
  split
  · exact p.promotes_promote s.names
  · exact .inl rfl

end

/-- Refactoring a file promotes its classes, each at its place. -/
theorem SourceFile.promotes_refactor (c : Config) (f : SourceFile) :
    List.Forall₂ ClassDecl.Promotes f.classes (f.refactor c).1.classes := by
  apply f.forall₂_classes_refactor c
  intro i d
  rw [refactorClass_eq]
  constructor
  · rw [List.forall₂_map_right_iff, List.forall₂_same]
    exact fun p _ => p.promotes_refactor c (f.scope i)
  · rw [List.forall₂_map_right_iff, List.forall₂_same]
    exact fun m _ => m.promotes_refactor c (f.scope i)

/-- **Only well-formed types are declared.**  A type that is read, with any resolver or none, is
declared as a keyword or by a class name that consists of identifiers; void is declared for return
values only, and that is all that sites differ in.  So refactoring a file leaves a declared type as
it is, or puts such a form where there was none. -/
theorem only_declared_forms :
    (∀ (names : Option Resolver) (expr : Text) (site : Site) (t : DocType) (type : DeclaredType),
      DocType.parse names expr = .ok t → t.declared? site = some type →
        IsDeclaredForm site type.spelling) ∧
    (∀ t : DocType, t.declared? .property = t.declared? .param ∧
      (t.declared? .result ≠ t.declared? .param ↔ t = .void)) ∧
    (∀ (c : Config) (f : SourceFile),
      List.Forall₂ ClassDecl.Promotes f.classes (f.refactor c).1.classes) := by
  refine ⟨?_, fun t => ⟨t.declared?_property, t.declared?_result_ne_iff⟩, ?_⟩
  · intro names expr site t type hparse htype
    exact (DocType.isSound_of_parse hparse).isDeclaredForm htype
  · intro c f
    exact f.promotes_refactor c

theorem only_declared_forms_alias :
    DocType.parse (some fun _ => ⟨"N\\A", true⟩) "(A)" = .ok (.aliased "A" "N\\A") ∧
      IsDeclaredForm .property "\\N\\A" := by
  have hlex : Token.lex "(A)" =
      [⟨.opening .paren, "(", 0⟩, ⟨.name, "A", 1⟩, ⟨.closing .paren, ")", 2⟩] := by cbv
  have hname : DocType.ofName? (some fun _ => ⟨"N\\A", true⟩) "A" =
      some (.aliased "A" "N\\A") := by decide +kernel
  have hparse : DocType.parse (some fun _ => ⟨"N\\A", true⟩) "(A)" =
      .ok (.aliased "A" "N\\A") := by
    rw [DocType.parse, hlex]
    simp only [DocType.State.run, DocType.State.initial, DocType.State.step, DocType.stepExpecting,
      hname]
    rfl
  exact ⟨hparse, only_declared_forms.1 _ _ .property _ _ hparse rfl⟩

end DocPromotion
