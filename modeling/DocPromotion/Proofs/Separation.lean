import DocPromotion.Proofs.Commutation
import DocPromotion.Proofs.RemovedTags

/-!
Every setting has its own part of a file.

The switch and the level of the rule for return values decide about the declared return types and
their tags (`Method.resultPart`), those of the rule for parameters about the parameters and their
tags (`Method.paramPart`), and the switch of the rule for properties about the property statements.
The two rules for methods work on one documentation block, but neither reads or writes the part of
the other, and they commute.  So a part after a run is that after its own rule
(`Method.resultPart_refactor`, `Method.paramPart_refactor`).

A level only ever keeps a rule from a method.  What the rule would do to it does not depend on the
level (`Method.afterResult_eq_or`, `Method.afterParams_eq_or`).
-/

namespace DocPromotion

/-! ### Parts of a method -/

/-- What the rule for return values can change. -/
structure ResultPart where
  declared : Text
  tag : Option Tag
  refreshed : Bool
deriving DecidableEq

/-- What the rule for parameters can change, for all parameters of a method. -/
structure ParamPart where
  params : List Param
  tags : List Tag
deriving DecidableEq

/-- The declared return type of a method, with its tag. -/
def Method.resultPart (m : Method) : ResultPart := ⟨m.result, m.resultTag?, m.refreshed⟩

/-- The parameters of a method, with their tags. -/
def Method.paramPart (m : Method) : ParamPart := ⟨m.params, paramTagsOf m.doc⟩

section

variable (names : Option Resolver)

theorem Method.resultPart_promoteParams (m : Method) :
    (m.promoteParams names).resultPart = m.resultPart := by
  have hrefreshed : (m.promoteParams names).refreshed = m.refreshed := by
    rw [Method.promoteParams_eq]
  unfold Method.resultPart
  rw [Method.result_promoteParams, Method.resultTag?_promoteParams, hrefreshed]

theorem Method.paramPart_promoteResult (m : Method) :
    (m.promoteResult names).paramPart = m.paramPart := by
  unfold Method.paramPart
  rw [Method.params_promoteResult, (m.otherTags_promoteResult names).1]

end

section

variable (c : Config) (s : Scope)

theorem Method.resultPart_afterParams (m : Method) :
    (m.afterParams c s).resultPart = m.resultPart := by
  unfold Method.afterParams
  split
  · exact m.resultPart_promoteParams s.names
  · rfl

theorem Method.paramPart_afterResult (m : Method) :
    (m.afterResult c s).paramPart = m.paramPart := by
  unfold Method.afterResult
  split
  · exact m.paramPart_promoteResult s.names
  · rfl

/-- The rules for a method in the other order. -/
theorem Method.afterResult_afterParams (m : Method) :
    (m.afterParams c s).afterResult c s = (m.afterResult c s).afterParams c s := by
  have hparams : (m.afterResult c s).afterParams c s =
      if c.enabled .param && s.admits c.paramEligibility m.name then
        (m.afterResult c s).promoteParams s.names
      else m.afterResult c s := by
    rw [Method.afterParams, Method.name_afterResult]
  have hresult : (m.afterParams c s).afterResult c s =
      if c.enabled .result && s.admits c.resultEligibility m.name then
        (m.afterParams c s).promoteResult s.names
      else m.afterParams c s := by
    rw [Method.afterResult, Method.name_afterParams]
  rw [hparams, hresult, Method.afterParams, Method.afterResult]
  split
  · split
    · exact m.promoteResult_promoteParams s.names
    · rfl
  · split
    · rfl
    · rfl

/-- The rule for return values comes second, but it might as well come first, so that nothing else
has a say in its part. -/
theorem Method.resultPart_refactor (m : Method) :
    (m.refactor c s).1.resultPart = (m.afterResult c s).resultPart := by
  obtain ⟨steps, h⟩ := m.refactor_eq c s
  rw [h, Method.afterResult_afterParams, Method.resultPart_afterParams]

theorem Method.paramPart_refactor (m : Method) :
    (m.refactor c s).1.paramPart = (m.afterParams c s).paramPart := by
  obtain ⟨steps, h⟩ := m.refactor_eq c s
  rw [h, Method.paramPart_afterResult]

theorem Property.refactor_fst (p : Property) :
    (p.refactor c s).1 = if c.enabled .property then p.promote s.names else p := by
  obtain ⟨steps, h⟩ := p.refactor_eq c s
  rw [h]
  split <;> rfl

/-! ### Levels -/

/-- A level may keep the rule for return values from a method, and that is all it can do. -/
theorem Method.afterResult_eq_or (m : Method) :
    m.afterResult c s = m ∨ m.afterResult c s = m.promoteResult s.names := by
  rw [Method.afterResult]
  exact (ite_eq_or_eq _ _ _).symm

theorem Method.afterParams_eq_or (m : Method) :
    m.afterParams c s = m ∨ m.afterParams c s = m.promoteParams s.names := by
  rw [Method.afterParams]
  exact (ite_eq_or_eq _ _ _).symm

theorem Property.refactor_fst_eq_or (p : Property) :
    (p.refactor c s).1 = p ∨ (p.refactor c s).1 = p.promote s.names := by
  rw [Property.refactor_fst]
  exact (ite_eq_or_eq _ _ _).symm

variable {c}

/-- Under level `all` no method is out of reach. -/
theorem Method.afterResult_of_all (hrule : c.enabled .result = true)
    (hlevel : c.resultEligibility = .all) (m : Method) :
    m.afterResult c s = m.promoteResult s.names := by
  rw [Method.afterResult, hrule, hlevel]
  rfl

theorem Method.afterParams_of_all (hrule : c.enabled .param = true)
    (hlevel : c.paramEligibility = .all) (m : Method) :
    m.afterParams c s = m.promoteParams s.names := by
  rw [Method.afterParams, hrule, hlevel]
  rfl

end

/-! ### Declarations of a file -/

namespace SourceFile

variable (f : SourceFile)

/-- The method at a position of the class at a position. -/
def method? (cls index : Nat) : Option Method := f.classes[cls]?.bind (·.methods[index]?)

/-- The property statement at a position of the class at a position. -/
def property? (cls index : Nat) : Option Property := f.classes[cls]?.bind (·.properties[index]?)

/-- Every method is refactored on its own, in the scope of its class. -/
theorem method?_refactor (c : Config) (cls index : Nat) :
    (f.refactor c).1.method? cls index =
      (f.method? cls index).map fun m => (m.refactor c (f.scope cls)).1 := by
  unfold method?
  rw [classes_refactor, List.getElem?_mapIdx]
  cases f.classes[cls]? with
  | none => rfl
  | some d => simp only [Option.map_some, Option.bind_some, refactorClass_eq, List.getElem?_map]

theorem property?_refactor (c : Config) (cls index : Nat) :
    (f.refactor c).1.property? cls index =
      (f.property? cls index).map fun p => (p.refactor c (f.scope cls)).1 := by
  unfold property?
  rw [classes_refactor, List.getElem?_mapIdx]
  cases f.classes[cls]? with
  | none => rfl
  | some d => simp only [Option.map_some, Option.bind_some, refactorClass_eq, List.getElem?_map]

/-- The declared return type of the method at a position, with its tag. -/
def resultPart? (cls index : Nat) : Option ResultPart :=
  (f.method? cls index).map Method.resultPart

/-- The parameters of the method at a position, with their tags. -/
def paramPart? (cls index : Nat) : Option ParamPart := (f.method? cls index).map Method.paramPart

theorem resultPart?_refactor (c : Config) (cls index : Nat) :
    (f.refactor c).1.resultPart? cls index =
      (f.method? cls index).map fun m => (m.afterResult c (f.scope cls)).resultPart := by
  unfold resultPart?
  rw [method?_refactor, Option.map_map]
  congr 1
  funext m
  exact m.resultPart_refactor c (f.scope cls)

theorem paramPart?_refactor (c : Config) (cls index : Nat) :
    (f.refactor c).1.paramPart? cls index =
      (f.method? cls index).map fun m => (m.afterParams c (f.scope cls)).paramPart := by
  unfold paramPart?
  rw [method?_refactor, Option.map_map]
  congr 1
  funext m
  exact m.paramPart_refactor c (f.scope cls)

/-! ### Two runs -/

variable {f} {c c' : Config}

theorem resultPart?_congr (hrule : c.enabled .result = c'.enabled .result)
    (hlevel : c.resultEligibility = c'.resultEligibility) (cls index : Nat) :
    (f.refactor c).1.resultPart? cls index = (f.refactor c').1.resultPart? cls index := by
  rw [resultPart?_refactor, resultPart?_refactor]
  unfold Method.afterResult
  rw [hrule, hlevel]

theorem paramPart?_congr (hrule : c.enabled .param = c'.enabled .param)
    (hlevel : c.paramEligibility = c'.paramEligibility) (cls index : Nat) :
    (f.refactor c).1.paramPart? cls index = (f.refactor c').1.paramPart? cls index := by
  rw [paramPart?_refactor, paramPart?_refactor]
  unfold Method.afterParams
  rw [hrule, hlevel]

theorem property?_congr (hrule : c.enabled .property = c'.enabled .property) (cls index : Nat) :
    (f.refactor c).1.property? cls index = (f.refactor c').1.property? cls index := by
  rw [property?_refactor, property?_refactor]
  simp only [Property.refactor_fst, hrule]

/-- A choice between two results, made for each declaration. -/
theorem map_eq_or {α β : Type} {g before after : α → β} (h : ∀ a, g a = before a ∨ g a = after a)
    (x : Option α) : x.map g = x.map before ∨ x.map g = x.map after := by
  cases x with
  | none => exact .inl rfl
  | some a => exact (h a).imp (congrArg some) (congrArg some)

/-- Whatever the level, a return value is left alone or treated as under level `all`. -/
theorem resultPart?_eq_or (hrule : c'.enabled .result = true) (hlevel : c'.resultEligibility = .all)
    (cls index : Nat) :
    (f.refactor c).1.resultPart? cls index = f.resultPart? cls index ∨
      (f.refactor c).1.resultPart? cls index = (f.refactor c').1.resultPart? cls index := by
  rw [resultPart?_refactor, resultPart?_refactor]
  apply map_eq_or
  intro m
  rw [Method.afterResult_of_all (f.scope cls) hrule hlevel]
  exact (m.afterResult_eq_or c (f.scope cls)).imp (congrArg _) (congrArg _)

/-- The parameters of a method are left alone or treated as under level `all`, all of them. -/
theorem paramPart?_eq_or (hrule : c'.enabled .param = true) (hlevel : c'.paramEligibility = .all)
    (cls index : Nat) :
    (f.refactor c).1.paramPart? cls index = f.paramPart? cls index ∨
      (f.refactor c).1.paramPart? cls index = (f.refactor c').1.paramPart? cls index := by
  rw [paramPart?_refactor, paramPart?_refactor]
  apply map_eq_or
  intro m
  rw [Method.afterParams_of_all (f.scope cls) hrule hlevel]
  exact (m.afterParams_eq_or c (f.scope cls)).imp (congrArg _) (congrArg _)

theorem property?_eq_or (hrule : c'.enabled .property = true) (cls index : Nat) :
    (f.refactor c).1.property? cls index = f.property? cls index ∨
      (f.refactor c).1.property? cls index = (f.refactor c').1.property? cls index := by
  have hself : f.property? cls index = (f.property? cls index).map fun p => p := by simp
  rw [property?_refactor, property?_refactor]
  nth_rewrite 2 [hself]
  apply map_eq_or
  intro p
  rw [p.refactor_fst c' (f.scope cls), if_pos hrule]
  exact p.refactor_fst_eq_or c (f.scope cls)

/-- **Settings act on separate parts of a file, and restrictions only ever remove changes.**  Two
runs from the same file end with the same return types if they agree on the switch and the level of
their rule, with the same parameters if they agree on those of theirs, and with the same property
statements if they agree on the switch of the last rule, whatever else is set.  Under any level the
return type of a method, and all of its parameters together, end as they were in the file, or as
they end under level `all`. -/
theorem settings_act_apart (f : SourceFile) (c c' : Config) :
    (c.enabled .result = c'.enabled .result ∧ c.resultEligibility = c'.resultEligibility →
      ∀ cls index,
        (f.refactor c).1.resultPart? cls index = (f.refactor c').1.resultPart? cls index) ∧
    (c.enabled .param = c'.enabled .param ∧ c.paramEligibility = c'.paramEligibility →
      ∀ cls index,
        (f.refactor c).1.paramPart? cls index = (f.refactor c').1.paramPart? cls index) ∧
    (c.enabled .property = c'.enabled .property →
      ∀ cls index,
        (f.refactor c).1.property? cls index = (f.refactor c').1.property? cls index) ∧
    (c'.enabled .result = true ∧ c'.resultEligibility = .all →
      ∀ cls index,
        (f.refactor c).1.resultPart? cls index = f.resultPart? cls index ∨
          (f.refactor c).1.resultPart? cls index = (f.refactor c').1.resultPart? cls index) ∧
    (c'.enabled .param = true ∧ c'.paramEligibility = .all →
      ∀ cls index,
        (f.refactor c).1.paramPart? cls index = f.paramPart? cls index ∨
          (f.refactor c).1.paramPart? cls index = (f.refactor c').1.paramPart? cls index) ∧
    (c'.enabled .property = true →
      ∀ cls index,
        (f.refactor c).1.property? cls index = f.property? cls index ∨
          (f.refactor c).1.property? cls index = (f.refactor c').1.property? cls index) := by
  refine ⟨?_, ?_, property?_congr, ?_, ?_, property?_eq_or⟩
  · rintro ⟨hrule, hlevel⟩
    exact resultPart?_congr hrule hlevel
  · rintro ⟨hrule, hlevel⟩
    exact paramPart?_congr hrule hlevel
  · rintro ⟨hrule, hlevel⟩
    exact resultPart?_eq_or hrule hlevel
  · rintro ⟨hrule, hlevel⟩
    exact paramPart?_eq_or hrule hlevel

/-- Without the rule for parameters, the return value of the sample ends as it does by default. -/
theorem settings_act_apart_sample :
    let c := Config.default.set (.rule .param false)
    (sample.refactor c).1.paramPart? 0 0 ≠ (sample.refactor .default).1.paramPart? 0 0 ∧
      (c.enabled .result = Config.default.enabled .result ∧
        c.resultEligibility = Config.default.resultEligibility) ∧
      (sample.refactor c).1.resultPart? 0 0 =
        (sample.refactor .default).1.resultPart? 0 0 := by
  intro c
  have hagree : c.enabled .result = Config.default.enabled .result ∧
      c.resultEligibility = Config.default.resultEligibility := by decide
  exact ⟨by decide +kernel, hagree, (settings_act_apart sample c .default).1 hagree 0 0⟩

end SourceFile

end DocPromotion
