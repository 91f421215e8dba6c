import DocPromotion.Text.Case
import DocPromotion.Text.Quoted

/-!
The two levels of caution: which methods may receive declared types, and what happens to
statements that declare several properties at once.

Levels are read from text in any case, and an empty text means the default.
-/

namespace DocPromotion

/-- Which methods may receive declared types, depending on the class hierarchy. -/
inductive Eligibility where
  | all
  /-- Only methods of interfaces. -/
  | interfaces
  /-- Only methods that no ancestor declares as well. -/
  | noOverrides
  | other (code : UInt8)
deriving Repr, DecidableEq

/-- What happens to a statement that declares several properties.  It is never changed, because
one documentation tag cannot be distributed over them. -/
inductive MultiProperty where
  | skip
  /-- The statement is reported as an error. -/
  | reject
  | other (code : UInt8)
deriving Repr, DecidableEq

/-- A text or a code that is no level. -/
inductive LevelError where
  | eligibilityText (text : Text)
  | eligibilityCode (code : UInt8)
  | multiPropertyText (text : Text)
  | multiPropertyCode (code : UInt8)
deriving Repr, DecidableEq

/-- The wording of an error. -/
def LevelError.message : LevelError → Text
  | .eligibilityText text => "unknown eligibility level " ++ Text.quote text
  | .eligibilityCode code => "unknown eligibility level " ++ Text.ofNat code.toNat
  | .multiPropertyText text => "unknown multi property level " ++ Text.quote text
  | .multiPropertyCode code => "unknown multi property level " ++ Text.ofNat code.toNat

namespace Eligibility

/-- The level with a given code. -/
def ofCode : UInt8 → Eligibility
  | 0 => .all
  | 1 => .interfaces
  | 2 => .noOverrides
  | n => .other n

/-- The code of a level. -/
def code : Eligibility → UInt8
  | .all => 0
  | .interfaces => 1
  | .noOverrides => 2
  | .other n => n

/-- The text of a level. -/
def text : Eligibility → Except LevelError Text
  | .all => .ok "all"
  | .interfaces => .ok "interfaces"
  | .noOverrides => .ok "no-overrides"
  | .other n => .error (.eligibilityCode n)

/-- The level that a text stands for. -/
def ofText (t : Text) : Except LevelError Eligibility :=
  let word := Text.lower t
  if word = [] ∨ word = "all".toList then .ok .all
  else if word = "interfaces".toList ∨ word = "interface".toList then .ok .interfaces
  else if word = "no-overrides".toList then .ok .noOverrides
  else .error (.eligibilityText t)

end Eligibility

namespace MultiProperty

/-- The level with a given code. -/
def ofCode : UInt8 → MultiProperty
  | 0 => .skip
  | 1 => .reject
  | n => .other n

/-- The code of a level. -/
def code : MultiProperty → UInt8
  | .skip => 0
  | .reject => 1
  | .other n => n

/-- The text of a level. -/
def text : MultiProperty → Except LevelError Text
  | .skip => .ok "skip"
  | .reject => .ok "reject"
  | .other n => .error (.multiPropertyCode n)

/-- The level that a text stands for. -/
def ofText (t : Text) : Except LevelError MultiProperty :=
  let word := Text.lower t
  if word = [] ∨ word = "skip".toList then .ok .skip
  else if word = "reject".toList ∨ word = "error".toList then .ok .reject
  else .error (.multiPropertyText t)

end MultiProperty

end DocPromotion
