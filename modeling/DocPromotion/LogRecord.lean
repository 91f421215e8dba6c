import DocPromotion.Level

/-!
Records of what has been done or left undone, and why.
-/

namespace DocPromotion

/-- How important a record is. -/
inductive Severity where
  | debug
  | warn
  | error
deriving Repr, DecidableEq

/-- The name of a severity. -/
def Severity.label : Severity → Text
  | .debug => "DEBUG"
  | .warn => "WARN"
  | .error => "ERROR"

/-- The value of an attribute of a record. -/
inductive LogValue where
  | text (t : Text)
  | flag (on : Bool)
  | count (n : Nat)
  | group (attributes : List (Text × LogValue))
  /-- A level without a text. -/
  | stray (error : LevelError)
deriving Repr

namespace LogValue

/-- Groups without attributes are not shown inside of other groups. -/
def isEmptyGroup : LogValue → Bool
  | .group [] => true
  | _ => false

/-- A group of attributes, without the empty groups among them. -/
def groupOf (attributes : List (Text × LogValue)) : LogValue :=
  .group (attributes.filter fun a => !a.2.isEmptyGroup)

/-- The value of a level. -/
def ofLevel : Except LevelError Text → LogValue
  | .ok t => .text t
  | .error e => .stray e

end LogValue

/-- A record with its attributes in the order they were given. -/
structure LogRecord where
  severity : Severity
  message : Text
  attributes : List (Text × LogValue)
deriving Repr

end DocPromotion
