import DocPromotion.Label

/-!
Documentation types: what a documentation tag says about the type of a declaration.

Only the distinctions that matter for declaring a type are kept.  Type arguments and array shapes
survive in the spelling of a type, and every type that no declaration can express is
`unrepresentable`.
-/

namespace DocPromotion

/-- The scalar types. -/
inductive ScalarKind where
  | bool
  | int
  | float
  | string
  | other (code : UInt8)
deriving Repr, DecidableEq

namespace ScalarKind

/-- The scalar type with a given code. -/
def ofCode : UInt8 → ScalarKind
  | 0 => .bool
  | 1 => .int
  | 2 => .float
  | 3 => .string
  | n => .other n

/-- The code of a scalar type. -/
def code : ScalarKind → UInt8
  | .bool => 0
  | .int => 1
  | .float => 2
  | .string => 3
  | .other n => n

/-- The canonical spelling of a scalar type. -/
def label : ScalarKind → Text
  | .bool => "bool"
  | .int => "int"
  | .float => "float"
  | .string => "string"
  | .other n => strayLabel "ScalarKind" n

end ScalarKind

/-- A documentation type. -/
inductive DocType where
  /-- A class by its fully qualified name, without a leading backslash. -/
  | nominal (name : Text)
  /-- A class by a name that an import alias gives, with the name it stands for. -/
  | aliased (short fqn : Text)
  /-- An array, with its spelling. -/
  | array (spelling : Text)
  /-- An iterable, with its spelling. -/
  | iterable (spelling : Text)
  | scalar (kind : ScalarKind)
  | void
  /-- A type that no declaration can express, with its spelling. -/
  | unrepresentable (spelling : Text)
deriving Repr, DecidableEq

namespace DocType

/-- The spelling of a type in documentation. -/
def spelling : DocType → Text
  | .nominal name => [Text.backslash] ++ name
  | .aliased short _ => short
  | .array [] => "array"
  | .array s => s
  | .iterable [] => "iterable"
  | .iterable s => s
  | .scalar kind => kind.label
  | .void => "void"
  | .unrepresentable s => s

/-- The name by which documentation refers to a class. -/
def className? : DocType → Option Text
  | .nominal name => some name
  | .aliased short _ => some short
  | _ => none

/-- Arrays in any spelling. -/
def isArray : DocType → Bool
  | .array _ => true
  | _ => false

/-- Types that can be iterated: arrays and iterables in any spelling. -/
def isIterable : DocType → Bool
  | .array _ | .iterable _ => true
  | _ => false

/-- Whether an array or iterable is spelled as nothing but its keyword.  Types that are neither
have no such spelling. -/
def plain? : DocType → Option Bool
  | .array s => some (s == [] || s == "array")
  | .iterable s => some (s == [] || s == "iterable")
  | _ => none

end DocType

end DocPromotion
