import DocPromotion.DocType

/-!
Declared types, and the declared type that a documentation type stands for.

A class is always declared by its fully qualified name, so that the declaration does not depend on
the imports around it.
-/

namespace DocPromotion

/-- A type in declaration position. -/
inductive DeclaredType where
  /-- A class by its fully qualified name, without a leading backslash. -/
  | nominal (name : Text)
  | keyword (word : Text)
deriving Repr, DecidableEq

/-- The spelling of a declared type. -/
def DeclaredType.spelling : DeclaredType → Text
  | .nominal name => [Text.backslash] ++ name
  | .keyword word => word

/-- The kinds of declarations that can have a declared type. -/
inductive Site where
  | param
  | result
  | property
  | other (code : UInt8)
deriving Repr, DecidableEq

namespace Site

/-- The site with a given code. -/
def ofCode : UInt8 → Site
  | 0 => .param
  | 1 => .result
  | 2 => .property
  | n => .other n

/-- The name of a site. -/
def label : Site → Text
  | .param => "param"
  | .result => "return"
  | .property => "property"
  | .other n => strayLabel "Context" n

/-- Only a return value can be declared void. -/
def allowsVoid : Site → Bool
  | .result => true
  | _ => false

end Site

/-- The declared type that says the same as a documentation type, if there is one. -/
def DocType.declared? (site : Site) : DocType → Option DeclaredType
  | .aliased _ fqn => some (.nominal fqn)
  | .nominal name => some (.nominal name)
  | .array _ => some (.keyword "array")
  | .iterable _ => some (.keyword "iterable")
  | .scalar kind => some (.keyword kind.label)
  | .void => if site.allowsVoid then some (.keyword "void") else none
  | .unrepresentable _ => none

end DocPromotion
