import DocPromotion.DocType
import DocPromotion.ImportTable
import DocPromotion.Text.Letter

/-!
The documentation type of a bare name.

Keywords are recognised in any case.  Names that documentation uses for types without a declared
counterpart are unrepresentable, all others have to be class names.
-/

namespace DocPromotion

/-- Identifiers: a letter or underscore, then letters, underscores and digits. -/
def isIdentifier (t : Text) : Bool :=
  match Text.chars t with
  | [] => false
  | c :: cs =>
    (c == '_' || Text.isLetter c) && cs.all fun c => c == '_' || Text.isLetter c || Text.isDigit c

/-- Class names: identifiers separated by single backslashes. -/
def isClassName (t : Text) : Bool := (Text.splitOn Text.backslash t).all isIdentifier

namespace DocType

/-- The keywords of scalar types. -/
def scalarKeywords : List (String × ScalarKind) := [
  ("bool", .bool), ("boolean", .bool), ("int", .int), ("integer", .int), ("float", .float),
  ("double", .float), ("string", .string)]

/-- The keywords of array types. -/
def arrayKeywords : List String := ["array", "list", "non-empty-array", "non-empty-list"]

/-- The keywords without a declared counterpart. -/
def pseudoKeywords : List String := [
  "mixed", "null", "self", "static", "parent", "$this", "object", "callable", "resource", "never",
  "noreturn", "true", "false", "scalar", "numeric", "number", "empty"]

/-- The type that a keyword in lower case stands for, with the spelling it was written in. -/
def ofKeyword? (word : List Char) (spelling : Text) : Option DocType :=
  match scalarKeywords.find? (·.1.toList == word) with
  | some (_, kind) => some (.scalar kind)
  | none =>
    if arrayKeywords.any (·.toList == word) then some (.array spelling)
    else if word == "iterable".toList then some (.iterable spelling)
    else if word == "void".toList then some .void
    else if pseudoKeywords.any (·.toList == word) then some (.unrepresentable spelling)
    else none

/-- Dashes and dollar signs occur in keywords only, never in class names. -/
def hasKeywordByte (t : Text) : Bool := t.any fun b => b == 0x2D || b == 0x24

/-- The type of a class name.  A name without a leading backslash is resolved, if there is a
resolver; one that resolves to something malformed is unrepresentable. -/
def ofClassName? (names : Option Resolver) (name : Text) : Option DocType :=
  match Text.cutBackslash? name with
  | some fqn => if isClassName fqn then some (.nominal fqn) else none
  | none =>
    if isClassName name then
      match names with
      | none => some (.nominal name)
      | some resolve =>
        let r := resolve name
        if !isClassName r.fqn then some (.unrepresentable name)
        else if r.imported then some (.aliased name r.fqn)
        else some (.nominal r.fqn)
    else none

/-- The type of a bare name, unless it is a malformed class name. -/
def ofName? (names : Option Resolver) (name : Text) : Option DocType :=
  match ofKeyword? (Text.lower name) name with
  | some t => some t
  | none =>
    if hasKeywordByte name then some (.unrepresentable name)
    else ofClassName? names name

end DocType

end DocPromotion
