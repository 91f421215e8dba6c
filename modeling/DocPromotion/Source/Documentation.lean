import DocPromotion.DocType.Parser
import DocPromotion.Promotion
import DocPromotion.Source

/-!
The documentation of a source file: reading the types of tags, and removing tags that say no more
than the declared type.

A tag is redundant if it has no description and denotes exactly the declared type.  Other
spellings of a scalar type count as the same, but an array with type arguments says more than the
keyword.
-/

namespace DocPromotion

namespace Tag

/-- The type of a tag.  A type that cannot be read is unrepresentable. -/
def docType (names : Option Resolver) (t : Tag) : DocType :=
  match DocType.parse names t.type with
  | .ok type => type
  | .error _ => .unrepresentable t.type

/-- Whether a declared type says all that a documentation type says. -/
def covers (declared : Text) : DocType → Bool
  | .nominal name => declared == [Text.backslash] ++ name
  | .aliased _ fqn => declared == [Text.backslash] ++ fqn
  | .array s => (s == [] || s == "array") && declared == "array"
  | .iterable s => (s == [] || s == "iterable") && declared == "iterable"
  | .scalar kind => declared == kind.label
  | .void => declared == "void"
  | .unrepresentable _ => false

/-- Whether a tag adds nothing to a declared type. -/
def isRedundant (names : Option Resolver) (declared : Text) (t : Tag) : Bool :=
  t.description.isEmpty && !declared.isEmpty &&
    match DocType.parse names t.type with
    | .ok type => covers declared type
    | .error _ => false

end Tag

/-- What a tag says, if there is one. -/
def Documented.ofTag? (names : Option Resolver) : Option Tag → Documented
  | none => .missing
  | some t => .typed (t.docType names)

/-- A documentation block, as the rules see it. -/
def DocBlock.view (names : Option Resolver) (b : DocBlock) : DocView where
  param name := .ofTag? names (b.param? name)
  result := .ofTag? names b.result
  var := .ofTag? names b.var

/-- A parameter, as the rules see it. -/
def Param.view (p : Param) : ParamView := ⟨p.name, p.isTyped, p.isPromoted⟩

namespace Method

/-- A method, as the rules see it. -/
def view (names : Option Resolver) (m : Method) : MethodView where
  name := m.name
  params := m.params.map Param.view
  resultTyped := !m.result.isEmpty
  doc := m.doc.map (DocBlock.view names)

/-- The method without the first tag of a parameter, if that tag is redundant. -/
def removeParamTag? (names : Option Resolver) (name : Text) (m : Method) : Option Method := do
  let doc ← m.doc
  let p ← m.param? name
  let tag ← doc.param? name
  if tag.isRedundant names p.declared then
    let params := doc.params.eraseP (·.name == name)
    return { m with doc := { doc with params := params }.prune }
  else none

/-- The method without the tag of its return value, if that tag is redundant. -/
def removeResultTag? (names : Option Resolver) (m : Method) : Option Method := do
  let doc ← m.doc
  let tag ← doc.result
  if tag.isRedundant names m.result then
    return { m with doc := { doc with result := none }.prune }
  else none

/-- Renders the documentation of a method again: an empty block is dropped. -/
def refresh (m : Method) : Method :=
  { m with doc := m.doc.bind DocBlock.prune, refreshed := true }

/-- Declares the type of the parameter at a position. -/
def setParam (index : Nat) (type : DeclaredType) (m : Method) : Method :=
  { m with params := m.params.modify index fun p => { p with declared := type.spelling } }

/-- Marks the parameter at a position for printing from scratch. -/
def invalidate (index : Nat) (m : Method) : Method :=
  { m with params := m.params.modify index fun p => { p with invalidated := true } }

/-- Declares the type of the return value. -/
def setResult (type : DeclaredType) (m : Method) : Method := { m with result := type.spelling }

/-- Performs a step of a rule. -/
def perform (names : Option Resolver) (m : Method) : Step → Method
  | .setParam index _ type => m.setParam index type
  | .invalidate index _ => m.invalidate index
  | .removeParamTag name => (m.removeParamTag? names name).getD m
  | .setResult type => m.setResult type
  | .removeResultTag => (m.removeResultTag? names).getD m
  | .refresh => m.refresh
  | _ => m

end Method

namespace Property

/-- A property statement, as the rules see it. -/
def view (names : Option Resolver) (p : Property) : PropertyView where
  names := p.names
  typed := !p.declared.isEmpty
  doc := p.doc.map (DocBlock.view names)

/-- The statement without its tag, if that tag is redundant. -/
def removeVarTag? (names : Option Resolver) (p : Property) : Option Property := do
  let doc ← p.doc
  let tag ← doc.var
  if tag.isRedundant names p.declared then
    return { p with doc := { doc with var := none }.prune }
  else none

/-- Declares the type of a property. -/
def setType (type : DeclaredType) (p : Property) : Property :=
  { p with declared := type.spelling }

/-- Performs a step of a rule. -/
def perform (names : Option Resolver) (p : Property) : Step → Property
  | .setProperty type => p.setType type
  | .removeVarTag => (p.removeVarTag? names).getD p
  | _ => p

end Property

end DocPromotion
