import DocPromotion.ImportTable

/-!
Source files as far as documentation and declared types are concerned: classes with methods and
properties, each with its documentation block.

An empty declared type means that there is none.  Parameters and methods also remember what has
been done to them, which is no part of the source: whether a parameter must be printed from
scratch, and whether the documentation of a method was rendered again.
-/

namespace DocPromotion

/-- A documentation tag.  Only tags of parameters have a name. -/
structure Tag where
  name : Text
  type : Text
  description : Text
deriving Repr, DecidableEq

/-- A documentation block. -/
structure DocBlock where
  summary : Text
  params : List Tag
  result : Option Tag
  var : Option Tag
deriving Repr, DecidableEq

/-- A parameter.  One with a visibility is promoted: it declares a property as well. -/
structure Param where
  name : Text
  declared : Text
  visibility : Text
  invalidated : Bool
deriving Repr, DecidableEq

/-- A method. -/
structure Method where
  name : Text
  doc : Option DocBlock
  params : List Param
  result : Text
  refreshed : Bool
deriving Repr, DecidableEq

/-- A property statement, which may declare several properties. -/
structure Property where
  names : List Text
  declared : Text
  doc : Option DocBlock
deriving Repr, DecidableEq

/-- A class or interface. -/
structure ClassDecl where
  name : Text
  isInterface : Bool
  parents : List Text
  methods : List Method
  properties : List Property
deriving Repr, DecidableEq

/-- The classes of a file, with the namespace and the imports they share. -/
structure SourceFile where
  ns : Text
  uses : List (Text × Text)
  classes : List ClassDecl
deriving Repr, DecidableEq

namespace DocBlock

/-- The first tag of a parameter. -/
def param? (b : DocBlock) (name : Text) : Option Tag := b.params.find? (·.name == name)

/-- A block with neither summary nor tags. -/
def isEmpty (b : DocBlock) : Bool :=
  b.summary.isEmpty && b.params.isEmpty && b.result.isNone && b.var.isNone

/-- The block, unless it is empty. -/
def prune (b : DocBlock) : Option DocBlock := if b.isEmpty then none else some b

end DocBlock

namespace Param

/-- Whether a parameter has a declared type. -/
def isTyped (p : Param) : Bool := !p.declared.isEmpty

/-- Whether a parameter declares a property as well. -/
def isPromoted (p : Param) : Bool := !p.visibility.isEmpty

end Param

/-- The first parameter with a name. -/
def Method.param? (m : Method) (name : Text) : Option Param := m.params.find? (·.name == name)

namespace SourceFile

/-- A file without anything in it. -/
def empty : SourceFile := ⟨[], [], []⟩

/-- The imports of a file, with its namespace. -/
def imports (f : SourceFile) : ImportTable := ⟨f.ns, f.uses⟩

/-- The fully qualified name of a class in a file. -/
def fqn (f : SourceFile) (c : ClassDecl) : Text := qualify f.ns c.name

end SourceFile

end DocPromotion
