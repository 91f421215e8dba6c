import DocPromotion.Source.Refactor

/-!
A workspace: a file that is being worked on, and loose declarations beside it.

Methods and properties are addressed by their class and position, or by their position among the
loose declarations.  A declaration of another origin can be shown to the rules as well, but
nothing can be done for it.
-/

namespace DocPromotion

/-- A file and loose declarations. -/
structure Workspace where
  file : SourceFile
  looseClasses : List ClassDecl
  looseMethods : List Method
  looseProperties : List Property
deriving Repr, DecidableEq

/-- The address of a class or of a declaration in a class. -/
inductive Address where
  | inClass (cls index : Nat)
  | loose (index : Nat)
  /-- A declaration of another origin, with its name. -/
  | foreign (name : Text)
deriving Repr, DecidableEq

namespace Address

/-- The scope of a declaration. -/
def scope (w : Workspace) : Address → Scope
  | .inClass cls _ => w.file.scope cls
  | _ => .detached

end Address

/-- A method of another origin, as the rules see it. -/
def foreignMethod (name : Text) : MethodView := ⟨name, [⟨name, false, false⟩], false, none⟩

/-- A property statement of another origin, as the rules see it. -/
def foreignProperty (name : Text) : PropertyView := ⟨[name], false, none⟩

namespace Workspace

/-- The method at an address. -/
def method? (w : Workspace) : Address → Option Method
  | .inClass cls index => w.file.classes[cls]?.bind (·.methods[index]?)
  | .loose index => w.looseMethods[index]?
  | .foreign _ => none

/-- The property statement at an address. -/
def property? (w : Workspace) : Address → Option Property
  | .inClass cls index => w.file.classes[cls]?.bind (·.properties[index]?)
  | .loose index => w.looseProperties[index]?
  | .foreign _ => none

/-- The class that holds the method at an address. -/
def owner? (w : Workspace) : Address → Option ClassDecl
  | .inClass cls index =>
    w.file.classes[cls]?.bind fun c => if index < c.methods.length then some c else none
  | _ => none

/-- Puts a method at an address. -/
def putMethod (w : Workspace) (a : Address) (m : Method) : Workspace :=
  match a with
  | .inClass cls index =>
    let classes := w.file.classes.modify cls fun c => { c with methods := c.methods.set index m }
    { w with file := { w.file with classes := classes } }
  | .loose index => { w with looseMethods := w.looseMethods.set index m }
  | .foreign _ => w

/-- Puts a property statement at an address. -/
def putProperty (w : Workspace) (a : Address) (p : Property) : Workspace :=
  match a with
  | .inClass cls index =>
    let classes := w.file.classes.modify cls fun c =>
      { c with properties := c.properties.set index p }
    { w with file := { w.file with classes := classes } }
  | .loose index => { w with looseProperties := w.looseProperties.set index p }
  | .foreign _ => w

/-- Changes the method at an address, if there is one. -/
def modifyMethod (w : Workspace) (a : Address) (g : Method → Method) : Workspace :=
  match w.method? a with
  | some m => w.putMethod a (g m)
  | none => w

/-- Changes the property statement at an address, if there is one. -/
def modifyProperty (w : Workspace) (a : Address) (g : Property → Property) : Workspace :=
  match w.property? a with
  | some p => w.putProperty a (g p)
  | none => w

/-- Removes something from the method at an address, and says whether it was removed. -/
def removeFromMethod (w : Workspace) (a : Address)
    (g : Option Resolver → Method → Option Method) : Workspace × Bool :=
  match (w.method? a).bind (g (a.scope w).names) with
  | some m => (w.putMethod a m, true)
  | none => (w, false)

/-- Removes the tag of the property statement at an address, and says whether it was removed. -/
def removeVarTag (w : Workspace) (a : Address) : Workspace × Bool :=
  match (w.property? a).bind (Property.removeVarTag? (a.scope w).names) with
  | some p => (w.putProperty a p, true)
  | none => (w, false)

/-- Applies a single rule to the method at an address. -/
def applyMethodRule (w : Workspace) (a : Address) (rule : Facilities → MethodView → Outcome) :
    Workspace × Outcome :=
  match a, w.method? a with
  | _, some m =>
    let (m, out) := m.applyRule (a.scope w) rule
    (w.putMethod a m, out)
  | .foreign name, none => (w, rule Scope.detached.facilities (foreignMethod name))
  | _, none => (w, .idle)

/-- Applies a single rule to the property statement at an address. -/
def applyPropertyRule (w : Workspace) (a : Address)
    (rule : Facilities → PropertyView → Outcome) : Workspace × Outcome :=
  match a, w.property? a with
  | _, some p =>
    let (p, out) := p.applyRule (a.scope w) rule
    (w.putProperty a p, out)
  | .foreign name, none => (w, rule Scope.detached.facilities (foreignProperty name))
  | _, none => (w, .idle)

/-- Applies the enabled rules to the method at an address. -/
def refactorMethod (w : Workspace) (c : Config) (a : Address) : Workspace × Outcome :=
  match a, w.method? a with
  | _, some m =>
    let (m, out) := m.refactor c (a.scope w)
    (w.putMethod a m, out)
  | .foreign name, none =>
    (w, (applyMethodRules id MethodView.perform c Scope.detached.facilities
      (foreignMethod name)).2)
  | _, none => (w, .idle)

/-- Applies the enabled rules to the property statement at an address. -/
def refactorProperty (w : Workspace) (c : Config) (a : Address) : Workspace × Outcome :=
  match a, w.property? a with
  | _, some p =>
    let (p, out) := p.refactor c (a.scope w)
    (w.putProperty a p, out)
  | .foreign name, none =>
    (w, (applyPropertyRules id PropertyView.perform c Scope.detached.facilities
      (foreignProperty name)).2)
  | _, none => (w, .idle)

/-- Applies the enabled rules to every declaration of the file. -/
def refactor (w : Workspace) (c : Config) : Workspace × Report :=
  let (f, r) := w.file.refactor c
  ({ w with file := f }, r)

end Workspace

end DocPromotion
