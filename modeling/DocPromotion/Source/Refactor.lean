import DocPromotion.Source.Documentation
import DocPromotion.Source.Hierarchy

/-!
Applying the rules to source files.

Every declaration is treated on its own, within the scope of its class.  An error at one
declaration does not keep the rules from the others.
-/

namespace DocPromotion

/-- What the rules know about the surroundings of a declaration. -/
structure Scope where
  /-- How class names are resolved, if the declaration is part of a file. -/
  names : Option Resolver
  /-- The class that holds the declaration. -/
  owner : Option ClassView

namespace Scope

/-- The scope of a declaration outside of any class. -/
def detached : Scope := ⟨none, none⟩

/-- Everything can be done for declarations of source files. -/
def facilities (s : Scope) : Facilities := ⟨true, true, true, some s.owner⟩

end Scope

namespace SourceFile

/-- The class at a position, as the rules see it. -/
def classView? (f : SourceFile) (i : Nat) : Option ClassView :=
  f.classes[i]?.map fun c => ⟨c.isInterface, f.ancestorDeclares i⟩

/-- The scope of the declarations of the class at a position. -/
def scope (f : SourceFile) (i : Nat) : Scope := ⟨some f.imports.resolve, f.classView? i⟩

end SourceFile

namespace Method

/-- Applies a single rule for methods. -/
def applyRule (s : Scope) (rule : Facilities → MethodView → Outcome) (m : Method) :
    Method × Outcome :=
  DocPromotion.applyRule (view s.names) (perform s.names) (rule s.facilities) m

/-- Applies the enabled rules. -/
def refactor (c : Config) (s : Scope) (m : Method) : Method × Outcome :=
  applyMethodRules (view s.names) (perform s.names) c s.facilities m

end Method

namespace Property

/-- Applies a single rule for properties. -/
def applyRule (s : Scope) (rule : Facilities → PropertyView → Outcome) (p : Property) :
    Property × Outcome :=
  DocPromotion.applyRule (view s.names) (perform s.names) (rule s.facilities) p

/-- Applies the enabled rules. -/
def refactor (c : Config) (s : Scope) (p : Property) : Property × Outcome :=
  applyPropertyRules (view s.names) (perform s.names) c s.facilities p

end Property

/-- The records among the steps of an outcome. -/
def Outcome.records (o : Outcome) : List LogRecord :=
  o.steps.filterMap fun
    | .log r => some r
    | _ => none

/-- An error at a declaration of a class, which is given by its full name. -/
inductive DeclarationError where
  | property (fqn : Text) (names : List Text) (error : RuleError)
  | method (fqn name : Text) (error : RuleError)
deriving Repr, DecidableEq

/-- The wording of an error. -/
def DeclarationError.message : DeclarationError → Text
  | .property fqn names e => fqn ++ "::$[" ++ Text.joinWith " " names ++ "]: " ++ e.message
  | .method fqn name e => fqn ++ "::" ++ name ++ "(): " ++ e.message

/-- What has been done to a file. -/
structure Report where
  /-- The number of declarations that were changed. -/
  changed : Nat
  errors : List DeclarationError
  records : List LogRecord
deriving Repr

namespace Report

/-- The report of several parts of a file. -/
def concat (rs : List Report) : Report where
  changed := rs.foldr (fun r n => r.changed + n) 0
  errors := rs.flatMap Report.errors
  records := rs.flatMap Report.records

/-- The report of a property statement in a class. -/
def ofProperty (fqn : Text) (names : List Text) (o : Outcome) : Report where
  changed := if o.changed then 1 else 0
  errors := o.error.toList.map (.property fqn names)
  records := o.records

/-- The report of a method in a class. -/
def ofMethod (fqn name : Text) (o : Outcome) : Report where
  changed := if o.changed then 1 else 0
  errors := o.error.toList.map (.method fqn name)
  records := o.records

/-- The errors of a report, one a line. -/
def errorText? (r : Report) : Option Text :=
  if r.errors.isEmpty then none
  else some (Text.joinWith "\n" (r.errors.map DeclarationError.message))

end Report

namespace SourceFile

/-- Applies the enabled rules to the class at a position: to its properties, then to its
methods. -/
def refactorClass (c : Config) (f : SourceFile) (i : Nat) (d : ClassDecl) : ClassDecl × Report :=
  let s := f.scope i
  let properties := d.properties.map (Property.refactor c s)
  let methods := d.methods.map (Method.refactor c s)
  ({ d with properties := properties.map (·.1), methods := methods.map (·.1) },
    .concat (
      (d.properties.zip properties).map (fun (p, r) => .ofProperty (f.fqn d) p.names r.2)
        ++ (d.methods.zip methods).map fun (m, r) => .ofMethod (f.fqn d) m.name r.2))

/-- Applies the enabled rules to every declaration of a file. -/
def refactor (c : Config) (f : SourceFile) : SourceFile × Report :=
  let classes := f.classes.mapIdx (f.refactorClass c)
  ({ f with classes := classes.map (·.1) }, .concat (classes.map (·.2)))

end SourceFile

end DocPromotion
