import DocPromotion.Source

/-!
The class hierarchy of a file.

A class is identified by its position.  Names are looked up without regard to case, and if several
classes have the same name, the last one counts.  Only ancestors declared in the same file are
known; the hierarchy may be cyclic.
-/

namespace DocPromotion.SourceFile

/-- Whether a class has a fully qualified name, up to case. -/
def isNamed (f : SourceFile) (fqn : Text) (c : ClassDecl) : Bool :=
  Text.lower (f.fqn c) == Text.lower fqn

/-- The fully qualified name that a name as written in a file stands for. -/
def resolveName (f : SourceFile) (name : Text) : Text :=
  match Text.cutBackslash? name with
  | some fqn => fqn
  | none => (f.imports.resolve name).fqn

/-- The position of the last class in a list with a fully qualified name, where the first class
has position `i`. -/
def findLast? (f : SourceFile) (fqn : Text) (i : Nat) : List ClassDecl → Option Nat
  | [] => none
  | c :: cs => (f.findLast? fqn (i + 1) cs).or (if f.isNamed fqn c then some i else none)

/-- The position of the class that a name as written in a file stands for. -/
def lookup (f : SourceFile) (name : Text) : Option Nat :=
  f.findLast? (f.resolveName name) 0 f.classes

/-- The positions of the parents of a class that the file declares. -/
def parentsOf (f : SourceFile) (c : ClassDecl) : List Nat := c.parents.filterMap f.lookup

/-- Whether a class declares a method, up to case. -/
def declares (name : Text) (c : ClassDecl) : Bool :=
  c.methods.any fun m => Text.equalFold m.name name

/-- Searches the classes in a queue, and their ancestors, for one that declares a method.  Every
class is visited once: `fresh` are the positions not yet visited. -/
def searchAncestors (f : SourceFile) (name : Text) (fresh queue : List Nat) : Bool :=
  match queue with
  | [] => false
  | i :: queue =>
    if i ∈ fresh then
      match f.classes[i]? with
      | none => f.searchAncestors name (fresh.erase i) queue
      | some c =>
        declares name c || f.searchAncestors name (fresh.erase i) (queue ++ f.parentsOf c)
    else f.searchAncestors name fresh queue
termination_by (fresh.length, queue.length)
decreasing_by
  · simp_wf; left; rw [List.length_erase_of_mem (by assumption)]
    have : 0 < fresh.length := List.length_pos_of_mem (by assumption); omega
  · simp_wf; left; rw [List.length_erase_of_mem (by assumption)]
    have : 0 < fresh.length := List.length_pos_of_mem (by assumption); omega
  · simp_wf; right; simp

/-- Whether an ancestor of the class at a position, other than the class itself, declares a
method. -/
def ancestorDeclares (f : SourceFile) (i : Nat) (name : Text) : Bool :=
  match f.classes[i]? with
  | none => false
  | some c =>
    f.searchAncestors name ((List.range f.classes.length).erase i) (f.parentsOf c)

end DocPromotion.SourceFile
