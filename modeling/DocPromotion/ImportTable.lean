import DocPromotion.Text.Case

/-!
Class names as they are written in a file, and the classes they stand for.

A file may have a namespace and import classes under an alias.  A name whose first segment is an
alias, up to case, stands for the imported class; any other name belongs to the namespace.
-/

namespace DocPromotion

/-- What a name stands for: a fully qualified name without a leading backslash, and whether it
came from the alias of an import. -/
structure Resolution where
  fqn : Text
  imported : Bool
deriving Repr, DecidableEq

/-- A way to resolve class names written without a leading backslash. -/
abbrev Resolver := Text → Resolution

/-- A name in a namespace, which may be written with backslashes around it. -/
def qualify (ns name : Text) : Text :=
  if ns = [] then name
  else Text.trimByte Text.backslash ns ++ [Text.backslash] ++ name

/-- A namespace, empty for the global one, and its imports: aliases with the classes they stand
for. -/
structure ImportTable where
  ns : Text
  uses : List (Text × Text)
deriving Repr, DecidableEq

namespace ImportTable

/-- The import whose alias equals a segment up to case. -/
def alias? (i : ImportTable) (segment : Text) : Option (Text × Text) :=
  i.uses.find? fun use => Text.equalFold use.1 segment

/-- The name that a name stands for under the imports and in the namespace. -/
def resolve (i : ImportTable) (name : Text) : Resolution :=
  let (first, rest?) := Text.cutAt Text.backslash name
  match i.alias? first with
  | some (_, target) =>
    match rest? with
    | some rest => ⟨Text.dropBackslash target ++ [Text.backslash] ++ rest, true⟩
    | none => ⟨Text.dropBackslash target, true⟩
  | none => ⟨qualify i.ns name, false⟩

end ImportTable

end DocPromotion
