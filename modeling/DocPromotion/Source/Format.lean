import DocPromotion.Decoder
import DocPromotion.Source
import DocPromotion.Text.NaturalOrder

/-!
Source files as YAML documents.

A file is written as a mapping with a fixed order of fields, and fields without a value are left
out.  Reading is strict: a field that is not known, a value of the wrong kind and a key that is
given twice are problems, and all of them are reported.
-/

namespace DocPromotion

open Yaml (Node Document)

/-! ### Writing -/

/-- A field with a text, left out if the text is empty. -/
def textField (key : Text) (t : Text) : List (Node × Node) :=
  if t.isEmpty then [] else [(.text key, .text t)]

/-- A field that is always written. -/
def field (key : Text) (n : Node) : List (Node × Node) := [(.text key, n)]

/-- A field with a list, left out if the list is empty. -/
def listField (key : Text) (ns : List Node) : List (Node × Node) :=
  if ns.isEmpty then [] else [(.text key, .list ns)]

/-- A field that is left out if it has no value. -/
def optionField (key : Text) (n : Option Node) : List (Node × Node) :=
  n.toList.map (Node.text key, ·)

/-- A tag as a node. -/
def Tag.toNode (t : Tag) : Node :=
  .map (textField "name" t.name ++ field "type" (.text t.type)
    ++ textField "description" t.description)

/-- A documentation block as a node. -/
def DocBlock.toNode (b : DocBlock) : Node :=
  .map (textField "summary" b.summary ++ listField "params" (b.params.map Tag.toNode)
    ++ optionField "return" (b.result.map Tag.toNode) ++ optionField "var" (b.var.map Tag.toNode))

/-- The field of a documentation block, left out if the block is empty. -/
def docField (b : Option DocBlock) : List (Node × Node) :=
  optionField "doc" ((b.bind DocBlock.prune).map DocBlock.toNode)

/-- A parameter as a node. -/
def Param.toNode (p : Param) : Node :=
  .map (field "name" (.text p.name) ++ textField "type" p.declared
    ++ textField "visibility" p.visibility)

/-- A method as a node. -/
def Method.toNode (m : Method) : Node :=
  .map (field "name" (.text m.name) ++ docField m.doc
    ++ listField "params" (m.params.map Param.toNode) ++ textField "returns" m.result)

/-- A property statement as a node. -/
def Property.toNode (p : Property) : Node :=
  .map (field "names" (.texts p.names) ++ textField "type" p.declared ++ docField p.doc)

/-- A class as a node. -/
def ClassDecl.toNode (c : ClassDecl) : Node :=
  .map (field "name" (.text c.name)
    ++ (if c.isInterface then field "interface" (.bool true) else [])
    ++ listField "extends" (c.parents.map Node.text)
    ++ listField "methods" (c.methods.map Method.toNode)
    ++ listField "properties" (c.properties.map Property.toNode))

/-- The imports of a file in the order in which they are written. -/
def sortedUses (uses : List (Text × Text)) : List (Text × Text) :=
  uses.mergeSort fun a b => !Text.naturalLess b.1 a.1

/-- The field of the imports, left out if there are none. -/
def usesField (uses : List (Text × Text)) : List (Node × Node) :=
  if uses.isEmpty then []
  else field "uses" (.map ((sortedUses uses).map fun u => (.text u.1, .text u.2)))

/-- A file as a node. -/
def SourceFile.toNode (f : SourceFile) : Node :=
  .map (textField "namespace" f.ns ++ usesField f.uses
    ++ field "classes" (.list (f.classes.map ClassDecl.toNode)))

/-! ### Reading -/

namespace Tag

/-- Reads a tag. -/
def ofNode : Node → DecodeM (Option Tag) :=
  readRecord .tag ⟨[], [], []⟩ fun key =>
    if key == "name" then reading readText fun t a => { a with name := t }
    else if key == "type" then reading readText fun t a => { a with type := t }
    else if key == "description" then reading readText fun t a => { a with description := t }
    else none

end Tag

namespace DocBlock

/-- Reads a documentation block. -/
def ofNode : Node → DecodeM (Option DocBlock) :=
  readRecord .docBlock ⟨[], [], none, none⟩ fun key =>
    if key == "summary" then reading readText fun t a => { a with summary := t }
    else if key == "params" then
      reading (readList .tag (readPresent .tag Tag.ofNode)) fun ts a => { a with params := ts }
    else if key == "return" then
      reading (readPresent .tag Tag.ofNode) fun t a => { a with result := some t }
    else if key == "var" then
      reading (readPresent .tag Tag.ofNode) fun t a => { a with var := some t }
    else none

end DocBlock

namespace Param

/-- Reads a parameter. -/
def ofNode : Node → DecodeM (Option Param) :=
  readRecord .param ⟨[], [], [], false⟩ fun key =>
    if key == "name" then reading readText fun t a => { a with name := t }
    else if key == "type" then reading readText fun t a => { a with declared := t }
    else if key == "visibility" then reading readText fun t a => { a with visibility := t }
    else none

end Param

namespace Method

/-- Reads a method. -/
def ofNode : Node → DecodeM (Option Method) :=
  readRecord .method ⟨[], none, [], [], false⟩ fun key =>
    if key == "name" then reading readText fun t a => { a with name := t }
    else if key == "doc" then reading (readPresent .docBlock DocBlock.ofNode) fun b a =>
        { a with doc := some b }
    else if key == "params" then
      reading (readList .param (readPresent .param Param.ofNode)) fun ps a =>
        { a with params := ps }
    else if key == "returns" then reading readText fun t a => { a with result := t }
    else none

end Method

namespace Property

/-- Reads a property statement. -/
def ofNode : Node → DecodeM (Option Property) :=
  readRecord .property ⟨[], [], none⟩ fun key =>
    if key == "names" then
      reading (readList .text readText) fun ts a => { a with names := ts }
    else if key == "type" then reading readText fun t a => { a with declared := t }
    else if key == "doc" then reading (readPresent .docBlock DocBlock.ofNode) fun b a =>
        { a with doc := some b }
    else none

end Property

namespace ClassDecl

/-- Reads a class. -/
def ofNode : Node → DecodeM (Option ClassDecl) :=
  readRecord .classDecl ⟨[], false, [], [], []⟩ fun key =>
    if key == "name" then reading readText fun t a => { a with name := t }
    else if key == "interface" then reading readBool fun b a => { a with isInterface := b }
    else if key == "extends" then
      reading (readList .text readText) fun ts a => { a with parents := ts }
    else if key == "methods" then
      reading (readList .method (readPresent .method Method.ofNode)) fun ms a =>
        { a with methods := ms }
    else if key == "properties" then
      reading (readList .property (readPresent .property Property.ofNode)) fun ps a =>
        { a with properties := ps }
    else none

end ClassDecl

/-- Sets what an alias stands for. -/
def setUse (name target : Text) (uses : List (Text × Text)) : List (Text × Text) :=
  uses.filter (·.1 != name) ++ [(name, target)]

/-- Reads an import.  A key without a value is dropped; a value that is null is empty, but does not
replace another one when it is merged. -/
def readUse : EntryReader (List (Text × Text)) := fun k v p => do
  match ← readText k with
  | none => return p
  | some name =>
    match p.see (.ofText name) with
    | (true, p) => return p
    | (false, p) =>
      match ← readText v with
      | some t => return { p with value := setUse name t p.value }
      | none =>
        let isNull := (← readThe DecodeContext).document.tag v == "!!null"
        let isNew := p.seen?.isNone || !p.value.any (·.1 == name)
        return if isNull && isNew then { p with value := setUse name [] p.value } else p

/-- Reads the imports of a file. -/
def readUses (n : Node) : DecodeM (Option (List (Text × Text))) :=
  DecodeM.visit n fun n =>
    match n with
    | .mapping _ _ entries => readMapping readUse [] entries
    | n => readScalar .uses n fun _ _ => none

namespace SourceFile

/-- Reads a file. -/
def readNode (n : Node) : DecodeM (Option SourceFile) :=
  DecodeM.visit n <|
    readRecord .file .empty fun key =>
      if key == "namespace" then reading readText fun t a => { a with ns := t }
      else if key == "uses" then reading readUses fun us a => { a with uses := us }
      else if key == "classes" then
        reading (readList .classDecl (readPresent .classDecl ClassDecl.ofNode)) fun cs a =>
          { a with classes := cs }
      else none

/-- The file that a document describes, or what is wrong with it.  A document without a value is
an empty file. -/
def ofDocument (d : Document) : Except DecodeFailure SourceFile :=
  (decode d readNode).map (·.getD .empty)

end SourceFile

end DocPromotion
