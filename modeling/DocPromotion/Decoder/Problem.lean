import DocPromotion.Text.Quoted
import DocPromotion.Yaml.Node

/-!
What can be wrong with the contents of a YAML document.

A problem is noted and the decoding goes on, so that all problems are reported together.  A
failure ends it.
-/

namespace DocPromotion

open Yaml (Node)

/-- What a node can be read as. -/
inductive Content where
  | text
  | truth
  | tag
  | docBlock
  | param
  | method
  | property
  | classDecl
  | file
  /-- The imports of a file. -/
  | uses
  /-- The entries of a settings file. -/
  | settings
  | list (items : Content)
  /-- Something that may be missing. -/
  | option (present : Content)
deriving Repr, DecidableEq

/-- The name of what a node can be read as, for messages. -/
def Content.name : Content → Text
  | .text => "string"
  | .truth => "bool"
  | .tag => "memhost.Tag"
  | .docBlock => "memhost.DocBlock"
  | .param => "memhost.Param"
  | .method => "memhost.Method"
  | .property => "memhost.Property"
  | .classDecl => "memhost.Class"
  | .file => "memhost.File"
  | .uses => "map[string]string"
  | .settings => "map[string]interface \x7b\x7d"
  | .list .text => "[]string"
  | .list items => "[]*" ++ items.name
  | .option present => "*" ++ present.name

/-- What is wrong with a document. -/
inductive FormatProblem where
  | unknownField (line : Nat) (name : Text) (content : Content)
  /-- Two keys of a mapping stand for the same field. -/
  | repeatedField (line : Nat) (name : Text) (content : Content)
  /-- A key is given twice. -/
  | duplicateKey (line : Nat) (key : Text) (first : Nat)
  /-- A node is of the wrong kind. -/
  | mismatch (line : Nat) (tag value : Text) (content : Content)
deriving Repr, DecidableEq

/-- A scalar as it is shown in messages, cut if it is long. -/
def shownScalar (t : Text) : Text :=
  if 10 < t.length then t.take 7 ++ "..." else t

/-- The value of a node as it is shown after its tag: between backticks, unless the tag is one of
collections. -/
def shownValue (tag value : Text) : Text :=
  if tag == "!!seq" || tag == "!!map" then value else " \x60" ++ shownScalar value ++ "\x60"

/-- The wording of a problem. -/
def FormatProblem.message : FormatProblem → Text
  | .unknownField line name content =>
    "line " ++ Text.ofNat line ++ ": field " ++ name ++ " not found in type " ++ content.name
  | .repeatedField line name content =>
    "line " ++ Text.ofNat line ++ ": field " ++ name ++ " already set in type " ++ content.name
  | .duplicateKey line key first =>
    "line " ++ Text.ofNat line ++ ": mapping key " ++ Text.quote key ++ " already defined at line "
      ++ Text.ofNat first
  | .mismatch line tag value content =>
    "line " ++ Text.ofNat line ++ ": cannot unmarshal " ++ tag ++ shownValue tag value ++ " into "
      ++ content.name

/-- A node that cannot be read as some content. -/
def FormatProblem.ofNode (n : Node) (content : Content) : FormatProblem :=
  .mismatch n.line n.tag n.value content

/-- The kind of a key and its text, by which keys are told apart. -/
def keyIdentity (n : Node) : Nat × Text :=
  match n with
  | .scalar .. => (0, n.value)
  | .sequence .. => (1, n.value)
  | .mapping .. => (2, n.value)
  | .alias .. => (3, n.value)

/-- The keys of a mapping that were given before. -/
def duplicateKeys : List Node → List FormatProblem
  | [] => []
  | k :: ks =>
    (ks.filter fun k' => keyIdentity k' == keyIdentity k).map
      (fun k' => .duplicateKey k'.line k'.value k.line)
    ++ duplicateKeys ks

/-- What ends the decoding of a document. -/
inductive DecodeError where
  /-- An alias is found again inside of what it stands for. -/
  | cyclicAnchor (name : Text)
  /-- A scalar is not spelled as its tag says. -/
  | wrongTag (found value tag : Text)
  /-- Bytes are not written in base 64. -/
  | invalidBase64
  /-- What is to be merged is no mapping. -/
  | invalidMerge
  /-- A collection is the key of an entry. -/
  | invalidKey (shown : Text)
  /-- Nearly everything in a large document comes from aliases. -/
  | excessiveAliasing
deriving Repr, DecidableEq

/-- The wording of a failure. -/
def DecodeError.message : DecodeError → Text
  | .cyclicAnchor name => "yaml: anchor '" ++ name ++ "' value contains itself"
  | .wrongTag found value tag =>
    "yaml: cannot decode " ++ found ++ " \x60" ++ value ++ "\x60 as a " ++ tag
  | .invalidBase64 => "yaml: !!binary value contains invalid base64 data"
  | .invalidMerge => "yaml: map merge requires map or sequence of maps as the value"
  | .invalidKey shown => "yaml: invalid map key: " ++ shown
  | .excessiveAliasing => "yaml: document contains excessive aliasing"

/-- The wording of the problems with a document, one a line. -/
def problemText (problems : List FormatProblem) : Text :=
  let lines : Text := problems.flatMap fun p => "\n  " ++ p.message
  "yaml: unmarshal errors:" ++ lines

end DocPromotion
