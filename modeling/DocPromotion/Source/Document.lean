import DocPromotion.Source.Format
import DocPromotion.Yaml.Printer
import DocPromotion.Yaml.Reader

/-!
Source files as texts.

`SourceFile.encode` writes a file, `SourceFile.load` reads one.  A text without any document
describes a file without anything in it.
-/

namespace DocPromotion

/-- Why a text describes no file. -/
inductive LoadError where
  /-- The text has no first document. -/
  | read (error : Yaml.ReadError)
  /-- The document is not that of a file. -/
  | decode (failure : DecodeFailure)
deriving Repr, DecidableEq

namespace LoadError

/-- The wording of an error. -/
def message : LoadError → Text
  | .read e => "memhost: can't decode file: " ++ e.message
  | .decode failure => "memhost: can't decode file: " ++ failure.message

/-- Whether the text itself is at fault, rather than what it says. -/
def isSyntax : LoadError → Bool
  | .decode (.format _) => false
  | _ => true

end LoadError

namespace SourceFile

/-- The text of a file. -/
def encode (f : SourceFile) : Text := f.toNode.render

/-- The file that a text describes. -/
def load (t : Text) : Except LoadError SourceFile :=
  match Yaml.Document.read t with
  | .error e => .error (.read e)
  | .ok none => .ok .empty
  | .ok (some d) => (ofDocument d).mapError .decode

end SourceFile

end DocPromotion
