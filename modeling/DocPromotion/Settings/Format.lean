import DocPromotion.Decoder.Value
import DocPromotion.Settings
import DocPromotion.Source.Document

/-!
Settings files as texts.

A settings file is a YAML mapping whose keys are taken as texts.  A point in time counts as a text
as well.  A document without a value sets nothing.
-/

namespace DocPromotion

open Yaml (Node Document)

namespace RawValue

/-- The name that a value makes as the key of an entry. -/
def nameOf? : Value → Option Text
  | .text t => some t
  | .int n => some (Text.ofInt n)
  | .time t => some t.text
  | _ => none

/-- A number that is not finite among the keys of entries, which has no written form. -/
def infiniteKey? (entries : List (Value × Value)) : Option Text :=
  entries.findSome? fun e =>
    match e.1 with
    | .infinite name => some name
    | _ => none

mutual

/-- A value of a document as one of a settings file. -/
def ofValue : Value → RawValue
  | .null => .null
  | .bool b => .bool b
  | .int n => .int n
  | .float x => .float x
  | .infinite name => .infinite name
  | .time t => .string t.text
  | .text t => .string t
  | .list items => .list (ofItems items)
  | .textMap entries => .ofEntries (ofTextEntries entries)
  | .mixedMap entries =>
    match infiniteKey? entries with
    | some name => .infinite name
    | none =>
      match ofMixedEntries entries with
      | some entries => .ofEntries entries
      | none => .nameless

/-- The items of a list. -/
def ofItems : List Value → List RawValue
  | [] => []
  | v :: vs => ofValue v :: ofItems vs

/-- The entries of a map from texts. -/
def ofTextEntries : List (Text × Value) → List (Text × RawValue)
  | [] => []
  | (k, v) :: entries => (k, ofValue v) :: ofTextEntries entries

/-- The entries of a map from values, if all of its keys are names. -/
def ofMixedEntries : List (Value × Value) → Option (List (Text × RawValue))
  | [] => some []
  | (k, v) :: entries =>
    match nameOf? k, ofMixedEntries entries with
    | some name, some rest => some ((name, ofValue v) :: rest)
    | _, _ => none

end

end RawValue

/-- Why a text makes no settings. -/
inductive SettingsFileError where
  /-- The text has no first document. -/
  | read (error : Yaml.ReadError)
  /-- The document is no mapping, or something in it cannot be read. -/
  | decode (failure : DecodeFailure)
  /-- The mapping is not one of settings. -/
  | settings (error : SettingsError)
deriving Repr, DecidableEq

/-- The wording of an error in the settings file with a name. -/
def SettingsFileError.message (name : Text) : SettingsFileError → Text
  | .read e => "can't parse " ++ name ++ ": " ++ e.message
  | .decode failure => "can't parse " ++ name ++ ": " ++ failure.message
  | .settings e => e.message

namespace Settings

/-- Reads the entries of a settings file. -/
def readNode (n : Node) : DecodeM (Option (List (Text × Value))) :=
  DecodeM.visit n fun n => do
    match n with
    | .mapping _ _ entries =>
      let fuel := (← readThe DecodeContext).fuel
      readMapping (Value.readTextEntry (Value.read fuel)) [] entries
    | n => readScalar .settings n fun _ _ => none

/-- The settings that a document makes. -/
def ofDocument (d : Document) : Except SettingsFileError Settings := do
  match ← (decode d readNode).mapError .decode with
  | none => .ok .empty
  | some entries => (ofRaw (.ofValue (.textMap entries))).mapError .settings

/-- The settings that a text makes. -/
def load (t : Text) : Except SettingsFileError Settings :=
  match Yaml.Document.read t with
  | .error e => .error (.read e)
  | .ok none => .ok .empty
  | .ok (some d) => ofDocument d

end Settings

end DocPromotion
