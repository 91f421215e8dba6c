import DocPromotion.Config
import DocPromotion.Double
import DocPromotion.Settings.Path

/-!
Settings from a settings file.

A settings file is a map from keys to values.  Keys are matched up to case, a key with the value
null leaves its field unset, and a key that is not known is an error.  The entries are taken in
the order of their keys, and the first error counts.

Settings are handed over in a written form, in which every number is finite and every key of a map
is a name.  Where a value has no such form, the error tells how far the writing came.
-/

namespace DocPromotion

/-- A value of a settings file. -/
inductive RawValue where
  | null
  | bool (b : Bool)
  | int (n : Int)
  | float (x : Double)
  /-- A number that is not finite, with its name. -/
  | infinite (name : Text)
  | string (t : Text)
  | list (items : List RawValue)
  | map (entries : List (Text × RawValue))
  /-- A map with a key that is no name. -/
  | nameless
deriving Repr

namespace RawValue

/-- The word for the kind of a value. -/
def kind : RawValue → Text
  | .null => "null"
  | .bool _ => "bool"
  | .int _ => "number"
  | .float _ => "number"
  | .infinite _ => "number"
  | .string _ => "string"
  | .list _ => "array"
  | .map _ => "object"
  | .nameless => "object"

/-- The map with some entries, which it holds in the order of their names. -/
def ofEntries (entries : List (Text × RawValue)) : RawValue :=
  .map (entries.mergeSort fun a b => decide (a.1 ≤ b.1))

end RawValue

/-- The settings that a file makes, field by field. -/
structure Settings where
  params : Option Bool
  returns : Option Bool
  properties : Option Bool
  paramEligibility : Option Eligibility
  resultEligibility : Option Eligibility
  multiProperty : Option MultiProperty
deriving Repr, DecidableEq

namespace Settings

/-- Nothing is set. -/
def empty : Settings := ⟨none, none, none, none, none, none⟩

/-- The settings of the fields that are set, in the order of the fields. -/
def toList (s : Settings) : List Setting :=
  (s.params.map (Setting.rule .param)).toList
    ++ (s.returns.map (Setting.rule .result)).toList
    ++ (s.properties.map (Setting.rule .property)).toList
    ++ (s.paramEligibility.map Setting.paramEligibility).toList
    ++ (s.resultEligibility.map Setting.resultEligibility).toList
    ++ (s.multiProperty.map Setting.multiProperty).toList

/-- The option that settings make. -/
def options (s : Settings) : Options := .nested (s.toList.map Options.setting)

/-- The option that settings make, with further options after them. -/
def build (s : Settings) (options : List Options) : Options := .nested [s.options, .nested options]

end Settings

/-- The fields of a settings file. -/
inductive Field where
  | params
  | returns
  | properties
  | paramEligibility
  | resultEligibility
  | multiProperty
deriving Repr, DecidableEq

namespace Field

/-- All fields. -/
def all : List Field :=
  [.params, .returns, .properties, .paramEligibility, .resultEligibility, .multiProperty]

/-- The key of a field. -/
def key : Field → Text
  | .params => "params"
  | .returns => "returns"
  | .properties => "properties"
  | .paramEligibility => "param-eligibility"
  | .resultEligibility => "return-eligibility"
  | .multiProperty => "multi-property"

/-- What a field expects, for messages. -/
def expected : Field → Text
  | .params | .returns | .properties => "bool"
  | .paramEligibility | .resultEligibility =>
    "level.Eligibility: JSON value must be string type"
  | .multiProperty => "level.MultiProperty: JSON value must be string type"

/-- The field with a key. -/
def ofKey? (key : Text) : Option Field := all.find? fun f => Text.equalFold f.key key

end Field

/-- What can be wrong with a settings file. -/
inductive SettingsError where
  | level (error : LevelError)
  | unknownField (key : Text)
  /-- The value of a field is of the wrong kind. -/
  | mismatch (kind : Text) (field : Field)
  /-- The file is no map. -/
  | notMap (kind : Text)
  /-- The file holds a number that is not finite. -/
  | infinite (name : Text)
  /-- A map inside of the file has a key that is no name. -/
  | nameless (path : Text) (offset : Nat)
deriving Repr, DecidableEq

/-- The wording of an error. -/
def SettingsError.message : SettingsError → Text
  | .level e => "decoding settings: " ++ e.message
  | .unknownField key => "decoding settings: json: unknown field " ++ Text.quote key
  | .mismatch kind field =>
    "decoding settings: json: cannot unmarshal " ++ kind ++ " into Go struct field Settings."
      ++ field.key ++ " of type " ++ field.expected
  | .notMap kind =>
    "decoding settings: json: cannot unmarshal " ++ kind
      ++ " into Go value of type hostplugin.Settings"
  | .infinite name => "encoding settings: json: unsupported value: " ++ name
  | .nameless path offset =>
    "encoding settings: json: unsupported value: jsontext: object member name must be a string"
      ++ " within " ++ Text.quote (Path.shown path) ++ " after offset " ++ Text.ofNat offset

namespace RawValue

/-! ### The written form -/

/-- How many bytes a piece of a text takes between quotes. -/
def pieceWidth (p : Text.Piece) : Nat :=
  match p.char? with
  | none => 6
  | some c =>
    if ['"', '\\', '\x08', '\x0c', '\n', '\r', '\t'].contains c then 2
    else if c.toNat < 0x20 || ['<', '>', '&', '\u2028', '\u2029'].contains c then 6
    else p.bytes.length

/-- How many bytes a text takes with its quotes. -/
def textWidth (t : Text) : Nat :=
  (Text.pieces t).foldl (fun width p => width + pieceWidth p) 2

/-- Numbers are written with an exponent from `1e21` on and below `1e-6`. -/
def numberStyle : Double.Style := ⟨-6, 20, 1⟩

mutual

/-- Where the written form of a value ends if it starts at an offset. -/
def writtenTo (path : Text) (start : Nat) : RawValue → Except SettingsError Nat
  | .null => .ok (start + 4)
  | .bool b => .ok (start + if b then 4 else 5)
  | .int n => .ok (start + (Text.ofInt n).length)
  | .float x => .ok (start + (x.text numberStyle).length)
  | .infinite name => .error (.infinite name)
  | .string t => .ok (start + textWidth t)
  | .list items => do return (← itemsWrittenTo path 0 (start + 1) items) + 1
  | .map entries => do return (← entriesWrittenTo path 0 (start + 1) entries) + 1
  | .nameless => .error (.nameless path (start + 2))

/-- Where the written form of the items of a list ends, `index` of which stand before. -/
def itemsWrittenTo (path : Text) (index start : Nat) : List RawValue → Except SettingsError Nat
  | [] => .ok start
  | v :: vs => do
    let start := start + min index 1
    let stop ← writtenTo (Path.item path index) start v
    itemsWrittenTo path (index + 1) stop vs

/-- Where the written form of the entries of a map ends, `index` of which stand before. -/
def entriesWrittenTo (path : Text) (index start : Nat) :
    List (Text × RawValue) → Except SettingsError Nat
  | [] => .ok start
  | (name, v) :: entries => do
    let start := start + min index 1
    let stop ← writtenTo (Path.entry path name) (start + textWidth name + 1) v
    entriesWrittenTo path (index + 1) stop entries

end

end RawValue

namespace Settings

/-- Sets a field from a value. -/
def setField (s : Settings) (f : Field) (v : RawValue) : Except SettingsError Settings :=
  match f, v with
  | .params, .null => .ok { s with params := none }
  | .returns, .null => .ok { s with returns := none }
  | .properties, .null => .ok { s with properties := none }
  | .paramEligibility, .null => .ok { s with paramEligibility := none }
  | .resultEligibility, .null => .ok { s with resultEligibility := none }
  | .multiProperty, .null => .ok { s with multiProperty := none }
  | .params, .bool b => .ok { s with params := some b }
  | .returns, .bool b => .ok { s with returns := some b }
  | .properties, .bool b => .ok { s with properties := some b }
  | .paramEligibility, .string t => do
    let level ← (Eligibility.ofText (Text.repair t)).mapError .level
    return { s with paramEligibility := some level }
  | .resultEligibility, .string t => do
    let level ← (Eligibility.ofText (Text.repair t)).mapError .level
    return { s with resultEligibility := some level }
  | .multiProperty, .string t => do
    let level ← (MultiProperty.ofText (Text.repair t)).mapError .level
    return { s with multiProperty := some level }
  | f, v => .error (.mismatch v.kind f)

/-- Reads the entries of a map, one after the other. -/
def readEntries (s : Settings) : List (Text × RawValue) → Except SettingsError Settings
  | [] => .ok s
  | (name, v) :: entries => do
    let key := Text.repair name
    match Field.ofKey? key with
    | none => .error (.unknownField key)
    | some f => (← s.setField f v).readEntries entries

/-- The settings of a value.  The whole value is written before any of it is read. -/
def ofRaw (v : RawValue) : Except SettingsError Settings := do
  let _ ← v.writtenTo [] 0
  match v with
  | .null => .ok .empty
  | .map entries => readEntries .empty entries
  | v => .error (.notMap v.kind)

end Settings

end DocPromotion
