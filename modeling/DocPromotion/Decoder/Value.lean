import DocPromotion.Decoder

/-!
Values of any kind in YAML documents.

Where nothing is known about a node, it is read as what it says it is.  A mapping whose keys are
all texts is a map from texts; any other mapping is a map from values.  A collection is no key.
-/

namespace DocPromotion

open Yaml (Node Meaning Document Timestamp integer? number? mergeTag)
open DecodeM (visit)

/-- A value in a document. -/
inductive Value where
  | null
  | bool (b : Bool)
  | int (n : Int)
  | float (x : Double)
  /-- A number that is not finite, with its name. -/
  | infinite (name : Text)
  | time (t : Timestamp)
  | text (t : Text)
  | list (items : List Value)
  | textMap (entries : List (Text × Value))
  | mixedMap (entries : List (Value × Value))
deriving Repr

namespace Value

/-! ### Showing values in messages -/

/-- The names of the months. -/
def monthNames : List String :=
  ["January", "February", "March", "April", "May", "June", "July", "August", "September",
    "October", "November", "December"]

/-- A point in time as it is shown in messages. -/
def shownTime (t : Timestamp) : Text :=
  let month : Text := (monthNames[t.month - 1]?).getD ""
  let nanoseconds := (t.fraction ++ List.replicate (9 - t.fraction.length) '0').foldl
    (fun n c => n * 10 + Yaml.decimalDigit c) 0
  let zone : Text := if t.offset = 0 then "time.UTC" else "time.Location(\"\")"
  "time.Date(" ++ Text.joinWith ", " [Text.ofNat t.year, "time." ++ month, Text.ofNat t.day,
    Text.ofNat t.hour, Text.ofNat t.minute, Text.ofNat t.second, Text.ofNat nanoseconds, zone]
    ++ ")"

/-- Numbers are shown with an exponent from a million on and below one in ten thousand. -/
def shownStyle : Double.Style := ⟨-4, 5, 2⟩

/-- An integer as it is shown in messages; those that need all of 64 bits are shown in base
sixteen. -/
def shownInt (n : Int) : Text :=
  if n < 0x8000000000000000 then Text.ofInt n else "0x" ++ Text.ofChars (Nat.toDigits 16 n.natAbs)

/-- The place of a key among keys of all kinds. -/
def rank : Value → Nat
  | .null => 0
  | .bool _ => 1
  | .int _ => 2
  | .float _ => 3
  | .infinite _ => 3
  | .time _ => 4
  | .text _ => 5
  | .list _ => 6
  | .textMap _ => 6
  | .mixedMap _ => 6

/-- Whether a key is shown no later than another one. -/
def atMost (a b : Value) : Bool :=
  match a, b with
  | .bool a, .bool b => !a || b
  | .int a, .int b => a ≤ b
  | .text a, .text b => decide (a ≤ b)
  | a, b => a.rank ≤ b.rank

/-- Parts of a collection in braces, after its type. -/
def shownParts (type : Text) (parts : List Text) : Text :=
  type ++ "\x7b" ++ Text.joinWith ", " parts ++ "\x7d"

mutual

/-- A value as it is shown in messages. -/
def shown : Value → Text
  | .null => "interface \x7b\x7d(nil)"
  | .bool b => if b then "true" else "false"
  | .int n => shownInt n
  | .float x => x.text shownStyle
  | .infinite name => name
  | .time t => shownTime t
  | .text t => Text.quote t
  | .list items => shownParts "[]interface \x7b\x7d" (shownItems items)
  | .textMap entries =>
    let parts := (shownEntries entries).mergeSort fun a b => decide (a.1 ≤ b.1)
    shownParts "map[string]interface \x7b\x7d" (parts.map fun e => Text.quote e.1 ++ ":" ++ e.2)
  | .mixedMap entries =>
    let parts := (shownPairs entries).mergeSort fun a b => a.1.atMost b.1
    shownParts "map[interface \x7b\x7d]interface \x7b\x7d" (parts.map (·.2))

/-- The items of a list as they are shown. -/
def shownItems : List Value → List Text
  | [] => []
  | v :: vs => v.shown :: shownItems vs

/-- The entries of a map from texts, with their values as they are shown. -/
def shownEntries : List (Text × Value) → List (Text × Text)
  | [] => []
  | (k, v) :: entries => (k, v.shown) :: shownEntries entries

/-- The entries of a map from values as they are shown, with their keys. -/
def shownPairs : List (Value × Value) → List (Value × Text)
  | [] => []
  | (k, v) :: entries => (k, k.shown ++ ":" ++ v.shown) :: shownPairs entries

end

/-! ### Reading -/

/-- The value of a scalar. -/
def ofScalar (d : Meaning) (t : Text) : Value :=
  match d with
  | .null => .null
  | .bool b => .bool b
  | .int => (integer? (Yaml.ungrouped (Text.chars t))).elim (.text t) .int
  | .float => (number? (Text.chars t)).elim (.text t) .float
  | .infinite name => .infinite name
  | .time => (Timestamp.ofChars? (Text.chars t)).elim (.text t) .time
  | .text | .binary | .tagged _ | .misfit _ _ => .text t

/-- Sets the value of an entry with a key. -/
def setEntry {κ α : Type} [BEq κ] (key : κ) (a : α) (entries : List (κ × α)) : List (κ × α) :=
  entries.filter (·.1 != key) ++ [(key, a)]

/-- Reads an entry of a map from texts. -/
def readTextEntry (read : Node → DecodeM (Option Value)) : EntryReader (List (Text × Value)) :=
  fun k v p => do
    match ← readText k with
    | none => return p
    | some name =>
      match p.see (.ofText name) with
      | (true, p) => return p
      | (false, p) =>
        match ← read v with
        | some value => return { p with value := setEntry name value p.value }
        | none => return p

/-- Reads an entry of a map from values. -/
def readMixedEntry (read : Node → DecodeM (Option Value)) :
    EntryReader (List (SeenKey × Value × Value)) :=
  fun k v p => do
    match ← read k with
    | none => return p
    | some key =>
      match ← SeenKey.ofNode? ((← readThe DecodeContext).document.resolve k) with
      | none => throw (.invalidKey key.shown)
      | some name =>
        match p.see name with
        | (true, p) => return p
        | (false, p) =>
          match ← read v with
          | some value => return { p with value := setEntry name (key, value) p.value }
          | none => return p

/-- Whether a key is that of a map from texts. -/
def isTextKey (d : Document) (k : Node) : Bool := d.tag k == "!!str" || d.tag k == mergeTag

/-- Reads a value of any kind. -/
def read : (fuel : Nat) → Node → DecodeM (Option Value)
  | 0, _ => return none
  | fuel + 1, n =>
    visit n fun n => do
      match n with
      | .scalar _ d value => return some (ofScalar d (← settle d value))
      | .sequence _ _ items => return some (.list (← readItems (read fuel) items))
      | .mapping _ _ entries =>
        let document := (← readThe DecodeContext).document
        if entries.all fun e => isTextKey document e.1 then
          return (← readMapping (readTextEntry (read fuel)) [] entries).map .textMap
        else
          return (← readMapping (readMixedEntry (read fuel)) [] entries).map fun entries =>
            .mixedMap (entries.map (·.2))
      | .alias .. => return none

end Value

end DocPromotion
