import DocPromotion.LogRecord

/-!
Records as lines of text.

A line is a sequence of fields `key=value`.  The fields of a group have the name of the group in
front of their keys, so a group without fields leaves no trace.  Whatever would make a line
ambiguous to read is written between quotes.
-/

namespace DocPromotion

/-- The characters that can stand in a line as they are: those that show when printed, and the one
of the code 127, but no blanks, and neither an equals sign nor a quote. -/
def isBareChar (c : Char) : Bool :=
  (Text.isPrintable c || c == '\x7F') && c != ' ' && c != '=' && c != '"' && c != '\uFFFD'

/-- Whether a text can stand in a line as it is. -/
def isBareword (t : Text) : Bool := !t.isEmpty && (Text.chars t).all isBareChar

/-- A text as it stands in a line. -/
def bareOrQuoted (t : Text) : Text := if isBareword t then t else Text.quote t

mutual

/-- The fields that show a value under a key. -/
def LogValue.fields (key : Text) : LogValue → List (Text × Text)
  | .text t => [(key, bareOrQuoted t)]
  | .flag on => [(key, if on then "true" else "false")]
  | .count n => [(key, Text.ofNat n)]
  | .group attributes => LogValue.fieldsIn (key ++ ".") attributes
  | .stray e => [(key, bareOrQuoted ("!ERROR:" ++ e.message))]

/-- The fields that show attributes inside of a group. -/
def LogValue.fieldsIn (group : Text) : List (Text × LogValue) → List (Text × Text)
  | [] => []
  | (key, v) :: attributes => v.fields (group ++ key) ++ LogValue.fieldsIn group attributes

end

namespace LogRecord

/-- The fields of a record. -/
def fields (r : LogRecord) : List (Text × Text) :=
  ("level", r.severity.label) :: ("msg", bareOrQuoted r.message)
    :: LogValue.fieldsIn [] r.attributes

/-- The line of a record. -/
def line (r : LogRecord) : Text :=
  Text.joinWith " " (r.fields.map fun (key, shown) => bareOrQuoted key ++ "=" ++ shown) ++ "\n"

end LogRecord

end DocPromotion
