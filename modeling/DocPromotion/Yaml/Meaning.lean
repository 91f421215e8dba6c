import DocPromotion.Double
import DocPromotion.Yaml.Timestamp

/-!
What a scalar of a YAML document denotes.

A scalar without quotes may denote null, a truth value, a number or a point in time; otherwise it
denotes its own text.  The rules are those of the core schema, extended by the older spellings of
numbers: digits may be grouped by underscores, and a leading zero means octal.  A tag in front of
a scalar fixes what it denotes, if it can be read that way.
-/

namespace DocPromotion.Yaml

/-- What a scalar denotes. -/
inductive Meaning where
  | null
  | bool (b : Bool)
  | int
  | float
  /-- A number that is not finite, with its name. -/
  | infinite (name : Text)
  | time
  | text
  /-- Bytes, written in base 64. -/
  | binary
  /-- A text under a tag that says nothing about its spelling. -/
  | tagged (tag : Text)
  /-- Nothing: the scalar is spelled like a scalar of the tag `found`, but has another one. -/
  | misfit (found tag : Text)
deriving Repr, DecidableEq

/-- The tag of the keys under which mappings are merged. -/
def mergeTag : Text := "!!merge"

/-- The tag of a scalar that denotes something. -/
def Meaning.tag : Meaning → Text
  | .null => "!!null"
  | .bool _ => "!!bool"
  | .int => "!!int"
  | .float => "!!float"
  | .infinite _ => "!!float"
  | .time => "!!timestamp"
  | .text => "!!str"
  | .binary => "!!binary"
  | .tagged tag => tag
  | .misfit _ tag => tag

/-- Plain scalars with a fixed meaning. -/
def fixedScalars : List (String × Meaning) := [
  ("", .null), ("~", .null), ("null", .null), ("Null", .null), ("NULL", .null),
  ("true", .bool true), ("True", .bool true), ("TRUE", .bool true),
  ("false", .bool false), ("False", .bool false), ("FALSE", .bool false),
  (".nan", .infinite "NaN"), (".NaN", .infinite "NaN"), (".NAN", .infinite "NaN"),
  (".inf", .infinite "+Inf"), (".Inf", .infinite "+Inf"), (".INF", .infinite "+Inf"),
  ("+.inf", .infinite "+Inf"), ("+.Inf", .infinite "+Inf"), ("+.INF", .infinite "+Inf"),
  ("-.inf", .infinite "-Inf"), ("-.Inf", .infinite "-Inf"), ("-.INF", .infinite "-Inf")]

/-! ### Integers -/

/-- The value of a digit in bases up to sixteen. -/
def digitValue? (c : Char) : Option Nat :=
  if '0' ≤ c ∧ c ≤ '9' then some (c.toNat - '0'.toNat)
  else if 'a' ≤ c ∧ c ≤ 'f' then some (c.toNat - 'a'.toNat + 10)
  else if 'A' ≤ c ∧ c ≤ 'F' then some (c.toNat - 'A'.toNat + 10)
  else none

/-- The number that digits write in a base, after the digits that write `n`. -/
def digitsValue? (base n : Nat) : List Char → Option Nat
  | [] => some n
  | c :: cs =>
    match digitValue? c with
    | some d => if d < base then digitsValue? base (n * base + d) cs else none
    | none => none

/-- The number that one or more digits write in a base. -/
def numeral? (base : Nat) : List Char → Option Nat
  | [] => none
  | cs => digitsValue? base 0 cs

/-- The number that digits write in the base that their first characters name: a leading zero
means octal unless a letter after it says otherwise. -/
def prefixed? : List Char → Option Nat
  | '0' :: 'b' :: c :: cs | '0' :: 'B' :: c :: cs => numeral? 2 (c :: cs)
  | '0' :: 'o' :: c :: cs | '0' :: 'O' :: c :: cs => numeral? 8 (c :: cs)
  | '0' :: 'x' :: c :: cs | '0' :: 'X' :: c :: cs => numeral? 16 (c :: cs)
  | '0' :: cs => digitsValue? 8 0 cs
  | cs => numeral? 10 cs

/-- A sign and what follows it; without a sign the text is not negative. -/
def cutSign : List Char → Bool × List Char
  | '-' :: cs => (true, cs)
  | '+' :: cs => (false, cs)
  | cs => (false, cs)

/-- A magnitude with a sign, if it is a number of 64 bits. -/
def signedValue? (negative : Bool) (n : Nat) : Option Int :=
  if negative then if n ≤ 0x8000000000000000 then some (-(n : Int)) else none
  else if n < 0x8000000000000000 then some n else none

/-- The number of 64 bits that a signed numeral, read by `read`, stands for. -/
def signed? (read : List Char → Option Nat) (cs : List Char) : Option Int := do
  let (negative, digits) := cutSign cs
  signedValue? negative (← read digits)

/-- The number of 64 bits that an unsigned numeral stands for. -/
def unsigned? (cs : List Char) : Option Int := do
  let n ← prefixed? cs
  if n < UInt64.size then some (n : Int) else none

/-- Integers of 64 bits, with a base in front or not.  A sign may also stand after `0b` or
`0o`. -/
def integer? (cs : List Char) : Option Int :=
  (signed? prefixed? cs).or ((unsigned? cs).or
    (match cs with
      | '0' :: 'b' :: rest => signed? (numeral? 2) rest
      | '0' :: 'o' :: rest => signed? (numeral? 8) rest
      | _ => none))

/-! ### Decimal fractions -/

/-- The exponent that ends a number: its sign and its digits.  There may be none. -/
def exponent? : List Char → Option (Bool × List Char)
  | [] => some (false, [])
  | e :: cs =>
    if e = 'e' ∨ e = 'E' then
      let (negative, digits) := cutSign cs
      if !digits.isEmpty && digits.all Char.isDigit then some (negative, digits) else none
    else none

/-- A decimal number: its digits, how many of them are fractional, and its exponent. -/
structure Decimal where
  digits : List Char
  fraction : Nat
  negative : Bool
  exponent : List Char

/-- The parts of a decimal number without a sign: digits with a point among them, or a point and
digits, and perhaps an exponent. -/
def decimal? (cs : List Char) : Option Decimal :=
  let (whole, rest) := spanDigits cs
  let (fraction, rest, pointed) :=
    match rest with
    | '.' :: rest => let (f, rest) := spanDigits rest; (f, rest, true)
    | rest => ([], rest, false)
  if whole.isEmpty && (fraction.isEmpty || !pointed) then none
  else
    match exponent? rest with
    | some (negative, exponent) => some ⟨whole ++ fraction, fraction.length, negative, exponent⟩
    | none => none

/-- The nearest double to a decimal number, if it is not too large. -/
def Decimal.double? (d : Decimal) (negative : Bool) : Option Double :=
  let m := (digitsValue? 10 0 d.digits).getD 0
  let shift := (digitsValue? 10 0 d.exponent).getD 0
  Double.ofDecimal? negative m ((if d.negative then -(shift : Int) else shift) - d.fraction)

/-- Decimal numbers in the range of doubles. -/
def fraction? (cs : List Char) : Option Double :=
  let (negative, digits) := cutSign cs
  (decimal? digits).bind (Decimal.double? · negative)

/-- Underscores that stand between two digits are dropped; with any other underscore there is no
result. -/
def dropGrouping? (afterDigit : Bool) : List Char → Option (List Char)
  | [] => some []
  | '_' :: c :: cs =>
    if afterDigit && c.isDigit then (dropGrouping? true cs).map (c :: ·) else none
  | '_' :: [] => none
  | c :: cs => (dropGrouping? c.isDigit cs).map (c :: ·)

/-! ### All scalars -/

/-- A numeral without the underscores that group its digits. -/
def ungrouped (cs : List Char) : List Char := cs.filter (· != '_')

/-- The number that a scalar stands for. -/
def number? (cs : List Char) : Option Double :=
  match integer? (ungrouped cs) with
  | some n => Double.ofInt? n
  | none => fraction? (ungrouped cs)

/-- What a plain scalar that starts with a sign or a digit denotes, if it is no point in time. -/
def numberMeaning (cs : List Char) : Meaning :=
  if (integer? (ungrouped cs)).isSome then .int
  else if (fraction? (ungrouped cs)).isSome then .float
  else .text

/-- What a plain scalar denotes, if it may be a point in time only where `times` says so. -/
def meaningWith (times : Bool) (cs : List Char) : Meaning :=
  match fixedScalars.find? (·.1.toList == cs) with
  | some (_, d) => d
  | none =>
    match cs with
    | [] => .null
    | c :: _ =>
      if c.isDigit || c == '+' || c == '-' then
        if times && (Timestamp.ofChars? cs).isSome then .time else numberMeaning cs
      else if c == '.' then
        match dropGrouping? false cs with
        | some plain => if (fraction? plain).isSome then .float else .text
        | none => .text
      else .text

/-- What a plain scalar denotes. -/
def meaning (cs : List Char) : Meaning := meaningWith true cs

/-- What a plain scalar without a tag denotes: a key for merging, or what it is spelled like. -/
def plainMeaning (cs : List Char) : Meaning :=
  if cs == ['<', '<'] then .tagged mergeTag else meaning cs

/-- The tags that say how their scalars are spelled. -/
def spellingTags : List String := ["!!null", "!!bool", "!!int", "!!float", "!!timestamp"]

/-- Whether an integer counts as a number with a fraction as well: those of 64 bits with a sign
do. -/
def isAlsoFloat (cs : List Char) : Bool :=
  match integer? (ungrouped cs) with
  | some n => n < 0x8000000000000000
  | none => false

/-- What a scalar under a tag denotes. -/
def taggedMeaning (tag : Text) (cs : List Char) : Meaning :=
  if tag == "!!str" then .text
  else if tag == "!!binary" then .binary
  else if spellingTags.any fun name => (name : Text) == tag then
    let d := meaningWith (tag == "!!timestamp") cs
    if d.tag == tag then d
    else if tag == "!!float" && d == .int && isAlsoFloat cs then .float
    else .misfit d.tag tag
  else .tagged tag

/-! ### Texts that older readers take for something else -/

/-- Words that older readers take for truth values. -/
def oldBools : List (String × Bool) := [
  ("y", true), ("Y", true), ("yes", true), ("Yes", true), ("YES", true),
  ("on", true), ("On", true), ("ON", true),
  ("n", false), ("N", false), ("no", false), ("No", false), ("NO", false),
  ("off", false), ("Off", false), ("OFF", false)]

/-- The truth value that older readers see in a text. -/
def oldBool? (t : Text) : Option Bool :=
  (oldBools.find? fun w => (w.1 : Text) == t).map (·.2)

/-- The rest of a number in base sixty after its first part: parts of one or two digits below
sixty after colons, and perhaps a fraction. -/
def isSexagesimalTail (fuel : Nat) (seen : Bool) (cs : List Char) : Bool :=
  match fuel with
  | 0 => false
  | fuel + 1 =>
    match cs with
    | [] => seen
    | '.' :: rest => seen && rest.all fun c => c.isDigit || c == '_'
    | ':' :: a :: rest =>
      a.isDigit &&
        ((match rest with
          | b :: rest => a ≤ '5' && b.isDigit && isSexagesimalTail fuel true rest
          | [] => false)
        || isSexagesimalTail fuel true rest)
    | _ => false

/-- Numbers in base sixty, such as `1:30`. -/
def isSexagesimal (cs : List Char) : Bool :=
  match (cutSign cs).2 with
  | [] => false
  | c :: rest =>
    c.isDigit &&
      isSexagesimalTail (rest.length + 1) false
        (rest.dropWhile fun c => c.isDigit || c == '_')

/-- Whether a text can be written without quotes as far as its meaning is concerned. -/
def readsAsText (t : Text) : Bool :=
  let cs := Text.chars t
  meaning cs == .text && (oldBool? t).isNone && !isSexagesimal cs

end DocPromotion.Yaml
