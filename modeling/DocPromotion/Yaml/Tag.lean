import DocPromotion.Yaml.Cursor

/-!
Directives and tags of a YAML document.

A tag is written with a handle, which directives explain, and a suffix; or in full between angle
brackets.  Bytes of a tag may be written as two hexadecimal digits after a percent sign.
-/

namespace DocPromotion.Yaml

/-- The characters of names: of anchors, directives and handles. -/
def isNameChar (c : Char) : Bool := c.isAlphanum || c == '_' || c == '-'

/-- The characters that may occur in a tag. -/
def isTagChar (c : Char) : Bool :=
  isNameChar c || [';', '/', '?', ':', '@', '&', '=', '+', '$', ',', '.', '!', '~', '*', '\'', '(',
    ')', '[', ']', '%'].contains c

/-- The byte that two hexadecimal digits after a percent sign stand for. -/
def escapedByte? : List Char → Option Nat
  | '%' :: a :: b :: _ => do return (← digitValue? a) * 16 + (← digitValue? b)
  | _ => none

/-- The number of bytes of a character, from its first byte. -/
def encodedWidth? (n : Nat) : Option Nat :=
  if n < 0x80 then some 1
  else if n < 0xC0 then none
  else if n < 0xE0 then some 2
  else if n < 0xF0 then some 3
  else if n < 0xF8 then some 4
  else none

/-- Reads `n` more bytes of a character that are written as escapes. -/
def readTrailingBytes (start : Cursor) :
    (n : Nat) → Cursor → (done : Text) → Except Fault (Text × Cursor)
  | 0, c, done => .ok (done, c)
  | n + 1, c, done =>
    match escapedByte? c.rest with
    | none => c.fault start "did not find URI escaped octet"
    | some b =>
      if b / 64 ≠ 2 then c.fault start "found an incorrect trailing UTF-8 octet"
      else readTrailingBytes start n (c.skip 3) (done ++ [b.toUInt8])

/-- Reads a character whose bytes are written as escapes. -/
def readEscapedChar (start c : Cursor) : Except Fault (Text × Cursor) :=
  match escapedByte? c.rest with
  | none => c.fault start "did not find URI escaped octet"
  | some b =>
    match encodedWidth? b with
    | none => c.fault start "found an incorrect leading UTF-8 octet"
    | some width => readTrailingBytes start (width - 1) (c.skip 3) [b.toUInt8]

/-- Reads the characters of a tag. -/
def readTagChars (start : Cursor) :
    (fuel : Nat) → Cursor → (done : Text) → Except Fault (Text × Cursor)
  | 0, c, done => .ok (done, c)
  | fuel + 1, c, done =>
    match c.peek with
    | none => .ok (done, c)
    | some '%' => do
      let (bytes, c) ← readEscapedChar start c
      readTagChars start fuel c (done ++ bytes)
    | some ch =>
      if isTagChar ch then readTagChars start fuel (c.skip 1) (done ++ Text.ofChars [ch])
      else .ok (done, c)

/-- Reads at least one character of a tag. -/
def readTagText (start c : Cursor) : Except Fault (Text × Cursor) := do
  let (t, c') ← readTagChars start c.rest.length c []
  if c'.index = c.index then c'.fault start "did not find expected tag URI" else return (t, c')

/-- Reads a handle.  In a directive it has to be a whole one; in a tag it may turn out to be the
start of a suffix. -/
def readHandle (directive : Bool) (start c : Cursor) : Except Fault (List Char × Cursor) :=
  if c.peek ≠ some '!' then c.fault start "did not find expected '!'"
  else
    let name := (c.skip 1).rest.takeWhile isNameChar
    let c := c.skip (name.length + 1)
    if c.peek = some '!' then .ok ('!' :: name ++ ['!'], c.skip 1)
    else if directive && !name.isEmpty then c.fault start "did not find expected '!'"
    else .ok ('!' :: name, c)

/-- Whether what was read as a handle is one. -/
def isHandle (cs : List Char) : Bool := 1 < cs.length && cs.getLast? == some '!'

/-- Reads a tag in full after its first two characters. -/
def readFullTag (start c : Cursor) : Except Fault (Text × Text × Cursor) := do
  let (t, c) ← readTagText start c
  if c.peek ≠ some '>' then c.fault start "did not find the expected '>'"
  else return ([], t, c.skip 1)

/-- Reads a tag: its handle, or nothing if it is a tag in full, and its suffix. -/
def readTag (start : Cursor) : Except Fault (Text × Text × Cursor) := do
  let (handle, suffix, c) ←
    if start.peekAt 1 = some '<' then readFullTag start (start.skip 2)
    else do
      let (handle, c) ← readHandle false start start
      if isHandle handle then
        let (t, c) ← readTagText start c
        pure (Text.ofChars handle, t, c)
      else
        let (t, c) ← readTagChars start c.rest.length c (Text.ofChars (handle.drop 1))
        if t.isEmpty then pure ([], "!", c) else pure ("!", t, c)
  if !blankBreakOrEnd c.peek then
    c.fault start "did not find expected whitespace or line break"
  else return (handle, suffix, c)

/-! ### Directives -/

/-- A directive: the version of the format, or what a handle stands for. -/
inductive Directive where
  | version (major minor : Nat)
  | handle (name start : Text)
deriving Repr, DecidableEq

/-- Reads a number of at most two digits. -/
def readVersionNumber (start c : Cursor) : Except Fault (Nat × Cursor) :=
  let digits := c.rest.takeWhile Char.isDigit
  if 2 < digits.length then (c.skip 2).fault start "found extremely long version number"
  else if digits.isEmpty then c.fault start "did not find expected version number"
  else .ok ((digitsValue? 10 0 digits).getD 0, c.skip digits.length)

/-- Reads the version of the format. -/
def readVersion (start c : Cursor) : Except Fault (Directive × Cursor) := do
  let (major, c) ← readVersionNumber start c.skipBlanks
  if c.peek ≠ some '.' then c.fault start "did not find expected digit or '.' character"
  else
    let (minor, c) ← readVersionNumber start (c.skip 1)
    return (.version major minor, c)

/-- Reads what a handle stands for. -/
def readHandleDirective (start c : Cursor) : Except Fault (Directive × Cursor) := do
  let (name, c) ← readHandle true start c.skipBlanks
  if !c.atBlank then c.fault start "did not find expected whitespace"
  else
    let (t, c) ← readTagText start c.skipBlanks
    if !blankBreakOrEnd c.peek then
      c.fault start "did not find expected whitespace or line break"
    else return (.handle (Text.ofChars name) t, c)

/-- Reads the end of a line on which only a comment may follow. -/
def readLineEnd (start c : Cursor) : Except Fault Cursor :=
  let c := c.skipBlanks
  let c := if c.peek == some '#' then c.skipToBreak else c
  if !c.rest.isEmpty && !c.atBreak then
    c.fault start "did not find expected comment or line break"
  else .ok c.skipLine

/-- Reads a directive with its line. -/
def readDirective (start : Cursor) : Except Fault (Directive × Cursor) := do
  let name := (start.skip 1).rest.takeWhile isNameChar
  let c := start.skip (name.length + 1)
  if name.isEmpty then c.fault start "could not find expected directive name"
  else if !blankBreakOrEnd c.peek then
    c.fault start "found unexpected non-alphabetical character"
  else
    let (d, c) ←
      if name = "YAML".toList then readVersion start c
      else if name = "TAG".toList then readHandleDirective start c
      else c.fault start "found unknown directive name"
    return (d, ← readLineEnd start c)

end DocPromotion.Yaml
