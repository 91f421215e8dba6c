import DocPromotion.Yaml.Fault
import DocPromotion.Yaml.Printer

/-!
A place in the text of a YAML document.
-/

namespace DocPromotion.Yaml

/-- The characters from a place on, with the line and column of the place and the number of
characters before it. -/
structure Cursor where
  rest : List Char
  line : Nat
  column : Nat
  index : Nat
deriving Repr

namespace Cursor

/-- The start of a text. -/
def ofChars (cs : List Char) : Cursor := ⟨cs, 0, 0, 0⟩

/-- The next character. -/
def peek (c : Cursor) : Option Char := c.rest.head?

/-- The character after the next `n` characters. -/
def peekAt (c : Cursor) (n : Nat) : Option Char := c.rest[n]?

/-- The place after `n` characters of the same line. -/
def skip (c : Cursor) (n : Nat) : Cursor :=
  { c with rest := c.rest.drop n, column := c.column + n, index := c.index + n }

/-- The place after the characters that satisfy `p`, none of which is a line break. -/
def skipWhile (c : Cursor) (p : Char → Bool) : Cursor := c.skip (c.rest.takeWhile p).length

/-- The place after a line break. -/
def skipLine (c : Cursor) : Cursor :=
  match c.rest with
  | '\r' :: '\n' :: rest => ⟨rest, c.line + 1, 0, c.index + 2⟩
  | _ :: rest => ⟨rest, c.line + 1, 0, c.index + 1⟩
  | [] => c

/-- The line break at a place, as it counts in a scalar. -/
def lineBreak (c : Cursor) : List Char :=
  match c.rest with
  | ch :: _ => if ch == '\u2028' || ch == '\u2029' then [ch] else ['\n']
  | [] => []

/-- Whether there is a line break. -/
def atBreak (c : Cursor) : Bool := c.peek.any isBreak

/-- Whether there is a space or a tab. -/
def atBlank (c : Cursor) : Bool := c.peek.any isSpaceOrTab

/-- The place after spaces and tabs. -/
def skipBlanks (c : Cursor) : Cursor := c.skipWhile isSpaceOrTab

/-- The end of the line. -/
def skipToBreak (c : Cursor) : Cursor := c.skipWhile (!isBreak ·)

/-- The place with an index, reached over line breaks.  Every round takes at least one
character. -/
def advanceTo (target : Nat) : (fuel : Nat) → Cursor → Cursor
  | 0, c => c
  | fuel + 1, c =>
    if target ≤ c.index then c
    else advanceTo target fuel (if c.atBreak then c.skipLine else c.skip 1)

/-- How far a comment is looked for after the end of a line. -/
def commentReach : Nat := 511

/-- The place after a comment on the same line, if one follows after blanks. -/
def skipLineComment (c : Cursor) : Cursor :=
  let c' := c.skip ((c.rest.take commentReach).takeWhile isSpaceOrTab).length
  if c'.peek == some '#' then c'.skipToBreak else c

/-- The end of a comment and of those that follow it on lines of their own, with nothing but
blanks, tabs among them, in between. -/
def skipComments : (fuel : Nat) → Cursor → Cursor
  | 0, c => c
  | fuel + 1, c =>
    let c := c.skipToBreak
    let gap := (c.rest.take commentReach).takeWhile fun ch =>
      isSpaceOrTab ch || ch == '\n' || ch == '\r'
    if c.peekAt gap.length == some '#' && c.peek != some '#' then
      skipComments fuel (c.advanceTo (c.index + gap.length) gap.length)
    else c

/-- Whether there is a document mark: three dashes or three points, alone on the start of a
line. -/
def atMark (c : Cursor) : Bool :=
  c.column == 0 && startsLikeMark c.rest && blankBreakOrEnd (c.peekAt 3)

/-- A fault in a token that starts at a place. -/
def fault {α : Type} (c : Cursor) (start : Cursor) (problem : Text) : Except Fault α :=
  .error ⟨.token, problem, start.line, c.line, (c.rest.drop 1).isEmpty⟩

end Cursor

end DocPromotion.Yaml
