import DocPromotion.Text.Base64
import DocPromotion.Text.Quoted
import DocPromotion.Yaml.Node

/-!
Writing YAML documents.

Collections are written in block style, two columns deeper than what they belong to; empty ones
are written in brackets.  Texts are written without quotes where possible, in block style if they
have several lines, and between quotes otherwise.  Lines are never folded.  Bytes that are no text
are written in base 64.

A document is written on a page from left to right.  Every line starts with its indentation, which
is put off until there is something to write, so that empty lines have none.
-/

namespace DocPromotion.Yaml

/-- The line breaks of YAML. -/
def isBreak (c : Char) : Bool :=
  c == '\n' || c == '\r' || c == '\u0085' || c == '\u2028' || c == '\u2029'

/-- Spaces and tabs. -/
def isSpaceOrTab (c : Char) : Bool := c == ' ' || c == '\t'

/-- The characters that may be written as they are. -/
def isWritable (c : Char) : Bool :=
  let n := c.toNat
  n == 0x0A || (0x20 ≤ n && n ≤ 0x7E) || (0xA0 ≤ n && n ≤ 0xFFFD && n != 0xFEFF)

/-! ### What a text allows -/

/-- Every character of a text with its neighbours. -/
def withNeighbours (before : Option Char) : List Char → List (Option Char × Char × Option Char)
  | [] => []
  | c :: cs => (before, c, cs.head?) :: withNeighbours (some c) cs

/-- Whether there is nothing, a space or a tab. -/
def blankOrEnd : Option Char → Bool
  | none => true
  | some c => isSpaceOrTab c

/-- Whether there is nothing, a space, a tab or a line break. -/
def blankBreakOrEnd : Option Char → Bool
  | none => true
  | some c => isSpaceOrTab c || isBreak c

/-- The characters that cannot start a text without quotes. -/
def leadingIndicators : List Char :=
  ['#', ',', '[', ']', '{', '}', '&', '*', '!', '|', '>', '\'', '"', '%', '@', '\x60']

/-- Whether a character with its neighbours would be taken for more than text. -/
def isIndicator : Option Char × Char × Option Char → Bool
  | (none, c, after) =>
    leadingIndicators.contains c || ((c == '?' || c == ':' || c == '-') && blankOrEnd after)
  | (some b, c, after) =>
    (c == ':' && blankOrEnd after) || (c == '#' && blankBreakOrEnd (some b))

/-- Whether a text starts like a document mark. -/
def startsLikeMark : List Char → Bool
  | '-' :: '-' :: '-' :: _ => true
  | '.' :: '.' :: '.' :: _ => true
  | _ => false

/-- A space directly before a line break. -/
def hasSpaceBreak (cs : List Char) : Bool :=
  (withNeighbours none cs).any fun (before, c, _) => before == some ' ' && isBreak c

/-- A line break directly before a space. -/
def hasBreakSpace (cs : List Char) : Bool :=
  (withNeighbours none cs).any fun (before, c, _) => before.any isBreak && c == ' '

/-- A character that can only be written as an escape; a tab can also stand in a block. -/
def hasSpecial (cs : List Char) : Bool := cs.any fun c => c != '\t' && !isWritable c

/-- Whether the first or the last character is a space. -/
def hasOuterSpace (cs : List Char) : Bool := cs.head? == some ' ' || cs.getLast? == some ' '

/-- Whether a text can stand without quotes. -/
def allowsPlain (cs : List Char) : Bool :=
  !(hasOuterSpace cs || hasSpecial cs || cs.contains '\t' || cs.any isBreak || startsLikeMark cs
    || (withNeighbours none cs).any isIndicator)

/-- Whether a text can stand between single quotes. -/
def allowsSingle (cs : List Char) : Bool :=
  !(hasSpaceBreak cs || hasBreakSpace cs || hasSpecial cs || cs.contains '\t')

/-- Whether a text can stand in a block. -/
def allowsBlock (cs : List Char) : Bool :=
  !(cs.isEmpty || hasSpaceBreak cs || hasSpecial cs || cs.getLast? == some ' ')

/-! ### Styles -/

/-- The escape of a character between double quotes. -/
def escapeChar (c : Char) : List Char :=
  let hex (width : Nat) := (Text.hexDigits width c.toNat).map Char.toUpper
  '\\' :: match c.toNat with
    | 0x00 => ['0']
    | 0x07 => ['a']
    | 0x08 => ['b']
    | 0x09 => ['t']
    | 0x0A => ['n']
    | 0x0B => ['v']
    | 0x0C => ['f']
    | 0x0D => ['r']
    | 0x1B => ['e']
    | 0x22 => ['"']
    | 0x5C => ['\\']
    | 0x85 => ['N']
    | 0xA0 => ['_']
    | 0x2028 => ['L']
    | 0x2029 => ['P']
    | n =>
      if n ≤ 0xFF then 'x' :: hex 2
      else if n ≤ 0xFFFF then 'u' :: hex 4
      else 'U' :: hex 8

/-- A text between double quotes.  After a byte order mark everything is written as an escape. -/
def doubleQuoted (cs : List Char) : List Char :=
  let marked := cs.head? == some '\uFEFF'
  '"' :: cs.flatMap (fun c =>
    if marked || !isWritable c || isBreak c || c == '"' || c == '\\' then escapeChar c else [c])
    ++ ['"']

/-- A text with its single quotes doubled. -/
def doubleSingleQuotes (cs : List Char) : List Char :=
  cs.flatMap fun c => if c == '\'' then ['\'', '\''] else [c]

/-- The header of a block: an indentation if the text starts with a blank, and how its last line
breaks are to be taken. -/
def blockHeader (cs : List Char) : List Char :=
  let hint := if cs.head?.any (fun c => c == ' ' || isBreak c) then ['2'] else []
  let chomp :=
    match cs.reverse with
    | [] => ['-']
    | last :: rest =>
      if !isBreak last then ['-']
      else
        match rest with
        | [] => ['+']
        | c :: _ => if isBreak c then ['+'] else []
  '|' :: hint ++ chomp

/-- The ways of writing a text. -/
inductive Style where
  | plain
  | single
  | double
  | literal
deriving Repr, DecidableEq

/-- The style that fits a text, where `plain` says whether it may stand without quotes as far as
its meaning is concerned, and `key` whether it is a key on the line of its value. -/
def Style.ofText (plain key : Bool) (cs : List Char) : Style :=
  if cs.contains '\n' then if allowsBlock cs && !key then .literal else .double
  else if !plain || (key && cs.any isBreak) then .double
  else if allowsPlain cs then .plain
  else if allowsSingle cs then .single
  else .double

/-! ### Pages -/

/-- What has been written, the last character first. -/
abbrev Page := List Char

namespace Page

/-- Writes characters. -/
def put (cs : List Char) (p : Page) : Page := cs.reverse ++ p

/-- Whether the last line is empty. -/
def atLineStart : Page → Bool
  | [] => true
  | c :: _ => isBreak c

/-- Starts a line at a column. -/
def startLine (indent : Nat) (p : Page) : Page :=
  List.replicate indent ' ' ++ (if p.atLineStart then p else '\n' :: p)

/-- Writes characters of which each that follows a line break is indented, also the first one if
`fresh` says so. -/
def putLines (indent : Nat) (fresh : Bool) : List Char → Page → Page
  | [], p => p
  | c :: cs, p =>
    if isBreak c then putLines indent true cs (c :: p)
    else putLines indent false cs (c :: (if fresh then p.startLine indent else p))

/-- Writes a text in a style. -/
def putText (style : Style) (indent : Nat) (cs : List Char) (p : Page) : Page :=
  match style with
  | .plain => p.put cs
  | .single => ((p.put ['\'']).putLines indent false (doubleSingleQuotes cs)).put ['\'']
  | .double => p.put (doubleQuoted cs)
  | .literal => (p.put (blockHeader cs)).putLines indent true cs

end Page

/-! ### Scalars -/

/-- The number of characters of base 64 in a line. -/
def base64Width : Nat := 70

/-- Characters in lines of `width` characters, where the first line has room for `room` of them.
The last line ends with a line break, too. -/
def breakLines (width : Nat) : (room : Nat) → List Char → List Char
  | _, [] => ['\n']
  | 0, c :: cs => '\n' :: c :: breakLines width (width - 1) cs
  | room + 1, c :: cs => c :: breakLines width room cs

/-- Bytes in base 64, in lines unless there are few. -/
def base64Lines (t : Text) : List Char :=
  let cs := Text.toBase64 t
  if cs.length < base64Width then cs else breakLines base64Width base64Width cs

/-- A scalar as it is written: the tag in front of it, its characters, and whether they may stand
without quotes as far as their meaning is concerned. -/
structure Written where
  tag : List Char
  chars : List Char
  plain : Bool

/-- What is written for a text. -/
def Written.ofText (t : Text) : Written :=
  if Text.isValid t then ⟨[], Text.chars t, readsAsText t⟩
  else ⟨"!!binary ".toList, base64Lines t, true⟩

/-- What is written for a scalar. -/
def Written.ofScalar (d : Meaning) (value : Text) : Written :=
  match d with
  | .text => .ofText value
  | _ => ⟨[], Text.chars value, true⟩

/-- Whether a scalar can be a key on the line of its value: it has one line and is not long. -/
def Written.isSimpleKey (w : Written) : Bool :=
  (w.tag.filter (· != ' ')).length + (Text.ofChars w.chars).length ≤ 128 && !w.chars.any isBreak

/-- Writes a scalar, of which further lines stand at a column. -/
def Page.putScalar (key : Bool) (indent : Nat) (w : Written) (p : Page) : Page :=
  (p.put w.tag).putText (.ofText w.plain key w.chars) indent w.chars

/-! ### Collections -/

namespace Node

/-- Whether a node can stand on the line of its key. -/
def isInline : Node → Bool
  | .sequence _ _ items => items.isEmpty
  | .mapping _ _ entries => entries.isEmpty
  | _ => true

/-- What is written for a key that fits on the line of its value. -/
def simpleKey? : Node → Option Written
  | .scalar _ d value =>
    let w := Written.ofScalar d value
    if w.isSimpleKey then some w else none
  | _ => none

mutual

/-- Writes a node, of which further lines stand at a column.  What comes first starts a line
unless it is `inline`. -/
def write (indent : Nat) (inline : Bool) : Node → Page → Page
  | .scalar _ d value, p => p.putScalar false indent (.ofScalar d value)
  | .alias _ name _ _, p => p.put ('*' :: Text.chars name)
  | .sequence _ _ [], p => p.put ['[', ']']
  | .mapping _ _ [], p => p.put ['{', '}']
  | .sequence _ _ (item :: items), p => writeItems indent inline (item :: items) p
  | .mapping _ _ (entry :: entries), p => writeEntries indent inline (entry :: entries) p

/-- Writes the items of a sequence. -/
def writeItems (indent : Nat) (inline : Bool) : List Node → Page → Page
  | [], p => p
  | item :: items, p =>
    let p := if inline then p else p.startLine indent
    writeItems indent false items (item.write (indent + 2) true (p.put ['-', ' ']))

/-- Writes the entries of a mapping. -/
def writeEntries (indent : Nat) (inline : Bool) : List (Node × Node) → Page → Page
  | [], p => p
  | (k, v) :: entries, p =>
    let p := if inline then p else p.startLine indent
    let p :=
      match k.simpleKey? with
      | some key => p.putScalar true indent key
      | none => (k.write (indent + 2) true (p.put ['?', ' '])).startLine indent
    let p := p.put (if v.isInline then [':', ' '] else [':'])
    writeEntries indent false entries (v.write (indent + 2) false p)

end

/-- A document. -/
def render (n : Node) : Text := Text.ofChars ((n.write 0 true []).startLine 0).reverse

end Node

end DocPromotion.Yaml
