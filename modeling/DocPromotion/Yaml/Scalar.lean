import DocPromotion.Yaml.Tag

/-!
Reading the scalars of a YAML document.

Line breaks inside of plain and quoted scalars are folded: a single one counts as a space, and of
several the first one is dropped.  Every loop takes at least one character in each round, so that
the number of characters bounds the rounds.  What a loop has read is kept with the last character
first.
-/

namespace DocPromotion.Yaml

/-! ### Gaps -/

/-- The blanks between two parts of a scalar: spaces and tabs if they are on one line, otherwise
the first line break and those after it. -/
structure Gap where
  blanks : List Char
  break? : Option (List Char)
  further : List Char

namespace Gap

/-- No gap. -/
def none : Gap := ⟨[], .none, []⟩

/-- What a gap counts for. -/
def text (g : Gap) : List Char :=
  match g.break? with
  | .none => g.blanks
  | some ['\n'] => if g.further.isEmpty then [' '] else g.further
  | some first => first ++ g.further

end Gap

/-- Reads the blanks and line breaks at a place.  If `least` is given, a tab in front of that
column is refused. -/
def readGap (least : Option Nat) (start : Cursor) :
    (fuel : Nat) → Cursor → Gap → Except Fault (Gap × Cursor)
  | 0, c, g => .ok (g, c)
  | fuel + 1, c, g =>
    if c.atBlank then
      if g.break?.isSome && least.any (c.column < ·) && c.peek == some '\t' then
        c.fault start "found a tab character that violates indentation"
      else if g.break?.isSome then readGap least start fuel (c.skip 1) g
      else readGap least start fuel (c.skip 1) { g with blanks := g.blanks ++ c.peek.toList }
    else if c.atBreak then
      match g.break? with
      | .none => readGap least start fuel c.skipLine ⟨[], some c.lineBreak, []⟩
      | some _ =>
        readGap least start fuel c.skipLine { g with further := g.further ++ c.lineBreak }
    else .ok (g, c)

/-! ### Plain scalars -/

/-- Whether a plain scalar ends before the first of these characters. -/
def endsPlain (flow : Bool) : List Char → Bool
  | [] => true
  | c :: rest =>
    isSpaceOrTab c || isBreak c || (c == ':' && blankBreakOrEnd rest.head?)
      || (flow && [',', '?', '[', ']', '{', '}'].contains c)

/-- The characters of a plain scalar up to a blank or its end. -/
def plainChunk (flow : Bool) : List Char → List Char
  | [] => []
  | c :: rest => if endsPlain flow (c :: rest) then [] else c :: plainChunk flow rest

/-- Reads the rest of a plain scalar, of which `done` has been read before the gap `g`.  The
result is the whole scalar, the place after it, and whether a line break follows. -/
def readPlain (flow : Bool) (least : Nat) (start : Cursor) :
    (fuel : Nat) → Cursor → (done : List Char) → Gap → Except Fault (List Char × Cursor × Bool)
  | 0, c, done, g => .ok (done.reverse, c, g.break?.isSome)
  | fuel + 1, c, done, g =>
    if c.atMark || c.peek == some '#' then .ok (done.reverse, c, g.break?.isSome)
    else
      let chunk := plainChunk flow c.rest
      let c' := c.skip chunk.length
      if chunk.isEmpty then .ok (done.reverse, c', g.break?.isSome)
      else
        let done := (g.text ++ chunk).reverse ++ done
        if !(c'.atBlank || c'.atBreak) then .ok (done.reverse, c', false)
        else do
          let (g, c'') ← readGap (some least) start (fuel + 1) c' .none
          if !flow && c''.column < least then .ok (done.reverse, c'', g.break?.isSome)
          else readPlain flow least start fuel c'' done g

/-! ### Quoted scalars -/

/-- The character that a letter after a backslash stands for. -/
def escaped? (c : Char) : Option Char :=
  match c with
  | '0' => some '\x00'
  | 'a' => some '\x07'
  | 'b' => some '\x08'
  | 't' => some '\t'
  | '\t' => some '\t'
  | 'n' => some '\n'
  | 'v' => some '\x0b'
  | 'f' => some '\x0c'
  | 'r' => some '\r'
  | 'e' => some '\x1b'
  | ' ' => some ' '
  | '"' => some '"'
  | '\'' => some '\''
  | '\\' => some '\\'
  | 'N' => some '\u0085'
  | '_' => some '\u00a0'
  | 'L' => some '\u2028'
  | 'P' => some '\u2029'
  | _ => none

/-- The number of hexadecimal digits after a letter that is escaped. -/
def escapeWidth? (c : Char) : Option Nat :=
  match c with
  | 'x' => some 2
  | 'u' => some 4
  | 'U' => some 8
  | _ => none

/-- Part of a quoted scalar: what has been read with it, the place after it, and whether it ended
with an escaped line break. -/
structure Chunk where
  chars : List Char
  cursor : Cursor
  joined : Bool

/-- Reads the characters of a single-quoted scalar up to a blank or the closing quote. -/
def singleChunk : (fuel : Nat) → Cursor → (done : List Char) → Chunk
  | 0, c, done => ⟨done, c, false⟩
  | fuel + 1, c, done =>
    match c.rest with
    | '\'' :: '\'' :: _ => singleChunk fuel (c.skip 2) ('\'' :: done)
    | '\'' :: _ => ⟨done, c, false⟩
    | ch :: _ =>
      if isSpaceOrTab ch || isBreak ch then ⟨done, c, false⟩
      else singleChunk fuel (c.skip 1) (ch :: done)
    | [] => ⟨done, c, false⟩

/-- Reads the characters of a double-quoted scalar up to a blank, an escaped line break or the
closing quote. -/
def doubleChunk (start : Cursor) :
    (fuel : Nat) → Cursor → (done : List Char) → Except Fault Chunk
  | 0, c, done => .ok ⟨done, c, false⟩
  | fuel + 1, c, done =>
    match c.rest with
    | '"' :: _ => .ok ⟨done, c, false⟩
    | '\\' :: e :: _ =>
      if isBreak e then .ok ⟨done, (c.skip 1).skipLine, true⟩
      else
        match escaped? e, escapeWidth? e with
        | some ch, _ => doubleChunk start fuel (c.skip 2) (ch :: done)
        | none, some width =>
          let digits := (c.rest.drop 2).take width
          match digitsValue? 16 0 digits with
          | some n =>
            if digits.length < width then
              (c.skip 2).fault start "did not find expected hexdecimal number"
            else if n.isValidChar then
              doubleChunk start fuel (c.skip (2 + width)) (Char.ofNat n :: done)
            else (c.skip 2).fault start "found invalid Unicode character escape code"
          | none => (c.skip 2).fault start "did not find expected hexdecimal number"
        | none, none => c.fault start "found unknown escape character"
    | ['\\'] => c.fault start "found unknown escape character"
    | ch :: _ =>
      if isSpaceOrTab ch || isBreak ch then .ok ⟨done, c, false⟩
      else doubleChunk start fuel (c.skip 1) (ch :: done)
    | [] => .ok ⟨done, c, false⟩

/-- Reads the rest of a quoted scalar, up to and with its closing quote. -/
def readQuoted (single : Bool) (start : Cursor) :
    (fuel : Nat) → Cursor → (done : List Char) → Except Fault (List Char × Cursor)
  | 0, c, _ => c.fault start "found unexpected end of stream"
  | fuel + 1, c, done =>
    if c.atMark then c.fault start "found unexpected document indicator"
    else if c.rest.isEmpty then c.fault start "found unexpected end of stream"
    else do
      let chunk ←
        if single then pure (singleChunk (fuel + 1) c done)
        else doubleChunk start (fuel + 1) c done
      let c := chunk.cursor
      if !chunk.joined && c.peek == some (if single then '\'' else '"') then
        .ok (chunk.chars.reverse, c.skip 1)
      else
        let before : Gap := if chunk.joined then ⟨[], some [], []⟩ else .none
        let (g, c) ← readGap none start (fuel + 1) c before
        readQuoted single start fuel c (g.text.reverse ++ chunk.chars)

/-! ### Blocks -/

/-- How the line breaks at the end of a block are taken. -/
inductive Chomp where
  | clip
  | strip
  | keep
deriving Repr, DecidableEq

/-- The way of taking line breaks that a character names. -/
def chomp? : Option Char → Option Chomp
  | some '-' => some .strip
  | some '+' => some .keep
  | _ => none

/-- An indentation that a header names, and the place after it. -/
def blockIndent (start c : Cursor) : Except Fault (Nat × Cursor) :=
  match c.peek with
  | some ch =>
    if ch == '0' then c.fault start "found an indentation indicator equal to 0"
    else if ch.isDigit then .ok (ch.toNat - 48, c.skip 1)
    else .ok (0, c)
  | none => .ok (0, c)

/-- Reads the header of a block after its first character: how its last line breaks are taken, and
its indentation, or zero. -/
def readBlockHeader (start c : Cursor) : Except Fault (Chomp × Nat × Cursor) := do
  match chomp? c.peek with
  | some chomp =>
    let (n, c) ← blockIndent start (c.skip 1)
    return (chomp, n, c)
  | none =>
    let (n, c) ← blockIndent start c
    if n = 0 then return (.clip, 0, c)
    else
      match chomp? c.peek with
      | some chomp => return (chomp, n, c.skip 1)
      | none => return (.clip, n, c)

/-- Reads the indentation and the empty lines at a place.  If the indentation is not known, which
is written as zero, the deepest of them gives it. -/
def readBlockBreaks (start : Cursor) (parent : Int) (indent : Nat) :
    (fuel : Nat) → Cursor → (deepest : Nat) → (breaks : List Char) →
      Except Fault (Nat × List Char × Cursor)
  | 0, c, _, breaks => .ok (max indent 1, breaks, c)
  | fuel + 1, c, deepest, breaks =>
    let room := if indent = 0 then c.rest.length else indent - c.column
    let c := c.skip ((c.rest.take room).takeWhile (· == ' ')).length
    let deepest := max deepest c.column
    if (indent = 0 || c.column < indent) && c.peek == some '\t' then
      c.fault start "found a tab character where an indentation space is expected"
    else if c.atBreak then
      readBlockBreaks start parent indent fuel c.skipLine deepest (breaks ++ c.lineBreak)
    else if indent = 0 then .ok (max (max deepest (parent + 1).toNat) 1, breaks, c)
    else .ok (indent, breaks, c)

/-- Reads the lines of a block.  `done` is what has been read, `last` the line break at its end,
`breaks` are the empty lines after it, and `blank` says whether its last line starts with a
blank. -/
def readBlockLines (literal : Bool) (start : Cursor) (parent : Int) (indent : Nat) :
    (fuel : Nat) → Cursor → (done last breaks : List Char) → (blank : Bool) →
      Except Fault (List Char × List Char × List Char × Cursor)
  | 0, c, done, last, breaks, _ => .ok (done, last, breaks, c)
  | fuel + 1, c, done, last, breaks, blank =>
    if c.column ≠ indent || c.rest.isEmpty then .ok (done, last, breaks, c)
    else do
      let trailing := c.atBlank
      let join :=
        if !literal && !blank && !trailing && last == ['\n'] then
          if breaks.isEmpty then [' '] else []
        else last
      let line := c.rest.takeWhile (!isBreak ·)
      let c := c.skip line.length
      let last := c.lineBreak
      let c := c.skipLine
      let done := (join ++ breaks ++ line).reverse ++ done
      let (_, breaks, c) ← readBlockBreaks start parent indent (fuel + 1) c 0 []
      readBlockLines literal start parent indent fuel c done last breaks trailing

/-- Reads a block after its first character, inside of a construct at the column `parent`. -/
def readBlock (literal : Bool) (parent : Int) (start c : Cursor) :
    Except Fault (List Char × Cursor) := do
  let (chomp, increment, c) ← readBlockHeader start c
  let c ← readLineEnd start c
  let indent := if increment = 0 then 0 else (max parent 0).toNat + increment
  let (indent, breaks, c) ← readBlockBreaks start parent indent c.rest.length.succ c 0 []
  let (done, last, breaks, c) ←
    readBlockLines literal start parent indent c.rest.length.succ c [] [] breaks false
  let tail := match chomp with
    | .strip => []
    | .clip => last
    | .keep => last ++ breaks
  return (done.reverse ++ tail, c)

end DocPromotion.Yaml
