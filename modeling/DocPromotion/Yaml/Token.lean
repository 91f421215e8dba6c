import DocPromotion.Yaml.Input
import DocPromotion.Yaml.Scalar

/-!
The tokens of a YAML document.

Indentation is turned into tokens that open and close collections.  A key is only known as one
when its colon is found, so the place where it could start is kept, and the tokens that announce
it are put there later.

Tokens are read on demand.  There are always at least three of them waiting, and as long as the
next one could still turn out to start a key, more are read.  So a fault in the text may be
noticed some tokens before it is reached.
-/

namespace DocPromotion.Yaml

/-- The kinds of tokens. -/
inductive TokenKind where
  | streamStart
  | streamEnd
  | documentStart
  | documentEnd
  | directive (directive : Directive)
  | blockSequence
  | blockMapping
  | blockEnd
  | flowSequence
  | flowSequenceEnd
  | flowMapping
  | flowMappingEnd
  | blockItem
  | flowItem
  | key
  | value
  | alias (name : Text)
  | anchor (name : Text)
  | tag (handle suffix : Text)
  | scalar (plain : Bool) (value : List Char)
deriving Repr, DecidableEq

/-- A token with the line it starts on. -/
structure Token where
  kind : TokenKind
  line : Nat
deriving Repr, DecidableEq

/-- A place where a key could start: the number of tokens before it, whether only a key can stand
there, and whether one still can. -/
structure PossibleKey where
  cursor : Cursor
  position : Nat
  required : Bool
  possible : Bool

/-- The state of the reader of tokens. -/
structure Scanner where
  cursor : Cursor
  /-- The number of characters of the text, which bounds every loop over them. -/
  size : Nat
  /-- Whether unreadable characters follow those of the cursor. -/
  cut : Bool
  /-- Whether the text starts with a second byte order mark. -/
  marked : Bool
  /-- The tokens that are waiting, the next one first. -/
  waiting : List Token
  /-- The number of tokens that have been taken. -/
  taken : Nat
  /-- The columns of the block collections that are open, the innermost first. -/
  indents : List Nat
  /-- The number of flow collections that are open. -/
  depth : Nat
  /-- The place for a key at each level of flow collections, the innermost first. -/
  keys : List PossibleKey
  /-- The tokens that could start a key, with the level of their collection. -/
  starts : List (Nat × Nat)
  keyAllowed : Bool

namespace Scanner

/-- The state at the start of a text. -/
def start (input : Input) : Scanner where
  cursor := .ofChars input.chars
  size := input.chars.length
  cut := input.cut
  marked := input.chars.head? == some '\uFEFF'
  waiting := [⟨.streamStart, 0⟩]
  taken := 0
  indents := []
  depth := 0
  keys := [⟨.ofChars [], 0, false, false⟩]
  starts := []
  keyAllowed := true

/-- Whether a flow collection is open. -/
def inFlow (s : Scanner) : Bool := 0 < s.depth

/-- The column of the innermost block collection, or minus one. -/
def indent (s : Scanner) : Int :=
  match s.indents with
  | [] => -1
  | n :: _ => n

/-- The number of tokens so far. -/
def count (s : Scanner) : Nat := s.taken + s.waiting.length

/-- Adds a token that starts on a line. -/
def emit (s : Scanner) (kind : TokenKind) (line : Nat) : Scanner :=
  { s with waiting := s.waiting ++ [⟨kind, line⟩] }

/-- Adds a token of `n` characters. -/
def emitMark (s : Scanner) (kind : TokenKind) (n : Nat) : Scanner :=
  { s.emit kind s.cursor.line with cursor := s.cursor.skip n }

/-- Puts a token where a number of tokens come before it; if those after it have been taken, it
comes last. -/
def insert (s : Scanner) (position : Nat) (kind : TokenKind) (line : Nat) : Scanner :=
  if position < s.taken then s.emit kind line
  else
    let n := position - s.taken
    { s with waiting := s.waiting.take n ++ ⟨kind, line⟩ :: s.waiting.drop n }

/-! ### Keys -/

/-- The fault of a key that lacks its colon. -/
def missingColon {α : Type} (s : Scanner) (k : PossibleKey) : Except Fault α :=
  s.cursor.fault k.cursor "could not find expected ':'"

/-- Forgets that a token could start a key. -/
def forget (s : Scanner) (position : Nat) : Scanner :=
  { s with starts := s.starts.filter (·.1 != position) }

/-- Replaces the place for a key at a level. -/
def setKey (s : Scanner) (level : Nat) (k : PossibleKey) : Scanner :=
  { s with keys := s.keys.set (s.depth - level) k }

/-- Gives up the possible key at the innermost level; that is a fault if a key is required. -/
def dropKey (s : Scanner) : Except Fault Scanner :=
  match s.keys with
  | [] => .ok s
  | k :: _ =>
    if !k.possible then .ok s
    else if k.required then s.missingColon k
    else .ok ((s.setKey s.depth { k with possible := false }).forget k.position)

/-- Notes that a key could start here. -/
def saveKey (s : Scanner) : Except Fault Scanner :=
  if s.keyAllowed then do
    let required := !s.inFlow && s.indent == s.cursor.column
    let position := s.count
    let s ← s.dropKey
    let s := (s.setKey s.depth ⟨s.cursor, position, required, true⟩).forget position
    return { s with starts := (position, s.depth) :: s.starts }
  else .ok s

/-- Whether a colon for the key at a level may still follow: on its line, and within 1024
characters.  If not, no key can start there any more. -/
def checkKey (s : Scanner) (level : Nat) : Except Fault (Option PossibleKey × Scanner) :=
  match s.keys[s.depth - level]? with
  | none => .ok (none, s)
  | some k =>
    if !k.possible then .ok (none, s)
    else if k.cursor.line < s.cursor.line || k.cursor.index + 1024 < s.cursor.index then
      if k.required then s.missingColon k
      else .ok (none, s.setKey level { k with possible := false })
    else .ok (some k, s)

/-! ### Indentation -/

/-- The largest number of collections inside of each other. -/
def maxDepth : Nat := 10000

/-- The fault of collections that are too deep. -/
def tooDeep {α : Type} (s : Scanner) (start : Cursor) : Except Fault α :=
  s.cursor.fault start ("exceeded max depth of " ++ Text.ofNat maxDepth)

/-- Closes the block collections that are deeper than a column. -/
def unroll (s : Scanner) (column : Int) : Scanner :=
  if s.inFlow then s
  else
    let closed := s.indents.takeWhile fun (n : Nat) => decide (column < (n : Int))
    let s := { s with indents := s.indents.drop closed.length }
    closed.foldl (fun s _ => s.emit .blockEnd s.cursor.line) s

/-- Opens a block collection at a column, unless one is open there. -/
def roll (s : Scanner) (column position : Nat) (kind : TokenKind) (line : Nat) :
    Except Fault Scanner :=
  if s.inFlow || column ≤ s.indent then .ok s
  else if maxDepth ≤ s.indents.length then
    s.tooDeep (match s.keys with | [] => s.cursor | k :: _ => k.cursor)
  else .ok { s.insert position kind line with indents := column :: s.indents }

/-- Skips blanks, comments and line breaks in front of a token.  Tabs count as blanks where no key
can start.  In a text that starts with a second byte order mark, the first character of every
line is skipped. -/
def skipToToken : (fuel : Nat) → Scanner → Scanner
  | 0, s => s
  | fuel + 1, s =>
    let c := s.cursor
    let c := if c.column == 0 && s.marked && (c.peekAt 3).isSome then c.skip 1 else c
    let tabs := s.inFlow || !s.keyAllowed
    let c := c.skipWhile fun ch => ch == ' ' || (tabs && ch == '\t')
    let c := if c.peek == some '#' then c.skipComments s.size else c
    if c.atBreak then
      skipToToken fuel
        { s with cursor := c.skipLine, keyAllowed := s.keyAllowed || !s.inFlow }
    else { s with cursor := c }

/-- Skips a comment after a token on its line. -/
def skipLineComment (s : Scanner) : Scanner := { s with cursor := s.cursor.skipLineComment }

/-! ### The kinds of tokens -/

/-- The end of the text, which stands on a line of its own. -/
def fetchEnd (s : Scanner) : Except Fault Scanner := do
  let c := s.cursor
  let last := if c.column == 0 then c else { c with line := c.line + 1, column := 0 }
  let s ← ({ s with cursor := last }.unroll (-1)).dropKey
  return { s with keyAllowed := false }.emit .streamEnd s.cursor.line

/-- A document mark. -/
def fetchMark (s : Scanner) (kind : TokenKind) : Except Fault Scanner := do
  let s ← (s.unroll (-1)).dropKey
  return { s with keyAllowed := false }.emitMark kind 3

/-- A directive. -/
def fetchDirective (s : Scanner) : Except Fault Scanner := do
  let s ← (s.unroll (-1)).dropKey
  let (d, c) ← readDirective s.cursor
  return { s.emit (.directive d) s.cursor.line with cursor := c, keyAllowed := false }

/-- The start of a flow collection. -/
def fetchFlowStart (s : Scanner) (kind : TokenKind) : Except Fault Scanner := do
  let s ← s.saveKey
  if maxDepth ≤ s.depth then s.tooDeep s.cursor
  else
    let inner : PossibleKey := ⟨s.cursor, s.count, false, false⟩
    let s := { s with keys := inner :: s.keys, depth := s.depth + 1, keyAllowed := true }
    return (s.emitMark kind 1).skipLineComment

/-- The end of a flow collection.  If it holds no place for a key of its own, its start cannot
start a key any more. -/
def fetchFlowEnd (s : Scanner) (kind : TokenKind) : Except Fault Scanner := do
  let s ← s.dropKey
  let s :=
    match s.inFlow, s.keys with
    | true, k :: keys => { s.forget k.position with keys, depth := s.depth - 1 }
    | _, _ => s
  return ({ s with keyAllowed := false }.emitMark kind 1).skipLineComment

/-- A comma between the items of a flow collection. -/
def fetchFlowItem (s : Scanner) : Except Fault Scanner := do
  let s ← s.dropKey
  return ({ s with keyAllowed := true }.emitMark .flowItem 1).skipLineComment

/-- A dash in front of an item. -/
def fetchBlockItem (s : Scanner) : Except Fault Scanner :=
  if !s.inFlow && !s.keyAllowed then
    s.cursor.fault s.cursor "block sequence entries are not allowed in this context"
  else do
    let s ← s.roll s.cursor.column s.count .blockSequence s.cursor.line
    let s ← s.dropKey
    return { s with keyAllowed := true }.emitMark .blockItem 1

/-- A question mark in front of a key. -/
def fetchKey (s : Scanner) : Except Fault Scanner :=
  if !s.inFlow && !s.keyAllowed then
    s.cursor.fault s.cursor "mapping keys are not allowed in this context"
  else do
    let s ← s.roll s.cursor.column s.count .blockMapping s.cursor.line
    let s ← s.dropKey
    return ({ s with keyAllowed := !s.inFlow }.emitMark .key 1).skipLineComment

/-- A colon after a key. -/
def fetchValue (s : Scanner) : Except Fault Scanner := do
  match ← s.checkKey s.depth with
  | (some k, s) =>
    let s := s.insert k.position .key k.cursor.line
    let s ← s.roll k.cursor.column k.position .blockMapping k.cursor.line
    let s := (s.setKey s.depth { k with possible := false }).forget k.position
    return ({ s with keyAllowed := false }.emitMark .value 1).skipLineComment
  | (none, s) =>
    if !s.inFlow && !s.keyAllowed then
      s.cursor.fault s.cursor "mapping values are not allowed in this context"
    else
      let s ← s.roll s.cursor.column s.count .blockMapping s.cursor.line
      return ({ s with keyAllowed := !s.inFlow }.emitMark .value 1).skipLineComment

/-- An anchor or an alias. -/
def fetchAnchor (s : Scanner) (kind : Text → TokenKind) : Except Fault Scanner := do
  let s ← s.saveKey
  let name := (s.cursor.skip 1).rest.takeWhile isNameChar
  let c := s.cursor.skip (name.length + 1)
  let ends := blankBreakOrEnd c.peek ||
    c.peek.any ['?', ':', ',', ']', '}', '%', '@', '\x60'].contains
  if name.isEmpty || !ends then
    c.fault s.cursor "did not find expected alphabetic or numeric character"
  else
    let s := s.emit (kind (Text.ofChars name)) s.cursor.line
    return { s with cursor := c, keyAllowed := false }.skipLineComment

/-- A tag. -/
def fetchTag (s : Scanner) : Except Fault Scanner := do
  let s ← s.saveKey
  let (handle, suffix, c) ← readTag s.cursor
  let s := s.emit (.tag handle suffix) s.cursor.line
  return { s with cursor := c, keyAllowed := false }.skipLineComment

/-- A scalar in block style. -/
def fetchBlock (s : Scanner) (literal : Bool) : Except Fault Scanner := do
  let s ← s.dropKey
  let (value, c) ← readBlock literal s.indent s.cursor (s.cursor.skip 1)
  return { s.emit (.scalar false value) s.cursor.line with cursor := c, keyAllowed := true }

/-- A quoted scalar. -/
def fetchQuoted (s : Scanner) (single : Bool) : Except Fault Scanner := do
  let s ← s.saveKey
  let (value, c) ← readQuoted single s.cursor s.size (s.cursor.skip 1) []
  let s := s.emit (.scalar false value) s.cursor.line
  return { s with cursor := c, keyAllowed := false }.skipLineComment

/-- A plain scalar.  A key can start after it if it is followed by a line break. -/
def fetchPlain (s : Scanner) : Except Fault Scanner := do
  let s ← s.saveKey
  let least := (s.indent + 1).toNat
  let (value, c, broken) ←
    readPlain s.inFlow least s.cursor s.size s.cursor [] .none
  let s := { s.emit (.scalar true value) s.cursor.line with cursor := c, keyAllowed := broken }
  return if broken then s else s.skipLineComment

/-- Whether a plain scalar can start with the first of these characters. -/
def startsPlain (s : Scanner) : Bool :=
  match s.cursor.rest with
  | [] => false
  | c :: rest =>
    let special := ['-', '?', ':', ',', '[', ']', '{', '}', '#', '&', '*', '!', '|', '>', '\'', '"',
      '%', '@', '\x60']
    !(isSpaceOrTab c || isBreak c || special.contains c)
      || (c == '-' && !rest.head?.any isSpaceOrTab)
      || (!s.inFlow && (c == '?' || c == ':') && !blankBreakOrEnd rest.head?)

/-- Reads the token at the cursor. -/
def fetchToken (s : Scanner) : Except Fault Scanner :=
  let c := s.cursor
  let spaced := blankBreakOrEnd (c.peekAt 1)
  match c.peek with
  | none => s.fetchEnd
  | some ch =>
    if c.column == 0 && ch == '%' then s.fetchDirective
    else if c.atMark then s.fetchMark (if ch == '-' then .documentStart else .documentEnd)
    else if ch == '[' then s.fetchFlowStart .flowSequence
    else if ch == '{' then s.fetchFlowStart .flowMapping
    else if ch == ']' then s.fetchFlowEnd .flowSequenceEnd
    else if ch == '}' then s.fetchFlowEnd .flowMappingEnd
    else if ch == ',' then s.fetchFlowItem
    else if ch == '-' && spaced then s.fetchBlockItem
    else if ch == '?' && (s.inFlow || spaced) then s.fetchKey
    else if ch == ':' && (s.inFlow || spaced) then s.fetchValue
    else if ch == '*' then s.fetchAnchor .alias
    else if ch == '&' then s.fetchAnchor .anchor
    else if ch == '!' then s.fetchTag
    else if ch == '|' && !s.inFlow then s.fetchBlock true
    else if ch == '>' && !s.inFlow then s.fetchBlock false
    else if ch == '\'' then s.fetchQuoted true
    else if ch == '"' then s.fetchQuoted false
    else if s.startsPlain then s.fetchPlain
    else c.fault c "found character that cannot start any token"

/-- Reads the next token.  Unreadable characters are noticed when one of them is among the next
four characters at the start of a token, or would be the next one but one at its end. -/
def fetch (s : Scanner) : Except Fault Scanner :=
  let s := s.skipToToken (s.size + 1)
  let s := s.unroll s.cursor.column
  if s.cut && (s.cursor.peekAt 3).isNone then .error .unreadable
  else
    match s.fetchToken with
    | .error f => .error (if s.cut && f.atEnd then .unreadable else f)
    | .ok s => if s.cut && (s.cursor.peekAt 1).isNone then .error .unreadable else .ok s

/-! ### The next token -/

/-- Whether the next token could still turn out to start a key. -/
def awaitsColon (s : Scanner) : Except Fault (Bool × Scanner) :=
  match s.starts.lookup s.taken with
  | none => .ok (false, s)
  | some level => do
    let (k, s) ← s.checkKey level
    return (k.isSome, s)

/-- Reads tokens until the next one is certain and two more are waiting. -/
def prepare : (fuel : Nat) → Scanner → Except Fault Scanner
  | 0, s => .ok s
  | fuel + 1, s =>
    match s.waiting with
    | _ :: _ :: _ :: _ => do
      let (awaits, s) ← s.awaitsColon
      if awaits then prepare fuel (← s.fetch) else return s
    | _ => do prepare fuel (← s.fetch)

/-- The next token. -/
def peek (s : Scanner) : Except Fault (Token × Scanner) := do
  let s ← s.prepare (s.size + 4)
  return (s.waiting.head?.getD ⟨.streamEnd, s.cursor.line⟩, s)

/-- Takes the next token. -/
def next (s : Scanner) : Scanner :=
  let taken := s.taken + 1
  { s with waiting := s.waiting.drop 1, taken, starts := s.starts.filter (taken ≤ ·.1) }

end Scanner

end DocPromotion.Yaml
