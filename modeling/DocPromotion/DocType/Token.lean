import DocPromotion.Text

/-!
Tokens of a documentation type expression.

Blank bytes separate tokens and are dropped; every other byte belongs to a token.  The bytes
`0x85` and `0xA0` are blank where a token could start and part of a name inside one, because they
also occur inside the encodings of letters.
-/

namespace DocPromotion

/-- The four kinds of brackets. -/
inductive Bracket where
  | angle
  | brace
  | paren
  | square
deriving Repr, DecidableEq

/-- The kinds of tokens. -/
inductive TokenKind where
  | name
  | number
  | quoted
  | union
  | intersection
  | nullable
  | opening (bracket : Bracket)
  | closing (bracket : Bracket)
  | colon
  | other
deriving Repr, DecidableEq

/-- A token with the offset of its first byte. -/
structure Token where
  kind : TokenKind
  text : Text
  start : Nat
deriving Repr, DecidableEq

namespace Token

/-- The offset after the last byte of a token. -/
def stop (t : Token) : Nat := t.start + t.text.length

/-- The bytes that separate tokens. -/
def isBlankByte (b : UInt8) : Bool :=
  b == 0x20 || (0x09 ≤ b && b ≤ 0x0D) || b == 0x85 || b == 0xA0

/-- Decimal digits. -/
def isDigitByte (b : UInt8) : Bool := 0x30 ≤ b && b ≤ 0x39

/-- Letters, the underscore, the backslash and every byte outside of ASCII. -/
def isWordByte (b : UInt8) : Bool :=
  (0x61 ≤ b && b ≤ 0x7A) || (0x41 ≤ b && b ≤ 0x5A) || b == 0x5F || b == 0x5C || 0x80 ≤ b

/-- The bytes that start a name. -/
def isNameStart (b : UInt8) : Bool := isWordByte b || b == 0x24

/-- The bytes that continue a name: it may hold dashes, as in `non-empty-array`. -/
def isNamePart (b : UInt8) : Bool := isWordByte b || isDigitByte b || b == 0x2D

/-- The length of a number, given what has been read of it: whether a digit precedes, and whether
an exponent and a point have been seen.  Neither of them may occur twice or without a digit before
it, and a number ends in a digit. -/
def numberLength? (digit exponent point : Bool) : Text → Option Nat
  | [] => if digit then some 0 else none
  | b :: rest =>
    if isDigitByte b then
      (numberLength? true exponent point rest).map (· + 1)
    else if b == 0x65 || b == 0x45 then
      if !digit || exponent then none
      else
        match rest with
        | [] => none
        | sign :: rest' =>
          if sign == 0x2B || sign == 0x2D then
            (numberLength? false true point rest').map (· + 2)
          else
            (numberLength? false true point (sign :: rest')).map (· + 1)
    else if b == 0x2E then
      if !digit || point then none
      else (numberLength? false exponent true rest).map (· + 1)
    else if digit then some 0 else none

/-- The length of the rest of a quoted text after the byte `previous`, up to and with the closing
quote.  A quote directly after a backslash does not close. -/
def quotedLength? (quote previous : UInt8) : Text → Option Nat
  | [] => none
  | b :: rest =>
    if b == quote && previous != Text.backslash then some 1
    else (quotedLength? quote b rest).map (· + 1)

/-- The kind of a token that is a single byte. -/
def singleKind (b : UInt8) : TokenKind :=
  if b == Text.byte '|' then .union
  else if b == Text.byte '&' then .intersection
  else if b == Text.byte '?' then .nullable
  else if b == Text.byte '<' then .opening .angle
  else if b == Text.byte '>' then .closing .angle
  else if b == Text.byte '{' then .opening .brace
  else if b == Text.byte '}' then .closing .brace
  else if b == Text.byte '(' then .opening .paren
  else if b == Text.byte ')' then .closing .paren
  else if b == Text.byte '[' then .opening .square
  else if b == Text.byte ']' then .closing .square
  else if b == Text.byte ':' then .colon
  else .other

/-- The length of the rest of a number that starts with the byte `b`. -/
def numberTail? (b : UInt8) (rest : Text) : Option Nat :=
  if b == 0x2D then numberLength? false false false rest
  else if isDigitByte b then numberLength? true false false rest
  else none

/-- The length of the rest of a quoted text that starts with the byte `b`. -/
def quotedTail? (b : UInt8) (rest : Text) : Option Nat :=
  if b == 0x27 || b == 0x22 then quotedLength? b b rest else none

/-- The kind of the token that starts with the byte `b`, and how many of the bytes after it
belong to it.  A dash or a quote that starts neither a number nor a quoted text stands alone. -/
def lexeme (b : UInt8) (rest : Text) : TokenKind × Nat :=
  if isNameStart b then (.name, (rest.takeWhile isNamePart).length)
  else
    match numberTail? b rest with
    | some n => (.number, n)
    | none =>
      match quotedTail? b rest with
      | some n => (.quoted, n)
      | none => (singleKind b, 0)

/-- The tokens of a text whose first byte has the given offset. -/
def lexFrom (offset : Nat) (t : Text) : List Token :=
  match t with
  | [] => []
  | b :: rest =>
    if isBlankByte b then lexFrom (offset + 1) rest
    else
      let (kind, n) := lexeme b rest
      let text := b :: rest.take n
      ⟨kind, text, offset⟩ :: lexFrom (offset + text.length) (rest.drop n)
termination_by t.length
decreasing_by
  · simp
  · simp only [List.length_drop, List.length_cons]; omega

/-- The tokens of a text. -/
def lex (t : Text) : List Token := lexFrom 0 t

end Token

end DocPromotion
