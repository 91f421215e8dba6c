import DocPromotion.Text

/-!
Reading a text as UTF-8.

A text is cut into pieces: the encodings of characters, and single bytes wherever no encoding
starts.  Nothing is lost (`flatten_pieces`), so the pieces can be dropped, tested and put together
again.
-/

namespace DocPromotion.Text

/-- A part of a text that encodes one character, or one byte that belongs to no encoding. -/
structure Piece where
  bytes : Text
  char? : Option Char
deriving Repr, DecidableEq

/-- The character of a piece, the replacement character for a stray byte. -/
def Piece.char (p : Piece) : Char := p.char?.getD '\uFFFD'

/-- Continuation bytes have the form `10xxxxxx`. -/
def isContinuation (b : UInt8) : Bool := b &&& 0xC0 == 0x80

/-- The six payload bits of a continuation byte. -/
def payload (b : UInt8) : Nat := (b &&& 0x3F).toNat

/-- The character with code `n`, unless `n` is no character or has a shorter encoding. -/
def charFrom? (least n : Nat) : Option Char :=
  if least ≤ n ∧ n.isValidChar then some (Char.ofNat n) else none

/-- The character encoded by a byte and the bytes after it, with the number of bytes it takes
from those after it. -/
def decodeHead (b : UInt8) (rest : Text) : Option (Char × Nat) :=
  if b < 0x80 then
    some (Char.ofNat b.toNat, 0)
  else if b < 0xC0 then
    none
  else if b < 0xE0 then
    match rest with
    | c₁ :: _ =>
      if isContinuation c₁ then
        (charFrom? 0x80 ((b &&& 0x1F).toNat * 64 + payload c₁)).map (·, 1)
      else none
    | _ => none
  else if b < 0xF0 then
    match rest with
    | c₁ :: c₂ :: _ =>
      if isContinuation c₁ && isContinuation c₂ then
        (charFrom? 0x800 (((b &&& 0x0F).toNat * 64 + payload c₁) * 64 + payload c₂)).map (·, 2)
      else none
    | _ => none
  else if b < 0xF8 then
    match rest with
    | c₁ :: c₂ :: c₃ :: _ =>
      if isContinuation c₁ && isContinuation c₂ && isContinuation c₃ then
        (charFrom? 0x10000
          ((((b &&& 0x07).toNat * 64 + payload c₁) * 64 + payload c₂) * 64 + payload c₃)).map (·, 3)
      else none
    | _ => none
  else
    none

/-- The pieces of a text, from left to right. -/
def pieces (t : Text) : List Piece :=
  match t with
  | [] => []
  | b :: rest =>
    match decodeHead b rest with
    | some (c, n) => ⟨b :: rest.take n, some c⟩ :: pieces (rest.drop n)
    | none => ⟨[b], none⟩ :: pieces rest
termination_by t.length
decreasing_by
  · simp only [List.length_drop, List.length_cons]; omega
  · simp

/-- The characters of a text, with the replacement character for every stray byte. -/
def chars (t : Text) : List Char := (pieces t).map Piece.char

/-- A text with the replacement character for every stray byte. -/
def repair (t : Text) : Text := ofChars (chars t)

/-- A text is valid if it is the encoding of characters throughout. -/
def isValid (t : Text) : Bool := (pieces t).all (·.char?.isSome)

/-- The string that a valid text encodes. -/
def toString? (t : Text) : Option String :=
  if isValid t then some (String.ofList (chars t)) else none

/-- Cutting a text into pieces loses nothing. -/
theorem flatten_pieces (t : Text) : (pieces t).flatMap Piece.bytes = t := by
  fun_induction pieces t with
  | case1 => rfl
  | case2 b rest c n _ ih => simp [ih]
  | case3 b rest _ ih => simp [ih]

end DocPromotion.Text
