import DocPromotion.Text.Utf8
import DocPromotion.Text.Printable

/-!
Texts between double quotes, for messages.

Printable characters stand for themselves; everything else is written as an escape that shows
either the code of a character or a stray byte.
-/

namespace DocPromotion.Text

/-- The digit for a value below sixteen, in lower case. -/
def hexDigit (n : Nat) : Char := Nat.digitChar (n % 16)

/-- The hexadecimal digits of `n`, exactly `width` of them. -/
def hexDigits : (width n : Nat) → List Char
  | 0, _ => []
  | width + 1, n => hexDigits width (n / 16) ++ [hexDigit n]

/-- The escape letter of a control character that has one. -/
def controlLetter? (c : Char) : Option Char :=
  match c.toNat with
  | 0x07 => some 'a'
  | 0x08 => some 'b'
  | 0x0C => some 'f'
  | 0x0A => some 'n'
  | 0x0D => some 'r'
  | 0x09 => some 't'
  | 0x0B => some 'v'
  | _ => none

/-- A character as it is written between quotes. -/
def quoteChar (c : Char) : List Char :=
  if c = '"' ∨ c = '\\' then ['\\', c]
  else if isPrintable c then [c]
  else
    match controlLetter? c with
    | some letter => ['\\', letter]
    | none =>
      if c.toNat < 0x80 then '\\' :: 'x' :: hexDigits 2 c.toNat
      else if c.toNat < 0x10000 then '\\' :: 'u' :: hexDigits 4 c.toNat
      else '\\' :: 'U' :: hexDigits 8 c.toNat

/-- A piece as it is written between quotes; a stray byte is shown by its value. -/
def quotePiece (p : Piece) : Text :=
  match p.char? with
  | some c => ofChars (quoteChar c)
  | none => p.bytes.flatMap fun b => ofChars ('\\' :: 'x' :: hexDigits 2 b.toNat)

/-- A text between double quotes. -/
def quote (t : Text) : Text :=
  [byte '"'] ++ (pieces t).flatMap quotePiece ++ [byte '"']

end DocPromotion.Text
