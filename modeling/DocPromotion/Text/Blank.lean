import DocPromotion.Text.Utf8
import DocPromotion.Text.CodeRange

/-!
Blank characters, and texts without blanks at their ends.
-/

namespace DocPromotion.Text

/-- The codes with the Unicode property White_Space. -/
def blankRanges : List (Nat × Nat) := [
  (0x9, 0xD), (0x20, 0x20), (0x85, 0x85), (0xA0, 0xA0), (0x1680, 0x1680), (0x2000, 0x200A),
  (0x2028, 0x2029), (0x202F, 0x202F), (0x205F, 0x205F), (0x3000, 0x3000)]

/-- Blank characters. -/
def isBlank (c : Char) : Bool := inRanges c.toNat blankRanges

/-- A text without the blank characters at either end. -/
def trim (t : Text) : Text :=
  let rest := (pieces t).dropWhile (isBlank ·.char)
  (rest.reverse.dropWhile (isBlank ·.char)).reverse.flatMap Piece.bytes

end DocPromotion.Text
