/-!
Texts are byte sequences.

Documentation comments reach the parser as raw bytes, which need not be valid UTF-8, and every
position that is reported counts bytes.  So `Text` is a list of bytes, literals are UTF-8 encoded
by a coercion, and everything that needs characters decodes first (`DocPromotion.Text.Utf8`).
-/

namespace DocPromotion

/-- A sequence of bytes, by convention holding UTF-8. -/
abbrev Text := List UInt8

namespace Text

/-- The UTF-8 encoding of a list of characters. -/
def ofChars (cs : List Char) : Text := cs.flatMap String.utf8EncodeChar

/-- The UTF-8 encoding of a string. -/
def ofString (s : String) : Text := ofChars s.toList

instance : Coe String Text := ⟨ofString⟩

/-- The byte that stands for an ASCII character. -/
def byte (c : Char) : UInt8 := c.toNat.toUInt8

/-- The decimal digits of a number. -/
def ofNat (n : Nat) : Text := ofChars (Nat.toDigits 10 n)

/-- The decimal digits of a number, after a minus sign if it is negative. -/
def ofInt (n : Int) : Text :=
  if n < 0 then ofString "-" ++ ofNat n.natAbs else ofNat n.natAbs

/-- The backslash, which separates the segments of a class name. -/
def backslash : UInt8 := byte '\\'

/-- A name without its leading backslash, if it has one. -/
def cutBackslash? : Text → Option Text
  | [] => none
  | b :: rest => if b = backslash then some rest else none

/-- A name without its leading backslash, or the name itself. -/
def dropBackslash (t : Text) : Text := (cutBackslash? t).getD t

/-- A text without the given byte at either end. -/
def trimByte (b : UInt8) (t : Text) : Text :=
  ((t.dropWhile (· == b)).reverse.dropWhile (· == b)).reverse

/-- The parts of a text before and after the first occurrence of a byte. -/
def cutAt (b : UInt8) : Text → Text × Option Text
  | [] => ([], none)
  | c :: rest =>
    if c = b then ([], some rest)
    else
      let (before, after) := cutAt b rest
      (c :: before, after)

/-- The parts of a text between the occurrences of a byte; there is always at least one. -/
def splitOn (b : UInt8) : Text → List Text
  | [] => [[]]
  | c :: rest =>
    if c = b then [] :: splitOn b rest
    else
      match splitOn b rest with
      | [] => [[c]]
      | part :: parts => (c :: part) :: parts

/-- The texts of a list with a separator between them. -/
def joinWith (sep : Text) : List Text → Text
  | [] => []
  | [t] => t
  | t :: ts => t ++ sep ++ joinWith sep ts

end Text

end DocPromotion
