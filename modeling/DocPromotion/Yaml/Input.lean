import DocPromotion.Yaml.Fault
import DocPromotion.Text.Utf8

/-!
The characters of a YAML document.

A text is taken in portions, and a portion is only looked at when the reader gets there.  So a
character that may not occur in a document makes everything from the start of its portion on
unreadable, but does no harm if the reader stops before.
-/

namespace DocPromotion.Yaml

/-- The characters of a text as far as they can be read. -/
structure Input where
  chars : List Char
  /-- Whether unreadable characters follow. -/
  cut : Bool

/-- The characters that may occur in a document. -/
def isReadable (c : Char) : Bool :=
  let n := c.toNat
  n == 0x09 || n == 0x0A || n == 0x0D || (0x20 ≤ n && n ≤ 0x7E) || n == 0x85
    || (0xA0 ≤ n && n ≤ 0xFFFD) || 0x10000 ≤ n

namespace Input

/-- The number of bytes in a portion. -/
def portion : Nat := 512

/-- The readable part of characters, where `done` comes before the current portion and `current`
is the part of it that has been looked at, both with the last character first, and the portion
has room for `room` more bytes. -/
def readable (done current : List Char) (room : Nat) : List Char → Input
  | [] => ⟨(current ++ done).reverse, false⟩
  | c :: cs =>
    let width := (String.utf8EncodeChar c).length
    if room < width then
      if isReadable c then readable (current ++ done) [c] (portion - width) cs
      else ⟨(current ++ done).reverse, true⟩
    else if isReadable c then readable done (c :: current) (room - width) cs
    else ⟨done.reverse, true⟩

/-- The readable part of a text.  A byte order mark at its start is dropped. -/
def ofText (t : Text) : Except Fault Input :=
  if !Text.isValid t then .error .undecodable
  else
    match Text.chars t with
    | '\uFEFF' :: cs => .ok (readable [] [] (portion - 3) cs)
    | cs => .ok (readable [] [] portion cs)

end Input

end DocPromotion.Yaml
