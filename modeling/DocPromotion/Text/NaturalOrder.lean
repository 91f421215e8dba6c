import DocPromotion.Text.Letter
import DocPromotion.Text.Utf8

/-!
The natural order of texts: like the order of their characters, but runs of digits compare as
numbers.  Numbers have 64 bits; those of longer runs wrap around.
-/

namespace DocPromotion.Text

/-- The number that the digits at the start of a text write, continuing `n`, and how many digits
there are. -/
def leadingNumber (n : Int) (count : Nat) : List Char → Int × Nat
  | [] => (n, count)
  | c :: cs =>
    if isDigit c then
      leadingNumber ((n * 10 + ((c.toNat : Int) - 48)).bmod (2 ^ 64)) (count + 1) cs
    else (n, count)

/-- Whether the digits directly before a position, given in reverse, are more than zeros. -/
def significantBefore (reversed : List Char) : Bool :=
  (reversed.takeWhile isDigit).any (· != '0')

/-- The order of two texts from the first characters `a` and `b` on in which they differ, where
`before` are the characters before them in reverse. -/
def differLess (before : List Char) (a b : Char) (as bs : List Char) : Bool :=
  if isLetter a && isLetter b then a < b
  else if isLetter a || isLetter b then
    if before.head?.any isDigit then isLetter a else isLetter b
  else
    let seed : Int := if (a == '0' || b == '0') && significantBefore before then 1 else 0
    let (m, i) := leadingNumber seed 0 (a :: as)
    let (n, j) := leadingNumber seed 0 (b :: bs)
    if m ≠ n then m < n
    else if i ≠ j then i < j
    else a < b

/-- The natural order on characters after a common start, given in reverse. -/
def naturalLessFrom (before : List Char) : List Char → List Char → Bool
  | a :: as, b :: bs =>
    if a = b then naturalLessFrom (a :: before) as bs else differLess before a b as bs
  | [], _ :: _ => true
  | _, [] => false

/-- Whether a text comes before another one in the natural order. -/
def naturalLess (s t : Text) : Bool := naturalLessFrom [] (chars s) (chars t)

end DocPromotion.Text
