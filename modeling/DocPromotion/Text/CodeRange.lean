/-!
Sets of characters given by the ranges of their codes, in ascending order.
-/

namespace DocPromotion.Text

/-- Whether one of the ascending ranges `(first, last)` holds the code `n`. -/
def inRanges (n : Nat) : List (Nat × Nat) → Bool
  | [] => false
  | (first, last) :: rest =>
    if n < first then false
    else if n ≤ last then true
    else inRanges n rest

end DocPromotion.Text
