import DocPromotion.Text

/-!
Labels of enumerations.

The enumerations of this library arrive as small codes, and a code that names no member is kept
rather than refused.  Such a code is shown as the name of its enumeration with the code in
parentheses.
-/

namespace DocPromotion

/-- The label of a code outside of an enumeration. -/
def strayLabel (enumeration : Text) (code : UInt8) : Text :=
  enumeration ++ "(" ++ Text.ofNat code.toNat ++ ")"

end DocPromotion
