/-!
Sets of flags, kept as the bits of a word.

A flag may consist of several bits, and flags may overlap.  A flag is enabled if all of its bits
are set; the flag without bits never is.
-/

namespace DocPromotion

/-- A set of flags in a word of `w` bits. -/
structure BitMask (w : Nat) where
  bits : BitVec w
deriving Repr, DecidableEq

namespace BitMask

variable {w : Nat}

/-- The mask with the bits of all given flags. -/
def ofFlags (flags : List (BitVec w)) : BitMask w := ⟨flags.foldl (· ||| ·) 0⟩

/-- Enables or disables a flag. -/
def set (m : BitMask w) (flag : BitVec w) (on : Bool) : BitMask w :=
  if on then ⟨m.bits ||| flag⟩ else ⟨m.bits &&& ~~~flag⟩

/-- Whether all bits of a flag are set. -/
def enabled (m : BitMask w) (flag : BitVec w) : Bool :=
  flag != 0 && m.bits &&& flag == flag

/-- Whether no flag is enabled. -/
def isEmpty (m : BitMask w) : Bool := m.bits == 0

/-- The flags of a single bit that are enabled, as a number. -/
def single (m : BitMask w) : Nat :=
  (List.range w).foldl (fun n i => if m.enabled (BitVec.twoPow w i) then n + 1 <<< i else n) 0

end BitMask

end DocPromotion
