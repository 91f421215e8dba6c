import DocPromotion.Text.Quoted

/-!
What can be wrong with a documentation type expression.
-/

namespace DocPromotion

/-- The reason why an expression is not a type. -/
inductive SyntaxFault where
  /-- The expression ends where a type should start. -/
  | missingType
  /-- A token stands where it cannot stand. -/
  | unexpected (token : Text)
  /-- The expression ends inside of parentheses. -/
  | unexpectedEnd
  | invalidName (name : Text)
  /-- A closing bracket without a counterpart. -/
  | unbalanced (token : Text)
  /-- The expression ends inside of brackets. -/
  | unterminated
deriving Repr, DecidableEq

/-- The wording of a fault. -/
def SyntaxFault.message : SyntaxFault → Text
  | .missingType => "missing type"
  | .unexpected token => "unexpected " ++ Text.quote token
  | .unexpectedEnd => "unexpected end of type"
  | .invalidName name => "invalid class name " ++ Text.quote name
  | .unbalanced token => "unbalanced " ++ Text.quote token
  | .unterminated => "unterminated type arguments"

/-- A fault with the expression and the offset of the token at fault, or the length of the
expression if it is missing something at its end. -/
structure SyntaxError where
  expr : Text
  offset : Nat
  fault : SyntaxFault
deriving Repr, DecidableEq

/-- The wording of an error. -/
def SyntaxError.message (e : SyntaxError) : Text :=
  e.fault.message ++ " at offset " ++ Text.ofNat e.offset ++ " in " ++ Text.quote e.expr

end DocPromotion
