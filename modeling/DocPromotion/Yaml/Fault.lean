import DocPromotion.Text

/-!
What can be wrong with the text of a YAML document.
-/

namespace DocPromotion.Yaml

/-- Where a fault was noticed. -/
inductive Stage where
  /-- Among the characters of the text. -/
  | characters
  /-- Among the characters of a token. -/
  | token
  /-- Among the tokens. -/
  | layout
deriving Repr, DecidableEq

/-- A fault: what is wrong, on which line, and on which line the construct around it starts.
Lines count from zero. -/
structure Fault where
  stage : Stage
  problem : Text
  context : Nat
  line : Nat
  /-- Whether at most one character was left where the fault was noticed. -/
  atEnd : Bool := false
deriving Repr, DecidableEq

/-- A character that may not occur in a document. -/
def Fault.unreadable : Fault :=
  { stage := .characters, problem := "control characters are not allowed", context := 0, line := 0 }

/-- Bytes that are no characters. -/
def Fault.undecodable : Fault :=
  { stage := .characters, problem := "invalid leading UTF-8 octet", context := 0, line := 0 }

/-- Tokens in the wrong order. -/
def Fault.layout (problem : Text) (context line : Nat) : Fault :=
  { stage := .layout, problem, context, line }

/-- The line that a fault shows: that of the construct around it, unless it is the first one.
Faults in a token count lines from one. -/
def Fault.shownLine (f : Fault) : Nat :=
  let offset := if f.stage = .token then 1 else 0
  if f.context ≠ 0 then f.context + offset
  else if f.line ≠ 0 then f.line + offset
  else 0

/-- The wording of a fault. -/
def Fault.message (f : Fault) : Text :=
  let place : Text :=
    if f.shownLine = 0 then [] else "line " ++ Text.ofNat f.shownLine ++ ": "
  "yaml: " ++ place ++ f.problem

end DocPromotion.Yaml
