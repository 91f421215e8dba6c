import DocPromotion.DocType.Name
import DocPromotion.DocType.SyntaxFault
import DocPromotion.DocType.Token
import DocPromotion.Text.Blank

/-!
Reading a documentation type expression.

The reader takes one token at a time.  Its state is a phase, which says what may come next, and
the stack of constructs that are still open around it.  So an expression is read by a fold over
its tokens, a token that cannot follow is noticed at once, and nesting costs no recursion.

Type arguments, array shapes and callable signatures are only checked for balanced brackets.
What they say is kept as the source text of the type, without blanks at its ends; until the end,
only the offsets of that text are kept (`Reading`).
-/

namespace DocPromotion.DocType

/-- The types that keep their source text. -/
inductive Form where
  | array
  | iterable
  | unrepresentable
deriving Repr, DecidableEq

/-- The type of a form with a spelling. -/
def Form.toDocType : Form → Text → DocType
  | .array => .array
  | .iterable => .iterable
  | .unrepresentable => .unrepresentable

/-- A type that has been read: the type of a bare name, or a form with the offsets of its source
text. -/
inductive Reading where
  | named (type : DocType)
  | spelled (form : Form) (start stop : Nat)
deriving Repr, DecidableEq

/-- The source text between two offsets, without blanks at its ends. -/
def sourceText (expr : Text) (start stop : Nat) : Text :=
  Text.trim ((expr.drop start).take (stop - start))

/-- The type that has been read from an expression. -/
def Reading.toDocType (expr : Text) : Reading → DocType
  | .named type => type
  | .spelled form start stop => form.toDocType (sourceText expr start stop)

/-- A construct that is still open, with the offset of its first token. -/
inductive Frame where
  /-- `?` waits for the end of its atom. -/
  | nullable (start : Nat)
  /-- `(` waits for its closing parenthesis. -/
  | group (start : Nat)
  /-- `name(...):` waits for the end of the return type. -/
  | signature (start : Nat)
  /-- A union or intersection waits for further members. -/
  | compound (start : Nat)
deriving Repr, DecidableEq

/-- What may follow an atom, besides a suffix in square brackets. -/
inductive Growth where
  /-- A bare name may be followed by type arguments, a shape or a signature. -/
  | name (type : DocType)
  /-- A signature may be followed by a return type. -/
  | signature
  | none
deriving Repr, DecidableEq

/-- What a bracketed part makes of the atom it belongs to. -/
inductive Enclosed where
  /-- Type arguments or an array shape. -/
  | arguments (form : Form)
  | signature
  /-- A suffix in square brackets, which may be empty so far. -/
  | suffix (empty : Bool)
deriving Repr, DecidableEq

/-- What the reader expects. -/
inductive Phase where
  /-- An atom has to start. -/
  | expecting
  /-- An atom has been read, which may still grow. -/
  | complete (start stop : Nat) (reading : Reading) (growth : Growth)
  /-- Inside of a bracketed part that starts an atom at `start` and ends with `closer`;
  `inner` are the brackets that are open within it. -/
  | inside (start : Nat) (enclosed : Enclosed) (closer : Bracket) (inner : List Bracket)
deriving Repr, DecidableEq

/-- The state of the reader. -/
structure State where
  frames : List Frame
  phase : Phase
deriving Repr, DecidableEq

/-- The state before the first token. -/
def State.initial : State := ⟨[], .expecting⟩

/-- The form of a name with type arguments. -/
def Form.ofArguments : DocType → Form
  | .array _ => .array
  | .iterable _ => .iterable
  | _ => .unrepresentable

/-- The form of a name with a shape in braces. -/
def Form.ofShape : DocType → Form
  | .array _ => .array
  | _ => .unrepresentable

/-- An atom that ends at `stop` ends the nullable types and return types it belongs to. -/
def closeAtom (stop : Nat) : List Frame → Nat → Reading → List Frame × Nat × Reading
  | .nullable start :: frames, _, _ =>
    closeAtom stop frames start (.spelled .unrepresentable start stop)
  | .signature start :: frames, _, _ =>
    closeAtom stop frames start (.spelled .unrepresentable start stop)
  | frames, start, reading => (frames, start, reading)

/-- A type that ends at `stop` ends the union or intersection it closes. -/
def closeType (stop : Nat) (frames : List Frame) (reading : Reading) : List Frame × Reading :=
  match frames with
  | .compound start :: frames => (frames, .spelled .unrepresentable start stop)
  | frames => (frames, reading)

/-- The phase after a bracketed part ends at `stop`. -/
def Enclosed.close (start stop : Nat) : Enclosed → Phase
  | .arguments form => .complete start stop (.spelled form start stop) .none
  | .signature => .complete start stop (.spelled .unrepresentable start stop) .signature
  | .suffix true => .complete start stop (.spelled .array start stop) .none
  | .suffix false => .complete start stop (.spelled .unrepresentable start stop) .none

/-- A suffix with anything in it is not empty. -/
def Enclosed.fill : Enclosed → Enclosed
  | .suffix _ => .suffix false
  | e => e

/-- The first token of an atom. -/
def stepExpecting (names : Option Resolver) (frames : List Frame) (t : Token) :
    Except SyntaxFault State :=
  match t.kind with
  | .nullable => .ok ⟨.nullable t.start :: frames, .expecting⟩
  | .opening .paren => .ok ⟨.group t.start :: frames, .expecting⟩
  | .quoted | .number =>
    .ok ⟨frames, .complete t.start t.stop (.spelled .unrepresentable t.start t.stop) .none⟩
  | .name =>
    match ofName? names t.text with
    | some type => .ok ⟨frames, .complete t.start t.stop (.named type) (.name type)⟩
    | none => .error (.invalidName t.text)
  | _ => .error (.unexpected t.text)

/-- A token after an atom that does not belong to the atom. -/
def stepAfter (frames : List Frame) (start stop : Nat) (reading : Reading) (t : Token) :
    Except SyntaxFault State :=
  let (frames, start, reading) := closeAtom stop frames start reading
  match t.kind with
  | .union | .intersection =>
    match frames with
    | .compound _ :: _ => .ok ⟨frames, .expecting⟩
    | _ => .ok ⟨.compound start :: frames, .expecting⟩
  | .closing .paren =>
    match closeType stop frames reading with
    | (.group start :: frames, reading) => .ok ⟨frames, .complete start t.stop reading .none⟩
    | _ => .error (.unexpected t.text)
  | _ => .error (.unexpected t.text)

/-- A token after an atom. -/
def stepComplete (frames : List Frame) (start stop : Nat) (reading : Reading) (growth : Growth)
    (t : Token) : Except SyntaxFault State :=
  match t.kind, growth with
  | .opening .square, _ => .ok ⟨frames, .inside start (.suffix true) .square []⟩
  | .opening .angle, .name type =>
    .ok ⟨frames, .inside start (.arguments (.ofArguments type)) .angle []⟩
  | .opening .brace, .name type =>
    .ok ⟨frames, .inside start (.arguments (.ofShape type)) .brace []⟩
  | .opening .paren, .name _ => .ok ⟨frames, .inside start .signature .paren []⟩
  | .colon, .signature => .ok ⟨.signature start :: frames, .expecting⟩
  | _, _ => stepAfter frames start stop reading t

/-- A token inside of a bracketed part. -/
def stepInside (frames : List Frame) (start : Nat) (enclosed : Enclosed) (closer : Bracket)
    (inner : List Bracket) (t : Token) : Except SyntaxFault State :=
  match t.kind with
  | .opening b => .ok ⟨frames, .inside start enclosed.fill closer (b :: inner)⟩
  | .closing b =>
    match inner with
    | last :: inner =>
      if b = last then .ok ⟨frames, .inside start enclosed.fill closer inner⟩
      else .error (.unbalanced t.text)
    | [] =>
      if b = closer then .ok ⟨frames, enclosed.close start t.stop⟩
      else .error (.unbalanced t.text)
  | _ => .ok ⟨frames, .inside start enclosed.fill closer inner⟩

/-- The state after one more token. -/
def State.step (names : Option Resolver) (s : State) (t : Token) : Except SyntaxFault State :=
  match s.phase with
  | .expecting => stepExpecting names s.frames t
  | .complete start stop reading growth => stepComplete s.frames start stop reading growth t
  | .inside start enclosed closer inner => stepInside s.frames start enclosed closer inner t

/-- The type that has been read when the expression ends. -/
def State.finish (s : State) : Except SyntaxFault Reading :=
  match s.phase with
  | .expecting => .error .missingType
  | .inside .. => .error .unterminated
  | .complete start stop reading _ =>
    let (frames, _, reading) := closeAtom stop s.frames start reading
    match closeType stop frames reading with
    | ([], reading) => .ok reading
    | _ => .error .unexpectedEnd

/-- Reads the remaining tokens.  A fault comes with the offset of the token at fault, which is
`stop` if the tokens end too early. -/
def State.run (names : Option Resolver) (stop : Nat) (s : State) :
    List Token → Except (Nat × SyntaxFault) Reading
  | [] => s.finish.mapError (stop, ·)
  | t :: ts =>
    match s.step names t with
    | .ok s => s.run names stop ts
    | .error fault => .error (t.start, fault)

/-- The documentation type of an expression.  Without a resolver, every class name is taken as
fully qualified. -/
def parse (names : Option Resolver) (expr : Text) : Except SyntaxError DocType :=
  match State.initial.run names expr.length (Token.lex expr) with
  | .ok reading => .ok (reading.toDocType expr)
  | .error (offset, fault) => .error ⟨expr, offset, fault⟩

end DocPromotion.DocType
