import DocPromotion.Yaml.Token

/-!
Reading YAML documents.

Only the first document of a text is read.  A node gets its anchor before what it holds is read,
so that an alias inside of it may refer to it.
-/

namespace DocPromotion.Yaml

/-- Why a text has no first document. -/
inductive ReadError where
  | fault (fault : Fault)
  | unknownAnchor (name : Text)
deriving Repr, DecidableEq

/-- The wording of an error. -/
def ReadError.message : ReadError → Text
  | .fault f => f.message
  | .unknownAnchor name => "yaml: unknown anchor '" ++ name ++ "' referenced"

/-- The state of the reader. -/
structure ReaderState where
  scanner : Scanner
  /-- What the handles of tags stand for. -/
  handles : List (Text × Text)
  /-- The names of anchors with their numbers, the last one first. -/
  anchors : List (Text × Nat)
  /-- The nodes with an anchor, by their numbers; a node that is being read is held open by an
  empty one. -/
  anchored : Array Node
  /-- The number of aliases so far. -/
  aliases : Nat

/-- A step of reading. -/
abbrev ReaderM := StateT ReaderState (Except ReadError)

namespace ReaderM

/-- The next token. -/
def peek : ReaderM Token := do
  let s ← get
  match s.scanner.peek with
  | .error f => throw (.fault f)
  | .ok (t, scanner) =>
    set { s with scanner }
    return t

/-- Drops the next token. -/
def next : ReaderM Unit := modify fun s => { s with scanner := s.scanner.next }

/-- A fault at a token, inside of a construct that starts on the line `context`. -/
def failAt {α : Type} (context : Nat) (t : Token) (problem : Text) : ReaderM α :=
  throw (.fault (.layout problem context t.line))

/-- A node without anything in it. -/
def emptyNode (line : Nat) : Node := .scalar (line + 1) .null []

/-- An alias on a line. -/
def aliasNode (line : Nat) (name : Text) : ReaderM Node := do
  let s ← get
  match s.anchors.lookup name with
  | none => throw (.unknownAnchor name)
  | some anchor =>
    set { s with aliases := s.aliases + 1 }
    return .alias (line + 1) name s.aliases anchor

/-- Reads a node that may have an anchor. -/
def anchoring (name? : Option Text) (read : ReaderM Node) : ReaderM Node :=
  match name? with
  | none => read
  | some name => do
    let number := (← get).anchored.size
    modify fun s => { s with
      anchors := (name, number) :: s.anchors
      anchored := s.anchored.push (emptyNode 0) }
    let n ← read
    modify fun s => { s with anchored := s.anchored.setIfInBounds number n }
    return n

/-! ### Tags -/

/-- What the tags of the format itself start with. -/
def ownTagStart : Text := "tag:yaml.org,2002:"

/-- The handles that need no directive. -/
def standardHandles : List (Text × Text) := [("!", "!"), ("!!", ownTagStart)]

/-- The short form of a tag. -/
def shortTag (t : Text) : Text :=
  if ownTagStart.isPrefixOf t then "!!" ++ t.drop ownTagStart.length else t

/-- A tag as it is written in front of a node. -/
structure WrittenTag where
  handle : Text
  suffix : Text
  line : Nat

/-- The tag that is meant in front of a node that starts on a line.  A single exclamation mark
is as good as none. -/
def tagOf (line : Nat) : Option WrittenTag → ReaderM (Option Text)
  | none => return none
  | some w => do
    let t ←
      if w.handle.isEmpty then pure w.suffix
      else
        match (← get).handles.lookup w.handle with
        | some start => pure (start ++ w.suffix)
        | none => throw (.fault (.layout "found undefined tag handle" line w.line))
    return if t == "!" then none else some (shortTag t)

/-- The node of a scalar.  A tag may fix what it denotes. -/
def scalarNode (line : Nat) (tag? : Option Text) (plain : Bool) (value : List Char) : Node :=
  let d :=
    match tag? with
    | some tag => taggedMeaning tag value
    | none => if plain then plainMeaning value else .text
  .scalar (line + 1) d (Text.ofChars value)

/-- The properties in front of a node: its anchor and its tag, in any order. -/
def properties : ReaderM (Option Text × Option WrittenTag) := do
  let t ← peek
  match t.kind with
  | .anchor a =>
    next
    let t ← peek
    match t.kind with
    | .tag handle suffix => next; return (some a, some ⟨handle, suffix, t.line⟩)
    | _ => return (some a, none)
  | .tag handle suffix =>
    next
    match (← peek).kind with
    | .anchor a => next; return (some a, some ⟨handle, suffix, t.line⟩)
    | _ => return (none, some ⟨handle, suffix, t.line⟩)
  | _ => return (none, none)

/-! ### Nodes -/

/-- Whether a key or value of a block mapping is missing in front of a token. -/
def endsBlockEntry : TokenKind → Bool
  | .key | .value | .blockEnd => true
  | _ => false

mutual

/-- Reads a node.  In block style it may be a block collection; after a key, the items of a
sequence may stand without further indentation. -/
def node (block indentless : Bool) : (fuel : Nat) → ReaderM Node
  | 0 => throw (.fault (.layout "did not find expected node content" 0 0))
  | fuel + 1 => do
    let first ← peek
    let line := first.line
    match first.kind with
    | .alias name => next; aliasNode line name
    | _ =>
      let (name?, written?) ← properties
      let t ← peek
      let tag? ← tagOf line written?
      let sequence (items : ReaderM (List Node)) : ReaderM Node :=
        anchoring name? (do return .sequence (line + 1) tag? (← items))
      let mapping (entries : ReaderM (List (Node × Node))) : ReaderM Node :=
        anchoring name? (do return .mapping (line + 1) tag? (← entries))
      match t.kind with
      | .scalar plain value => next; anchoring name? (pure (scalarNode line tag? plain value))
      | .flowSequence => next; sequence (flowItems t.line true fuel)
      | .flowMapping => next; mapping (flowEntries t.line true fuel)
      | kind =>
        if indentless && kind == .blockItem then sequence (indentlessItems fuel)
        else if block && kind == .blockSequence then do
          next
          sequence (blockItems t.line fuel)
        else if block && kind == .blockMapping then do
          next
          mapping (blockEntries t.line fuel)
        else if name?.isSome || written?.isSome then
          anchoring name? (pure (scalarNode line tag? true []))
        else failAt line t "did not find expected node content"
termination_by structural fuel => fuel

/-- Reads the items of a block sequence. -/
def blockItems (context : Nat) : (fuel : Nat) → ReaderM (List Node)
  | 0 => return []
  | fuel + 1 => do
    let t ← peek
    match t.kind with
    | .blockItem =>
      next
      let after ← peek
      let item ←
        if after.kind == .blockItem || after.kind == .blockEnd then pure (emptyNode t.line)
        else node true false fuel
      return item :: (← blockItems context fuel)
    | .blockEnd => next; return []
    | _ => failAt context t "did not find expected '-' indicator"
termination_by structural fuel => fuel

/-- Reads the items of a sequence without further indentation. -/
def indentlessItems : (fuel : Nat) → ReaderM (List Node)
  | 0 => return []
  | fuel + 1 => do
    let t ← peek
    match t.kind with
    | .blockItem =>
      next
      let after ← peek
      let item ←
        if after.kind == .blockItem || endsBlockEntry after.kind then pure (emptyNode t.line)
        else node true false fuel
      return item :: (← indentlessItems fuel)
    | _ => return []
termination_by structural fuel => fuel

/-- Reads the entries of a block mapping. -/
def blockEntries (context : Nat) : (fuel : Nat) → ReaderM (List (Node × Node))
  | 0 => return []
  | fuel + 1 => do
    let t ← peek
    match t.kind with
    | .key =>
      next
      let after ← peek
      let k ← if endsBlockEntry after.kind then pure (emptyNode t.line) else node true true fuel
      let v ← blockValue fuel
      return (k, v) :: (← blockEntries context fuel)
    | .blockEnd => next; return []
    | _ => failAt context t "did not find expected key"
termination_by structural fuel => fuel

/-- Reads the value of an entry of a block mapping. -/
def blockValue : (fuel : Nat) → ReaderM Node
  | 0 => return emptyNode 0
  | fuel + 1 => do
    let t ← peek
    match t.kind with
    | .value =>
      next
      let after ← peek
      if endsBlockEntry after.kind then return emptyNode t.line else node true true fuel
    | _ => return emptyNode t.line
termination_by structural fuel => fuel

/-- Reads the items of a flow sequence.  An item may be a single entry of a mapping. -/
def flowItems (context : Nat) (first : Bool) : (fuel : Nat) → ReaderM (List Node)
  | 0 => return []
  | fuel + 1 => do
    let t ← peek
    if t.kind == .flowSequenceEnd then next; return []
    else
      if !first then
        if t.kind == .flowItem then next
        else failAt context t "did not find expected ',' or ']'"
      let t ← peek
      match t.kind with
      | .flowSequenceEnd => next; return []
      | .key =>
        next
        let item ← flowPair t.line fuel
        return item :: (← flowItems context false fuel)
      | _ =>
        let item ← node false false fuel
        return item :: (← flowItems context false fuel)
termination_by structural fuel => fuel

/-- Reads a single entry of a mapping as an item of a flow sequence. -/
def flowPair (line : Nat) : (fuel : Nat) → ReaderM Node
  | 0 => return emptyNode line
  | fuel + 1 => do
    let t ← peek
    let k ←
      if t.kind == .value || t.kind == .flowItem || t.kind == .flowSequenceEnd then do
        next; pure (emptyNode t.line)
      else node false false fuel
    let t ← peek
    let v ←
      if t.kind == .value then do
        next
        let after ← peek
        if after.kind == .flowItem || after.kind == .flowSequenceEnd then
          pure (emptyNode after.line)
        else node false false fuel
      else pure (emptyNode t.line)
    return .mapping (line + 1) none [(k, v)]
termination_by structural fuel => fuel

/-- Reads the entries of a flow mapping.  A key may stand without a value. -/
def flowEntries (context : Nat) (first : Bool) : (fuel : Nat) → ReaderM (List (Node × Node))
  | 0 => return []
  | fuel + 1 => do
    let t ← peek
    if t.kind == .flowMappingEnd then next; return []
    else
      if !first then
        if t.kind == .flowItem then next
        else failAt context t "did not find expected ',' or '\x7d'"
      let t ← peek
      match t.kind with
      | .flowMappingEnd => next; return []
      | .key =>
        next
        let after ← peek
        let k ←
          if after.kind == .value || after.kind == .flowItem || after.kind == .flowMappingEnd then
            pure (emptyNode after.line)
          else node false false fuel
        let v ← flowValue fuel
        return (k, v) :: (← flowEntries context false fuel)
      | _ =>
        let k ← node false false fuel
        let after ← peek
        return (k, emptyNode after.line) :: (← flowEntries context false fuel)
termination_by structural fuel => fuel

/-- Reads the value of an entry of a flow mapping. -/
def flowValue : (fuel : Nat) → ReaderM Node
  | 0 => return emptyNode 0
  | fuel + 1 => do
    let t ← peek
    match t.kind with
    | .value =>
      next
      let after ← peek
      if after.kind == .flowItem || after.kind == .flowMappingEnd then return emptyNode after.line
      else node false false fuel
    | _ => return emptyNode t.line
termination_by structural fuel => fuel

end

/-! ### Documents -/

/-- Reads directives.  The version of the format may be given once, and every handle. -/
def directives (versioned : Bool) : (fuel : Nat) → ReaderM Unit
  | 0 => return
  | fuel + 1 => do
    let t ← peek
    match t.kind with
    | .directive (.version major minor) =>
      if versioned then failAt 0 t "found duplicate %YAML directive"
      else if major ≠ 1 ∨ minor ≠ 1 then failAt 0 t "found incompatible YAML document"
      else
        next
        directives true fuel
    | .directive (.handle name start) =>
      if ((← get).handles.lookup name).isSome then failAt 0 t "found duplicate %TAG directive"
      else
        modify fun s => { s with handles := s.handles ++ [(name, start)] }
        next
        directives versioned fuel
    | _ => return

/-- Whether a token belongs in front of a document. -/
def startsDocument : TokenKind → Bool
  | .directive _ | .documentStart => true
  | _ => false

/-- Whether a document has no content in front of a token. -/
def endsDocument : TokenKind → Bool
  | .documentEnd | .streamEnd => true
  | kind => startsDocument kind

/-- Adds the handles that need no directive, unless directives explain them. -/
def addStandardHandles : ReaderM Unit :=
  modify fun s => { s with handles := s.handles ++ standardHandles }

/-- Reads the first document; there is none in an empty text. -/
def document (fuel : Nat) : ReaderM (Option Document) := do
  let _ ← peek
  next
  let t ← peek
  if t.kind == .streamEnd then return none
  let root ←
    if startsDocument t.kind then do
      directives false fuel
      addStandardHandles
      let t ← peek
      if t.kind == .documentStart then next
      else failAt 0 t "did not find expected <document start>"
      let t ← peek
      if endsDocument t.kind then pure (emptyNode t.line) else node true false fuel
    else do
      addStandardHandles
      node true false fuel
  let _ ← peek
  return some ⟨root, (← get).anchored⟩

end ReaderM

/-- The first document of a text; an empty text has none. -/
def Document.read (t : Text) : Except ReadError (Option Document) := do
  let input ← (Input.ofText t).mapError .fault
  let fuel := 8 * input.chars.length + 64
  let (d, _) ← (ReaderM.document fuel).run ⟨.start input, [], [], #[], 0⟩
  return d

end DocPromotion.Yaml
