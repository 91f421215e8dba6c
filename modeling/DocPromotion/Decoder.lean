import DocPromotion.Decoder.Problem
import DocPromotion.Text.Base64

/-!
Reading values out of YAML documents.

A decoder follows the nodes of a document and notes every problem it meets.  It follows aliases,
too: an alias that is met again on the way to itself is a failure, and so is a document in which
nearly all nodes are reached through aliases once there are many of them.

The entries of a mapping are taken in order.  A mapping may say that others are to be merged into
it: their entries come after its own, and a key that has been seen before is skipped.
-/

namespace DocPromotion

open Yaml (Node Meaning Document oldBool? integer? ungrouped)

/-! ### Decoders -/

/-- The state of a decoder. -/
structure DecodeState where
  /-- The number of nodes so far. -/
  visits : Nat
  /-- How many of them were reached through an alias. -/
  aliased : Nat
  /-- The numbers of the aliases that are being followed. -/
  following : List Nat
  /-- The problems so far, the last one first. -/
  problems : List FormatProblem
deriving Repr, DecidableEq

/-- The state at the start of a document, which counts as a node. -/
def DecodeState.start : DecodeState := ⟨1, 0, [], []⟩

/-- What a decoder works on: a document, and a bound on the length of a way through it.  A way
leads from each node to one inside of it, to the next one beside it, or through an alias that has
not been followed yet. -/
structure DecodeContext where
  document : Document
  fuel : Nat

/-- The context of a document. -/
def DecodeContext.ofDocument (d : Document) : DecodeContext :=
  ⟨d, (d.root.size + 1) * (d.root.size + 1)⟩

/-- A step of decoding. -/
abbrev DecodeM := ReaderT DecodeContext (StateT DecodeState (Except DecodeError))

namespace DecodeM

/-- The largest share of nodes that may be reached through aliases, as a fraction: 99 in 100 of up
to 400,000 nodes, falling to one in ten of 4,000,000. -/
def allowedShare (visits : Nat) : Nat × Nat :=
  if visits ≤ 400000 then (99, 100)
  else if 4000000 ≤ visits then (10, 100)
  else (99 * 3600000 - 89 * (visits - 400000), 100 * 3600000)

/-- Whether too many nodes were reached through aliases. -/
def isExcessive (s : DecodeState) : Bool :=
  let (part, whole) := allowedShare s.visits
  100 < s.aliased && 1000 < s.visits && part * s.visits < s.aliased * whole

/-- Counts a node. -/
def count : DecodeM Unit := do
  let s ← get
  let s := { s with
    visits := s.visits + 1
    aliased := if s.following.isEmpty then s.aliased else s.aliased + 1 }
  if isExcessive s then throw .excessiveAliasing else set s

/-- Decodes a node, or what it stands for if it is an alias. -/
def visit {α : Type} (n : Node) (read : Node → DecodeM α) : DecodeM α := do
  count
  match n with
  | .alias _ name number _ =>
    if (← get).following.contains number then throw (.cyclicAnchor name)
    modify fun s => { s with following := number :: s.following }
    count
    let a ← read ((← readThe DecodeContext).document.resolve n)
    modify fun s => { s with following := s.following.drop 1 }
    return a
  | n => read n

/-- Notes problems. -/
def note (problems : List FormatProblem) : DecodeM Unit :=
  modify fun s => { s with problems := problems.reverse ++ s.problems }

/-- Notes that a node cannot be read as some content.  If a mapping has a key twice, that is the
problem instead. -/
def refuse {α : Type} (n : Node) (content : Content) : DecodeM (Option α) := do
  match n with
  | .mapping _ _ entries =>
    match duplicateKeys (entries.map (·.1)) with
    | [] => note [.ofNode n content]
    | problems => note problems
  | n => note [.ofNode n content]
  return none

end DecodeM

open DecodeM (visit note refuse)

/-! ### Scalars -/

/-- The text that a scalar stands for. -/
def settle (d : Meaning) (value : Text) : DecodeM Text :=
  match d with
  | .misfit found tag => throw (.wrongTag found value tag)
  | .binary =>
    match Text.ofBase64? (Text.chars value) with
    | some t => return t
    | none => throw .invalidBase64
  | _ => return value

/-- Reads a scalar; null is none. -/
def readScalar {α : Type} (content : Content) (n : Node)
    (read : Meaning → Text → Option α) : DecodeM (Option α) :=
  match n with
  | .scalar _ d value => do
    let t ← settle d value
    if d == .null then return none
    else
      match read d t with
      | some a => return some a
      | none => refuse n content
  | n => refuse n content

/-- Reads a text.  Every scalar is a text as it is written, except null. -/
def readText (n : Node) : DecodeM (Option Text) :=
  visit n fun n => readScalar .text n fun _ t => some t

/-- The truth value of a scalar, also in the older spellings. -/
def truthOf (d : Meaning) (t : Text) : Option Bool :=
  match d with
  | .bool b => some b
  | .text | .binary | .tagged _ => oldBool? t
  | _ => none

/-- Reads a truth value. -/
def readBool (n : Node) : DecodeM (Option Bool) := visit n fun n => readScalar .truth n truthOf

/-! ### Lists -/

/-- Reads items one after the other.  Those without a value are dropped. -/
def readItems {α : Type} (read : Node → DecodeM (Option α)) : List Node → DecodeM (List α)
  | [] => return []
  | n :: ns => do
    let a? ← read n
    let as ← readItems read ns
    return a?.toList ++ as

/-- Reads a list. -/
def readList {α : Type} (item : Content) (read : Node → DecodeM (Option α)) (n : Node) :
    DecodeM (Option (List α)) :=
  visit n fun n =>
    match n with
    | .sequence _ _ items => do return some (← readItems read items)
    | n => readScalar (.list item) n fun _ _ => none

/-! ### Mappings -/

/-- A key as a value of its own, for telling whether it has been seen before. -/
structure SeenKey where
  tag : Text
  text : Text
deriving Repr, DecidableEq

/-- A text as a key. -/
def SeenKey.ofText (t : Text) : SeenKey := ⟨"!!str", t⟩

/-- A scalar as a key.  Texts under any tag are the same key, and so are null, truth values and
integers in any spelling. -/
def SeenKey.ofScalar (d : Meaning) (t : Text) : SeenKey :=
  match d with
  | .binary | .tagged _ => .ofText t
  | .null => ⟨d.tag, []⟩
  | .bool b => ⟨d.tag, if b then "true" else "false"⟩
  | .int =>
    match integer? (ungrouped (Text.chars t)) with
    | some n => ⟨d.tag, Text.ofInt n⟩
    | none => ⟨d.tag, t⟩
  | d => ⟨d.tag, t⟩

/-- The progress of reading entries: what has been read, the names of the entries of the current
mapping, and, while entries are merged, the keys that have been seen. -/
structure Progress (α : Type) where
  value : α
  names : List Text
  seen? : Option (List SeenKey)

/-- A way of reading an entry. -/
abbrev EntryReader (α : Type) := Node → Node → Progress α → DecodeM (Progress α)

/-- Whether a key is to be skipped because it has been seen, and the progress after it. -/
def Progress.see {α : Type} (p : Progress α) (key : SeenKey) : Bool × Progress α :=
  match p.seen? with
  | none => (false, p)
  | some seen =>
    if seen.contains key then (true, p) else (false, { p with seen? := some (key :: seen) })

/-- Reads the entries that are not merged, and finds what is to be merged: the value of the last
key for merging. -/
def readOwn {α : Type} (read : EntryReader α) (merge? : Option Node) (p : Progress α) :
    List (Node × Node) → DecodeM (Progress α × Option Node)
  | [] => return (p, merge?)
  | (k, v) :: entries => do
    if k.isMerge then readOwn read (some v) p entries
    else readOwn read merge? (← read k v p) entries

/-- A node as a key; a collection is none. -/
def SeenKey.ofNode? : Node → DecodeM (Option SeenKey)
  | .scalar _ d value => do return some (.ofScalar d (← settle d value))
  | _ => return none

/-- The keys of a mapping. -/
def ownKeys : List (Node × Node) → DecodeM (List SeenKey)
  | [] => return []
  | (k, _) :: entries => do
    let key? ← visit k SeenKey.ofNode?
    return key?.toList ++ (← ownKeys entries)

/-- The nodes that are to be merged: one, or those of a sequence. -/
def mergeSources : Node → List Node
  | .sequence _ _ items => items
  | n => [n]

mutual

/-- Reads the entries of a mapping, and those that are to be merged into it.  There is no result if
a key is given twice. -/
def readEntries {α : Type} (read : EntryReader α) :
    (fuel : Nat) → List (Node × Node) → Progress α → DecodeM (Option (Progress α))
  | 0, _, _ => return none
  | fuel + 1, entries, p => do
    match duplicateKeys (entries.map (·.1)) with
    | [] =>
      let (p, merge?) ← readOwn read none { p with names := [] } entries
      match merge? with
      | none => return some p
      | some source =>
        let seen ← match p.seen? with
          | some seen => pure seen
          | none => ownKeys entries
        let merged ← mergeAll read fuel (mergeSources source) { p with seen? := some seen }
        return some { merged with seen? := if p.seen?.isSome then merged.seen? else none }
    | problems =>
      note problems
      return none
termination_by structural fuel => fuel

/-- Merges the entries of mappings. -/
def mergeAll {α : Type} (read : EntryReader α) :
    (fuel : Nat) → List Node → Progress α → DecodeM (Progress α)
  | 0, _, p => return p
  | _, [], p => return p
  | fuel + 1, n :: ns, p => do
    if !((← readThe DecodeContext).document.resolve n).isMapping then throw .invalidMerge
    let merged ← visit n fun n =>
      match n with
      | .mapping _ _ entries => readEntries read fuel entries p
      | _ => return none
    mergeAll read fuel ns (merged.getD p)
termination_by structural fuel => fuel

end

/-- Reads a whole mapping from a first value on. -/
def readMapping {α : Type} (read : EntryReader α) (start : α) (entries : List (Node × Node)) :
    DecodeM (Option α) := do
  let p? ← readEntries read (← readThe DecodeContext).fuel entries ⟨start, [], none⟩
  return p?.map Progress.value

/-! ### Fields -/

/-- A field: how its value is read into the whole. -/
abbrev FieldReader (α : Type) := Node → α → DecodeM α

/-- Reads an entry as a field of some content. -/
def readField {α : Type} (content : Content) (field? : Text → Option (FieldReader α)) :
    EntryReader α := fun k v p => do
  match ← readText k with
  | none => return p
  | some name =>
    match p.see (.ofText name) with
    | (true, p) => return p
    | (false, p) =>
      match field? name with
      | none =>
        note [.unknownField k.line name content]
        return p
      | some read =>
        if p.names.contains name then
          note [.repeatedField k.line name content]
          return p
        else
          let a ← read v p.value
          return { p with value := a, names := name :: p.names }

/-- Reads a mapping with known fields, starting from a value without any of them. -/
def readRecord {α : Type} (content : Content) (start : α)
    (field? : Text → Option (FieldReader α)) (n : Node) : DecodeM (Option α) :=
  match n with
  | .mapping _ _ entries => readMapping (readField content field?) start entries
  | n => readScalar content n fun _ _ => none

/-- Reads something that may be missing.  A collection with the tag of null is refused. -/
def readPresent {α : Type} (content : Content) (read : Node → DecodeM (Option α)) (n : Node) :
    DecodeM (Option α) :=
  visit n fun n =>
    match n with
    | .scalar .. => read n
    | n => if n.tag == "!!null" then refuse n (.option content) else read n

/-- A field that is read by `read` and put into the whole by `put`, if it has a value. -/
def reading {α β : Type} (read : Node → DecodeM (Option β)) (put : β → α → α) :
    Option (FieldReader α) :=
  some fun n a => do
    match ← read n with
    | some b => return put b a
    | none => return a

/-! ### Documents -/

/-- Why a document cannot be decoded. -/
inductive DecodeFailure where
  | error (error : DecodeError)
  | format (problems : List FormatProblem)
deriving Repr, DecidableEq

/-- The wording of a failure. -/
def DecodeFailure.message : DecodeFailure → Text
  | .error e => e.message
  | .format problems => problemText problems

/-- The value that is read from the root of a document, if there is one, or what is wrong with the
document. -/
def decode {α : Type} (d : Document) (read : Node → DecodeM (Option α)) :
    Except DecodeFailure (Option α) :=
  match (read d.root).run (.ofDocument d) |>.run .start with
  | .error e => .error (.error e)
  | .ok (a?, s) => if s.problems.isEmpty then .ok a? else .error (.format s.problems.reverse)

end DocPromotion
