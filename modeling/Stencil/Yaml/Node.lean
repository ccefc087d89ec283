import Stencil.Yaml.Lexer
import Stencil.Assoc
/-!
The nodes of a document: scalars, sequences and mappings, with aliases replaced by the nodes that
they stand for.
-/
namespace Stencil.Yaml

inductive Node where
  /-- A scalar; `plain` says that it was written without quotes. -/
  | scalar (tag : Option String) (plain : Bool) (text : String)
  | sequence (tag : Option String) (items : List Node)
  | mapping (tag : Option String) (entries : List (Node × Node))
  deriving Repr

/-- The node of which nothing is written. -/
def Node.empty : Node := .scalar none true ""

/-- What is left to read of a document, and the anchors seen so far. -/
structure Reading where
  tokens : List Token
  /-- Anchored nodes, each with the count of aliases that reading it passes; an anchor whose node is
  still being read has none. -/
  anchors : Assoc (Option (Node × Nat)) := []
  /-- The count of aliases passed, those within aliases included. -/
  passed : Nat := 0
  /-- The count of nodes and of ends of nodes read. -/
  events : Nat := 0

abbrev Reader := StateT Reading Option

namespace Reader

def peek : Reader (Option Token) := do return (← get).tokens.head?

def skip : Reader Unit := modify fun s => { s with tokens := s.tokens.tail }

def event (n : Nat) : Reader Unit := modify fun s => { s with events := s.events + n }

/-- The node that an alias stands for. -/
def resolve (name : String) : Reader Node := do
  match Assoc.get? (← get).anchors name with
  | some (some (node, passed)) =>
    modify fun s => { s with passed := s.passed + passed + 1 }
    return node
  | _ => failure

/-- Records a node under its anchor; `before` is the count of aliases passed before it. -/
def record (anchor : Option String) (before : Nat) (node : Node) : Reader Node := do
  if let some name := anchor then
    modify fun s => { s with anchors := s.anchors.put name (some (node, s.passed - before)) }
  return node

/-- The anchor and the tag of a node, in either order. -/
def properties : Reader (Option String × Option String) := do
  match ← peek with
  | some (.anchor a) =>
    skip
    match ← peek with
    | some (.tag t) => skip; return (some a, some t)
    | _ => return (some a, none)
  | some (.tag t) =>
    skip
    match ← peek with
    | some (.anchor a) => skip; return (some a, some t)
    | _ => return (none, some t)
  | _ => return (none, none)

mutual

/-- A node. `block` allows block collections, `indentless` a block sequence at the column of the
mapping around it. -/
def node (block indentless : Bool) : (fuel : Nat) → Reader Node
  | 0 => failure
  | fuel + 1 => do
    event 1
    if let some (.alias name) ← peek then
      skip
      return ← resolve name
    let (anchor, tag) ← properties
    let before := (← get).passed
    if let some name := anchor then
      modify fun s => { s with anchors := s.anchors.put name none }
    let found ← match ← peek with
      | some .blockEntry =>
        if indentless then pure (Node.sequence tag (← indentlessItems fuel))
        else if anchor.isSome || tag.isSome then pure (Node.scalar tag true "") else failure
      | some (.scalar plain text) =>
        skip
        pure (if plain && tag == some "!" then .scalar none true text else .scalar tag plain text)
      | some .flowSequence => skip; pure (Node.sequence tag (← flowItems true fuel))
      | some .flowMapping => skip; pure (Node.mapping tag (← flowEntries true fuel))
      | some .blockSequence =>
        if block then skip; pure (Node.sequence tag (← blockItems fuel))
        else if anchor.isSome || tag.isSome then pure (Node.scalar tag true "") else failure
      | some .blockMapping =>
        if block then skip; pure (Node.mapping tag (← blockEntries fuel))
        else if anchor.isSome || tag.isSome then pure (Node.scalar tag true "") else failure
      | _ => if anchor.isSome || tag.isSome then pure (Node.scalar tag true "") else failure
    record anchor before found

/-- A node, or the empty node if one of some tokens stands here. -/
def nodeUnless (stops : List Token) (block indentless : Bool) : (fuel : Nat) → Reader Node
  | 0 => failure
  | fuel + 1 => do
    match ← peek with
    | some t => if stops.contains t then event 1; return .empty else node block indentless fuel
    | none => node block indentless fuel

/-- The items of a block sequence after its start. -/
def blockItems : (fuel : Nat) → Reader (List Node)
  | 0 => failure
  | fuel + 1 => do
    match ← peek with
    | some .blockEntry =>
      skip
      let x ← nodeUnless [.blockEntry, .blockEnd] true false fuel
      return x :: (← blockItems fuel)
    | some .blockEnd => skip; event 1; return []
    | _ => failure

/-- The items of a sequence that is not indented in the mapping around it. -/
def indentlessItems : (fuel : Nat) → Reader (List Node)
  | 0 => failure
  | fuel + 1 => do
    match ← peek with
    | some .blockEntry =>
      skip
      let x ← nodeUnless [.blockEntry, .key, .value, .blockEnd] true false fuel
      return x :: (← indentlessItems fuel)
    | _ => event 1; return []

/-- The entries of a block mapping after its start. -/
def blockEntries : (fuel : Nat) → Reader (List (Node × Node))
  | 0 => failure
  | fuel + 1 => do
    match ← peek with
    | some .key =>
      skip
      let k ← nodeUnless [.key, .value, .blockEnd] true true fuel
      let v ← match ← peek with
        | some .value => skip; nodeUnless [.key, .value, .blockEnd] true true fuel
        | _ => event 1; pure .empty
      return (k, v) :: (← blockEntries fuel)
    | some .blockEnd => skip; event 1; return []
    | _ => failure

/-- The items of a flow sequence after its bracket or, if not `first`, after an item. An item with a
key is a mapping of one entry. -/
def flowItems (first : Bool) : (fuel : Nat) → Reader (List Node)
  | 0 => failure
  | fuel + 1 => do
    if (← peek) == some .flowSequenceEnd then
      skip; event 1
      return []
    if !first then
      if (← peek) != some .flowEntry then failure
      skip
    match ← peek with
    | some .flowSequenceEnd => skip; event 1; return []
    | some .key =>
      skip; event 2
      let k ← match ← peek with
        | some .value | some .flowEntry | some .flowSequenceEnd => skip; event 1; pure .empty
        | _ => node false false fuel
      let v ← match ← peek with
        | some .value => skip; nodeUnless [.flowEntry, .flowSequenceEnd] false false fuel
        | _ => event 1; pure .empty
      return .mapping none [(k, v)] :: (← flowItems false fuel)
    | _ =>
      let x ← node false false fuel
      return x :: (← flowItems false fuel)

/-- The entries of a flow mapping after its brace or, if not `first`, after an entry. -/
def flowEntries (first : Bool) : (fuel : Nat) → Reader (List (Node × Node))
  | 0 => failure
  | fuel + 1 => do
    if (← peek) == some .flowMappingEnd then
      skip; event 1
      return []
    if !first then
      if (← peek) != some .flowEntry then failure
      skip
    match ← peek with
    | some .flowMappingEnd => skip; event 1; return []
    | some .key =>
      skip
      let k ← nodeUnless [.value, .flowEntry, .flowMappingEnd] false false fuel
      let v ← match ← peek with
        | some .value => skip; nodeUnless [.flowEntry, .flowMappingEnd] false false fuel
        | _ => event 1; pure .empty
      return (k, v) :: (← flowEntries false fuel)
    | _ =>
      let k ← node false false fuel
      event 1
      return (k, .empty) :: (← flowEntries false fuel)

end

/-- The node of the only document of a text, if the text has one. -/
def document (fuel : Nat) : Reader (Option Node) := do
  if (← peek).isNone then return none
  let root ←
    if (← peek) == some .documentStart then do
      skip
      match ← peek with
      | none | some .documentStart | some .documentEnd => pure .empty
      | _ => node true false fuel
    else node true false fuel
  let s ← get
  if s.tokens.all (· == .documentEnd) && s.passed ≤ 100 * (s.events + 1) then return some root
  failure

end Reader

/-- The node of the only document of a text; `some none` for a text without any. -/
def Node.ofText? (text : String) : Option (Option Node) := do
  let tokens ← tokens? text.toList
  let (root, _) ← (Reader.document (3 * tokens.length + 8)).run { tokens }
  return root

end Stencil.Yaml
