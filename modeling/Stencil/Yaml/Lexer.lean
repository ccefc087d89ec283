import Stencil.Yaml.Scalar
/-!
Cutting a text into tokens. A key of a block mapping is seen only when the colon after it is reached,
so the lexer remembers where a key may have started and puts its token there later.
-/
namespace Stencil.Yaml

/-- A place where a key may have started. -/
structure KeyStart where
  /-- The number of tokens before the key. -/
  position : Nat
  index : Nat
  line : Nat
  column : Nat
  /-- What stands there can only be a key. -/
  required : Bool

structure Lexer where
  cursor : Cursor
  tokens : Array Token := #[]
  /-- The column of the innermost block collection, or -1. -/
  indent : Int := -1
  /-- The columns of the block collections around it. -/
  outer : List Int := []
  /-- A key may start here. -/
  keyAllowed : Bool := true
  /-- The pending key of the open flow collections, innermost first. -/
  flow : List (Option KeyStart) := []
  /-- The pending key outside of flow collections. -/
  blockKey : Option KeyStart := none

namespace Lexer

def inFlow (s : Lexer) : Bool := !s.flow.isEmpty

def pending (s : Lexer) : Option KeyStart := s.flow.headD s.blockKey

def setPending (s : Lexer) (k : Option KeyStart) : Lexer :=
  match s.flow with
  | [] => { s with blockKey := k }
  | _ :: rest => { s with flow := k :: rest }

def push (s : Lexer) (t : Token) : Lexer := { s with tokens := s.tokens.push t }

def advance (s : Lexer) (n : Nat) : Lexer := { s with cursor := s.cursor.skipMany n }

/-- Skips blanks, comments and breaks before a token. A tab is blank only where no key can start. -/
def skipToToken : (fuel : Nat) → Lexer → Lexer
  | 0, s => s
  | fuel + 1, s =>
    let c := s.cursor
    match c.peek with
    | some ' ' => skipToToken fuel (s.advance 1)
    | some '\t' => if s.inFlow || !s.keyAllowed then skipToToken fuel (s.advance 1) else s
    | some '#' =>
      let stop := skipToBreak c.bound c
      skipToToken fuel { s with cursor := stop }
    | some d =>
      if isBreak d then
        skipToToken fuel { s with cursor := c.readBreak.2, keyAllowed := s.keyAllowed || !s.inFlow }
      else s
    | none => s

/-- A key starts and ends on one line and has at most 1024 characters. -/
def isStale (c : Cursor) (k : KeyStart) : Bool := k.line < c.line || k.index + 1024 < c.index

/-- Forgets keys that can no longer be keys; fails if one had to be a key. -/
def dropStale (s : Lexer) : Option Lexer :=
  let keep : Option KeyStart → Option (Option KeyStart) := fun k =>
    match k with
    | none => some none
    | some k => if isStale s.cursor k then (if k.required then none else some none) else some (some k)
  do
    let blockKey ← keep s.blockKey
    let flow ← s.flow.mapM keep
    return { s with blockKey, flow }

/-- Forgets the pending key; fails if it had to be a key. -/
def dropKey (s : Lexer) : Option Lexer :=
  if s.pending.any (·.required) then none else some (s.setPending none)

/-- Remembers that a key may start here. -/
def markKey (s : Lexer) : Option Lexer :=
  if s.keyAllowed then do
    let c := s.cursor
    let required := !s.inFlow && s.indent == (c.column : Int)
    let s ← s.dropKey
    return s.setPending (some ⟨s.tokens.size, c.index, c.line, c.column, required⟩)
  else some s

/-- Opens a block collection at a column, with its token at a position, if the column is further
right than the block collection around it. -/
def openBlock (s : Lexer) (column position : Nat) (t : Token) : Lexer :=
  if s.inFlow || (column : Int) ≤ s.indent then s
  else
    { s with
      outer := s.indent :: s.outer, indent := column
      tokens := s.tokens.insertIdxIfInBounds position t }

/-- The block collections that end at a column: their count, and the indentation that is left. -/
def closed (column indent : Int) : List Int → Nat × Int × List Int
  | [] => (0, indent, [])
  | o :: rest =>
    if column < indent then
      let (n, i, r) := closed column o rest
      (n + 1, i, r)
    else (0, indent, o :: rest)

/-- Closes the block collections further right than a column. -/
def closeBlocks (s : Lexer) (column : Int) : Lexer :=
  if s.inFlow then s
  else
    let (n, indent, outer) := closed column s.indent s.outer
    { s with indent, outer, tokens := s.tokens ++ Array.replicate n .blockEnd }

/-! ### One token -/

/-- A token of one character. -/
def indicator (s : Lexer) (t : Token) : Lexer := (s.advance 1).push t

def openFlow (s : Lexer) (t : Token) : Option Lexer := do
  let s ← s.markKey
  return { s with flow := none :: s.flow, keyAllowed := true }.indicator t

def closeFlow (s : Lexer) (t : Token) : Option Lexer := do
  let s ← s.dropKey
  return { s with flow := s.flow.tail, keyAllowed := false }.indicator t

def flowEntry (s : Lexer) : Option Lexer := do
  let s ← s.dropKey
  return { s with keyAllowed := true }.indicator .flowEntry

def blockEntry (s : Lexer) : Option Lexer := do
  if !s.inFlow && !s.keyAllowed then none
  let s ← (s.openBlock s.cursor.column s.tokens.size .blockSequence).dropKey
  return { s with keyAllowed := true }.indicator .blockEntry

def explicitKey (s : Lexer) : Option Lexer := do
  if !s.inFlow && !s.keyAllowed then none
  let s ← (s.openBlock s.cursor.column s.tokens.size .blockMapping).dropKey
  return { s with keyAllowed := !s.inFlow }.indicator .key

def valueMark (s : Lexer) : Option Lexer :=
  match s.pending with
  | some k =>
    let s := { s with tokens := s.tokens.insertIdxIfInBounds k.position .key }
    let s := (s.openBlock k.column k.position .blockMapping).setPending none
    some ({ s with keyAllowed := false }.indicator .value)
  | none =>
    if !s.inFlow && !s.keyAllowed then none
    else
      let s := s.openBlock s.cursor.column s.tokens.size .blockMapping
      some ({ s with keyAllowed := !s.inFlow }.indicator .value)

def documentMark (s : Lexer) (t : Token) : Option Lexer := do
  let s ← (s.closeBlocks (-1)).dropKey
  return ({ s with keyAllowed := false }.advance 3).push t

/-- Characters that may follow the name of an anchor. -/
def endsName (c : Char) : Bool := "?:,]\x7d%@`".toList.contains c

/-- The name of an anchor or alias after its indicator. -/
def anchorName (s : Lexer) (t : String → Token) : Option Lexer := do
  let s ← s.markKey
  let s := { s with keyAllowed := false }.advance 1
  let name := s.cursor.rest.takeWhile isNameChar
  let s := s.advance name.length
  if name.isEmpty || !(s.cursor.blankAt || s.cursor.peek.any endsName) then none
  return s.push (t (String.ofList name))

/-- Characters of a tag. -/
def isTagChar (c : Char) : Bool := isNameChar c || ";/?:@&=+$.%!~*'()".toList.contains c

/-- Characters of a tag between angle brackets. -/
def isVerbatimTagChar (c : Char) : Bool := isTagChar c || c == ',' || c == '[' || c == ']'

/-- The bytes that the escapes of a tag stand for, and the characters between them. -/
def tagBytes : List Char → Option (List UInt8)
  | [] => some []
  | '%' :: a :: b :: rest => do
    let n := (← hexDigit? a) * 16 + (← hexDigit? b)
    return UInt8.ofNat n :: (← tagBytes rest)
  | '%' :: _ => none
  | c :: rest => do
    return (String.singleton c).toUTF8.toList ++ (← tagBytes rest)

def tagText (cs : List Char) : Option String := do
  String.fromUTF8? ⟨(← tagBytes cs).toArray⟩

/-- A tag: `!` alone, `!name`, `!!name` for a tag of the format itself, or `!<name>`. -/
def tag (s : Lexer) : Option Lexer := do
  let s ← s.markKey
  let s := { s with keyAllowed := false }
  let rest := s.cursor.rest.drop 1
  let (name, length) ←
    if rest.head? == some '<' then do
      let body := (rest.drop 1).takeWhile isVerbatimTagChar
      if body.isEmpty || rest[body.length + 1]? != some '>' then none
      pure (← tagText body, body.length + 3)
    else do
      let handle := rest.takeWhile isNameChar
      if rest[handle.length]? == some '!' then do
        if !handle.isEmpty then none
        let body := (rest.drop 1).takeWhile isTagChar
        if body.isEmpty then none
        pure ("tag:yaml.org,2002:" ++ (← tagText body), body.length + 2)
      else do
        let body := rest.takeWhile isTagChar
        pure ("!" ++ (← tagText body), body.length + 1)
  let s := s.advance length
  if !(s.cursor.blankAt || (s.inFlow && s.cursor.peek == some ',')) then none
  return s.push (.tag name)

def quoted (s : Lexer) (single : Bool) : Option Lexer := do
  let s ← s.markKey
  let text ← readQuoted single s.cursor
  return { s with keyAllowed := false, cursor := text.after }.push (text.token false)

def plain (s : Lexer) : Option Lexer := do
  let s ← s.markKey
  let text ← readPlain s.inFlow (s.indent + 1).toNat s.cursor
  return { s with keyAllowed := text.broken, cursor := text.after }.push (text.token true)

def block (s : Lexer) (literal : Bool) : Option Lexer := do
  let s ← s.dropKey
  let text ← readBlock literal s.indent s.cursor
  return { s with keyAllowed := true, cursor := text.after }.push (text.token false)

/-- Characters that cannot start a plain scalar. -/
def isIndicator (c : Char) : Bool := "-?:,[]\x7b\x7d#&*!|>'\"%@`".toList.contains c

/-- Reads one token at a place where no blank stands. -/
def token (s : Lexer) : Option Lexer := do
  let c := s.cursor
  let d ← c.peek
  let next := c.blankAt 1
  if c.column == 0 && d == '%' then none
  if c.documentMark '-' then return ← s.documentMark .documentStart
  if c.documentMark '.' then return ← s.documentMark .documentEnd
  if d == '[' then s.openFlow .flowSequence
  else if d == '{' then s.openFlow .flowMapping
  else if d == ']' then s.closeFlow .flowSequenceEnd
  else if d == '}' then s.closeFlow .flowMappingEnd
  else if d == ',' then s.flowEntry
  else if d == '-' && next then s.blockEntry
  else if d == '?' && (s.inFlow || next) then s.explicitKey
  else if d == ':' && (s.inFlow || next) then s.valueMark
  else if d == '*' then s.anchorName .alias
  else if d == '&' then s.anchorName .anchor
  else if d == '!' then s.tag
  else if d == '|' && !s.inFlow then s.block true
  else if d == '>' && !s.inFlow then s.block false
  else if d == '\'' then s.quoted true
  else if d == '"' then s.quoted false
  else if !(isSpace d) && (!isIndicator d || (d == '-' && !c.spaceAt 1) ||
      (!s.inFlow && (d == '?' || d == ':'))) then s.plain
  else none

/-- Reads tokens to the end of the text. -/
def run : (fuel : Nat) → Lexer → Option Lexer
  | 0, _ => none
  | fuel + 1, s => do
    let s := s.skipToToken s.cursor.bound
    let s ← s.dropStale
    let s := s.closeBlocks s.cursor.column
    if s.cursor.atEnd then (s.closeBlocks (-1)).dropKey
    else run fuel (← s.token)

end Lexer

/-- The tokens of a text. -/
def tokens? (text : List Char) : Option (List Token) := do
  let text := if text.head? == some '\uFEFF' then text.tail else text
  if !text.all isPermitted then none
  let s ← Lexer.run (text.length + 1) { cursor := { rest := text } }
  return s.tokens.toList

end Stencil.Yaml
