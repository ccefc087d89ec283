import Stencil.Yaml.Token
/-!
Scalars in all their spellings: in quotes, plain, and as a block under an indicator. Lines are
folded: a single break between two lines becomes a space, and more breaks become one fewer.
-/
namespace Stencil.Yaml

/-- Blanks and breaks between two runs of characters of a scalar. -/
structure Gap where
  /-- Blanks that stand before any break. -/
  blanks : List Char := []
  /-- The first break, if the gap has one. -/
  first : List Char := []
  /-- The breaks after the first one. -/
  more : List Char := []
  /-- A break has been passed. -/
  broken : Bool := false

namespace Gap

/-- What the gap becomes in the text. -/
def fold (g : Gap) : List Char :=
  if g.broken then
    if g.first == ['\n'] then (if g.more.isEmpty then [' '] else g.more) else g.first ++ g.more
  else g.blanks

/-- Takes the blanks and breaks at a place. In a plain scalar a tab must not stand where a line's
indentation is due, which `minColumn` tells. -/
def take (minColumn : Option Nat) : (fuel : Nat) → Gap → Cursor → Option (Gap × Cursor)
  | 0, g, c => some (g, c)
  | fuel + 1, g, c =>
    match c.peek with
    | none => some (g, c)
    | some d =>
      if isSpace d then
        if g.broken && minColumn.any (c.column < ·) && d == '\t' then none
        else take minColumn fuel (if g.broken then g else { g with blanks := g.blanks ++ [d] }) c.skip
      else if isBreak d then
        let (b, c) := c.readBreak
        take minColumn fuel
          (if g.broken then { g with more := g.more ++ b } else { first := b, broken := true }) c
      else some (g, c)

end Gap

/-- A scalar that has been read, and the place after it. `broken` says that a line break was passed
at its end. -/
structure ScalarText where
  text : List Char
  after : Cursor
  broken : Bool := false

def ScalarText.token (s : ScalarText) (plain : Bool) : Token := .scalar plain (String.ofList s.text)

/-! ### Quotes -/

def hexDigit? (c : Char) : Option Nat :=
  if c.isDigit then some (c.toNat - 48)
  else if 'a' ≤ c ∧ c ≤ 'f' then some (c.toNat - 87)
  else if 'A' ≤ c ∧ c ≤ 'F' then some (c.toNat - 55)
  else none

/-- The character of an escape with hexadecimal digits. -/
def hexEscape? (digits : List Char) (count : Nat) : Option Char :=
  if digits.length ≠ count then none
  else do
    let n ← digits.foldlM (fun n c => return n * 16 + (← hexDigit? c)) 0
    if n.isValidChar then some (Char.ofNat n) else none

/-- Escapes of one character. -/
def simpleEscape? : Char → Option Char
  | '0' => some '\x00'
  | 'a' => some '\x07'
  | 'b' => some '\x08'
  | 't' => some '\t'
  | '\t' => some '\t'
  | 'n' => some '\n'
  | 'v' => some '\x0b'
  | 'f' => some '\x0c'
  | 'r' => some '\r'
  | 'e' => some '\x1b'
  | ' ' => some ' '
  | '"' => some '"'
  | '/' => some '/'
  | '\\' => some '\\'
  | 'N' => some '\u0085'
  | '_' => some '\u00a0'
  | 'L' => some '\u2028'
  | 'P' => some '\u2029'
  | _ => none

/-- The escape after a backslash, with the place after it. -/
def escape? (c : Cursor) : Option (Char × Cursor) := do
  let d ← c.peek
  let hex := fun n => do
    let x ← hexEscape? ((c.rest.drop 1).take n) n
    return (x, Cursor.skipMany (n + 1) c)
  match d with
  | 'x' => hex 2
  | 'u' => hex 4
  | 'U' => hex 8
  | _ => return (← simpleEscape? d, c.skip)

/-- The characters of a quoted scalar up to a blank, a break or its closing quote. A break that is
escaped ends them too and leaves no text. -/
def quotedRun (single : Bool) : (fuel : Nat) → Cursor → Option (List Char × Bool × Cursor)
  | 0, c => some ([], false, c)
  | fuel + 1, c =>
    match c.rest with
    | [] => some ([], false, c)
    | d :: _ =>
      let go := fun (x : Char) (c : Cursor) => do
        let (text, escaped, c) ← quotedRun single fuel c
        return (x :: text, escaped, c)
      if isSpace d || isBreak d then some ([], false, c)
      else if single then
        if d == '\'' then (if c.peek 1 == some '\'' then go d (c.skipMany 2) else some ([], false, c))
        else go d c.skip
      else if d == '"' then some ([], false, c)
      else if d == '\\' then
        if c.breakAt 1 then some ([], true, c.skip.readBreak.2)
        else do
          let (x, c) ← escape? c.skip
          go x c
      else go d c.skip

/-- A quoted scalar after its opening quote. -/
def quotedRest (single : Bool) : (fuel : Nat) → (read : List Char) → Cursor → Option ScalarText
  | 0, _, _ => none
  | fuel + 1, read, c => do
    if c.atDocumentMark || c.atEnd then none
    let (text, escaped, c) ← quotedRun single c.bound c
    let read := read ++ text
    if !escaped && c.peek == some (if single then '\'' else '"') then
      return { text := read, after := c.skip }
    let (g, c) ← Gap.take none c.bound { broken := escaped } c
    quotedRest single fuel (read ++ g.fold) c

/-- A quoted scalar from its opening quote on. -/
def readQuoted (single : Bool) (c : Cursor) : Option ScalarText :=
  quotedRest single (2 * c.bound) [] c.skip

/-! ### Plain scalars -/

def isFlowIndicator (c : Char) : Bool :=
  c == ',' || c == '[' || c == ']' || c == '{' || c == '}'

/-- The characters of a plain scalar up to a blank, a break or what ends it. In a flow collection a
colon before an indicator is refused. -/
def plainRun (flow : Bool) : (fuel : Nat) → Cursor → Option (List Char × Cursor)
  | 0, c => some ([], c)
  | fuel + 1, c =>
    match c.rest with
    | [] => some ([], c)
    | d :: _ =>
      if isSpace d || isBreak d then some ([], c)
      else if flow && d == ':' && (c.peek 1).any (fun e => isFlowIndicator e || e == '?') then none
      else if (d == ':' && c.blankAt 1) || (flow && isFlowIndicator d) then some ([], c)
      else do
        let (text, c) ← plainRun flow fuel c.skip
        return (d :: text, c)

/-- A plain scalar; `read` is its text so far and `g` the gap after it. -/
def plainRest (flow : Bool) (minColumn : Nat) :
    (fuel : Nat) → (read : List Char) → Gap → Cursor → Option ScalarText
  | 0, read, g, c => some ⟨read, c, g.broken⟩
  | fuel + 1, read, g, c => do
    if c.atDocumentMark || c.peek == some '#' then return ⟨read, c, g.broken⟩
    let (text, next) ← plainRun flow c.bound c
    let read := if text.isEmpty then read else read ++ g.fold ++ text
    let g := if text.isEmpty then g else {}
    if !(next.spaceAt || next.breakAt) then return ⟨read, next, g.broken⟩
    let (g, c) ← Gap.take (some minColumn) next.bound g next
    if !flow && c.column < minColumn then return ⟨read, c, g.broken⟩
    plainRest flow minColumn fuel read g c

/-- A plain scalar. Outside flow collections its lines start at `minColumn` or further right. -/
def readPlain (flow : Bool) (minColumn : Nat) (c : Cursor) : Option ScalarText :=
  plainRest flow minColumn (2 * c.bound) [] {} c

/-! ### Blocks -/

/-- What stands after the indicator of a block: whether the breaks at its end are kept (`some true`),
all dropped (`some false`) or one kept, and its indentation if that is given. -/
structure BlockHeader where
  keep : Option Bool := none
  indent : Option Nat := none

def chomping? : Option Char → Option Bool
  | some '+' => some true
  | some '-' => some false
  | _ => none

def indentDigit? : Option Char → Option Nat
  | some d => if d.isDigit then some (d.toNat - 48) else none
  | none => none

/-- The header of a block in either order of its parts. An indentation of zero is refused. -/
def blockHeader (c : Cursor) : Option (BlockHeader × Cursor) :=
  let nonzero := fun (h : BlockHeader) (c : Cursor) =>
    if h.indent == some 0 then none else some (h, c)
  match chomping? c.peek with
  | some keep =>
    match indentDigit? (c.peek 1) with
    | some n => nonzero ⟨some keep, some n⟩ (c.skipMany 2)
    | none => some (⟨some keep, none⟩, c.skip)
  | none =>
    match indentDigit? c.peek with
    | some n =>
      match chomping? (c.peek 1) with
      | some keep => nonzero ⟨some keep, some n⟩ (c.skipMany 2)
      | none => nonzero ⟨none, some n⟩ c.skip
    | none => some ({}, c)

def skipSpaces : (fuel : Nat) → Cursor → Cursor
  | 0, c => c
  | fuel + 1, c => if c.spaceAt then skipSpaces fuel c.skip else c

def skipToBreak : (fuel : Nat) → Cursor → Cursor
  | 0, c => c
  | fuel + 1, c => if c.atEnd || c.breakAt then c else skipToBreak fuel c.skip

/-- Indentation at the start of a line, up to a column if there is one. -/
def skipIndent (column : Option Nat) : (fuel : Nat) → Cursor → Cursor
  | 0, c => c
  | fuel + 1, c =>
    if column.all (c.column < ·) && c.peek == some ' ' then skipIndent column fuel c.skip else c

/-- Empty lines of a block. Gives their breaks, the deepest indentation among them and the line after
them, and that line. -/
def blockBreaks (column : Option Nat) : (fuel : Nat) → (deepest : Nat) → (breaks : List Char) →
    Cursor → Option (List Char × Nat × Cursor)
  | 0, deepest, breaks, c => some (breaks, deepest, c)
  | fuel + 1, deepest, breaks, c =>
    let c := skipIndent column c.bound c
    let deepest := max deepest c.column
    if column.all (c.column < ·) && c.peek == some '\t' then none
    else if c.breakAt then
      let (b, c) := c.readBreak
      blockBreaks column fuel deepest (breaks ++ b) c
    else some (breaks, deepest, c)

/-- A block while it is read: its text so far, the break after its last line, the breaks of the empty
lines after that, and whether its last line started with a blank. -/
structure BlockText where
  text : List Char := []
  last : List Char := []
  empty : List Char := []
  indented : Bool := false

/-- The lines of a block at a column. -/
def blockLines (literal : Bool) (column : Nat) :
    (fuel : Nat) → BlockText → Cursor → Option (BlockText × Cursor)
  | 0, b, c => some (b, c)
  | fuel + 1, b, c =>
    if c.column ≠ column || c.atEnd then some (b, c)
    else do
      let indented := c.spaceAt
      let gap :=
        if !literal && b.last.head? == some '\n' && !b.indented && !indented then
          if b.empty.isEmpty then [' '] else b.empty
        else b.last ++ b.empty
      let stop := skipToBreak c.bound c
      let line := c.rest.take (stop.index - c.index)
      let (last, c) := stop.readBreak
      let (empty, _, c) ← blockBreaks (some column) c.bound 0 [] c
      blockLines literal column fuel ⟨b.text ++ gap ++ line, last, empty, indented⟩ c

/-- A block from its indicator on; `outer` is the column of what holds it, or -1. -/
def readBlock (literal : Bool) (outer : Int) (c : Cursor) : Option ScalarText := do
  let (h, c) ← blockHeader c.skip
  let c := skipSpaces c.bound c
  let c := if c.peek == some '#' then skipToBreak c.bound c else c
  if !(c.atEnd || c.breakAt) then none
  let c := c.readBreak.2
  let least := (outer + 1).toNat
  let given := h.indent.map fun n => if 0 ≤ outer then outer.toNat + n else n
  let (empty, deepest, c) ← blockBreaks given c.bound 0 [] c
  let column := given.getD (max (max deepest least) 1)
  let (b, c) ← blockLines literal column c.bound { empty } c
  let text := match h.keep with
    | some false => b.text
    | some true => b.text ++ b.last ++ b.empty
    | none => b.text ++ b.last
  return ⟨text, c, true⟩

end Stencil.Yaml
