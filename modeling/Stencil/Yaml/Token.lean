/-!
The tokens of YAML. Indentation is made explicit: a block collection that starts by being indented
deeper than what holds it has a token for its start and one for its end.
-/
namespace Stencil.Yaml

inductive Token where
  | documentStart
  | documentEnd
  | blockSequence
  | blockMapping
  | blockEnd
  | flowSequence
  | flowSequenceEnd
  | flowMapping
  | flowMappingEnd
  | flowEntry
  | blockEntry
  | key
  | value
  | alias (name : String)
  | anchor (name : String)
  | tag (name : String)
  /-- A scalar; `plain` says that it stands without quotes or an indicator. -/
  | scalar (plain : Bool) (text : String)
  deriving DecidableEq, Repr

/-- A place in a text, with the text from there. -/
structure Cursor where
  rest : List Char
  index : Nat := 0
  line : Nat := 0
  column : Nat := 0

/-- Line breaks: carriage return, line feed, next line, line and paragraph separator. -/
def isBreak (c : Char) : Bool :=
  c == '\n' || c == '\r' || c == '\u0085' || c == '\u2028' || c == '\u2029'

def isSpace (c : Char) : Bool := c == ' ' || c == '\t'

/-- Characters that a document may hold. -/
def isPermitted (c : Char) : Bool :=
  let n := c.toNat
  n == 9 || n == 10 || n == 13 || (0x20 ≤ n && n ≤ 0x7E) || n == 0x85 ||
    (0xA0 ≤ n && n ≤ 0xFFFD) || 0x10000 ≤ n

/-- Characters of the names of anchors. -/
def isNameChar (c : Char) : Bool := c.isAlphanum || c == '_' || c == '-'

namespace Cursor

def peek (c : Cursor) (n : Nat := 0) : Option Char := c.rest[n]?

/-- The character at an offset is a blank, a break, or the end. -/
def blankAt (c : Cursor) (n : Nat := 0) : Bool := (c.peek n).all fun d => isSpace d || isBreak d

def spaceAt (c : Cursor) (n : Nat := 0) : Bool := (c.peek n).any isSpace

def breakAt (c : Cursor) (n : Nat := 0) : Bool := (c.peek n).any isBreak

def atEnd (c : Cursor) : Bool := c.rest.isEmpty

/-- The place after one character of a line. -/
def skip (c : Cursor) : Cursor :=
  { c with rest := c.rest.tail, index := c.index + 1, column := c.column + 1 }

def skipMany : Nat → Cursor → Cursor
  | 0, c => c
  | n + 1, c => skipMany n c.skip

/-- The text of a line break as it is kept, and the place after it; at other places nothing. -/
def readBreak (c : Cursor) : List Char × Cursor :=
  match c.rest with
  | '\r' :: '\n' :: rest =>
    (['\n'], { rest, index := c.index + 2, line := c.line + 1, column := 0 })
  | d :: rest =>
    if isBreak d then
      (if d == '\u2028' || d == '\u2029' then [d] else ['\n'],
        { rest, index := c.index + 1, line := c.line + 1, column := 0 })
    else ([], c)
  | [] => ([], c)

/-- A mark of three characters that stands at the start of a line and is followed by a blank. -/
def documentMark (c : Cursor) (d : Char) : Bool :=
  c.column == 0 && c.rest.take 3 == [d, d, d] && c.blankAt 3

def atDocumentMark (c : Cursor) : Bool := c.documentMark '-' || c.documentMark '.'

/-- A bound on the number of steps that can be taken from here. -/
def bound (c : Cursor) : Nat := c.rest.length + 1

end Cursor
end Stencil.Yaml
