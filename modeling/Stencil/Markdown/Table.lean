import Stencil.Markdown.Block
import Stencil.Markdown.Line
/-!
Rows of tables. A row is cut at its bars; a bar after a backslash belongs to a cell.
-/
namespace Stencil.Markdown

/-- The text up to a bar that is not escaped, and the text from that bar on. -/
def cell : List Char → List Char × List Char
  | '\\' :: '|' :: s => let (a, b) := cell s; ('|' :: a, b)
  | '\\' :: c :: s => let (a, b) := cell s; ('\\' :: c :: a, b)
  | '|' :: s => ([], '|' :: s)
  | c :: s => let (a, b) := cell s; (c :: a, b)
  | [] => ([], [])

/-- The number of bars that are not escaped. -/
def bars : List Char → Nat
  | '\\' :: _ :: s => bars s
  | '|' :: s => bars s + 1
  | _ :: s => bars s
  | [] => 0

/-- The cells of a row. -/
def cells : (fuel : Nat) → List Char → List (List Char)
  | 0, _ => []
  | fuel + 1, s =>
    let s := if s.head? == some '|' then s.tail else s
    if s.all isSpace then []
    else
      let (a, rest) := cell s
      a :: cells fuel rest

def row (s : List Char) : List (List Char) :=
  let s := s.dropWhile isSpace
  cells (s.length + 1) s

/-- The columns that a row of bars, hyphens and colons sets out. -/
def columns? (s : List Char) : Option (List Align) :=
  if !s.contains '|' || !s.contains '-' then none
  else
    let s := s.dropWhile isSpace
    let s := (s.reverse.dropWhile isSpace).reverse
    let s := if s.head? == some '|' then s.tail else s
    let s := if s.getLast? == some '|' then s.dropLast else s
    let column? := fun (c : List Char) =>
      let c := c.filter (· != ' ')
      let left := c.head? == some ':'
      let right := 1 < c.length && c.getLast? == some ':'
      if c.any (fun d => d != '-' && d != ':') || !c.contains '-' then none
      else some (if left && right then Align.center else if left then .left
        else if right then .right else .none)
    (s.splitOn '|').mapM column?

/-- The number of cells of the row above those columns. -/
def headWidth (s : List Char) : Nat :=
  let s := s.dropWhile isSpace
  let s := (s.reverse.dropWhile isSpace).reverse
  let n := bars s
  let n := if s.head? == some '|' then n - 1 else n
  if s.getLast? == some '|' && !(s.dropLast.getLast? == some '\\') then n else n + 1

end Stencil.Markdown
