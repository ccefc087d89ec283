/-!
A line of a text in Markdown and the columns at its start. A tab reaches to the next multiple of
four columns, and part of a tab may belong to what holds the line.
-/
namespace Stencil.Markdown

def isSpace (c : Char) : Bool := c == ' ' || c == '\t'

/-- What is left of a line. -/
structure Line where
  rest : List Char
  column : Nat := 0
  /-- Columns left of a tab that has been passed in part. -/
  owed : Nat := 0
  /-- A line break ends the line. -/
  ended : Bool := true

namespace Line

/-- Width of the blanks at the start of a text that stands at a column. -/
def width (column : Nat) : List Char → Nat
  | ' ' :: s => 1 + width (column + 1) s
  | '\t' :: s => (4 - column % 4) + width (column + (4 - column % 4)) s
  | _ => 0

/-- Columns of blanks before the first other character. -/
def indent (l : Line) : Nat := l.owed + width (l.column + l.owed) l.rest

def isBlank (l : Line) : Bool := l.rest.all isSpace

/-- The line after one column of blanks; a line that does not start with one stays. -/
def dropColumn (l : Line) : Line :=
  if l.owed ≠ 0 then { l with owed := l.owed - 1, column := l.column + 1 }
  else match l.rest with
    | ' ' :: s => { l with rest := s, column := l.column + 1 }
    | '\t' :: s => { l with rest := s, column := l.column + 1, owed := 3 - l.column % 4 }
    | _ => l

/-- The line after at most this many columns of blanks. -/
def dropColumns : Nat → Line → Line
  | 0, l => l
  | n + 1, l => dropColumns n l.dropColumn

/-- The line after characters that are not tabs. -/
def dropChars (l : Line) (n : Nat) : Line :=
  { l with rest := l.rest.drop n, column := l.column + n, owed := 0 }

/-- The line from its first character that is no blank. -/
def dropIndent (l : Line) : Line := l.dropColumns l.indent

/-- The text of the line as it stands. -/
def text (l : Line) : List Char := List.replicate l.owed ' ' ++ l.rest

/-- `text` with the line break. -/
def wholeText (l : Line) : List Char := l.text ++ if l.ended then ['\n'] else []

/-- The lines of a text. -/
def ofText : List Char → List Line
  | [] => []
  | s =>
    let rec go (read : List Char) : List Char → List Line
      | [] => if read.isEmpty then [] else [{ rest := read.reverse, ended := false }]
      | '\r' :: '\n' :: s => { rest := read.reverse } :: go [] s
      | '\n' :: s => { rest := read.reverse } :: go [] s
      | '\r' :: s => { rest := read.reverse } :: go [] s
      | c :: s => go (c :: read) s
    go [] s

end Line
end Stencil.Markdown
