import Stencil.Text.Search
/-!
What a text in Markdown is made of. Blocks hold blocks or text; text is made of spans.
-/
namespace Stencil.Markdown

inductive Span where
  | text (s : List Char)
  | code (s : List Char)
  | html (s : List Char)
  | softBreak
  | hardBreak
  | emphasis (body : List Span)
  | strong (body : List Span)
  | strike (body : List Span)
  | link (target title : List Char) (body : List Span)
  | image (target title : List Char) (body : List Span)
  /-- A reference to the footnote of a label. -/
  | footnote (label : List Char)
  deriving Repr

inductive Align where
  | none
  | left
  | center
  | right
  deriving DecidableEq, Repr

/-- Blocks; text in them is given as it was written. -/
inductive Block where
  | rule
  | heading (level : Nat) (text : List Char)
  /-- A paragraph; one that starts a task says whether that is done. -/
  | paragraph (task : Option Bool) (text : List Char)
  /-- Code, with the words after its fence if it has one. -/
  | code (info : Option (List Char)) (text : List Char)
  | html (text : List Char)
  | quote (body : List Block)
  /-- A list, with its first number if it has numbers. In a tight list paragraphs are not marked. -/
  | list (start : Option Nat) (tight : Bool) (items : List (List Block))
  | table (columns : List Align) (head : List (List Char)) (rows : List (List (List Char)))
  | footnote (label : List Char) (body : List Block)
  deriving Repr

/-- Where a link leads, and its title. -/
structure Target where
  target : List Char
  title : List Char
  deriving DecidableEq, Repr

end Stencil.Markdown
