import Stencil.Markup.Error
import Stencil.Text.Blank
import Stencil.Text.Search
/-!
The block of document values at the top of a page. It starts at three hyphens and ends at the
first line that starts with three hyphens. How its text is read is a parameter.
-/
namespace Stencil.Markup.Frontmatter
open Text

/-- A source cut at its block: the text of the block, and what follows it. A source that does not
start with hyphens has no block. -/
def split (source : String) : Except FrontmatterError (Option (String × String)) :=
  match dropPrefix? "---".toList (trimStart source.toList) with
  | none => .ok none
  | some after =>
    match cut? "\n---".toList after with
    | none => .error .unclosed
    | some (block, rest) =>
      .ok (some (String.ofList (trim block), String.ofList (trimStart rest)))

/-- The values of a block, if there is one, and the content after it. A block of blanks holds no
values and is not handed to the reader. -/
def extract {Values : Type} (empty : Values) (read : String → Option Values) (source : String) :
    Except FrontmatterError (Option Values × String) := do
  match ← split source with
  | none => return (none, source)
  | some (block, rest) =>
    if block.isEmpty then return (some empty, rest)
    match read block with
    | some values => return (some values, rest)
    | none => .error .invalidYaml

end Stencil.Markup.Frontmatter
