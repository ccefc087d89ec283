import Stencil.Markdown.Writer
import Stencil.Markup.Frontmatter
import Stencil.Markup.Sites
import Stencil.Yaml.Value
/-!
Pages: the values that a page declares, and its tree. A page in Markdown becomes HTML before its tree
is read; its values never do.
-/
namespace Stencil.Markup

inductive PageFormat where
  | html
  | markdown
  deriving DecidableEq, Repr

/-- The format that the extension of a file tells, if it is written in small letters. -/
def PageFormat.ofExtension? (ext : String) : Option PageFormat :=
  if ["html", "htm"].contains ext then some .html
  else if ["md", "markdown"].contains ext then some .markdown
  else none

structure Page where
  values : Assoc Yaml.Value
  document : Document
  deriving Repr

namespace Page

/-- The block of values and the content of a source. -/
def split (source : String) : Except Error (Option (Assoc Yaml.Value) × String) :=
  match Frontmatter.extract [] Yaml.valuesOfText? source with
  | .ok r => .ok r
  | .error e => .error (.frontmatter e)

def ofSource (rules : List IgnoreRule) (format : PageFormat) (source : String) :
    Except Error Page := do
  let (values, content) ← split source
  let markup := match format with
    | .html => content
    | .markdown => Markdown.toHtml content
  return { values := values.getD [], document := ← Document.ofSource .page rules markup }

end Page
end Stencil.Markup
