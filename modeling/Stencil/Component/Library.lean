import Stencil.Collection.Basic
import Stencil.Component.Value
import Stencil.Files.Path
import Stencil.Markup.Page
import Stencil.Markup.Template
/-!
The templates and pages that a page is compiled with. A template becomes a component under the id
that it declares.
-/
namespace Stencil
open Markup

structure Component where
  id : String
  /-- The path of the file below the directory of templates. -/
  path : String
  /-- The directory of the file. -/
  dir : String
  document : Document
  script : Option String
  deriving Repr

namespace Component

/-- Reads a template file that stands below a directory. -/
def ofRecord (root : String) (rules : List IgnoreRule) (r : Record) : Except Error Component := do
  let t ← Template.ofSource rules r.content
  return {
    id := t.id
    path := r.path.pathname
    dir := if r.path.dirname = "." then root else Path.join root r.path.dirname
    document := t.document
    script := t.script }

/-- The path that the behavior script is known by. -/
def scriptPath (c : Component) : String := Path.join c.dir ((Path.fileName? c.path).getD c.id)

/-- A copy of the component in a store: its root, and the sites of the copy. -/
def instantiate (c : Component) (a : Arena) : NodeId × Sites × Arena :=
  let (root, a') := a.graft c.document.tree
  (root, c.document.sites.shift root, a')

/-- Templates are found by their id, and by their path as well. -/
def schema (root : String) (rules : List IgnoreRule) : Schema Component Error where
  kind := .template
  parse := ofRecord root rules
  uses c := c.document.uses
  beforeSet item := .store (some item.result.id)

end Component

namespace Markup.Page

/-- Reads a page; a file without an extension of pages is HTML. -/
def ofRecord (rules : List IgnoreRule) (r : Record) : Except Error Page :=
  ofSource rules ((r.path.extension?.bind PageFormat.ofExtension?).getD .html) r.content

/-- Pages are found by their path. -/
def schema (rules : List IgnoreRule) : Schema Page Error where
  kind := .page
  parse := ofRecord rules
  uses p := p.document.uses
  beforeSet _ := .store none

end Markup.Page

/-- What expansion needs of the templates and pages of a site. -/
structure Library where
  component? : String → Option Component
  templates : List String
  pages : List String

/-- The library of two collections. -/
def Library.ofCollections (templates : Collection Component) (pages : Collection Markup.Page) :
    Library where
  component? id := (templates.get? id).map (·.result)
  templates := templates.ids
  pages := pages.ids

end Stencil
