import Stencil.Markup.Sites
/-!
Template files. A file declares one template: the one `<template>` among its outermost elements.
Beside it the file may hold a `<script type="module">`, the behavior of the template.
-/
namespace Stencil.Markup

structure Template where
  id : String
  /-- What the template holds, below a root. -/
  document : Document
  /-- The text of the behavior script. -/
  script : Option String
  deriving Repr

namespace Template

def isTemplate (t : Tree) : Bool := t.content.element?.any (·.name == "template")

def isBehavior (t : Tree) : Bool :=
  t.content.element?.any fun e => e.name == "script" && e.attr? "type" == some "module"

/-- The only tree that declares a template. -/
def only : List Tree → Except Error Tree
  | [] => .error .missingTemplate
  | [t] => .ok t
  | ts => .error (.multipleTemplates ts.length)

def ofTree (file : Tree) : Except Error Template := do
  let template ← only (file.children.filter isTemplate)
  let id := (template.content.element?.bind (·.attr? "id")).getD ""
  Name.validate id
  let tree := Tree.node .root template.children
  return {
    id
    document := ⟨tree, ← Sites.ofTree .template tree⟩
    script := (file.children.find? isBehavior).map (·.textContent) }

def ofSource (rules : List IgnoreRule) (source : String) : Except Error Template :=
  ofTree (Tree.ofSource rules source)

end Template
end Stencil.Markup
