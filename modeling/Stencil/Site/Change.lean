import Stencil.Site.Basic
/-!
Changes of single files. A file is read again, or forgotten when it is gone, and the pages that have
to be compiled again are named.
-/
namespace Stencil

/-- What a change of a file asks for. -/
structure Change where
  /-- Pages to compile again. -/
  recompile : List String := []
  /-- Pages that are gone. -/
  removed : List String := []
  deriving DecidableEq, Repr

/-- A document that has been taken out, and which plugins are told of. -/
inductive Deletion where
  | page (item : Item Markup.Page)
  | template (item : Item Component)

namespace Site

/-- What a file of the site is, by its path below the directory of its kind. -/
inductive Source where
  | page (path : String)
  | template (path : String)
  /-- A script that templates may import. -/
  | script
  deriving DecidableEq, Repr

def isExcluded (s : Site) (p : String) : Bool := Path.isExcluded p s.config.exclude

/-- What a path below the directory of templates is. -/
def templateSource? (s : Site) (p : String) : Option Source :=
  if s.isExcluded p then none
  else if Path.hasExtension p templateExtensions then
    some (.template (FilePath.slashed p))
  else if Path.hasExtension p scriptExtensions then some .script
  else none

/-- What a path below the directory of pages is. -/
def pageSource? (s : Site) (p : String) : Option Source :=
  if s.isExcluded p || !Path.hasExtension p pageExtensions then none
  else some (.page (FilePath.slashed p))

/-- What the file of a path is, if the site has to do with it. -/
def locate (s : Site) (t : FileTree) (p : String) : Except SiteError (Option Source) :=
  let p := t.cleanPath p
  match Path.below? s.templatesRoot p with
  | some cs => .ok (s.templateSource? (Path.ofComponents cs))
  | none =>
    match Path.below? s.pagesRoot p with
    | some cs => .ok (s.pageSource? (Path.ofComponents cs))
    | none => .error (.unwatched p)

/-- The id of the template of a path. -/
def templateId? (s : Site) (path : String) : Option String :=
  (s.templates.get? path).map (·.result.id)

/-- Forgets a file that is gone. -/
def remove (s : Site) (t : FileTree) (p : String) :
    Except SiteError (Change × List Deletion × Site) := do
  match ← s.locate t p with
  | none => return ({}, [], s)
  | some .script => return ({ recompile := s.pages.ids }, [], s)
  | some (.page path) =>
    match s.pages.delete path with
    | (none, _) => return ({}, [], s)
    | (some item, pages) => return ({ removed := [path] }, [.page item], { s with pages })
  | some (.template path) =>
    match s.templateId? path with
    | none => return ({}, [], s)
    | some id =>
      let recompile := s.dependents id
      let (item, templates) := s.templates.delete path
      return ({ recompile }, item.toList.map .template, { s with templates })

def readChanged (t : FileTree) (p : String) : Except SiteError String :=
  match t.readText? p with
  | some content => .ok content
  | none => .error (.files (.unreadable p))

def storePage (s : Site) (path content : String) : Except SiteError (Change × Site) := do
  let (outcome, pages) ← (s.pages.set s.pageSchema (.ofText path content)).mapError .collection
  let recompile := if outcome = .skipped then [] else [path]
  return ({ recompile }, { s with pages })

/-- Pages that depend on the template before the change, and after it, are compiled again. -/
def storeTemplate (s : Site) (path content : String) : Except SiteError (Change × Site) := do
  let before := s.templateId? path
  let (outcome, templates) ←
    (s.templates.set s.templateSchema (.ofText path content)).mapError .collection
  if outcome = .skipped then return ({}, { s with templates })
  let s := { s with templates }
  let ids := before.toList ++ (s.templateId? path).toList
  return ({ recompile := distinct (ids.flatMap s.dependents) }, s)

/-- Reads a file again; one that is gone is forgotten. -/
def applyChange (s : Site) (t : FileTree) (p : String) :
    Except SiteError (Change × List Deletion × Site) :=
  if !t.isFile p then s.remove t p
  else do
    match ← s.locate t p with
    | none => return ({}, [], s)
    | some .script => return ({ recompile := s.pages.ids }, [], s)
    | some (.page path) =>
      let (change, s) ← s.storePage path (← readChanged t p)
      return (change, [], s)
    | some (.template path) =>
      let (change, s) ← s.storeTemplate path (← readChanged t p)
      return (change, [], s)

end Site
end Stencil
