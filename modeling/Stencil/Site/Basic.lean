import Stencil.Site.Config
import Stencil.Site.Error
import Stencil.Site.Plugin
/-!
A site: its configuration, its plugins, and the templates and pages that have been loaded. Loading
and saving read and write a file tree.
-/
namespace Stencil
open Markup

structure Site where
  config : SiteConfig
  /-- The directory of pages, from the root. -/
  pagesRoot : String
  /-- The directory of templates, from the root. -/
  templatesRoot : String
  /-- Plugins that take part from the next loading on. -/
  registered : List Plugin := []
  /-- Plugins that take part now. -/
  plugins : List Plugin := []
  templates : Collection Component := {}
  pages : Collection Page := {}

/-- A page with its HTML. -/
structure CompiledPage where
  path : String
  html : String
  deriving DecidableEq, Repr

structure BuildResult where
  pages : Nat
  templates : Nat
  outputDir : String
  deriving DecidableEq, Repr

namespace Site

/-- A site of which nothing has been loaded yet. -/
def ofConfig (config : SiteConfig) (t : FileTree) : Site where
  config
  pagesRoot := t.cleanPath config.pagesDir
  templatesRoot := t.cleanPath config.templatesDir

/-- Registers a plugin under a name of its own. -/
def register (s : Site) (p : Plugin) : Except SiteError Site :=
  if s.registered.any (·.name == p.name) then .error (.duplicatePlugin p.name)
  else .ok { s with registered := s.registered ++ [p] }

def templateSchema (s : Site) : Schema Component Markup.Error :=
  (Component.schema s.templatesRoot s.config.ignore).guarded s.plugins (·.acceptsTemplate)
    (·.acceptsTemplateUpdate)

def pageSchema (s : Site) : Schema Page Markup.Error :=
  (Page.schema s.config.ignore).guarded s.plugins (·.acceptsPage) (·.acceptsPageUpdate)

/-! ### Loading -/

/-- The record of a template that a plugin gives. -/
def pluginRecord (p : Plugin) (r : Record) : Record :=
  .ofText ("@" ++ p.name ++ "/" ++ r.path.pathname) r.content

/-- Adds records up to the first one that fails. -/
def loadAll {α : Type} (schema : Schema α Markup.Error) (c : Collection α) :
    List Record → Except SiteError Unit × Collection α
  | [] => (.ok (), c)
  | r :: rest =>
    match c.set schema r with
    | .error e => (.error (.collection e), c)
    | .ok (_, c) => loadAll schema c rest

def loadTemplates (s : Site) (records : List Record) : Except SiteError Unit × Site :=
  let (result, templates) := loadAll s.templateSchema s.templates records
  (result, { s with templates })

def loadPages (s : Site) (records : List Record) : Except SiteError Unit × Site :=
  let (result, pages) := loadAll s.pageSchema s.pages records
  (result, { s with pages })

/-- The templates of the directory of templates, which may be missing. -/
def templateRecords (s : Site) (t : FileTree) : Except SiteError (List Record) :=
  if t.isDirectory s.templatesRoot then
    (t.enumerate s.templatesRoot templateExtensions s.config.exclude).mapError .files
  else .ok []

def pageRecords (s : Site) (t : FileTree) : Except SiteError (List Record) :=
  (t.enumerate s.pagesRoot pageExtensions s.config.exclude).mapError .files

/-- Goes on with what has been read, unless reading has failed. -/
def loadRead (s : Site) (records : Except SiteError (List Record))
    (load : Site → List Record → Except SiteError Unit × Site) : Except SiteError Unit × Site :=
  match records with
  | .error e => (.error e, s)
  | .ok records => load s records

/-- Loads the templates of plugins, those of the directory, and then the pages. What has been loaded
before a failure stays. -/
def initialise (s : Site) (t : FileTree) : Except SiteError Unit × Site :=
  let s := { s with plugins := s.registered, templates := {}, pages := {} }
  match s.loadTemplates (s.plugins.flatMap fun p => p.templates.map (pluginRecord p)) with
  | (.error e, s) => (.error e, s)
  | (.ok (), s) =>
    match s.loadRead (s.templateRecords t) loadTemplates with
    | (.error e, s) => (.error e, s)
    | (.ok (), s) => s.loadRead (s.pageRecords t) loadPages

/-! ### The pages that a template has a part in -/

/-- Ids of the templates that use a name. -/
def usersOf (s : Site) (name : String) : List String :=
  (s.templates.usage.usersOf name).filterMap fun user =>
    (s.templates.get? user).map (·.result.id)

/-- The names that are in a list of users, and the others. -/
def divide (users names : List String) : List String × List String :=
  (names.filter users.contains, names.filter (!users.contains ·))

theorem length_divide (users names : List String) :
    (divide users names).1.length + (divide users names).2.length = names.length := by
  simp only [divide]
  induction names with
  | nil => rfl
  | cons n ns ih => cases h : users.contains n <;> simp_all <;> omega

/-- A name and all those that lead to it. The names in `left` have not been found yet. -/
def closure (users : String → List String) (left : List String) : (pending : List String) →
    List String
  | [] => []
  | name :: rest =>
    name :: closure users (divide (users name) left).2 ((divide (users name) left).1 ++ rest)
termination_by pending => left.length + pending.length
decreasing_by
  have := length_divide (users name) left
  simp only [List.length_append, List.length_cons]
  omega

/-- Pages that use a template, directly or through other templates, in increasing order. -/
def dependents (s : Site) (id : String) : List String :=
  let ids := (s.templates.items.map (·.result.id)).filter (· != id)
  SortedSet.ofList ((closure s.usersOf ids [id]).flatMap s.pages.usage.usersOf)

/-! ### Compiling -/

def library (s : Site) : Library := .ofCollections s.templates s.pages

/-- Functions of plugins by name. -/
def methods (s : Site) : Assoc Script.PluginMethod :=
  Assoc.ofList (s.plugins.filterMap fun p => p.method.map (p.name, ·))

def sandbox (s : Site) (t : FileTree) : Sandbox :=
  Script.sandbox { files := t, methods := s.methods, budget := s.config.scriptBudget }

def clientSettings (s : Site) : Expansion.ClientSettings where
  minify := if s.config.minify then some Script.minify? else none
  modules := s.plugins.filterMap (·.client)

/-- The HTML of a page of the site. -/
def compilePage (s : Site) (t : FileTree) (path : String) (page : Page) :
    Except CompileError String × List LogEntry :=
  (Scene.ofPage s.library (s.sandbox t) path page).compile s.clientSettings page

/-- What a selector stands for: a page, or the pages that depend on a template. -/
def selected (s : Site) (selector : String) : List String × List LogEntry :=
  match s.pages.get? selector with
  | some page => ([page.path.pathname], [])
  | none =>
    match s.templates.get? selector with
    | some template => (s.dependents template.result.id, [])
    | none => ([], [⟨.warn, "Nothing to compile for " ++ selector⟩])

/-- The strings of a list, each once, in the order in which they first stand. -/
def distinct (names : List String) : List String :=
  names.foldl (fun seen n => if seen.contains n then seen else seen ++ [n]) []

/-- The pages to compile, in order. -/
def queue (s : Site) (selectors : Option (List String)) : List String × List LogEntry :=
  match selectors with
  | none => (s.pages.ids, [])
  | some selectors =>
    let found := selectors.map s.selected
    (distinct (found.flatMap (·.1)), found.flatMap (·.2))

/-- Compiles pages up to the first one that fails. -/
def compileAll (s : Site) (t : FileTree) :
    List String → Except SiteError (List CompiledPage) × List LogEntry
  | [] => (.ok [], [])
  | path :: rest =>
    match s.pages.get? path with
    | none => compileAll s t rest
    | some page =>
      match s.compilePage t path page.result with
      | (.error cause, logs) => (.error (.compile path cause), logs)
      | (.ok html, logs) =>
        let (result, more) := compileAll s t rest
        (result.map (⟨path, html⟩ :: ·), logs ++ more)

/-- Compiles the pages that are selected, or all. -/
def compile (s : Site) (t : FileTree) (selectors : Option (List String)) :
    Except SiteError (List CompiledPage) × List LogEntry :=
  let (paths, logs) := s.queue selectors
  let (result, more) := s.compileAll t paths
  (result, logs ++ more)

/-! ### Saving -/

/-- The file of a page below the output directory. -/
def outputPath (page : String) : String := Path.withExtension page "html"

/-- Writes a page, and makes the directories on the way to it. -/
def savePage (dir : String) (page : CompiledPage) (t : FileTree) :
    Except SiteError String × FileTree :=
  let target := Path.join dir (outputPath page.path)
  let parent := (Path.parent? target).getD ""
  match t.makeDirectories parent with
  | (false, t) => (.error (.unwritable parent), t)
  | (true, t) =>
    match t.write? target (.text page.html) with
    | none => (.error (.unwritable target), t)
    | some t => (.ok target, t)

/-- Writes pages up to the first failure, and gives the files that have been written. -/
def save (dir : String) : List CompiledPage → FileTree →
    Except SiteError (List String) × FileTree
  | [], t => (.ok [], t)
  | page :: rest, t =>
    match savePage dir page t with
    | (.error e, t) => (.error e, t)
    | (.ok target, t) =>
      let (result, t) := save dir rest t
      (result.map (target :: ·), t)

/-- Removes the files of pages. A file that is missing is no failure. -/
def discard (dir : String) : List String → FileTree → Except SiteError Unit × FileTree
  | [], t => (.ok (), t)
  | page :: rest, t =>
    let target := Path.join dir (outputPath page)
    match t.remove target with
    | .removed t => discard dir rest t
    | .missing => discard dir rest t
    | .refused => (.error (.unwritable target), t)

/-- What building has led to. -/
structure Built where
  result : Except SiteError BuildResult
  site : Site
  files : FileTree
  logs : List LogEntry := []

/-- Loads the site, compiles every page and writes all of them. -/
def build (s : Site) (t : FileTree) : Built :=
  match s.initialise t with
  | (.error e, s) => ⟨.error e, s, t, []⟩
  | (.ok (), s) =>
    match s.compile t none with
    | (.error e, logs) => ⟨.error e, s, t, logs⟩
    | (.ok pages, logs) =>
      let (saved, t) := save s.config.outputDir pages t
      ⟨saved.map fun _ => ⟨pages.length, s.templates.size, s.config.outputDir⟩, s, t, logs⟩

end Site
end Stencil
