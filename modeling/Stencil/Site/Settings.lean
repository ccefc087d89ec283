import Stencil.Files.Tree
import Stencil.Site.Config
import Stencil.Toml.Reader
/-!
The configuration file. Every entry has a default, entries of other names are ignored, and the
command line may set some of them otherwise. The values of a section may be given by name, or in
order as an array.
-/
namespace Stencil.Settings

/-- Looks up the entries of a section by place and name. -/
abbrev Section := Nat → String → Option Toml

/-- The value as a section. A date has no entry that a section knows. -/
def section? : Toml → Option Section
  | .table _ entries => some fun _ name => Assoc.get? entries name
  | .array items => some fun i _ => items[i]?
  | .tables items => some fun i _ => (items[i]?).map (.table .header)
  | .dateTime => some fun _ _ => none
  | _ => none

def text? : Toml → Option String
  | .string s => some s
  | _ => none

def flag? : Toml → Option Bool
  | .boolean b => some b
  | _ => none

def count? : Toml → Option Nat
  | .integer n => if 0 ≤ n then some n.toNat else none
  | _ => none

def list? (item? : Toml → Option α) : Toml → Option (List α)
  | .array items => items.mapM item?
  | .tables items => items.mapM fun entries => item? (.table .header entries)
  | _ => none

/-- An entry of a section, or its default. -/
def entryOf? (sec : Section) (i : Nat) (name : String) (default : α) (read? : Toml → Option α) :
    Option α :=
  match sec i name with
  | none => some default
  | some v => read? v

def rule? (v : Toml) : Option Markup.IgnoreRule := do
  let sec ← section? v
  return {
    tag := ← entryOf? sec 0 "tag" none fun v => (text? v).map some
    attr := ← entryOf? sec 1 "attribute" none fun v => (text? v).map some }

/-- A section of a file. One that is missing has no entries. -/
def subsection? (file : Assoc Toml) (name : String) : Option Section :=
  match Assoc.get? file name with
  | none => some fun _ _ => none
  | some v => section? v

/-- Bytes are counted in words of 64 bits. -/
def bytesOfMegabytes (n : Nat) : Nat := n * (1024 * 1024) % Nat.pow 2 64

/-- The configuration that a file gives. -/
def ofFile? (file : Assoc Toml) : Option SiteConfig := do
  let site ← subsection? file "site"
  let build ← subsection? file "build"
  let exclude ← subsection? file "exclude"
  let d : SiteConfig := {}
  return {
    pagesDir := ← entryOf? site 0 "pages" d.pagesDir text?
    templatesDir := ← entryOf? site 1 "templates" d.templatesDir text?
    outputDir := ← entryOf? site 2 "output" d.outputDir text?
    minify := ← entryOf? build 0 "minify" d.minify flag?
    scriptBudget := ← entryOf? build 1 "script_timeout_ms" d.scriptBudget count?
    scriptMemory := bytesOfMegabytes (← entryOf? build 2 "script_memory_mb" 32 count?)
    ignore := ← match Assoc.get? file "ignore" with
      | none => some []
      | some v => list? rule? v
    exclude := ← entryOf? exclude 0 "patterns" [] (list? text?) }

/-- What the command line sets. -/
structure Overrides where
  output : Option String := none
  minify : Option Bool := none

inductive Error where
  | unreadable (path : String)
  | malformed (path : String)
  deriving DecidableEq, Repr

def Error.message : Error → String
  | .unreadable path => "Failed to read " ++ path
  | .malformed path => "Failed to parse " ++ path

/-- The configuration of a file, which may be missing. -/
def load (t : FileTree) (path : String) : Except Error SiteConfig :=
  if !t.contains path then .ok {}
  else
    match t.readText? path with
    | none => .error (.unreadable path)
    | some content =>
      match (Toml.read? content).bind ofFile? with
      | none => .error (.malformed path)
      | some config => .ok config

/-- Directories start from the one of the configuration file. -/
def SiteConfig.relativeTo (base : String) (o : Overrides) (c : SiteConfig) : SiteConfig :=
  { c with
    pagesDir := Path.join base c.pagesDir
    templatesDir := Path.join base c.templatesDir
    outputDir := o.output.getD (Path.join base c.outputDir)
    minify := o.minify.getD c.minify }

/-- The configuration that a site is built with. -/
def siteConfig (t : FileTree) (path : String) (o : Overrides) : Except Error SiteConfig :=
  (load t path).map (SiteConfig.relativeTo ((Path.parent? path).getD "") o)

end Stencil.Settings
