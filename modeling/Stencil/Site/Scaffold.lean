import Stencil.Component.Error
import Stencil.Files.Tree
/-!
The first files of a new site.
-/
namespace Stencil.Scaffold

/-- The configuration file of a new site. -/
def configLines : List String := [
  "# Tessera Configuration",
  "",
  "[site]",
  "# Page source directory",
  "pages = \"pages\"",
  "",
  "# Template source directory",
  "templates = \"templates\"",
  "",
  "# Output directory for the built site",
  "output = \"dist\"",
  "",
  "[build]",
  "# Minify client scripts",
  "minify = true",
  "",
  "# Time budget of one behavior script, in milliseconds",
  "script_timeout_ms = 5000",
  "",
  "# Memory limit of one script sandbox, in megabytes",
  "script_memory_mb = 32",
  "",
  "# Elements the compiler leaves untouched",
  "# [[ignore]]",
  "# tag = \"dev-only\"",
  "",
  "[exclude]",
  "# Path segments skipped when reading pages and templates",
  "patterns = [\"_drafts\"]"]

/-- A template with a behavior script. -/
def greetingLines : List String := [
  "<template id=\"site-greeting\">",
  "  <h1>\x7b\x7b greeting \x7d\x7d</h1>",
  "  <slot>Welcome to your new site.</slot>",
  "</template>",
  "<script type=\"module\">",
  "export default \x7b",
  "  greeting: (\x7b name \x7d) => `Hello, $\x7bname ?? 'world'\x7d!`,",
  "\x7d;",
  "</script>"]

/-- A template with a client behavior. -/
def counterLines : List String := [
  "<template id=\"click-counter\">",
  "  <button ref=\"button\">\x7b\x7b label \x7d\x7d</button>",
  "  <output ref=\"count\">0</output>",
  "</template>",
  "<script type=\"module\">",
  "export default \x7b",
  "  script(\x7b refs \x7d) \x7b",
  "    let clicks = 0;",
  "    refs.button.addEventListener('click', () => \x7b",
  "      clicks += 1;",
  "      refs.count.textContent = String(clicks);",
  "    \x7d);",
  "  \x7d,",
  "\x7d;",
  "</script>"]

/-- The page of a new site. -/
def indexLines : List String := [
  "---",
  "title: Home",
  "---",
  "<!DOCTYPE html>",
  "<html>",
  "<head>",
  "  <title>\x7b\x7b title \x7d\x7d</title>",
  "</head>",
  "<body>",
  "  <site-greeting name=\"tessera\">",
  "    <p>Edit pages/index.html to get started.</p>",
  "  </site-greeting>",
  "  <click-counter label=\"Click me\"></click-counter>",
  "</body>",
  "</html>"]

def fileText (lines : List String) : String := String.join (lines.map (· ++ "\n"))

/-- The name of the configuration file. -/
def configName : String := "tessera.toml"

def directories : List String := ["pages", "templates"]

/-- The files by their paths, in the order in which they are written. -/
def files : List (String × String) := [
  (configName, fileText configLines),
  ("templates/site-greeting.html", fileText greetingLines),
  ("templates/click-counter.html", fileText counterLines),
  ("pages/index.html", fileText indexLines)]

inductive Error where
  | directory (name : String)
  | file (path : String)
  deriving DecidableEq, Repr

def Error.message : Error → String
  | .directory name => "Failed to create " ++ name ++ " directory"
  | .file path => "Failed to write " ++ path

/-- Makes directories up to one that cannot be made. -/
def makeDirectories (root : String) : List String → FileTree → Except Error Unit × FileTree
  | [], t => (.ok (), t)
  | name :: rest, t =>
    match t.makeDirectories (Path.join root name) with
    | (false, t) => (.error (.directory name), t)
    | (true, t) => makeDirectories root rest t

/-- Writes files up to one that cannot be written. A file that is there stays, unless it may be
overwritten. -/
def writeFiles (root : String) (overwrite : Bool) : List (String × String) → FileTree →
    Except Error Unit × FileTree × List LogEntry
  | [], t => (.ok (), t, [])
  | (name, content) :: rest, t =>
    let path := Path.join root name
    if t.contains path && !overwrite then writeFiles root overwrite rest t
    else
      match t.write? path (.text content) with
      | none => (.error (.file name), t, [])
      | some t =>
        let (result, t, logs) := writeFiles root overwrite rest t
        (result, t, ⟨.info, "Created " ++ name⟩ :: logs)

/-- Makes a new site in a directory. A site that is there already is left alone, unless its files may
be overwritten. -/
def create (root : String) (overwrite : Bool) (t : FileTree) :
    Except Error Unit × FileTree × List LogEntry :=
  let start : LogEntry := ⟨.info, "Initializing tessera site..."⟩
  if t.contains (Path.join root configName) && !overwrite then
    (.ok (), t, [start, ⟨.warn, "tessera.toml already exists. Use --yes to overwrite."⟩])
  else
    match makeDirectories root directories t with
    | (.error e, t) => (.error e, t, [start])
    | (.ok (), t) =>
      match writeFiles root overwrite files t with
      | (.error e, t, logs) => (.error e, t, start :: logs)
      | (.ok (), t, logs) => (.ok (), t, start :: logs ++ [
          ⟨.info, "Initialization complete!"⟩,
          ⟨.info, "Run 'tessera build' to compile the site."⟩])

end Stencil.Scaffold
