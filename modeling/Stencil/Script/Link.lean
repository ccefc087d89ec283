import Stencil.Files.Tree
import Stencil.Json.Reader
import Stencil.Text.Quoted
/-!
Which module an import of a script names, and the text of that module. Two names belong to modules
that the compiler makes; relative names start from the importing file; any other name is that of a
package, which is looked for in the directories above the importing file.
-/
namespace Stencil.Script.Link
open Text

/-- The module of what a script is run with. -/
def hostModule : String := "tessera"

/-- The module of the methods of plugins. -/
def pluginModule : String := "tessera/plugins"

/-- The global variable that holds what a script is run with. -/
def hostGlobal : String := "__tessera_host"

/-- The global variable that holds the methods of plugins. -/
def pluginsGlobal : String := "__tessera_plugins"

def hostExports : List String :=
  ["values", "page", "templates", "pages", "createComponent", "html", "escape"]

/-- Extensions that an import may leave out. -/
def extensions : List String := ["js", "mjs", "json"]

def isRelative (name : String) : Bool :=
  startsWith "./".toList name.toList || startsWith "../".toList name.toList || name == "." ||
    name == ".."

/-- The file of a path, whose extension may be missing. -/
def file? (t : FileTree) (path : String) : Option String :=
  (path :: extensions.map fun ext => path ++ "." ++ ext).find? t.isFile

/-- The text under a key of the manifest of a package. -/
def manifestText? (manifest : Option Json) (key : String) : Option String :=
  match manifest with
  | some (.object entries) => (Assoc.get? entries key).bind Json.string?
  | _ => none

/-- The file that a directory stands for: what its manifest names, or else its index. -/
def directoryFile? (t : FileTree) (root : String) : Option String :=
  let manifest := (t.readText? (Path.join root "package.json")).bind Json.read?
  let named := ["module", "main"].findSome? fun key =>
    (manifestText? manifest key).bind fun entry => file? t (Path.normalize (Path.join root entry))
  named.or (file? t (Path.join root "index"))

/-- The file that a path stands for. -/
def target? (t : FileTree) (path : String) : Option String :=
  match file? t path with
  | some found => some found
  | none => if t.isDirectory path then directoryFile? t path else none

/-- The name of a package, and what is named in it. A name that begins with `@` has two parts. -/
def splitPackage (name : List Char) : List Char × Option (List Char) :=
  match name, cutChar? '/' name with
  | '@' :: _, some (scope, rest) =>
    match cutChar? '/' rest with
    | some (package, inner) => (scope ++ '/' :: package, some inner)
    | none => (name, none)
  | _, some (package, inner) => (package, some inner)
  | _, none => (name, none)

/-- What a package stands for, in the first directory that holds it. -/
def package? (t : FileTree) (dir name : String) : Option String :=
  let (package, inner) := splitPackage name.toList
  let roots := (Path.ancestors dir).map fun d =>
    Path.join (Path.join d "node_modules") (String.ofList package)
  (roots.find? t.isDirectory).bind fun root =>
    match inner with
    | some inner => target? t (Path.normalize (Path.join root (String.ofList inner)))
    | none => directoryFile? t root

/-- The name of the module that an import names. -/
def resolve? (t : FileTree) (importer name : String) : Option String :=
  if name == hostModule || name == pluginModule then some name
  else if !Path.isAbsolute importer then none
  else
    (Path.parent? importer).bind fun dir =>
      if isRelative name then target? t (Path.normalize (Path.join dir name))
      else if Path.isAbsolute name then target? t (Path.normalize name)
      else package? t dir name

/-! ### The text of a module -/

def hostSource : String :=
  "const host = globalThis." ++ hostGlobal ++ ";\n" ++
    String.join (hostExports.map fun name =>
      "export const " ++ name ++ " = host." ++ name ++ ";\n") ++
    "export default host;\n"

def isIdentifierStart (c : Char) : Bool := c.isAlpha || c == '_' || c == '$'

/-- The name is made of letters, digits, `_` and `$`, and no digit leads it. -/
def isIdentifier (name : String) : Bool :=
  match name.toList with
  | [] => false
  | c :: cs => isIdentifierStart c && cs.all fun c => isIdentifierStart c || c.isDigit

/-- The module of plugins has an export for each name that is an identifier. -/
def pluginSource (names : List String) : String :=
  "const plugins = globalThis." ++ pluginsGlobal ++ ";\n" ++
    String.join ((names.filter fun name => isIdentifier name && name != "default").map fun name =>
      "export const " ++ name ++ " = plugins[" ++ quoted name ++ "];\n") ++
    "export default plugins;\n"

/-- The text of the module of a name. A file of JSON exports its content. -/
def source? (t : FileTree) (plugins : List String) (name : String) : Option String :=
  if name == hostModule then some hostSource
  else if name == pluginModule then some (pluginSource plugins)
  else
    (t.readText? name).map fun text =>
      if (dropPrefix? ".json".toList.reverse name.toList.reverse).isSome then
        "export default " ++ trimmed text ++ ";"
      else text

end Stencil.Script.Link
