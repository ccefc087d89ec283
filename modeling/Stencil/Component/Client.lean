import Stencil.Component.Error
import Stencil.Component.Value
import Stencil.Json.Writer
import Stencil.Markup.Arena
import Stencil.Text.Search
import Stencil.Text.Word
/-!
The script of a page. Each instance with a client behavior becomes a call of the function of its
template, which the script defines once. No text in the script closes the element that it stands in.
-/
namespace Stencil
open Text

/-- An instance of a template on a page that has a client behavior. -/
structure ClientInstance where
  context : String
  template : String
  /-- The text of the behavior function. -/
  source : String
  /-- The values that the behavior mentions. -/
  values : Values
  /-- Names of elements, with a selector for each. -/
  refs : List (String × String)
  deriving Repr

/-- Client code that a plugin adds to every page. -/
structure ClientModule where
  helpers : String := ""
  imports : List String := []
  deriving DecidableEq, Repr

/-- A script for a page. -/
structure Bundle where
  source : String
  /-- The script has to be loaded as a module. -/
  isModule : Bool
  /-- The source is in its short form. -/
  isMinified : Bool := false
  deriving DecidableEq, Repr

/-- The attribute that carries the number of an element that a behavior refers to. -/
def refAttribute : String := "data-tessera-ref"

def refSelector (n : Nat) : String := "[" ++ refAttribute ++ "=\"" ++ toString n ++ "\"]"

/-- One of the places of a pattern, taken from left to right without overlap, is a word of its own;
`before` is the character before the text. -/
def mentionsFrom (p : Char) (ps : List Char) (before : Option Char) (s : List Char) : Bool :=
  match h : cut? (p :: ps) s with
  | none => false
  | some (a, rest) =>
    (!((a.getLast?.or before).any isWordChar) && !(rest.head?.any isWordChar)) ||
      mentionsFrom p ps (p :: ps).getLast? rest
termination_by s.length
decreasing_by have := length_of_cut? h; simp at this; omega

/-- The source mentions the key as a word. -/
def mentions (source key : String) : Bool :=
  match key.toList with
  | [] => false
  | p :: ps => mentionsFrom p ps none source.toList

namespace Bundle

/-- Text that closes no element of scripts. -/
def safe (s : String) : String := replaceText "</" "<\\/" s

def literal (s : String) : String := safe (Json.string s).write

/-- The text after the word `script`, blanks and an opening parenthesis. -/
def afterScript? (s : List Char) : Option (List Char) :=
  match (dropPrefix? "script".toList s).map trimStart with
  | some ('(' :: rest) => some rest
  | _ => none

/-- A method named `script` becomes a function of that name. -/
def functionOf (source : String) : String :=
  let s := trim source.toList
  match afterScript? s with
  | some rest => String.ofList ("function script(".toList ++ rest)
  | none =>
    match dropPrefix? "async".toList s with
    | some after =>
      let blanks := after.takeWhile isBlank
      match if blanks.isEmpty then none else afterScript? (trimStart after) with
      | some rest => String.ofList ("async".toList ++ blanks ++ "function script(".toList ++ rest)
      | none => String.ofList s
    | none => String.ofList s

/-- The call for an instance. -/
def call (i : ClientInstance) : String :=
  let refs := i.refs.map fun (name, selector) =>
    literal name ++ ": document.querySelector(" ++ literal selector ++ ")"
  "definitions[" ++ literal i.template ++ "](\x7b values: " ++ safe i.values.toJson.write ++
    ", refs: \x7b " ++ String.intercalate ", " refs ++ " \x7d \x7d);\n"

/-- The function of each template, from its first instance. -/
def definitions (instances : List ClientInstance) : List (String × String) :=
  instances.foldl (fun ds i =>
    if Assoc.has ds i.template then ds else ds ++ [(i.template, functionOf i.source)]) []

def distinct (ss : List String) : List String :=
  ss.foldl (fun seen s => if seen.contains s then seen else seen ++ [s]) []

/-- The whole script. -/
def assemble (helpers imports : List String) (instances : List ClientInstance) : String :=
  String.join (imports.map fun i => "import " ++ literal i ++ ";\n") ++ "(() => \x7b\n" ++
    String.join (helpers.map (· ++ "\n")) ++ "const definitions = \x7b\x7d;\n" ++
    String.join ((definitions instances).map fun (id, f) =>
      "definitions[" ++ literal id ++ "] = (" ++ f ++ ");\n") ++
    String.join (instances.map call) ++ "\x7d)();\n"

/-- A letter without its case. The long s is an s. -/
def caseless (c : Char) : Char := if c = '\u017f' then 's' else c.toLower

/-- Puts a backslash into every end tag of a script. -/
def openTags : List Char → List Char
  | [] => []
  | c :: s =>
    if startsWith "</script".toList ((c :: s).map caseless) then '<' :: '\\' :: openTags s
    else c :: openTags s

/-- The script of a page, if there is anything to run. `minify` shortens a script, and may fail. -/
def ofInstances (minify : Option (String → Option String)) (modules : List ClientModule)
    (instances : List ClientInstance) : Option (Bundle × List LogEntry) :=
  let helpers := (modules.map fun m => trimmed m.helpers).filter (!·.isEmpty)
  let imports := distinct (modules.flatMap (·.imports))
  if instances.isEmpty && helpers.isEmpty && imports.isEmpty then none
  else
    let source := assemble helpers imports instances
    let finish := fun (source : String) (isMinified : Bool) =>
      Bundle.mk (String.ofList (openTags source.toList)) (!imports.isEmpty) isMinified
    match minify with
    | none => some (finish source false, [])
    | some minify =>
      match minify source with
      | some short => some (finish short true, [])
      | none => some (finish source false,
          [⟨.warn, "Client script minification failed, emitting unminified"⟩])

/-- Puts the script at the end of the body, or of the page if that has none. -/
def inject (b : Bundle) (a : Markup.Arena) : Markup.Arena :=
  let target := (a.findElement? Markup.Arena.root "body").getD Markup.Arena.root
  let e : Markup.Element := { name := "script" }
  let (script, a) := a.alloc (.element (if b.isModule then e.setAttr "type" "module" else e))
  let (text, a) := a.alloc (.text b.source)
  (a.append script text).append target script

end Bundle
end Stencil
