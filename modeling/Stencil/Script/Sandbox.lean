import Stencil.Component.Expansion
import Stencil.Script.Machine
import Stencil.Script.Module
import Stencil.Script.Realm
import Stencil.Script.Short
/-!
Runs behavior scripts. A script is a module whose default export is an object. Each entry of it is a
value, or a function that gives one; the entry named `script` is the client behavior, which is kept as
text. A run starts from a heap of its own, and takes no more steps than its time allows.
-/
namespace Stencil.Script
open Action

structure Settings where
  files : FileTree
  methods : Assoc PluginMethod := []
  /-- How many milliseconds a script may take. -/
  budget : Nat := 5000

/-- How many steps are done in a millisecond. -/
def stepsPerMillisecond : Nat := 20000

/-- No run takes more steps than this. -/
def maxSteps : Nat := 4000000

def Settings.steps (s : Settings) : Nat := min maxSteps (s.budget * stepsPerMillisecond)

namespace Sandbox

/-- A new object of values that cannot be changed. -/
def newFrozen (entries : List (String × Datum)) : Action Datum := do
  let v ← newRecord entries
  match v with
  | .object r => Library.freeze r
  | _ => pure ()
  return v

def hostFunction (name : String) : Action Datum := newNative (.member .host name) name

/-- Makes what a script is run with. -/
def install (s : Settings) (r : ScriptRequest) : Action Unit := do
  let values ← Library.ofJson r.values
  let page ← Library.ofJson r.page
  let templates ← newArray (r.templates.map .text)
  let pages ← newArray (r.pages.map .text)
  let functions ← forAll (fun name => do return (name, ← hostFunction name))
    ["createComponent", "html", "escape"]
  let host ← newFrozen
    ([("values", values), ("page", page), ("templates", templates), ("pages", pages)] ++ functions)
  let methods ← forAll (fun (name, _) => do
    return (name, ← newNative (.plugin name) name)) s.methods
  let plugins ← newFrozen methods
  let given := Datum.object Heap.globalObject
  defineOn given (.text Link.hostGlobal) (.ofValue host)
  defineOn given (.text Link.pluginsGlobal) (.ofValue plugins)

/-- The text of the client behavior. -/
def clientText (v : Datum) : Action String := do
  match Library.functionText (← heap) v with
  | some s => return s
  | none => Library.asText v

/-- Takes the values and the client behavior from what a script exports. Values of a name that every
object knows change how the object is made, as they do in a script. -/
def collect (definition values : Datum) : Action Datum := do
  let entries ← Library.listed [definition]
  let out ← newPlain []
  let client ← foldM (fun client (name, entry) => do
    if name == "script" then return Datum.text (← clientText entry)
    else
      let v ← if (← heap).isCallable entry then awaited (← call entry .undefined [values])
        else pure entry
      setText out name v
      return client) .null entries
  let result ← newRecord [("values", out), ("script", client)]
  return ((← Library.textOf {} result).map Datum.text).getD .undefined

/-- The text of what a script has thrown. -/
def thrownText (h : Heap) (e : Datum) : String :=
  match e with
  | .object r =>
    match h.shape r, h.find? r (.text "message") with
    | .error, some ({ held := .value (.text message) _, .. }, _) =>
      if message.isEmpty then "Error:" else "Error: " ++ message
    | .error, _ => "Error:"
    | _, _ => "value"
  | _ => "value"

/-- The error of a run that gives no value. -/
def failure (s : Settings) (h : Heap) : Machine.Finish → ScriptError
  | .rejected e => .exception (thrownText h e)
  | .overdue => .timeout s.budget
  | _ => .exception "Error: nothing is left to do"

/-- What a script gives, from the text of what has been collected. -/
def output (text : String) : Except ScriptError ScriptOutput :=
  match Json.read? text with
  | some (.object entries) =>
    let values := match Assoc.get? entries "values" with
      | some (.object values) => values
      | _ => []
    .ok ⟨values, (Assoc.get? entries "script").bind Json.string?⟩
  | _ => .error .malformed

/-- The default export has entries of its own to collect. -/
def isDefinition (h : Heap) (v : Datum) : Bool := v.isObject && !h.isCallable v && !h.isArray v

/-- Collects what a script exports, with the steps that are left. -/
def finish (s : Settings) (r : ScriptRequest) (definition : Datum) (h : Heap) (m : Machine)
    (fuel : Nat) : Except ScriptError ScriptOutput × Array LogEntry :=
  if !isDefinition h definition then (.error .missingDefaultExport, h.logs)
  else
    let work : Action Datum := do collect definition (← Library.ofJson r.values)
    match m.perform work fuel h with
    | (.fulfilled (.text text), h, _, _) => (output text, h.logs)
    | (.fulfilled _, h, _, _) => (.error .malformed, h.logs)
    | (f, h, _, _) => (.error (failure s h f), h.logs)

/-- Runs a script whose modules have been read. -/
def runModules (s : Settings) (r : ScriptRequest) (modules : List Module) :
    Except ScriptError ScriptOutput × Array LogEntry :=
  let start := { Realm.standard with plugins := s.methods }
  let work : Action Datum := do
    install s r
    let v ← Action.runModules modules r.path
    newRecord [("default", v)]
  match Machine.perform work s.steps start {} with
  | (.fulfilled (.object found), h, m, fuel) =>
    let definition := match h.own? found (.text "default") with
      | some { held := .value v _, .. } => v
      | _ => .undefined
    finish s r definition h m fuel
  | (f, h, _, _) => (.error (failure s h f), h.logs)

/-- All modules of a script. -/
def modules? (s : Settings) (r : ScriptRequest) : Option (List Module) := do
  let resolve := Link.resolve? s.files
  let source? := Link.source? s.files (s.methods.map (·.1))
  let root ← Module.read? resolve r.path r.source
  Module.complete? resolve source? 100000 [root] (root.links.map (·.2))

end Sandbox

/-- Runs a behavior script. -/
def sandbox (s : Settings) : Sandbox := fun r =>
  match Sandbox.modules? s r with
  | none => (.error (.exception "Error: a module cannot be read"), [])
  | some modules =>
    let (result, logs) := Sandbox.runModules s r modules
    (result, logs.toList)

end Stencil.Script
