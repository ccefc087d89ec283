import Stencil.Script.Evaluate
import Stencil.Script.Link
/-!
Modules of a script. A module shares the variables that it exports with the modules that import them.
All modules are there before the first one runs, and each runs after those that it imports.
-/
namespace Stencil.Script

/-- A module that has been read. -/
structure Module where
  name : String
  program : Program
  /-- The names of the modules that are requested, each with what it stands for. -/
  links : List (String × String)
  scope : Nat := 0

namespace Module

/-- The name of the module that a request stands for. -/
def target (u : Module) (source : String) : String := (u.links.lookup source).getD source

def find? (us : List Module) (name : String) : Option Module := us.find? (·.name == name)

/-- A module with the modules that it requests. -/
def read? (resolve : String → String → Option String) (name source : String) : Option Module := do
  let program ← Program.ofText? true source
  let links ← program.requests.mapM fun request => (resolve name request).map (request, ·)
  return { name, program, links }

/-- The modules that a list of modules lacks, until none is missing; `fuel` bounds how many there
are. -/
def complete? (resolve : String → String → Option String) (source? : String → Option String) :
    (fuel : Nat) → List Module → List String → Option (List Module)
  | _, us, [] => some us
  | 0, _, _ :: _ => none
  | fuel + 1, us, name :: rest => do
    if (find? us name).isSome then complete? resolve source? fuel us rest
    else
      let u ← read? resolve name (← source? name)
      complete? resolve source? fuel (us ++ [u]) (rest ++ u.links.map (·.2))

/-- The order in which modules run, and those that have been seen. -/
def order (us : List Module) : (fuel : Nat) → List String → List String → List String →
    List String × List String
  | 0, _, seen, done => (seen, done)
  | _, [], seen, done => (seen, done)
  | fuel + 1, name :: rest, seen, done =>
    if seen.contains name then order us fuel rest seen done
    else
      let links := ((find? us name).map (·.links.map (·.2))).getD []
      let (seen, done) := order us fuel links (seen ++ [name]) done
      order us fuel rest seen (done ++ [name])

/-! ### Exports -/

/-- The variable that holds all that a module gives. -/
def wholeName : String := "*whole*"

/-- What an export of a module stands for. -/
inductive Meaning where
  | variable (scope : Nat) (name : String)
  | whole (module : String)
  deriving DecidableEq

/-- What a name that a module gives stands for; a name that two other modules give differently stands
for nothing. -/
def meaning? (us : List Module) : (fuel : Nat) → (module name : String) → Option Meaning
  | 0, _, _ => none
  | fuel + 1, module, name => do
    let u ← find? us module
    let own : Option (String ⊕ (String × ImportedName)) := u.program.exports.findSome? fun
      | .variable exported localName => if exported == name then some (Sum.inl localName) else none
      | .handed exported source imported =>
        if exported == name then some (Sum.inr (source, imported)) else none
      | .everything _ => none
    let imported := fun (source : String) (what : ImportedName) =>
      match what with
      | .all => some (Meaning.whole (u.target source))
      | .one other => meaning? us fuel (u.target source) other
    match own with
    | some (.inl localName) =>
      match u.program.imports.find? (·.as == localName) with
      | some i => imported i.source i.imported
      | none => some (.variable u.scope localName)
    | some (.inr (source, what)) => imported source what
    | none =>
      if name == "default" then none
      else
        let found : List Meaning := u.program.exports.filterMap fun
          | .everything source => meaning? us fuel (u.target source) name
          | _ => none
        match found.eraseDups with
        | [m] => some m
        | _ => none

/-- The names that a module gives. -/
def exportNames (us : List Module) : (fuel : Nat) → (module : String) → List String
  | 0, _ => []
  | fuel + 1, module =>
    match find? us module with
    | none => []
    | some u => (u.program.exports.flatMap fun
      | .variable exported _ => [exported]
      | .handed exported _ _ => [exported]
      | .everything source =>
        (exportNames us fuel (u.target source)).filter (· != "default")).eraseDups

end Module

namespace Action

/-- Makes the variables of modules. -/
def declareModules (us : List Module) : Action (List Module) :=
  forAll (fun u => do
    let scope ← change fun h => h.allocScope none
      ((thisName, .cell (some .undefined) false) ::
        (varNamesOf u.program.body).eraseDups.map fun name => (name, .cell (some .undefined) true))
    return { u with scope }) us

/-- The variable that an export stands for. -/
def variableOf (us : List Module) : Module.Meaning → Nat × String
  | .variable scope name => (scope, name)
  | .whole module => (((Module.find? us module).map (·.scope)).getD 0, Module.wholeName)

/-- Makes the object of all that a module gives. -/
def wholeOf (us : List Module) (u : Module) : Action Unit := do
  let fuel := us.length + 2
  let exports := (Module.exportNames us fuel u.name).filterMap fun name =>
    (Module.meaning? us fuel u.name name).map fun m => (name, variableOf us m)
  let v ← newObject {
    proto := none
    shape := .module exports
    properties := [(Key.tag, .fixed (.text "Module"))]
    extensible := false }
  modify (·.bind u.scope Module.wholeName (.cell (some v) false))

/-- Lets the imports of a module stand for what other modules give. -/
def bindImports (us : List Module) (u : Module) : Action Unit := do
  forEach (fun i => do
    let module := u.target i.source
    let m := match i.imported with
      | .all => some (Module.Meaning.whole module)
      | .one name => Module.meaning? us (us.length + 2) module name
    match m with
    | some m =>
      let (scope, name) := variableOf us m
      modify (·.bind u.scope i.as (.link scope name))
    | none => syntaxError ("could not find an export of module '" ++ module ++ "'"))
    u.program.imports
  forEach (fun e => do
    match e with
    | .handed exported _ _ =>
      if (Module.meaning? us (us.length + 2) u.name exported).isNone then
        syntaxError ("could not find export '" ++ exported ++ "'")
    | _ => return) u.program.exports

/-- Runs a module and all those that it needs, and gives its default export. -/
def runModules (us : List Module) (root : String) : Action Datum := do
  let us ← declareModules us
  forEach (wholeOf us) us
  forEach (bindImports us) us
  forEach (fun u => declareIn u.scope u.program.body) us
  let (_, names) := Module.order us ((us.length + 2) * (us.length + 2)) [root] [] []
  forEach (fun name => do
    match Module.find? us name with
    | some u =>
      let _ ← runAll u.scope u.program.body
      return
    | none => return) names
  match Module.meaning? us (us.length + 2) root "default" with
  | some m =>
    let (scope, name) := variableOf us m
    getName scope name
  | none => return .undefined

end Action
end Stencil.Script
