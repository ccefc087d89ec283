import Stencil.Script.Iterate
import Stencil.Script.Scope
/-!
Functions and classes as objects, and the scopes that their calls run in.
-/
namespace Stencil.Script.Action

/-- A name of a function that a script can read but not set. -/
def nameProperty (name : String) : Key × Property :=
  (.text "name", { held := .value (.text name) false, enumerable := false })

/-- How many parameters come before one that may be left out. -/
def arity : List Expr → Nat
  | [] => 0
  | .default .. :: _ => 0
  | .spread _ :: _ => 0
  | _ :: rest => arity rest + 1

def lengthProperty (params : List Expr) : Key × Property :=
  (.text "length", { held := .value (.ofNat (arity params)) false, enumerable := false })

/-- Functions that make objects have a property for what these descend from. -/
def hasPrototype (info : FuncInfo) : Bool :=
  info.isGenerator || (info.kind == .plain && !info.isAsync)

/-- A function as an object. -/
def newClosure (scope : Nat) (info : FuncInfo) (params : List Expr) (body : List Stmt)
    (home : Option Ref) : Action Ref := do
  let f ← change fun h => h.alloc {
    proto := some Heap.functionProto
    shape := .closure { info, params, body, scope, home }
    properties := [lengthProperty params, nameProperty info.name] }
  if hasPrototype info then
    let parent := if info.isGenerator then Heap.generatorProto else Heap.objectProto
    let proto ← change fun h => h.alloc { proto := some parent }
    if !info.isGenerator then modify (·.define proto (.text "constructor") (.quiet (.object f)))
    modify (·.define f (.text "prototype")
      { held := .value (.object proto) true, enumerable := false, configurable := false })
  return f

/-- A function that a function of its own name knows. -/
def newNamed (scope : Nat) (info : FuncInfo) (params : List Expr) (body : List Stmt) :
    Action Ref := do
  if info.isNamed then
    let inner ← newScope scope [(info.name, .cell none false)]
    let f ← newClosure inner info params body none
    modify (·.bind inner info.name (.cell (some (.object f)) false))
    return f
  else newClosure scope info params body none

/-- The names that the call of a function starts with. -/
def callBindings (self : Ref) (c : Closure) (this : Option Datum) (target arguments : Datum) :
    List (String × Binding) :=
  if c.info.kind == .arrow then []
  else
    [(thisName, .cell this true), (targetName, .cell (some target) false)] ++
      (match c.home with
        | some home => [(homeName, .cell (some (.object home)) false)]
        | none => []) ++
      (if c.info.kind == .constructor || c.info.kind == .derivedConstructor then
        [(className, .cell (some (.object self)) false)] else []) ++
      (if c.info.usesArguments then [("arguments", .cell (some arguments) true)] else [])

/-- The scope of a call. -/
def callScope (self : Ref) (c : Closure) (this : Option Datum) (target : Datum)
    (args : List Datum) : Action Nat := do
  let arguments ← if c.info.usesArguments && c.info.kind != .arrow then newArray args
    else pure .undefined
  newScope c.scope ((c.info.vars.eraseDups.map fun name => (name, .cell (some .undefined) true)) ++
    callBindings self c this target arguments)

/-! ### Classes -/

/-- Gives an object the accessor of a key, beside the other one that is there already. -/
def defineAccessor (r : Ref) (k : Key) (isGetter enumerable : Bool) (f : Ref) : Action Unit := do
  let (get, set) := match (← heap).own? r k with
    | some { held := .accessor get set, .. } => (get, set)
    | _ => (none, none)
  let held := if isGetter then Held.accessor (some f) set else .accessor get (some f)
  modify (·.define r k { held, enumerable })

/-- A hidden member that is given, put together with an accessor of the same name. -/
def mergeHidden (fields : List Field) (name : String) (p : Property) : List Field :=
  match fields with
  | [] => [.hidden name p]
  | .hidden n q :: rest =>
    if n == name then
      match p.held, q.held with
      | .accessor g s, .accessor g' s' => .hidden n { p with held := .accessor (g.or g') (s.or s') } :: rest
      | _, _ => .hidden n p :: rest
    else .hidden n q :: mergeHidden rest name p
  | f :: rest => f :: mergeHidden rest name p

/-- Gives a new instance what each instance of a class gets. -/
def initialise (v : Datum) (fields : List Field) : Action Unit := do
  match v with
  | .object r =>
    forEach (fun f => do
      match f with
      | .hidden name p => putHidden r name p
      | _ => return) fields
    forEach (fun f => do
      match f with
      | .value key init =>
        let x ← match init with
          | some f => call (.object f) v []
          | none => pure .undefined
        match key with
        | .inl k => modify (·.define r k (.ofValue x))
        | .inr name => putHidden r name (.ofValue x)
      | .hidden .. => return) fields
  | _ => return

/-- What each instance of a class gets. -/
def fieldsOf (h : Heap) : Datum → List Field
  | .object r => match h.shape r with
    | .closure c => c.fields
    | _ => []
  | _ => []

/-- What the instances of a function descend from. -/
def protoFor (target : Datum) (standard : Ref) : Action Ref := do
  match ← getText target "prototype" with
  | .object r => return r
  | _ => return standard

/-- What a class extends: the object that it descends from, and the one that its instances do. -/
def parents (isDerived : Bool) (parent : Datum) : Action (Option Ref × Option Ref) := do
  if !isDerived then return (some Heap.functionProto, some Heap.objectProto)
  else
    match parent with
    | .null => return (some Heap.functionProto, none)
    | .object r =>
      if !(← heap).isCallable parent then typeError "parent class must be constructor"
      else
        match ← getText parent "prototype" with
        | .object proto => return (some r, some proto)
        | .null => return (some r, none)
        | _ => typeError "parent prototype must be an object or null"
    | _ => typeError "parent class must be constructor"

/-- A class as an object, with what its instances descend from. -/
def newClass (scope : Nat) (name : String) (info : FuncInfo) (params : List Expr)
    (body : List Stmt) (parent proto : Option Ref) : Action (Ref × Ref) := do
  let proto ← change fun h => h.alloc { proto }
  let f ← change fun h => h.alloc {
    proto := parent
    shape := .closure { info, params, body, scope, home := some proto }
    properties := [lengthProperty params, nameProperty name,
      (.text "prototype", .fixed (.object proto))] }
  modify (·.define proto (.text "constructor") (.quiet (.object f)))
  return (f, proto)

/-- Says what each instance of a class gets. -/
def setFields (f : Ref) (fields : List Field) : Action Unit :=
  modify (·.modify f fun o =>
    match o.shape with
    | .closure c => { o with shape := .closure { c with fields } }
    | _ => o)

end Stencil.Script.Action
