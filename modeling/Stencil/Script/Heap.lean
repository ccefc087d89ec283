import Stencil.Component.Error
import Stencil.Json.Basic
import Stencil.Script.Regex
import Stencil.Script.Syntax
import Stencil.Script.Units
/-!
The data of a running script: values, objects, and the scopes that hold variables. Objects and scopes
are named by their place in the heap, and none is ever dropped.
-/
namespace Stencil.Script

abbrev Ref := Nat

/-- A function that scripts may call. It takes and gives JSON, or fails with a message. -/
abbrev PluginMethod := List Json → Except String Json

inductive Datum where
  | undefined
  | null
  | bool (b : Bool)
  | number (x : Float)
  | text (s : String)
  | symbol (id : Nat)
  | object (ref : Ref)
  deriving Inhabited

/-- The name of a property. -/
inductive Key where
  | text (s : String)
  | symbol (id : Nat)
  deriving DecidableEq, Inhabited

namespace Key

/-- The symbol of the method that gives the values of an object one by one. -/
def iterator : Key := .symbol 0

/-- The symbol of the method that does so with promises. -/
def asyncIterator : Key := .symbol 1

/-- The symbol of the name that an object is shown with. -/
def tag : Key := .symbol 2

/-- The symbol of the method that gives a primitive value. -/
def primitive : Key := .symbol 3

/-- The symbol of the method that tells the instances of a class. -/
def instanceTest : Key := .symbol 4

end Key

/-- What a property holds. -/
inductive Held where
  | value (v : Datum) (writable : Bool)
  | accessor (get set : Option Ref)
  deriving Inhabited

structure Property where
  held : Held
  enumerable : Bool := true
  configurable : Bool := true
  deriving Inhabited

/-- A group of functions that scripts are given. -/
inductive Family where
  | host | console | globals
  | object | objectProto | functionProto
  | array | arrayProto | string | stringProto
  | number | numberProto | booleanProto | math | json
  | symbol | symbolProto | error | errorProto
  | map | mapProto | set | setProto
  | promise | promiseProto | regexProto | cursorProto | generatorProto
  deriving DecidableEq, Repr

/-- How the promises of a list are gathered. -/
inductive Gathering where
  | all
  | settled
  | any
  deriving DecidableEq, Repr

/-- A function that is no code of a script. -/
inductive Native where
  | member (family : Family) (name : String)
  /-- A function that makes objects. -/
  | maker (name : String)
  /-- A function of a plugin. -/
  | plugin (name : String)
  /-- Settles a promise, if nothing has done so before. -/
  | settle (promise : Ref) (once : Ref) (rejects : Bool)
  /-- Takes what one of the gathered promises gives. -/
  | gather (how : Gathering) (rejected : Bool) (index : Nat) (list promise : Ref)
  /-- Runs a callback and goes on with what it is given. -/
  | finally (callback : Datum) (rejects : Bool)
  | constant (v : Datum) (throws : Bool)

/-- What each instance of a class gets. -/
inductive Field where
  /-- A member with what a function gives; the name of one that belongs to the class is a text. -/
  | value (key : Key ⊕ String) (init : Option Ref)
  /-- A method that belongs to the class. -/
  | hidden (name : String) (p : Property)

/-- A function that a script defines, with the scope that it was made in. -/
structure Closure where
  info : FuncInfo
  params : List Expr
  body : List Stmt
  scope : Nat
  /-- The object whose parent `super` means. -/
  home : Option Ref := none
  fields : List Field := []

inductive PromiseState where
  | pending
  | fulfilled (v : Datum)
  | rejected (v : Datum)
  deriving Inhabited

/-- What happens when a promise is settled. -/
inductive Reaction where
  /-- A handler is called, and a promise takes what it gives. -/
  | handle (onFulfilled onRejected : Datum) (promise : Option Ref)
  /-- A function that waits goes on. -/
  | resume (task : Nat)

/-- A source of values. -/
inductive Cursor where
  /-- What is at the places of an array or a text, from one place on. -/
  | places (v : Datum) (index : Nat) (pairs : Bool) (keys : Bool)
  /-- What is in a table from one place on. -/
  | table (ref : Ref) (index : Nat) (keys values : Bool)
  | list (vs : List Datum)
  /-- What an object gives with its method `next`. -/
  | object (v next : Datum)

inductive Shape where
  | plain
  /-- Values by place; a place may be empty. The places of a frozen array stay as they are. -/
  | array (items : Array (Option Datum)) (frozen : Bool)
  | closure (c : Closure)
  | native (f : Native) (makes : Bool)
  | bound (f this : Datum) (args : List Datum)
  | error
  | boxed (v : Datum)
  | promise (state : PromiseState) (reactions : List Reaction)
  /-- A map or a set. Entries that are gone leave a gap. -/
  | table (isMap : Bool) (entries : Array (Option (Datum × Datum)))
  | regex (source flags : String) (pattern : Regex)
  | cursor (c : Cursor)
  | generator (task : Option Nat)
  /-- The exports of a module: names, each with the variable that it stands for. -/
  | module (exports : List (String × Nat × String))

structure Object where
  proto : Option Ref
  shape : Shape := .plain
  properties : List (Key × Property) := []
  extensible : Bool := true
  /-- Members that belong to a class. -/
  hidden : List (String × Property) := []

instance : Inhabited Object := ⟨{ proto := none }⟩

/-- What a name stands for. -/
inductive Binding where
  /-- A variable; before it has been set it must not be used. -/
  | cell (v : Option Datum) (writable : Bool)
  /-- A variable of another module. -/
  | link (scope : Nat) (name : String)
  deriving Inhabited

structure Scope where
  parent : Option Nat
  bindings : List (String × Binding) := []
  deriving Inhabited

/-- Work that is done later. -/
inductive Job where
  /-- Goes on with what a promise has been settled with. -/
  | react (r : Reaction) (rejected : Bool) (v : Datum)
  /-- A promise takes over what another object promises. -/
  | adopt (promise : Ref) (object thenMethod : Datum)

structure Heap where
  objects : Array Object := #[]
  scopes : Array Scope := #[]
  /-- Descriptions of symbols. -/
  symbols : Array String := #[]
  jobs : Array Job := #[]
  /-- Jobs before this place have been done. -/
  nextJob : Nat := 0
  logs : Array LogEntry := #[]
  plugins : List (String × PluginMethod) := []

instance : Inhabited Heap := ⟨{}⟩

namespace Heap

/-! ### The first objects -/

def objectProto : Ref := 0
def functionProto : Ref := 1
def arrayProto : Ref := 2
def stringProto : Ref := 3
def numberProto : Ref := 4
def booleanProto : Ref := 5
def symbolProto : Ref := 6
def errorProto : Ref := 7
def promiseProto : Ref := 8
def mapProto : Ref := 9
def setProto : Ref := 10
def regexProto : Ref := 11
def cursorProto : Ref := 12
def generatorProto : Ref := 13
def typeErrorProto : Ref := 14
def rangeErrorProto : Ref := 15
def syntaxErrorProto : Ref := 16
def referenceErrorProto : Ref := 17
def globalObject : Ref := 18
def locatorErrorProto : Ref := 19

def object (h : Heap) (r : Ref) : Object := h.objects[r]?.getD default

def shape (h : Heap) (r : Ref) : Shape := (h.object r).shape

@[inline] def modify (h : Heap) (r : Ref) (f : Object → Object) : Heap :=
  { h with objects := h.objects.modify r f }

def alloc (h : Heap) (o : Object) : Ref × Heap :=
  (h.objects.size, { h with objects := h.objects.push o })

def allocScope (h : Heap) (parent : Option Nat) (bindings : List (String × Binding)) :
    Nat × Heap :=
  (h.scopes.size, { h with scopes := h.scopes.push { parent, bindings } })

def addJob (h : Heap) (j : Job) : Heap := { h with jobs := h.jobs.push j }

def log (h : Heap) (e : LogEntry) : Heap := { h with logs := h.logs.push e }

/-! ### Variables -/

def setBinding (name : String) (b : Binding) :
    List (String × Binding) → List (String × Binding)
  | [] => [(name, b)]
  | (n, old) :: rest => if n == name then (n, b) :: rest else (n, old) :: setBinding name b rest

/-- Declares a name in a scope, or gives it another meaning. -/
def bind (h : Heap) (scope : Nat) (name : String) (b : Binding) : Heap :=
  { h with scopes := h.scopes.modify scope fun s => { s with bindings := setBinding name b s.bindings } }

/-- The scope that holds a name, seen from a scope; `depth` bounds how many lie above it. -/
def holder? (h : Heap) (name : String) : (depth : Nat) → (scope : Nat) → Option (Nat × Binding)
  | 0, _ => none
  | depth + 1, scope =>
    match h.scopes[scope]? with
    | none => none
    | some s =>
      match s.bindings.lookup name with
      | some b => some (scope, b)
      | none => s.parent.bind (h.holder? name depth)

/-- What a name means in a scope. A scope is younger than the one above it. -/
def lookup? (h : Heap) (scope : Nat) (name : String) : Option (Nat × Binding) :=
  h.holder? name (scope + 1) scope

/-- Follows links to variables of other modules. -/
def follow (h : Heap) : (steps : Nat) → Nat → String → Option Binding
  | 0, _, _ => none
  | steps + 1, scope, name =>
    match h.scopes[scope]?.bind fun s => s.bindings.lookup name with
    | some (.link scope name) => h.follow steps scope name
    | b => b

end Heap
end Stencil.Script
