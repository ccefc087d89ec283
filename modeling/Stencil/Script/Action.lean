import Stencil.Script.Heap
/-!
What a running script asks for. An evaluation is a tree of requests: each one says what is to be
done, and how to go on with what that gives. Between two requests an evaluation works on the heap
alone, so it ends; a machine that runs the requests decides how many of them it does.
-/
namespace Stencil.Script

/-- How a part of a script ends, unless it throws. -/
inductive Outcome where
  | normal (v : Datum)
  | ret (v : Datum)
  | leave (label : Option String)
  | continue (label : Option String)
  /-- A loop goes on, in a scope and with what its source of values has left. -/
  | again (scope : Nat) (cursor : Option Cursor)

/-- The value that a call gives. -/
def Outcome.value : Outcome → Datum
  | .normal v => v
  | .ret v => v
  | _ => .undefined

inductive Request where
  | done (o : Outcome) (h : Heap)
  | throw (v : Datum) (h : Heap)
  | call (f this : Datum) (args : List Datum) (h : Heap) (next : Datum → Heap → Request)
  /-- Makes an object; `target` is the function that it is to be an instance of. -/
  | make (f : Datum) (args : List Datum) (target : Datum) (h : Heap)
      (next : Datum → Heap → Request)
  /-- Runs a body and goes on with how it ends. -/
  | attempt (body : Heap → Request) (h : Heap) (next : Except Datum Outcome → Heap → Request)
  /-- Runs a body until it ends with something else than `again`. -/
  | loop (scope : Nat) (cursor : Option Cursor) (body : Nat → Option Cursor → Heap → Request)
      (h : Heap) (next : Outcome → Heap → Request)
  /-- Waits until a promise is settled. -/
  | await (promise : Ref) (h : Heap) (next : Datum → Heap → Request)
  /-- Goes on with a generator; `throws` says that the value is thrown in it. -/
  | resume (generator : Ref) (throws : Bool) (v : Datum) (h : Heap)
      (next : Datum → Heap → Request)
  /-- Gives a value to the one who goes on with the generator. -/
  | yield (v : Datum) (h : Heap) (next : Datum → Heap → Request)

instance : Inhabited Request := ⟨.done (.normal .undefined) {}⟩

/-- The heap as it is when something is requested. -/
def Request.heap : Request → Heap
  | .done _ h | .throw _ h | .call _ _ _ h _ | .make _ _ _ h _ | .attempt _ h _ | .loop _ _ _ h _
  | .await _ h _ | .resume _ _ _ h _ | .yield _ h _ => h

/-- An evaluation that gives a value. -/
def Action (α : Type) := (α → Heap → Request) → Heap → Request

namespace Action
variable {α β : Type}

@[always_inline, inline]
protected def pure (a : α) : Action α := fun next h => next a h

@[always_inline, inline]
protected def bind (x : Action α) (f : α → Action β) : Action β := fun next h => x (fun a h => f a next h) h

instance : Monad Action where
  pure := Action.pure
  bind := Action.bind

/-- Uses the heap. -/
@[always_inline, inline]
def heap : Action Heap := fun next h => next h h

@[always_inline, inline]
def modify (f : Heap → Heap) : Action Unit := fun next h => next () (f h)

/-- Changes the heap and gives a value. -/
@[always_inline, inline]
def change (f : Heap → α × Heap) : Action α := fun next h =>
  let (a, h) := f h
  next a h

def throw (v : Datum) : Action α := fun _ h => .throw v h

def call (f this : Datum) (args : List Datum) : Action Datum := fun next h =>
  .call f this args h next

def make (f : Datum) (args : List Datum) (target : Datum) : Action Datum := fun next h =>
  .make f args target h next

/-- The evaluation as a request of its own. -/
def toRequest (x : Action Outcome) : Heap → Request := x fun o h => .done o h

def attempt (x : Action Outcome) : Action (Except Datum Outcome) := fun next h =>
  .attempt x.toRequest h next

def loop (scope : Nat) (cursor : Option Cursor)
    (body : Nat → Option Cursor → Action Outcome) : Action Outcome := fun next h =>
  .loop scope cursor (fun scope cursor => (body scope cursor).toRequest) h next

def await (promise : Ref) : Action Datum := fun next h => .await promise h next

def resume (generator : Ref) (throws : Bool) (v : Datum) : Action Datum := fun next h =>
  .resume generator throws v h next

def yield (v : Datum) : Action Datum := fun next h => .yield v h next

/-- Does something for each element of a list. -/
def forEach (f : α → Action Unit) : List α → Action Unit
  | [] => pure ()
  | a :: rest => do
    f a
    forEach f rest

/-- What something gives for each element of a list. -/
def forAll (f : α → Action β) : List α → Action (List β)
  | [] => pure []
  | a :: rest => do
    let b ← f a
    return b :: (← forAll f rest)

/-- The first element of a list with a property. -/
def findFirst (p : α → Action Bool) : List α → Action (Option α)
  | [] => pure none
  | a :: rest => do
    if ← p a then return some a
    findFirst p rest

/-- Carries a value along a list. -/
def foldM (f : β → α → Action β) (b : β) : List α → Action β
  | [] => pure b
  | a :: rest => do foldM f (← f b a) rest

/-! ### Errors -/

/-- A new error of a kind. -/
def newError (proto : Ref) (message : String) : Action Datum := change fun h =>
  let (r, h) := h.alloc { proto := some proto, shape := .error, properties := [
    (.text "message", { held := .value (.text message) true, enumerable := false })] }
  (.object r, h)

def fail (proto : Ref) (message : String) : Action α := do throw (← newError proto message)

def typeError (message : String) : Action α := fail Heap.typeErrorProto message

def rangeError (message : String) : Action α := fail Heap.rangeErrorProto message

def referenceError (message : String) : Action α := fail Heap.referenceErrorProto message

def syntaxError (message : String) : Action α := fail Heap.syntaxErrorProto message

/-! ### New objects -/

def newObject (o : Object) : Action Datum := change fun h =>
  let (r, h) := h.alloc o
  (.object r, h)

def newPlain (properties : List (Key × Property)) : Action Datum :=
  newObject { proto := some Heap.objectProto, properties }

/-- A plain object with values by name. -/
def newRecord (entries : List (String × Datum)) : Action Datum :=
  newPlain (entries.map fun (name, v) => (.text name, { held := .value v true }))

def newArray (items : List Datum) : Action Datum :=
  newObject { proto := some Heap.arrayProto, shape := .array (items.map some).toArray false }

def newNative (f : Native) (name : String) : Action Datum :=
  newObject { proto := some Heap.functionProto, shape := .native f false, properties := [
    (.text "name", { held := .value (.text name) false, enumerable := false })] }

def newScope (parent : Nat) (bindings : List (String × Binding)) : Action Nat := change fun h =>
  h.allocScope (some parent) bindings

end Action
end Stencil.Script
