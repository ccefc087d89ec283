import Stencil.Script.Convert
import Stencil.Script.Declared
/-!
Names that a script uses: variables in the scopes around it, and what a function knows besides them,
which is kept under names that no script can write. Also the places that a value can be stored in.
-/
namespace Stencil.Script

/-- The value that a function is called on. -/
def thisName : String := "this"

/-- What a function is to make an instance of. -/
def targetName : String := "new.target"

/-- The object that a method belongs to. -/
def homeName : String := "*home*"

/-- The class that a constructor belongs to. -/
def className : String := "*class*"

/-- A place that a value can be read from and stored in. -/
inductive Spot where
  | name (s : String)
  | member (base key : Datum)
  | hidden (base : Datum) (name : String)
  /-- A member of what the home of a method descends from. -/
  | inherited (key : Datum)

/-- How a name gets its value. -/
inductive Storing where
  /-- As a variable of the scope, which can be set again or not. -/
  | declare (writable : Bool)
  | assign

namespace Action

/-- What a name stands for, if it is a variable. -/
def binding? (scope : Nat) (name : String) : Action (Option Binding) := do
  let h ← heap
  match h.lookup? scope name with
  | some (_, .link scope own) => return h.follow (h.scopes.size + 1) scope own
  | some (_, b) => return some b
  | none => return none

def getName (scope : Nat) (name : String) : Action Datum := do
  match ← binding? scope name with
  | some (.cell (some v) _) => return v
  | some _ => referenceError (name ++ " is not initialized")
  | none =>
    match (← heap).find? Heap.globalObject (.text name) with
    | some (p, _) => read (.object Heap.globalObject) (some p)
    | none => referenceError (name ++ " is not defined")

/-- The type of what a name stands for; a name without a meaning has one too. -/
def typeOfName (scope : Nat) (name : String) : Action Datum := do
  let h ← heap
  if (h.lookup? scope name).isNone && (h.find? Heap.globalObject (.text name)).isNone then
    return .text "undefined"
  else
    let v ← getName scope name
    return .text (typeName (← heap) v)

def setName (scope : Nat) (name : String) (v : Datum) : Action Unit := do
  let h ← heap
  match h.lookup? scope name with
  | some (holder, .cell (some _) true) => modify (·.bind holder name (.cell (some v) true))
  | some (_, .cell none _) => referenceError (name ++ " is not initialized")
  | some _ => typeError ("'" ++ name ++ "' is read-only")
  | none =>
    if (h.find? Heap.globalObject (.text name)).isSome then
      setText (.object Heap.globalObject) name v
    else referenceError (name ++ " is not defined")

/-- What a function knows under a name of its own. -/
def known (scope : Nat) (name : String) : Action Datum := do
  match ← binding? scope name with
  | some (.cell (some v) _) => return v
  | some _ => referenceError (name ++ " is not initialized")
  | none => return .undefined

def storeName (how : Storing) (scope : Nat) (name : String) (v : Datum) : Action Unit :=
  match how with
  | .declare writable => modify (·.bind scope name (.cell (some v) writable))
  | .assign => setName scope name v

/-- A scope with the same variables. -/
def copyScope (scope : Nat) : Action Nat := change fun h =>
  match h.scopes[scope]? with
  | some s => h.allocScope s.parent s.bindings
  | none => (scope, h)

/-! ### Members that belong to a class -/

/-- The key of a member that belongs to a class. -/
def hiddenKey (scope : Nat) (name : String) : Action String := do
  match ← binding? scope ("#" ++ name) with
  | some (.cell (some (.text key)) _) => return key
  | _ => syntaxError ("undefined private field '#" ++ name ++ "'")

def getHidden (base : Datum) (key : String) : Action Datum := do
  match base with
  | .object r =>
    match ((← heap).object r).hidden.lookup key with
    | some p => read base (some p)
    | none => typeError "private class field does not exist"
  | _ => typeError "private class field does not exist"

/-- Puts a member that belongs to a class into an object. -/
def putHidden (r : Ref) (key : String) (p : Property) : Action Unit :=
  modify (·.modify r fun o => { o with hidden := (key, p) :: o.hidden.filter (·.1 != key) })

def setHidden (base : Datum) (key : String) (v : Datum) : Action Unit := do
  match base with
  | .object r =>
    match ((← heap).object r).hidden.lookup key with
    | some { held := .value _ true, .. } => putHidden r key (.ofValue v)
    | some { held := .accessor _ (some f), .. } =>
      let _ ← call (.object f) base [v]
      return
    | some _ => typeError "private class field is read-only"
    | none => typeError "private class field does not exist"
  | _ => typeError "private class field does not exist"

/-! ### Reading and storing -/

/-- The object that `super` stands for. -/
def parentOfHome (scope : Nat) : Action Ref := do
  match ← known scope homeName with
  | .object home =>
    match ((← heap).object home).proto with
    | some r => return r
    | none => typeError "not an object"
  | _ => typeError "not an object"

def readSpot (scope : Nat) : Spot → Action Datum
  | .name s => getName scope s
  | .member base key => getAt base key
  | .hidden base name => do getHidden base (← hiddenKey scope name)
  | .inherited key => do
    let this ← known scope thisName
    getFrom (← parentOfHome scope) (← toKey key) this

/-- Sets a value under a key that is computed. -/
def setAt (base key v : Datum) : Action Unit := do
  if base.isMissing then set base (← primitiveKey key) v
  else
    match base, key with
    | .object r, .number x =>
      if isPlace (← heap) r x then
        modify (·.define r (.place x.toUInt64.toNat) (.ofValue v))
      else set base (← toKey key) v
    | _, _ => set base (← toKey key) v
where
  /-- The number is a place of an array that has a value and can be changed. -/
  isPlace (h : Heap) (r : Ref) (x : Float) : Bool :=
    match h.shape r, Numeric.index? x with
    | .array items false, some i => (items[i]?.join).isSome
    | _, _ => false
  primitiveKey : Datum → Action Key
    | .object _ => return .text "[object]"
    | key => toKey key

def writeSpot (scope : Nat) (spot : Spot) (v : Datum) : Action Unit := do
  match spot with
  | .name s => setName scope s v
  | .member base key => setAt base key v
  | .hidden base name => setHidden base (← hiddenKey scope name) v
  | .inherited key =>
    let this ← known scope thisName
    setFrom (← parentOfHome scope) (← toKey key) v this

/-- Calls a function on what its expression was a member of. -/
def callOn (f this : Datum) (args : List Datum) : Action Datum := do
  if (← heap).isCallable f then call f this args else typeError "not a function"

/-- The texts of a template, as the function that is called with them gets them. -/
def templateTexts (texts : List (Option String)) (raw : List String) : Action Datum := do
  let list ← newArray (texts.map fun
    | some s => .text s
    | none => .undefined)
  let whole ← newArray (raw.map .text)
  defineOn list (.text "raw") (.fixed whole)
  return list

/-- A new object with the listed properties of another one that have not been taken. -/
def restOf (v : Datum) (taken : List Key) : Action Datum := do
  let r ← toRef v
  let h ← heap
  let keys := (h.ownKeys r).filter fun k =>
    !taken.contains k && (h.own? r k).any (·.enumerable)
  let rest ← newPlain []
  forEach (fun k => do
    let x ← get v k
    defineOn rest k (.ofValue x)) keys
  return rest

/-- Gives an object the listed properties of another one. -/
def copyInto (target v : Datum) : Action Unit := do
  if v.isMissing then return
  else
    let source ← toObject v
    match source with
    | .object r =>
      let h ← heap
      let keys := (h.ownKeys r).filter fun k => (h.own? r k).any (·.enumerable)
      forEach (fun k => do
        let x ← get source k
        defineOn target k (.ofValue x)) keys
    | _ => return

end Action
end Stencil.Script
