import Stencil.Script.Library.Basic
/-!
The functions of maps and sets, which keep their entries in the order they came in, and of the
objects that values are taken from one by one.
-/
namespace Stencil.Script.Library
open Action

abbrev Entries := Array (Option (Datum × Datum))

def thisTable (isMap : Bool) (this : Datum) : Action (Ref × Entries) := do
  let wrong : Action (Ref × Entries) :=
    typeError (if isMap then "Map object expected" else "Set object expected")
  match this with
  | .object r =>
    match (← heap).shape r with
    | .table m entries => if m == isMap then return (r, entries) else wrong
    | _ => wrong
  | _ => wrong

/-- The place of a key. -/
def entryAt? (entries : Entries) (k : Datum) : Option Nat :=
  entries.findIdx? fun e => e.any fun (k', _) => k'.sameKey k

/-- A zero has no sign as a key. -/
def tableKey : Datum → Datum
  | .number x => .number (if x == 0.0 then 0.0 else x)
  | v => v

def setEntries (r : Ref) (f : Entries → Entries) : Action Unit := modify (·.modify r fun o =>
  match o with
  | { proto, shape := .table isMap entries, properties, extensible, hidden } =>
    { proto, shape := .table isMap (f entries), properties, extensible, hidden }
  | o => o)

def putEntry (entries : Entries) (k v : Datum) : Entries :=
  let k := tableKey k
  match entryAt? entries k with
  | some i => entries.setIfInBounds i (some (k, v))
  | none => entries.push (some (k, v))

def tableMethods (isMap : Bool) : Methods := [
  ("has", fun this args => do
    let (_, entries) ← thisTable isMap this
    return .bool (entryAt? entries (arg args 0)).isSome),
  ("delete", fun this args => do
    let (r, entries) ← thisTable isMap this
    match entryAt? entries (arg args 0) with
    | some i =>
      setEntries r fun entries => entries.setIfInBounds i none
      return .bool true
    | none => return .bool false),
  ("clear", fun this _ => do
    let (r, _) ← thisTable isMap this
    setEntries r fun entries => entries.map fun _ => none
    return .undefined),
  ("get size", fun this _ => do
    let (_, entries) ← thisTable isMap this
    return .ofNat (entries.toList.filter Option.isSome).length),
  ("forEach", fun this args => do
    let (r, _) ← thisTable isMap this
    let f ← callback args 0
    let _ ← loop 0 (some (.table r 0 true false)) fun _ c => do
      match c with
      | some (.table r i _ _) =>
        let (_, entries) ← thisTable isMap (.object r)
        match entryFrom? entries (entries.size + 1 - i) i with
        | some ((k, v), i) =>
          let _ ← call f (arg args 1) [if isMap then v else k, k, this]
          return .again 0 (some (.table r i true false))
        | none => return .normal .undefined
      | _ => return .normal .undefined
    return .undefined)]

/-- A source of what is in a table. -/
def tableCursor (isMap keys values : Bool) : Method := fun this _ => do
  let (r, _) ← thisTable isMap this
  newCursor (.table r 0 keys values)

/-- The entries of a set have the value twice. -/
def pairCursor : Method := fun this _ => do
  let (_, entries) ← thisTable false this
  let ks := entries.toList.filterMap fun e => e.map (·.1)
  newCursor (.list (← forAll (fun k => newArray [k, k]) ks))

def mapMethods : Methods :=
  tableMethods true ++ [
    ("get", fun this args => do
      let (_, entries) ← thisTable true this
      match (entryAt? entries (arg args 0)).bind fun i => entries[i]?.join with
      | some (_, v) => return v
      | none => return .undefined),
    ("set", fun this args => do
      let (r, _) ← thisTable true this
      setEntries r fun entries => putEntry entries (arg args 0) (arg args 1)
      return this),
    ("keys", tableCursor true true false),
    ("values", tableCursor true false true),
    ("entries", tableCursor true true true)]

def setMethods : Methods :=
  tableMethods false ++ [
    ("add", fun this args => do
      let (r, _) ← thisTable false this
      setEntries r fun entries => putEntry entries (arg args 0) (arg args 0)
      return this),
    ("values", tableCursor false false true),
    ("entries", pairCursor)]

/-- A new map or set of the values of an object. -/
def makeTable (isMap : Bool) (args : List Datum) (proto : Ref) : Action Datum := do
  let v ← newObject { proto := some proto, shape := .table isMap #[] }
  if (arg args 0).isMissing then return v
  let r ← toRef v
  let items ← valuesOf (arg args 0)
  forEach (fun item => do
    if isMap then
      if !item.isObject then typeError "not an object"
      let k ← getText item "0"
      let x ← getText item "1"
      setEntries r fun entries => putEntry entries k x
    else setEntries r fun entries => putEntry entries item item) items
  return v

def cursorMethods : Methods := [
  ("next", fun this _ => do
    match this with
    | .object r =>
      match (← heap).shape r with
      | .cursor c =>
        match ← step c with
        | some (v, rest) =>
          modify (·.modify r fun o => { o with shape := .cursor rest })
          stepResult v false
        | none =>
          modify (·.modify r fun o => { o with shape := .cursor (.list []) })
          stepResult .undefined true
      | _ => typeError "not an iterator"
    | _ => typeError "not an iterator")]

/-- The generator that a method is called on. -/
def thisGenerator (this : Datum) : Action Ref := do
  match this with
  | .object r =>
    match (← heap).shape r with
    | .generator _ => return r
    | _ => typeError "not a generator"
  | _ => typeError "not a generator"

def generatorMethods : Methods := [
  ("next", fun this args => do resume (← thisGenerator this) false (arg args 0)),
  ("throw", fun this args => do resume (← thisGenerator this) true (arg args 0)),
  ("return", fun this args => do
    let r ← thisGenerator this
    modify (·.modify r fun o => { o with shape := .generator none })
    stepResult (arg args 0) true)]

end Stencil.Script.Library
