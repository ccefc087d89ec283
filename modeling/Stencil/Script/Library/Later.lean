import Stencil.Script.Library.Basic
/-!
The functions of promises.
-/
namespace Stencil.Script.Library
open Action

def thisPromise (this : Datum) : Action Ref := do
  match this with
  | .object r =>
    match (← heap).shape r with
    | .promise .. => return r
    | _ => typeError "not a promise"
  | _ => typeError "not a promise"

/-- A promise that a function settles. -/
def makePromise (args : List Datum) (proto : Ref) : Action Datum := do
  let f ← callback args 0
  let p ← newPromise
  modify (·.modify p fun o => { o with proto := some proto })
  let (yes, no) ← settlers p
  match ← attempt (do return .normal (← call f .undefined [yes, no])) with
  | .ok _ => return .object p
  | .error e =>
    let _ ← call no .undefined [e]
    return .object p

/-- Takes what one of the gathered promises gives; the last one settles the promise. -/
def gatherOne (how : Gathering) (rejected : Bool) (index : Nat) (list promise : Ref) (v : Datum) :
    Action Unit := do
  let v ← match how with
    | .settled =>
      if rejected then newRecord [("status", .text "rejected"), ("reason", v)]
      else newRecord [("status", .text "fulfilled"), ("value", v)]
    | _ => pure v
  modify (·.modify list fun o =>
    match o.shape with
    | .array items frozen => { o with shape := .array (items.setIfInBounds index (some v)) frozen }
    | _ => o)
  match (← heap).shape list with
  | .array items _ =>
    if items.all Option.isSome then
      match how with
      | .any =>
        let e ← newError Heap.errorProto "All promises were rejected"
        defineOn e (.text "name") (.quiet (.text "AggregateError"))
        defineOn e (.text "errors") (.quiet (.object list))
        settle promise true e
      | _ => settle promise false (.object list)
    else return
  | _ => return

/-- A promise for what the promises of a list give. -/
def gatherAll (how : Gathering) : Method := fun _ args => do
  let p ← newPromise
  let (yes, no) ← settlers p
  let items ← valuesOf (arg args 0)
  let list ← change fun h => h.alloc {
    proto := some Heap.arrayProto
    shape := .array (Array.replicate items.length none) false }
  if items.isEmpty then
    match how with
    | .any =>
      let e ← newError Heap.errorProto "All promises were rejected"
      settle p true e
    | _ => settle p false (.object list)
  forEach (fun (item, i) => do
    let q ← promiseOf item
    let kept ← newNative (.gather how false i list p) ""
    let refused ← newNative (.gather how true i list p) ""
    let (f, g) := match how with
      | .all => (kept, no)
      | .settled => (kept, refused)
      | .any => (yes, refused)
    modify fun h => react h q (.handle f g none)) items.zipIdx
  return .object p

def promiseStatics : Methods := [
  ("resolve", fun _ args => do return .object (← promiseOf (arg args 0))),
  ("reject", fun _ args => do
    let p ← newPromise
    settle p true (arg args 0)
    return .object p),
  ("all", gatherAll .all),
  ("allSettled", gatherAll .settled),
  ("any", gatherAll .any),
  ("race", fun _ args => do
    let p ← newPromise
    let (yes, no) ← settlers p
    let items ← valuesOf (arg args 0)
    forEach (fun item => do
      let q ← promiseOf item
      modify fun h => react h q (.handle yes no none)) items
    return .object p),
  ("withResolvers", fun _ _ => do
    let p ← newPromise
    let (yes, no) ← settlers p
    newRecord [("promise", .object p), ("resolve", yes), ("reject", no)])]

def promiseMethods : Methods := [
  ("then", fun this args => do
    let p ← thisPromise this
    handle p (arg args 0) (arg args 1)),
  ("catch", fun this args => do invoke this "then" [.undefined, arg args 0]),
  ("finally", fun this args => do
    let f := arg args 0
    if (← heap).isCallable f then
      let yes ← newNative (.finally f false) ""
      let no ← newNative (.finally f true) ""
      invoke this "then" [yes, no]
    else invoke this "then" [f, f])]

/-- Runs a callback and goes on with what the promise had before. -/
def finish (f : Datum) (rejects : Bool) (v : Datum) : Action Datum := do
  let p ← promiseOf (← call f .undefined [])
  handle p (← newNative (.constant v rejects) "") .undefined

/-- A function that settles a promise is called. -/
def settleOnce (promise once : Ref) (rejects : Bool) (v : Datum) : Action Unit := do
  match (← heap).shape once with
  | .boxed (.bool false) =>
    modify (·.modify once fun o => { o with shape := .boxed (.bool true) })
    if rejects then settle promise true v else resolve promise v
  | _ => return

end Stencil.Script.Library
