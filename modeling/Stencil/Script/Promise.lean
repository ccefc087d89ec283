import Stencil.Script.Iterate
/-!
Promises, and the work that waits for them. A promise is settled once; what waits for it is then put
behind all other work.
-/
namespace Stencil.Script.Action

def newPromise : Action Ref := change fun h =>
  h.alloc { proto := some Heap.promiseProto, shape := .promise .pending [] }

/-- Settles a promise that is pending. -/
def settle (p : Ref) (rejected : Bool) (v : Datum) : Action Unit := modify fun h =>
  match h.shape p with
  | .promise .pending reactions =>
    let state := if rejected then PromiseState.rejected v else .fulfilled v
    let h := h.modify p fun o => { o with shape := .promise state [] }
    reactions.foldl (fun h r => h.addJob (.react r rejected v)) h
  | _ => h

/-- Lets a promise have a value, or what the value promises. -/
def resolve (p : Ref) (v : Datum) : Action Unit := do
  match v with
  | .object r =>
    if r == p then settle p true (← newError Heap.typeErrorProto "promise self resolution")
    else
      match ← attempt (do return .normal (← getText v "then")) with
      | .error e => settle p true e
      | .ok o =>
        if (← heap).isCallable o.value then modify (·.addJob (.adopt p v o.value))
        else settle p false v
  | v => settle p false v

/-- Adds what waits for a promise. -/
def react (h : Heap) (p : Ref) (r : Reaction) : Heap :=
  match h.shape p with
  | .promise .pending reactions =>
    h.modify p fun o => { o with shape := .promise .pending (reactions ++ [r]) }
  | .promise (.fulfilled v) _ => h.addJob (.react r false v)
  | .promise (.rejected v) _ => h.addJob (.react r true v)
  | _ => h

/-- Two functions that settle a promise; only the first call of one of them does. -/
def settlers (p : Ref) : Action (Datum × Datum) := do
  let once ← change fun h => h.alloc { proto := none, shape := .boxed (.bool false) }
  let yes ← newNative (.settle p once false) ""
  let no ← newNative (.settle p once true) ""
  return (yes, no)

/-- The promise of a value; a promise is its own. -/
def promiseOf (v : Datum) : Action Ref := do
  match v with
  | .object r =>
    match (← heap).shape r with
    | .promise .. => return r
    | _ =>
      let p ← newPromise
      resolve p v
      return p
  | v =>
    let p ← newPromise
    resolve p v
    return p

/-- What a promise gives in the end. -/
def awaited (v : Datum) : Action Datum := do await (← promiseOf v)

/-- Does something and settles a promise with what that gives. -/
def into (p : Option Ref) (x : Action Datum) : Action Unit := do
  match ← attempt (do return .normal (← x)), p with
  | .ok o, some p => resolve p o.value
  | .error e, some p => settle p true e
  | _, none => return

/-- Has handlers called when a promise is settled. -/
def handle (p : Ref) (onFulfilled onRejected : Datum) : Action Datum := do
  let q ← newPromise
  modify fun h => react h p (.handle onFulfilled onRejected (some q))
  return .object q

/-- Calls the handler that waits for a promise. -/
def runHandler (onFulfilled onRejected : Datum) (p : Option Ref) (rejected : Bool) (v : Datum) :
    Action Unit := do
  let f := if rejected then onRejected else onFulfilled
  if (← heap).isCallable f then into p (call f .undefined [v])
  else
    match p with
    | some p => if rejected then settle p true v else resolve p v
    | none => return

/-- Lets a promise follow what another object promises. -/
def adopt (p : Ref) (object thenMethod : Datum) : Action Unit := do
  let (yes, no) ← settlers p
  match ← attempt (do return .normal (← call thenMethod object [yes, no])) with
  | .ok _ => return
  | .error e =>
    let _ ← call no .undefined [e]
    return

end Stencil.Script.Action
