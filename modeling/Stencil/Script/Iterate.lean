import Stencil.Script.Convert
/-!
Going through the values of an object one by one. Arrays, texts, maps and sets are gone through
directly, unless a script has changed how that is done.
-/
namespace Stencil.Script.Action

/-- The texts of single characters. -/
def characters (s : String) : List Datum := s.toList.map fun c => .text (String.singleton c)

/-- What an array or a table is gone through with, if the method is the one that it has from the
start. -/
def directCursor? (h : Heap) (v f : Datum) : Option Cursor :=
  match v, f with
  | .text s, .object f => match h.shape f with
    | .native (.member .stringProto _) _ => some (.list (characters s))
    | _ => none
  | .object r, .object f =>
    match h.shape r, h.shape f with
    | .array .., .native (.member .arrayProto "values") _ => some (.places v 0 false false)
    | .table isMap _, .native (.member family _) _ =>
      if (isMap && family == .mapProto) || (!isMap && family == .setProto) then
        some (.table r 0 isMap true)
      else none
    | _, _ => none
  | _, _ => none

/-- A source of the values of an object. -/
def cursorOf (v : Datum) : Action Cursor := do
  match ← method? v Key.iterator with
  | none => typeError "value is not iterable"
  | some f =>
    match directCursor? (← heap) v f with
    | some c => return c
    | none =>
      let it ← call f v []
      if !it.isObject then typeError "not an object"
      return .object it (← getText it "next")

/-- The entry of a table at a place or after it, with the place that follows. -/
def entryFrom? (entries : Array (Option (Datum × Datum))) : (steps i : Nat) →
    Option ((Datum × Datum) × Nat)
  | 0, _ => none
  | steps + 1, i =>
    match entries[i]? with
    | none => none
    | some (some e) => some (e, i + 1)
    | some none => entryFrom? entries steps (i + 1)

/-- The next value of a source, and what is left of it. -/
def step (c : Cursor) : Action (Option (Datum × Cursor)) := do
  match c with
  | .list [] => return none
  | .list (v :: rest) => return some (v, .list rest)
  | .places v i pairs keys =>
    if i < (← sizeOf v) then
      let next := Cursor.places v (i + 1) pairs keys
      if pairs then
        let item ← getAt v (.ofNat i)
        return some (← newArray [.ofNat i, item], next)
      else if keys then return some (.ofNat i, next)
      else return some (← getAt v (.ofNat i), next)
    else return none
  | .table r i keys values =>
    match (← heap).shape r with
    | .table _ entries =>
      match entryFrom? entries (entries.size + 1 - i) i with
      | none => return none
      | some ((k, v), i) =>
        let next := Cursor.table r i keys values
        if keys && values then return some (← newArray [k, v], next)
        else return some (if keys then k else v, next)
    | _ => return none
  | .object it next =>
    let result ← call next it []
    if !result.isObject then typeError "iterator must return an object"
    if (← getText result "done").isTrue then return none
    return some (← getText result "value", c)

/-- Tells a source that no more values are wanted. -/
def close (c : Cursor) : Action Unit := do
  match c with
  | .object it _ =>
    match ← method? it (.text "return") with
    | some f =>
      let _ ← call f it []
      return
    | none => return
  | _ => return

/-- Runs something and closes the source if it throws. -/
def closing {α : Type} (c : Cursor) (x : Action α) (wrap : α → Outcome) (unwrap : Outcome → α) :
    Action α := do
  match c with
  | .object .. =>
    match ← attempt (do return wrap (← x)) with
    | .ok o => return unwrap o
    | .error e =>
      let _ ← attempt (do close c; return .normal .undefined)
      throw e
  | _ => x

/-- Puts a value at the end of an array. -/
def push (r : Ref) (v : Datum) : Action Unit := modify (·.modify r fun o =>
  match o with
  | { proto, shape := .array items frozen, properties, extensible, hidden } =>
    { proto, shape := .array (items.push (some v)) frozen, properties, extensible, hidden }
  | o => o)

/-- The values of an array, where an empty place counts as nothing. -/
def itemsOf (h : Heap) (r : Ref) : List Datum :=
  match h.shape r with
  | .array items _ => items.toList.map (·.getD .undefined)
  | _ => []

def emptyArray : Action Ref := change fun h =>
  h.alloc { proto := some Heap.arrayProto, shape := .array #[] false }

/-- Does something for each value that a source has left. -/
def forValues (c : Cursor) (f : Datum → Action Unit) : Action Unit := do
  match c with
  | .list vs => forEach f vs
  | c =>
    let _ ← loop 0 (some c) fun _ c => do
      match c with
      | none => return .normal .undefined
      | some c =>
        match ← step c with
        | none => return .normal .undefined
        | some (v, c) =>
          closing c (f v) (fun _ => .normal .undefined) fun _ => ()
          return .again 0 (some c)

/-- A new array of the values that a source has left. -/
def gather (c : Cursor) : Action Ref := do
  let r ← emptyArray
  forValues c (push r)
  return r

/-- All values of an object. -/
def valuesOf (v : Datum) : Action (List Datum) := do
  let c ← cursorOf v
  match c with
  | .list vs => return vs
  | .places (.object r) 0 false false => return itemsOf (← heap) r
  | c =>
    let r ← gather c
    return itemsOf (← heap) r

/-- The values at the places of an array, or of what looks like one. -/
def placesOf (v : Datum) : Action (List Datum) := do
  match v with
  | .object r =>
    match (← heap).shape r with
    | .array items _ => return items.toList.map (·.getD .undefined)
    | _ =>
      let n ← sizeOf v
      forAll (fun i => getAt v (.ofNat i)) (List.range (min n Heap.maxArray))
  | _ => return []

/-- What `next` gives. -/
def stepResult (v : Datum) (done : Bool) : Action Datum :=
  newRecord [("value", v), ("done", .bool done)]

/-- An object that gives the values of a source. -/
def newCursor (c : Cursor) : Action Datum :=
  newObject { proto := some Heap.cursorProto, shape := .cursor c }

end Stencil.Script.Action
