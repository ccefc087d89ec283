import Stencil.Script.Library.Basic
/-!
The functions of arrays.
-/
namespace Stencil.Script.Library
open Action

/-- The array that a method is called on, with its values. -/
def thisItems (this : Datum) : Action (Datum × List Datum) := do
  let v ← toObject this
  return (v, ← placesOf v)

/-- Gives an array other values. -/
def replaceItems (v : Datum) (items : List Datum) : Action Unit := do
  match v with
  | .object r =>
    match (← heap).shape r with
    | .array old frozen =>
      if frozen then typeError "object is not extensible"
      else if !((← heap).object r).extensible && old.size < items.length then
        typeError "object is not extensible"
      else modify (·.modify r fun o =>
        { o with shape := .array (items.map some).toArray false })
    | _ =>
      forEach (fun (item, i) => set v (.place i) item) items.zipIdx
      setText v "length" (.ofNat items.length)
  | _ => return

/-- Puts values at the end of an array and gives its size. -/
def append (v : Datum) (items : List Datum) : Action Datum := do
  match v with
  | .object r =>
    let h ← heap
    match h.shape r with
    | .array _ frozen =>
      if frozen || !(h.object r).extensible then typeError "object is not extensible"
      else forEach (push r) items
    | _ =>
      let n ← sizeOf v
      forEach (fun (item, i) => set v (.place (n + i)) item) items.zipIdx
      setText v "length" (.ofNat (n + items.length))
  | _ => pure ()
  return .ofNat (← sizeOf v)

/-- Calls a callback with a value, its place and the array. -/
def onItem (f this array : Datum) (item : Datum × Nat) : Action Datum :=
  call f this [item.1, .ofNat item.2, array]

/-- Values at places that hold one, with their places. -/
def presentItems (v : Datum) (items : List Datum) : Action (List (Datum × Nat)) := do
  match v with
  | .object r =>
    match (← heap).shape r with
    | .array stored _ =>
      return items.zipIdx.filter fun (_, i) => (stored[i]?.join).isSome
    | _ => return items.zipIdx
  | _ => return items.zipIdx

/-- A method that goes through an array with a callback. -/
def through (skipsGaps : Bool) (f : Datum → List (Datum × Nat) → (Datum × Nat → Action Datum) →
    Action Datum) : Method := fun this args => do
  let (v, items) ← thisItems this
  let g ← callback args 0
  let pairs ← if skipsGaps then presentItems v items else pure items.zipIdx
  f v pairs (onItem g (arg args 1) v)

/-- A method that looks for a value with a property. -/
def finding (fromEnd : Bool) (result : Option (Datum × Nat) → Datum) : Method :=
  through false fun _ pairs test => do
    let pairs := if fromEnd then pairs.reverse else pairs
    return result (← findFirst (fun p => do return (← test p).isTrue) pairs)

/-- The values of lists within lists, so many levels deep. -/
def flatten : (depth : Nat) → List Datum → Action (List Datum)
  | 0, items => return items
  | depth + 1, items => do
    let h ← heap
    let parts ← forAll (fun v => do
      if h.isArray v then flatten depth (← placesOf v) else return [v]) items
    return parts.flatten

/-- Two lists in order as one. -/
def merge (isAfter : Datum → Datum → Action Bool) : (fuel : Nat) → List Datum → List Datum →
    Action (List Datum)
  | 0, xs, ys => return xs ++ ys
  | _, [], ys => return ys
  | _, xs, [] => return xs
  | fuel + 1, x :: xs, y :: ys => do
    if ← isAfter x y then
      let rest ← merge isAfter fuel (x :: xs) ys
      return y :: rest
    else
      let rest ← merge isAfter fuel xs (y :: ys)
      return x :: rest

/-- The values in order; equal ones stay as they were. -/
def sortBy (isAfter : Datum → Datum → Action Bool) : (fuel : Nat) → List Datum →
    Action (List Datum)
  | 0, xs => return xs
  | fuel + 1, xs => do
    if xs.length < 2 then return xs
    else
      let half := xs.length / 2
      let a ← sortBy isAfter fuel (xs.take half)
      let b ← sortBy isAfter fuel (xs.drop half)
      merge isAfter xs.length a b

/-- A value comes after another one, as a function says or else by their texts. -/
def isAfter (order : Datum) (x y : Datum) : Action Bool := do
  match order with
  | .undefined => return Units.less (← toText y) (← toText x)
  | f => return 0.0 < (← toNumber (← call f .undefined [x, y]))

/-- The values in order, with those that are undefined at the end. -/
def sorted (order : Datum) (items : List Datum) : Action (List Datum) := do
  if !(order matches .undefined) && !(← heap).isCallable order then typeError "not a function"
  else
    let isUndefined : Datum → Bool := fun v => v matches .undefined
    let defined := items.filter (!isUndefined ·)
    return (← sortBy (isAfter order) 64 defined) ++ items.filter isUndefined

/-- The values without some of them and with others in their place, and those taken away. -/
def splice (items args : List Datum) : Action (List Datum × List Datum) := do
  let size := items.length
  let start ← toPlace (arg args 0) size 0
  let count ← match args with
    | [] => pure 0
    | [_] => pure (size - start)
    | _ :: n :: _ => do
      let x ← toWhole n
      pure (if x < 0.0 then 0 else min (size - start) (min x 4294967295.0).toUInt64.toNat)
  return (items.take start ++ args.drop 2 ++ items.drop (start + count),
    (items.drop start).take count)

def joinTexts (items : List Datum) (separator : String) : Action Datum := do
  let texts ← forAll (fun v => if v.isMissing then pure "" else toText v) items
  return .text (texts.tail.foldl (fun s t => Units.append (Units.append s separator) t)
    (texts.head?.getD ""))

def reduce (fromEnd : Bool) : Method := fun this args => do
  let (v, items) ← thisItems this
  let f ← callback args 0
  let pairs ← presentItems v items
  let pairs := if fromEnd then pairs.reverse else pairs
  let turn := fun (acc : Datum) (p : Datum × Nat) => call f .undefined [acc, p.1, .ofNat p.2, v]
  match args, pairs with
  | _ :: start :: _, pairs => foldM turn start pairs
  | _, first :: rest => foldM turn first.1 rest
  | _, [] => typeError "empty array"

/-- The place of a value that is the same, from a place on. -/
def placeOf (items : List Datum) (v : Datum) (same : Datum → Datum → Bool) (start : Nat) :
    Option Nat :=
  ((items.drop start).findIdx? (same v)).map (· + start)

def concat (this : Datum) (args : List Datum) : Action Datum := do
  let v ← toObject this
  let h ← heap
  let parts ← forAll (fun x => if h.isArray x then placesOf x else pure [x]) (v :: args)
  newArray parts.flatten

def numberArg (args : List Datum) (i : Nat) (missing : Float) : Action Float :=
  match arg args i with
  | .undefined => return missing
  | v => toWhole v

def placesCursor (pairs keys : Bool) : Method := fun this _ => do
  newCursor (.places (← toObject this) 0 pairs keys)

def listMethods : Methods := [
  ("push", fun this args => do append (← toObject this) args),
  ("pop", fun this _ => do
    let (v, items) ← thisItems this
    replaceItems v items.dropLast
    return items.getLast?.getD .undefined),
  ("shift", fun this _ => do
    let (v, items) ← thisItems this
    replaceItems v items.tail
    return items.head?.getD .undefined),
  ("unshift", fun this args => do
    let (v, items) ← thisItems this
    replaceItems v (args ++ items)
    return .ofNat (args.length + items.length)),
  ("slice", fun this args => do
    let (_, items) ← thisItems this
    let start ← toPlace (arg args 0) items.length 0
    let stop ← toPlace (arg args 1) items.length items.length
    newArray ((items.take stop).drop start)),
  ("splice", fun this args => do
    let (v, items) ← thisItems this
    let (kept, taken) ← splice items args
    replaceItems v kept
    newArray taken),
  ("toSpliced", fun this args => do
    let (_, items) ← thisItems this
    newArray (← splice items args).1),
  ("concat", concat),
  ("join", fun this args => do
    let (_, items) ← thisItems this
    match arg args 0 with
    | .undefined => joinTexts items ","
    | v => joinTexts items (← toText v)),
  ("toString", fun this _ => do
    let v ← toObject this
    let f ← getText v "join"
    if (← heap).isCallable f then call f v [] else return .text "[object Object]"),
  ("toLocaleString", fun this _ => do
    let (_, items) ← thisItems this
    joinTexts items ","),
  ("reverse", fun this _ => do
    let (v, items) ← thisItems this
    replaceItems v items.reverse
    return v),
  ("toReversed", fun this _ => do
    let (_, items) ← thisItems this
    newArray items.reverse),
  ("indexOf", fun this args => do
    let (_, items) ← thisItems this
    let start ← toPlace (arg args 1) items.length 0
    return ((placeOf items (arg args 0) Datum.same start).map Datum.ofNat).getD (.number (-1.0))),
  ("lastIndexOf", fun this args => do
    let (_, items) ← thisItems this
    let x ← numberArg args 1 (Numeric.ofNat items.length)
    let x := if x < 0.0 then x + Numeric.ofNat items.length else x
    let found := items.zipIdx.reverse.find? fun (v, i) =>
      Numeric.ofNat i ≤ x && v.same (arg args 0)
    return (found.map fun p => Datum.ofNat p.2).getD (.number (-1.0))),
  ("includes", fun this args => do
    let (_, items) ← thisItems this
    let start ← toPlace (arg args 1) items.length 0
    return .bool (placeOf items (arg args 0) Datum.sameKey start).isSome),
  ("at", fun this args => do
    let (_, items) ← thisItems this
    let x ← toWhole (arg args 0)
    let y := if x < 0.0 then x + Numeric.ofNat items.length else x
    return ((Numeric.index? y).bind (items[·]?)).getD .undefined),
  ("with", fun this args => do
    let (_, items) ← thisItems this
    let x ← toWhole (arg args 0)
    let y := if x < 0.0 then x + Numeric.ofNat items.length else x
    match Numeric.index? y with
    | some i =>
      if i < items.length then newArray (items.set i (arg args 1))
      else rangeError "invalid array index"
    | none => rangeError "invalid array index"),
  ("find", finding false fun p => (p.map (·.1)).getD .undefined),
  ("findIndex", finding false fun p => (p.map fun p => Datum.ofNat p.2).getD (.number (-1.0))),
  ("findLast", finding true fun p => (p.map (·.1)).getD .undefined),
  ("findLastIndex", finding true fun p => (p.map fun p => Datum.ofNat p.2).getD (.number (-1.0))),
  ("filter", through true fun _ pairs test => do
    let kept ← forAll (fun p => do return if (← test p).isTrue then [p.1] else []) pairs
    newArray kept.flatten),
  ("map", through true fun v pairs f => do
    let results ← forAll (fun p => do return (← f p, p.2)) pairs
    let gaps : Array (Option Datum) := Array.replicate (min (← sizeOf v) Heap.maxArray) none
    newObject {
      proto := some Heap.arrayProto
      shape := .array (results.foldl (fun items (v, i) => Heap.putItem items i v) gaps) false }),
  ("forEach", through true fun _ pairs f => do
    forEach (fun p => do
      let _ ← f p
      return) pairs
    return .undefined),
  ("some", through true fun _ pairs test => do
    return .bool (← findFirst (fun p => do return (← test p).isTrue) pairs).isSome),
  ("every", through true fun _ pairs test => do
    return .bool (← findFirst (fun p => do return !(← test p).isTrue) pairs).isNone),
  ("reduce", reduce false),
  ("reduceRight", reduce true),
  ("sort", fun this args => do
    let (v, items) ← thisItems this
    let present ← presentItems v items
    let ordered ← sorted (arg args 0) (present.map (·.1))
    replaceItems v ordered
    return v),
  ("toSorted", fun this args => do
    let (_, items) ← thisItems this
    newArray (← sorted (arg args 0) items)),
  ("flat", fun this args => do
    let (_, items) ← thisItems this
    let x ← numberArg args 0 1.0
    newArray (← flatten (if x < 0.0 then 0 else (min x 1000.0).toUInt64.toNat) items)),
  ("flatMap", through true fun _ pairs f => do
    let parts ← forAll f pairs
    newArray (← flatten 1 parts)),
  ("fill", fun this args => do
    let (v, items) ← thisItems this
    let start ← toPlace (arg args 1) items.length 0
    let stop ← toPlace (arg args 2) items.length items.length
    replaceItems v (items.zipIdx.map fun (item, i) =>
      if start ≤ i && i < stop then arg args 0 else item)
    return v),
  ("copyWithin", fun this args => do
    let (v, items) ← thisItems this
    let size := items.length
    let goal ← toPlace (arg args 0) size 0
    let start ← toPlace (arg args 1) size 0
    let stop ← toPlace (arg args 2) size size
    let moved := ((items.take stop).drop start).take (size - goal)
    replaceItems v (items.take goal ++ moved ++ items.drop (goal + moved.length))
    return v),
  ("keys", placesCursor false true),
  ("values", placesCursor false false),
  ("entries", placesCursor true false)]

/-- A new array of values, each changed by a function if there is one. -/
def mapped (f this : Datum) (items : List Datum) : Action Datum := do
  match f with
  | .undefined => newArray items
  | f => newArray (← forAll (fun (v, i) => call f this [v, .ofNat i]) items.zipIdx)

def listStatics : Methods := [
  ("isArray", fun _ args => do return .bool ((← heap).isArray (arg args 0))),
  ("of", fun _ args => newArray args),
  ("from", fun _ args => do
    let v := arg args 0
    if v.isMissing then typeError "cannot convert to object"
    else
      let items ← match ← method? v Key.iterator with
        | some _ => valuesOf v
        | none => do
          let n ← sizeOf v
          forAll (fun i => getAt v (.ofNat i)) (List.range (min n Heap.maxArray))
      mapped (arg args 1) (arg args 2) items)]

/-- An array of a size, or of values. -/
def makeList (args : List Datum) (proto : Ref) : Action Datum := do
  let ofItems := fun (items : Array (Option Datum)) =>
    newObject { proto := some proto, shape := .array items false }
  match args with
  | [.number x] =>
    if x.floor != x || x < 0.0 || 4294967295.0 < x then rangeError "invalid array length"
    else ofItems (Array.replicate (min x.toUInt64.toNat Heap.maxArray) none)
  | args => ofItems (args.map some).toArray

end Stencil.Script.Library
