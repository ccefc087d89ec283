import Stencil.Number.Decimal
import Stencil.Script.Action
/-!
Properties of objects. An object has those of its own and those of the objects that it descends
from. The places of an array and of a text, and the exports of a module, are properties too. Of
its own ones an object lists the whole numbers first, and all others in the order they came in.
-/
namespace Stencil.Script

/-- The place in an array that a name stands for. -/
def arrayIndex? (s : String) : Option Nat :=
  match s.toList with
  | ['0'] => some 0
  | c :: cs =>
    if c == '0' || 10 < cs.length + 1 then none
    else match natOfDigits? 10 (c :: cs) with
      | some n => if n < Nat.pow 2 32 - 1 then some n else none
      | none => none
  | [] => none

namespace Key

/-- The name of a place. -/
def place (i : Nat) : Key := .text (toString i)

def index? : Key → Option Nat
  | .text s => arrayIndex? s
  | .symbol _ => none

def datum : Key → Datum
  | .text s => .text s
  | .symbol id => .symbol id

end Key

namespace Property

/-- A value that can be changed and is listed. -/
def ofValue (v : Datum) : Property := { held := .value v true }

/-- A value that can be changed but is not listed. -/
def quiet (v : Datum) : Property := { held := .value v true, enumerable := false }

def fixed (v : Datum) : Property :=
  { held := .value v false, enumerable := false, configurable := false }

end Property

/-- Puts a property under a key, in the place of an old one. -/
def putKey (k : Key) (p : Property) : List (Key × Property) → List (Key × Property)
  | [] => [(k, p)]
  | (k', old) :: rest => if k' == k then (k, p) :: rest else (k', old) :: putKey k p rest

namespace Heap

def isArray (h : Heap) : Datum → Bool
  | .object r => (h.shape r matches .array ..)
  | _ => false

def isCallable (h : Heap) : Datum → Bool
  | .object r => match h.shape r with
    | .closure _ | .native .. | .bound .. => true
    | _ => false
  | _ => false

/-- The variable that an export of a module stands for has no value yet. -/
def isUnset (h : Heap) (exports : List (String × Nat × String)) (name : String) : Bool :=
  match exports.lookup name with
  | some (scope, own) => (h.follow (h.scopes.size + 1) scope own matches some (.cell none _))
  | none => false

/-- The characters of a text by place. -/
def charProperty? (s : String) (k : Key) : Option Property :=
  match k with
  | .text "length" => some (.fixed (.number (Float.ofNat (Units.size s))))
  | k => do
    let i ← k.index?
    let u ← Units.get? s i
    return { held := .value (.text (Units.toText [u])) false, configurable := false }

/-- A property of the object's own. -/
def own? (h : Heap) (r : Ref) (k : Key) : Option Property :=
  let o := h.object r
  match o.shape with
  | .array items frozen =>
    match k with
    | .text "length" =>
      some { held := .value (.number (Float.ofNat items.size)) (!frozen), enumerable := false,
             configurable := false }
    | k =>
      match k.index?.bind (items[·]?) with
      | some (some v) => some { held := .value v (!frozen), configurable := !frozen }
      | _ => o.properties.lookup k
  | .boxed (.text s) => (charProperty? s k).or (o.properties.lookup k)
  | .module exports =>
    match k with
    | .text name =>
      match exports.lookup name with
      | some (scope, own) =>
        match h.follow (h.scopes.size + 1) scope own with
        | some (.cell v _) =>
          some { held := .value (v.getD .undefined) true, configurable := false }
        | _ => none
      | none => none
    | k => o.properties.lookup k
  | _ => o.properties.lookup k

/-- A property of an object or of those that it descends from, with whether it is its own. -/
def findFrom? (h : Heap) (k : Key) : (steps : Nat) → (isOwn : Bool) → Ref →
    Option (Property × Bool)
  | 0, _, _ => none
  | steps + 1, isOwn, r =>
    match h.own? r k with
    | some p => some (p, isOwn)
    | none => (h.object r).proto.bind (h.findFrom? k steps false)

def find? (h : Heap) (r : Ref) (k : Key) : Option (Property × Bool) :=
  h.findFrom? k (h.objects.size + 1) true r

/-- The object whose properties a value has. -/
def protoOf? : Datum → Option Ref
  | .undefined | .null => none
  | .bool _ => some booleanProto
  | .number _ => some numberProto
  | .text _ => some stringProto
  | .symbol _ => some symbolProto
  | .object r => some r

/-- A property that a value has. -/
def propertyOf? (h : Heap) (v : Datum) (k : Key) : Option Property :=
  let inherited := (protoOf? v).bind fun r => (h.find? r k).map (·.1)
  match v with
  | .text s => (charProperty? s k).or inherited
  | _ => inherited

/-- Arrays grow no further than to this size by a step. -/
def maxArray : Nat := Nat.pow 2 24

/-- Puts a value at a place of an array. -/
def putItem (items : Array (Option Datum)) (i : Nat) (v : Datum) : Array (Option Datum) :=
  if i < items.size then items.setIfInBounds i (some v)
  else (items ++ Array.replicate (i - items.size) none).push (some v)

/-- An array of another size. -/
def resize (items : Array (Option Datum)) (n : Nat) : Array (Option Datum) :=
  if n ≤ items.size then items.extract 0 n
  else items ++ Array.replicate (min n maxArray - items.size) none

/-- Gives an object a property of its own, whatever it had before. -/
def define (h : Heap) (r : Ref) (k : Key) (p : Property) : Heap :=
  h.modify r fun o =>
    match o with
    | { proto, shape := .array items frozen, properties, extensible, hidden } =>
      match k.index?, p.held with
      | some i, .value v _ =>
        if i < maxArray then
          { proto, shape := .array (putItem items i v) frozen, properties, extensible, hidden }
        else
          { proto, shape := .array items frozen, properties := putKey k p properties, extensible,
            hidden }
      | _, _ =>
        { proto, shape := .array items frozen, properties := putKey k p properties, extensible,
          hidden }
    | o => { o with properties := putKey k p o.properties }

/-- Takes a property of its own from an object. -/
def remove (h : Heap) (r : Ref) (k : Key) : Heap :=
  h.modify r fun o =>
    let o := { o with properties := o.properties.filter (·.1 != k) }
    match o.shape, k.index? with
    | .array items frozen, some i => { o with shape := .array (items.setIfInBounds i none) frozen }
    | _, _ => o

/-- Whole numbers in order, then the other keys. -/
def inOrder (keys : List Key) : List Key :=
  let numbered := keys.filterMap fun k => k.index?.map (·, k)
  let sorted := numbered.mergeSort fun a b => a.1 ≤ b.1
  let isText : Key → Bool := fun k => k matches .text _
  sorted.map (·.2) ++ keys.filter (fun k => k.index?.isNone && isText k) ++
    keys.filter (fun k => !isText k)

/-- The keys of an object's own properties. -/
def ownKeys (h : Heap) (r : Ref) : List Key :=
  let o := h.object r
  let listed := o.properties.map (·.1)
  match o.shape with
  | .array items _ =>
    let places := (List.range items.size).filterMap fun i =>
      if (items[i]?.join).isSome then some (Key.place i) else none
    places ++ .text "length" :: inOrder listed
  | .boxed (.text s) =>
    (List.range (Units.size s)).map Key.place ++ .text "length" :: inOrder listed
  | .module exports =>
    (exports.map (·.1)).mergeSort (fun a b => !Units.less b a) |>.map Key.text
  | _ => if listed.any (·.index?.isSome) || listed.any (· matches .symbol _) then inOrder listed else listed

/-- The names of the properties that an object lists. -/
def listedNames (h : Heap) (r : Ref) : List String :=
  (h.ownKeys r).filterMap fun
    | .text s => if (h.own? r (.text s)).any (·.enumerable) then some s else none
    | .symbol _ => none

/-- The description of a symbol. -/
def symbolName (h : Heap) (id : Nat) : String := h.symbols[id]?.getD ""

def keyText (h : Heap) : Key → String
  | .text s => s
  | .symbol id => h.symbolName id

/-- The object descends from another one. -/
def descends (h : Heap) (ancestor : Ref) : (steps : Nat) → Ref → Bool
  | 0, _ => false
  | steps + 1, r =>
    match (h.object r).proto with
    | some p => p == ancestor || h.descends ancestor steps p
    | none => false

end Heap

namespace Action

/-- What a property gives to a value. -/
def read (this : Datum) : Option Property → Action Datum
  | none => return .undefined
  | some p =>
    match p.held with
    | .value v _ => return v
    | .accessor (some get) _ => call (.object get) this []
    | .accessor none _ => return .undefined

/-- A property of an object, read for another value. -/
def getFrom (r : Ref) (k : Key) (this : Datum) : Action Datum := do
  let h ← heap
  read this ((h.find? r k).map (·.1))

/-- The value under a key. -/
def get (v : Datum) (k : Key) : Action Datum := do
  let h ← heap
  match v, k with
  | .undefined, k => typeError ("cannot read property '" ++ h.keyText k ++ "' of undefined")
  | .null, k => typeError ("cannot read property '" ++ h.keyText k ++ "' of null")
  | .object r, .text name =>
    match h.shape r with
    | .module exports =>
      if h.isUnset exports name then referenceError (name ++ " is not initialized")
      else read v (h.propertyOf? v k)
    | _ => read v (h.propertyOf? v k)
  | v, k => read v (h.propertyOf? v k)

def getText (v : Datum) (name : String) : Action Datum := get v (.text name)

/-- A method of a value that may be missing. -/
def method? (v : Datum) (k : Key) : Action (Option Datum) := do
  match ← get v k with
  | .undefined | .null => return none
  | f => if (← heap).isCallable f then return some f else typeError "not a function"

def invoke (v : Datum) (name : String) (args : List Datum) : Action Datum := do
  call (← getText v name) v args

/-- Changes a value of an object's own, or adds one. -/
def setOwn (r : Ref) (k : Key) (v : Datum) : Action Unit := do
  let h ← heap
  match h.own? r k with
  | some p =>
    match p.held with
    | .value _ true => modify (·.define r k { p with held := .value v true })
    | .value _ false => typeError ("'" ++ h.keyText k ++ "' is read-only")
    | .accessor .. => typeError "no setter for property"
  | none =>
    if (h.object r).extensible then modify (·.define r k (.ofValue v))
    else typeError "object is not extensible"

/-- The number of places that an array is to have. -/
def setLength (r : Ref) (v : Datum) : Action Unit := do
  match v with
  | .number x =>
    if x.floor != x || x < 0.0 || 4294967295.0 < x then rangeError "invalid array length"
    else modify (·.modify r fun o =>
      match o.shape with
      | .array items frozen => { o with shape := .array (Heap.resize items x.toUInt64.toNat) frozen }
      | _ => o)
  | _ => rangeError "invalid array length"

/-- Sets what a property of an object is, with `this` as the value that a setter is called on. -/
def setFrom (r : Ref) (k : Key) (v this : Datum) : Action Unit := do
  let h ← heap
  match h.shape r with
  | .module _ => typeError ("'" ++ h.keyText k ++ "' is read-only")
  | shape =>
    match h.find? r k with
    | some (p, _) =>
      match p.held with
      | .accessor _ (some f) =>
        let _ ← call (.object f) this [v]
        return
      | .accessor _ none => typeError "no setter for property"
      | .value _ false => typeError ("'" ++ h.keyText k ++ "' is read-only")
      | .value _ true =>
        match this with
        | .object own =>
          if (shape matches .array ..) && k == .text "length" && own == r then setLength r v
          else setOwn own k v
        | _ => typeError "not an object"
    | none =>
      match this with
      | .object own => setOwn own k v
      | _ => typeError "not an object"

def set (target : Datum) (k : Key) (v : Datum) : Action Unit := do
  match Heap.protoOf? target, target with
  | some r, _ => setFrom r k v target
  | none, .null => typeError ("cannot set property '" ++ (← heap).keyText k ++ "' of null")
  | none, _ => typeError ("cannot set property '" ++ (← heap).keyText k ++ "' of undefined")

def setText (target : Datum) (name : String) (v : Datum) : Action Unit := set target (.text name) v

/-- Gives an object a property of its own that is listed. -/
def defineOn (target : Datum) (k : Key) (p : Property) : Action Unit :=
  match target with
  | .object r => modify (·.define r k p)
  | _ => pure ()

/-- Takes a property from an object. -/
def delete (target : Datum) (k : Key) : Action Unit := do
  match target with
  | .object r =>
    match (← heap).own? r k with
    | some p => if p.configurable then modify (·.remove r k) else typeError "could not delete property"
    | none => return
  | .undefined | .null => typeError "cannot convert to object"
  | _ => return

/-- The object of a value that is none. -/
def toObject (v : Datum) : Action Datum := do
  match v with
  | .undefined | .null => typeError "cannot convert to object"
  | .object _ => return v
  | v => newObject { proto := Heap.protoOf? v, shape := .boxed v }

/-- The object of a value. -/
def toRef (v : Datum) : Action Ref := do
  match ← toObject v with
  | .object r => return r
  | _ => return Heap.objectProto

end Action
end Stencil.Script
