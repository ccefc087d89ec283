import Stencil.Script.Library.Basic
/-!
The functions of objects and of functions.
-/
namespace Stencil.Script.Library
open Action

/-- The object of an argument. -/
def refArg (args : List Datum) : Action Ref := do toRef (arg args 0)

/-- The properties that an object lists, with their values. -/
def listed (args : List Datum) : Action (List (String × Datum)) := do
  let r ← refArg args
  let v := arg args 0
  let names := (← heap).listedNames r
  let of := match v with
    | .object _ => v
    | _ => .object r
  forAll (fun name => do return (name, ← getText of name)) names

/-- Takes from an object that it can change. -/
def freeze (r : Ref) : Action Unit := modify (·.modify r fun o =>
  let fixedProperty := fun (p : Property) =>
    match p.held with
    | .value v _ => { p with held := .value v false, configurable := false }
    | _ => { p with configurable := false }
  { o with
    extensible := false
    properties := o.properties.map fun (k, p) => (k, fixedProperty p)
    shape := match o.shape with
      | .array items _ => .array items true
      | s => s })

/-- Takes from an object that it can gain or lose properties. -/
def sealOff (r : Ref) : Action Unit := modify (·.modify r fun o =>
  { o with
    extensible := false
    properties := o.properties.map fun (k, p) => (k, { p with configurable := false }) })

/-- Nothing of the object can be changed; `sealed` asks only that nothing can be taken away. -/
def isFixed (h : Heap) (sealed : Bool) (v : Datum) : Bool :=
  match v with
  | .object r =>
    !(h.object r).extensible && (h.ownKeys r).all fun k =>
      match h.own? r k with
      | some p =>
        !p.configurable && (sealed || match p.held with
          | .value _ writable => !writable
          | .accessor .. => true)
      | none => true
  | _ => true

/-- Puts properties of other objects into one. -/
def assign (target : Datum) : List Datum → Action Unit
  | [] => return
  | source :: rest => do
    if source.isMissing then assign target rest
    else
      let v ← toObject source
      match v with
      | .object r =>
        let h ← heap
        let keys := (h.ownKeys r).filter fun k => (h.own? r k).any (·.enumerable)
        forEach (fun k => do set target k (← get v k)) keys
      | _ => pure ()
      assign target rest

/-- A function that an object gives for an accessor. -/
def accessorPart (v : Datum) : Action (Option Ref) := do
  match v with
  | .undefined => return none
  | .object r =>
    if (← heap).isCallable v then return some r else typeError "invalid getter or setter"
  | _ => typeError "invalid getter or setter"

/-- A flag of a description, or what the property has been before. -/
def flagOf (v : Datum) (name : String) (old : Bool) : Action Bool := do
  let r ← toRef v
  if ((← heap).find? r (.text name)).isSome then return (← getText v name).isTrue else return old

/-- Gives an object the property that another one describes. -/
def describe (r : Ref) (k : Key) (v : Datum) : Action Unit := do
  if !v.isObject then typeError "not an object"
  let d ← toRef v
  let h ← heap
  let old := h.own? r k
  let has := fun (name : String) => (h.find? d (.text name)).isSome
  let changed := old.any fun p => !p.configurable && !(match p.held with
    | .value _ writable => writable
    | _ => false)
  if changed then typeError "property is not configurable"
  if old.isNone && !(h.object r).extensible then typeError "object is not extensible"
  let enumerable ← flagOf v "enumerable" (old.any (·.enumerable))
  let configurable ← flagOf v "configurable" (old.any (·.configurable))
  if has "get" || has "set" then
    if has "value" || has "writable" then
      typeError "cannot have setter/getter and value or writable"
    let getter ← accessorPart (← getText v "get")
    let setter ← accessorPart (← getText v "set")
    modify (·.define r k { held := .accessor getter setter, enumerable, configurable })
  else
    let (oldValue, oldWritable) := match old.map (·.held) with
      | some (.value x w) => (x, w)
      | _ => (.undefined, false)
    let x ← if has "value" then getText v "value" else pure oldValue
    let writable ← flagOf v "writable" oldWritable
    match (← heap).shape r, writable && enumerable && configurable with
    | .array .., true => modify (·.define r k (.ofValue x))
    | _, _ => modify (·.define r k { held := .value x writable, enumerable, configurable })

/-- The description of a property. -/
def description (p : Property) : Action Datum := do
  let ofRef := fun (r : Option Ref) => (r.map Datum.object).getD .undefined
  let head := match p.held with
    | .value v writable => [("value", v), ("writable", .bool writable)]
    | .accessor getter setter => [("get", ofRef getter), ("set", ofRef setter)]
  newRecord (head ++ [("enumerable", .bool p.enumerable), ("configurable", .bool p.configurable)])

def describeAll (r : Ref) (v : Datum) : Action Unit := do
  let source ← toRef v
  let h ← heap
  let keys := (h.ownKeys source).filter fun k => (h.own? source k).any (·.enumerable)
  forEach (fun k => do describe r k (← get (.object source) k)) keys

/-- Lets an object descend from another one. -/
def setProto (v proto : Datum) : Action Unit := do
  match v, proto with
  | .object r, .object p =>
    let h ← heap
    if p == r || h.descends r (h.objects.size + 1) p then typeError "circular prototype chain"
    else if !(h.object r).extensible then typeError "object is not extensible"
    else modify (·.modify r fun o => { o with proto := some p })
  | .object r, .null => modify (·.modify r fun o => { o with proto := none })
  | _, _ => return

def protoDatum (h : Heap) (v : Datum) : Datum :=
  match v with
  | .object r => ((h.object r).proto.map Datum.object).getD .null
  | v => ((Heap.protoOf? v).map Datum.object).getD .null

/-- Adds a value to the list of a key. -/
def addToGroup (groups : List (Key × List Datum)) (k : Key) (v : Datum) :
    List (Key × List Datum) :=
  match groups with
  | [] => [(k, [v])]
  | (k', vs) :: rest => if k' == k then (k', vs ++ [v]) :: rest else (k', vs) :: addToGroup rest k v

def recordStatics : Methods := [
  ("keys", fun _ args => do newArray ((← heap).listedNames (← refArg args) |>.map Datum.text)),
  ("values", fun _ args => do newArray ((← listed args).map (·.2))),
  ("entries", fun _ args => do
    newArray (← forAll (fun (k, v) => newArray [.text k, v]) (← listed args))),
  ("assign", fun _ args => do
    let target ← toObject (arg args 0)
    assign target args.tail
    return target),
  ("freeze", fun _ args => do
    match arg args 0 with
    | .object r =>
      freeze r
      return .object r
    | v => return v),
  ("isFrozen", fun _ args => do return .bool (isFixed (← heap) false (arg args 0))),
  ("seal", fun _ args => do
    match arg args 0 with
    | .object r =>
      sealOff r
      return .object r
    | v => return v),
  ("isSealed", fun _ args => do return .bool (isFixed (← heap) true (arg args 0))),
  ("preventExtensions", fun _ args => do
    match arg args 0 with
    | .object r =>
      modify (·.modify r fun o => { o with extensible := false })
      return .object r
    | v => return v),
  ("isExtensible", fun _ args => do
    match arg args 0 with
    | .object r => return .bool ((← heap).object r).extensible
    | _ => return .bool false),
  ("create", fun _ args => do
    let v ← match arg args 0 with
      | .object p => newObject { proto := some p }
      | .null => newObject { proto := none }
      | _ => typeError "not a prototype"
    match arg args 1 with
    | .undefined => return v
    | ds =>
      describeAll (← toRef v) ds
      return v),
  ("getPrototypeOf", fun _ args => do
    let _ ← refArg args
    return protoDatum (← heap) (arg args 0)),
  ("setPrototypeOf", fun _ args => do
    setProto (arg args 0) (arg args 1)
    return arg args 0),
  ("defineProperty", fun _ args => do
    if !(arg args 0).isObject then typeError "not an object"
    describe (← refArg args) (← toKey (arg args 1)) (arg args 2)
    return arg args 0),
  ("defineProperties", fun _ args => do
    if !(arg args 0).isObject then typeError "not an object"
    describeAll (← refArg args) (arg args 1)
    return arg args 0),
  ("getOwnPropertyNames", fun _ args => do
    let r ← refArg args
    newArray (((← heap).ownKeys r).filterMap fun
      | .text s => some (.text s)
      | .symbol _ => none)),
  ("getOwnPropertySymbols", fun _ args => do
    let r ← refArg args
    newArray (((← heap).ownKeys r).filterMap fun
      | .text _ => none
      | .symbol id => some (.symbol id))),
  ("getOwnPropertyDescriptor", fun _ args => do
    let r ← refArg args
    let k ← toKey (arg args 1)
    match (← heap).own? r k with
    | some p => description p
    | none => return .undefined),
  ("getOwnPropertyDescriptors", fun _ args => do
    let r ← refArg args
    let h ← heap
    let v ← newPlain []
    forEach (fun k => do
      match h.own? r k with
      | some p => defineOn v k (.ofValue (← description p))
      | none => return) (h.ownKeys r)
    return v),
  ("fromEntries", fun _ args => do
    let entries ← valuesOf (arg args 0)
    let v ← newPlain []
    forEach (fun e => do
      if !e.isObject then typeError "not an object"
      let k ← toKey (← getText e "0")
      defineOn v k (.ofValue (← getText e "1"))) entries
    return v),
  ("groupBy", fun _ args => do
    let items ← valuesOf (arg args 0)
    let f ← callback args 1
    let groups ← foldM (fun groups (v, i) => do
      let k ← toKey (← call f .undefined [v, .ofNat i])
      return addToGroup groups k v) [] items.zipIdx
    let result ← newObject { proto := none }
    forEach (fun (k, vs) => do defineOn result k (.ofValue (← newArray vs))) groups
    return result),
  ("is", fun _ args => return .bool ((arg args 0).identical (arg args 1))),
  ("hasOwn", fun _ args => do
    let r ← refArg args
    let k ← toKey (arg args 1)
    return .bool ((← heap).own? r k).isSome)]

/-- What an object is shown as where nothing else is said. -/
def tagOf (this : Datum) : Action String := do
  match this with
  | .undefined => return "Undefined"
  | .null => return "Null"
  | v =>
    let h ← heap
    let standard := match v with
      | .object r => match h.shape r with
        | .array .. => "Array"
        | .error => "Error"
        | .regex .. => "RegExp"
        | .boxed (.text _) => "String"
        | .boxed (.number _) => "Number"
        | .boxed (.bool _) => "Boolean"
        | _ => if h.isCallable v then "Function" else "Object"
      | .text _ => "String"
      | .number _ => "Number"
      | .bool _ => "Boolean"
      | _ => "Object"
    match ← get v Key.tag with
    | .text s => return s
    | _ => return standard

def recordMethods : Methods := [
  ("toString", fun this _ => do return .text ("[object " ++ (← tagOf this) ++ "]")),
  ("toLocaleString", fun this _ => invoke this "toString" []),
  ("valueOf", fun this _ => toObject this),
  ("hasOwnProperty", fun this args => do
    let k ← toKey (arg args 0)
    let r ← toRef this
    return .bool ((← heap).own? r k).isSome),
  ("isPrototypeOf", fun this args => do
    match this, arg args 0 with
    | .object p, .object r =>
      let h ← heap
      return .bool (h.descends p (h.objects.size + 1) r)
    | _, _ => return .bool false),
  ("propertyIsEnumerable", fun this args => do
    let k ← toKey (arg args 0)
    let r ← toRef this
    return .bool (((← heap).own? r k).any (·.enumerable)))]

/-- The object that another one descends from, as a property of it. -/
def getParent : Method := fun this _ => do
  let _ ← toObject this
  return protoDatum (← heap) this

def setParent : Method := fun this args => do
  setProto this (arg args 0)
  return .undefined

/-- The text that a function was written with. -/
def functionText (h : Heap) (v : Datum) : Option String :=
  match v with
  | .object r =>
    let name := match h.own? r (.text "name") with
      | some { held := .value (.text s) _, .. } => s
      | _ => ""
    match h.shape r with
    | .closure c => some c.info.text
    | .native .. | .bound .. => some ("function " ++ name ++ "() \x7b\n    [native code]\n\x7d")
    | _ => none
  | _ => none

def functionMethods : Methods := [
  ("call", fun this args => do
    if (← heap).isCallable this then call this (arg args 0) args.tail
    else typeError "not a function"),
  ("apply", fun this args => do
    if !(← heap).isCallable this then typeError "not a function"
    match arg args 1 with
    | .undefined | .null => call this (arg args 0) []
    | .object r => call this (arg args 0) (← placesOf (.object r))
    | _ => typeError "not a object"),
  ("bind", fun this args => do
    let h ← heap
    if !h.isCallable this then typeError "not a function"
    let name ← getText this "name"
    let text ← match name with
      | .text s => pure s
      | _ => pure ""
    newObject {
      proto := some Heap.functionProto
      shape := .bound this (arg args 0) args.tail
      properties := [(.text "name",
        { held := .value (.text ("bound " ++ text)) false, enumerable := false })] }),
  ("toString", fun this _ => do
    match functionText (← heap) this with
    | some s => return .text s
    | none => typeError "not a function")]

end Stencil.Script.Library
