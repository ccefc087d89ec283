import Stencil.Script.Library.Catalog
import Stencil.Script.Link
/-!
The objects that a script finds when it starts.
-/
namespace Stencil.Script.Realm

/-- What the first objects are, in the order of their places. -/
def firstObjects : List Object :=
  let child : Object := { proto := some Heap.objectProto }
  let anError : Object := { proto := some Heap.errorProto }
  [ { proto := none }, child,
    { child with shape := .array #[] false },
    { child with shape := .boxed (.text "") },
    { child with shape := .boxed (.number 0.0) },
    { child with shape := .boxed (.bool false) },
    child, child, child, child, child, child, child, child,
    anError, anError, anError, anError, child, anError ]

/-- The symbols of the language, by their places. -/
def symbols : List String :=
  ["Symbol.iterator", "Symbol.asyncIterator", "Symbol.toStringTag", "Symbol.toPrimitive",
    "Symbol.hasInstance"]

def nameProperty (name : String) : Key × Property :=
  (.text "name", { held := .value (.text name) false, enumerable := false })

def newFunction (h : Heap) (f : Native) (name : String) (makes : Bool) : Ref × Heap :=
  h.alloc { proto := some Heap.functionProto, shape := .native f makes,
            properties := [nameProperty name] }

/-- Gives an object one function of a group. -/
def addMethod (family : Family) (r : Ref) (h : Heap) (name : String) : Heap :=
  let (f, h) := newFunction h (.member family name) name false
  let accessor := fun (key : String) (isGetter : Bool) =>
    let (getter, setter) := match h.own? r (.text key) with
      | some { held := .accessor getter setter, .. } => (getter, setter)
      | _ => (none, none)
    h.define r (.text key)
      { held := if isGetter then .accessor (some f) setter else .accessor getter (some f)
        enumerable := false }
  if name.startsWith "get " then accessor (name.drop 4).toString true
  else if name.startsWith "set " then accessor (name.drop 4).toString false
  else if name == "[Symbol.iterator]" then h.define r Key.iterator (.quiet (.object f))
  else h.define r (.text name) (.quiet (.object f))

/-- Gives an object the functions of a group. -/
def addMethods (family : Family) (r : Ref) (h : Heap) : Heap :=
  ((Library.methodsOf family).map (·.1)).foldl (addMethod family r) h

/-- Gives an object the value under another one of its keys. -/
def addAlias (r : Ref) (key : Key) (name : String) (h : Heap) : Heap :=
  match h.own? r (.text name) with
  | some p => h.define r key p
  | none => h

def setGlobal (name : String) (v : Datum) (h : Heap) : Heap :=
  h.define Heap.globalObject (.text name) (.quiet v)

/-- Adds a function that makes objects. -/
def addMaker (h : Heap) (maker : String × Ref × Option Family) : Heap :=
  let (name, proto, family) := maker
  let (f, h) := newFunction h (.maker name) name true
  let h := h.define f (.text "prototype") (.fixed (.object proto))
  let h := if name.startsWith "Weak" then h
    else h.define proto (.text "constructor") (.quiet (.object f))
  let h := match family with
    | some family => addMethods family f h
    | none => h
  setGlobal name (.object f) h

def addConstants (r : Ref) (values : List (String × Float)) (h : Heap) : Heap :=
  values.foldl (fun h (name, x) => h.define r (.text name) (.fixed (.number x))) h

/-- Adds a global object with the functions of a group. -/
def addGroup (name : String) (family : Family) (h : Heap) : Ref × Heap :=
  let (r, h) := h.alloc { proto := some Heap.objectProto }
  let h := addMethods family r h
  (r, setGlobal name (.object r) h)

def protos : List (Family × Ref) := [
  (.objectProto, Heap.objectProto), (.functionProto, Heap.functionProto),
  (.arrayProto, Heap.arrayProto), (.stringProto, Heap.stringProto),
  (.numberProto, Heap.numberProto), (.booleanProto, Heap.booleanProto),
  (.symbolProto, Heap.symbolProto), (.errorProto, Heap.errorProto),
  (.promiseProto, Heap.promiseProto), (.mapProto, Heap.mapProto), (.setProto, Heap.setProto),
  (.regexProto, Heap.regexProto), (.cursorProto, Heap.cursorProto),
  (.generatorProto, Heap.generatorProto)]

/-- Gives the errors of a kind their name. -/
def nameErrors (h : Heap) : Heap :=
  let named := [("Error", Heap.errorProto), ("TypeError", Heap.typeErrorProto),
    ("RangeError", Heap.rangeErrorProto), ("SyntaxError", Heap.syntaxErrorProto),
    ("ReferenceError", Heap.referenceErrorProto), ("URIError", Heap.locatorErrorProto)]
  named.foldl (fun h (name, r) =>
    (h.define r (.text "name") (.quiet (.text name))).define r (.text "message")
      (.quiet (.text ""))) h

/-- Gives the objects of some kinds a name of their own where they are shown. -/
def tagObjects (h : Heap) : Heap :=
  [("Map", Heap.mapProto), ("Set", Heap.setProto), ("Promise", Heap.promiseProto),
    ("Symbol", Heap.symbolProto), ("Generator", Heap.generatorProto)].foldl
    (fun h (name, r) => h.define r Key.tag
      { held := .value (.text name) false, enumerable := false }) h

def addSymbols (h : Heap) : Heap :=
  match h.own? Heap.globalObject (.text "Symbol") with
  | some { held := .value (.object f) _, .. } =>
    symbols.zipIdx.foldl (fun h (name, i) =>
      h.define f (.text (name.drop 7).toString) (.fixed (.symbol i))) h
  | _ => h

/-- The heap that holds what every script finds. -/
def standard : Heap :=
  let h : Heap := { objects := firstObjects.toArray, symbols := symbols.toArray }
  let h := protos.foldl (fun h (family, r) => addMethods family r h) h
  let h := Library.makers.foldl addMaker h
  let h := addSymbols (tagObjects (nameErrors h))
  let h := addAlias Heap.arrayProto Key.iterator "values" h
  let h := addAlias Heap.mapProto Key.iterator "entries" h
  let h := addAlias Heap.setProto (.text "keys") "values" h
  let h := addAlias Heap.setProto Key.iterator "values" h
  let h := addMethods .globals Heap.globalObject h
  let (math, h) := addGroup "Math" .math h
  let h := addConstants math Library.mathConstants h
  let (_, h) := addGroup "JSON" .json h
  let (_, h) := addGroup "console" .console h
  let h := match h.own? Heap.globalObject (.text "Number") with
    | some { held := .value (.object f) _, .. } => addConstants f Library.numberConstants h
    | _ => h
  let h := setGlobal "globalThis" (.object Heap.globalObject) h
  let h := h.define Heap.globalObject (.text "undefined") (.fixed .undefined)
  let h := h.define Heap.globalObject (.text "NaN") (.fixed (.number Numeric.nan))
  h.define Heap.globalObject (.text "Infinity") (.fixed (.number Numeric.infinity))

end Stencil.Script.Realm
