import Stencil.Script.Library.Host
import Stencil.Script.Library.Later
import Stencil.Script.Library.List
import Stencil.Script.Library.Record
import Stencil.Script.Library.Table
import Stencil.Script.Library.Text
import Stencil.Script.Function
/-!
All functions that scripts are given, by group and name, and the functions that make objects.
-/
namespace Stencil.Script.Library
open Action

def giveThis : Method := fun this _ => return this

def methodsOf : Family → Methods
  | .host => hostMethods
  | .console => consoleMethods
  | .globals => globalMethods
  | .object => recordStatics
  | .objectProto => recordMethods ++ [("get __proto__", getParent), ("set __proto__", setParent)]
  | .functionProto => functionMethods
  | .array => listStatics
  | .arrayProto => listMethods
  | .string => textStatics
  | .stringProto => textMethods ++ [("[Symbol.iterator]", textIterator)]
  | .number => numberStatics
  | .numberProto => numberMethods
  | .booleanProto => boolMethods
  | .math => mathMethods
  | .json => jsonMethods
  | .symbol => symbolStatics
  | .symbolProto => symbolMethods
  | .error => []
  | .errorProto => errorMethods
  | .map => []
  | .mapProto => mapMethods
  | .set => []
  | .setProto => setMethods
  | .promise => promiseStatics
  | .promiseProto => promiseMethods
  | .regexProto => patternMethods ++ patternGetters
  | .cursorProto => cursorMethods ++ [("[Symbol.iterator]", giveThis)]
  | .generatorProto => generatorMethods ++ [("[Symbol.iterator]", giveThis)]

/-- The functions that make objects, each with what its objects descend from and its own group. -/
def makers : List (String × Ref × Option Family) := [
  ("Object", Heap.objectProto, some .object),
  ("Function", Heap.functionProto, none),
  ("Array", Heap.arrayProto, some .array),
  ("String", Heap.stringProto, some .string),
  ("Number", Heap.numberProto, some .number),
  ("Boolean", Heap.booleanProto, none),
  ("Symbol", Heap.symbolProto, some .symbol),
  ("Error", Heap.errorProto, some .error),
  ("TypeError", Heap.typeErrorProto, none),
  ("RangeError", Heap.rangeErrorProto, none),
  ("SyntaxError", Heap.syntaxErrorProto, none),
  ("ReferenceError", Heap.referenceErrorProto, none),
  ("URIError", Heap.locatorErrorProto, none),
  ("Promise", Heap.promiseProto, some .promise),
  ("Map", Heap.mapProto, some .map),
  ("Set", Heap.setProto, some .set),
  ("WeakMap", Heap.mapProto, none),
  ("WeakSet", Heap.setProto, none),
  ("RegExp", Heap.regexProto, none)]

def errorNames : List String :=
  ["Error", "TypeError", "RangeError", "SyntaxError", "ReferenceError", "URIError"]

/-- A pattern of a text, or a copy of another one. -/
def makePattern (args : List Datum) (proto : Ref) : Action Datum := do
  let (source, old) ← match Pattern.of? (← heap) (arg args 0), arg args 0 with
    | some p, _ => pure (p.source, p.flags)
    | none, .undefined => pure ("(?:)", "")
    | none, v => do
      let s ← toText v
      pure (if s.isEmpty then "(?:)" else s, "")
  let flags ← match arg args 1 with
    | .undefined => pure old
    | v => toText v
  newPattern source flags proto

/-- The object that a function makes. -/
def makeNative (name : String) (args : List Datum) (proto : Ref) : Action Datum := do
  if errorNames.contains name then makeError args proto
  else
    match name with
    | "Object" =>
      if (arg args 0).isMissing then newObject { proto := some proto } else toObject (arg args 0)
    | "Array" => makeList args proto
    | "String" =>
      let s ← if args.isEmpty then pure "" else toText (arg args 0)
      newObject { proto := some proto, shape := .boxed (.text s) }
    | "Number" =>
      let x ← if args.isEmpty then pure 0.0 else toNumber (arg args 0)
      newObject { proto := some proto, shape := .boxed (.number x) }
    | "Boolean" => newObject { proto := some proto, shape := .boxed (.bool (arg args 0).isTrue) }
    | "Promise" => makePromise args proto
    | "Map" | "WeakMap" => makeTable true args proto
    | "Set" | "WeakSet" => makeTable false args proto
    | "RegExp" => makePattern args proto
    | _ => typeError "not a constructor"

/-- What a function that makes objects gives when it is called as any other function. -/
def callMaker (name : String) (args : List Datum) : Action Datum := do
  match name with
  | "String" => if args.isEmpty then return .text "" else return .text (← asText (arg args 0))
  | "Number" => if args.isEmpty then return .number 0.0 else return .number (← toNumber (arg args 0))
  | "Boolean" => return .bool (arg args 0).isTrue
  | "Symbol" =>
    match arg args 0 with
    | .undefined => newSymbol ""
    | v => newSymbol (← toText v)
  | name =>
    if errorNames.contains name || name == "Object" || name == "Array" || name == "RegExp" then
      makeNative name args (((makers.lookup name).map (·.1)).getD Heap.objectProto)
    else typeError "constructor requires 'new'"

/-- The value that a function gives when it is called. -/
def applyNative (f : Native) (this : Datum) (args : List Datum) : Action Datum := do
  match f with
  | .member family name =>
    match (methodsOf family).lookup name with
    | some g => g this args
    | none => return .undefined
  | .maker name => callMaker name args
  | .plugin name => callPlugin name args
  | .settle promise once rejects =>
    settleOnce promise once rejects (arg args 0)
    return .undefined
  | .gather how rejected index list promise =>
    gatherOne how rejected index list promise (arg args 0)
    return .undefined
  | .finally g rejects => finish g rejects (arg args 0)
  | .constant v throws => if throws then throw v else return v

/-- The object that a function makes for another one that its instances are to be of. -/
def constructNative (f : Native) (args : List Datum) (target : Datum) : Action Datum := do
  match f with
  | .maker name =>
    let standard := ((makers.lookup name).map (·.1)).getD Heap.objectProto
    makeNative name args (← protoFor target standard)
  | _ => typeError "not a constructor"

end Stencil.Script.Library
