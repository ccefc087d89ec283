import Stencil.Script.Library.Basic
/-!
The functions of numbers, truth values and symbols, and those of mathematics.
-/
namespace Stencil.Script.Library
open Action

def thisNumber (this : Datum) : Action Float := do
  match unboxed this (← heap) with
  | .number x => return x
  | _ => typeError "not a number"

/-- A count of digits between two bounds. -/
def digitsArg (v : Datum) (low high : Float) (name : String) : Action Nat := do
  let x ← toWhole v
  if x < low || high < x then rangeError (name ++ " argument must be in range")
  else return x.toUInt64.toNat

def numberMethods : Methods := [
  ("toString", fun this args => do
    let x ← thisNumber this
    match arg args 0 with
    | .undefined => return .text (Numeric.toText x)
    | v =>
      let base ← toWhole v
      if base < 2.0 || 36.0 < base then rangeError "radix must be between 2 and 36"
      else return .text (Numeric.baseText x base.toUInt64.toNat)),
  ("toLocaleString", fun this _ => do return .text (Numeric.toText (← thisNumber this))),
  ("valueOf", fun this _ => do return .number (← thisNumber this)),
  ("toFixed", fun this args => do
    let x ← thisNumber this
    return .text (Numeric.fixedText x (← digitsArg (arg args 0) 0.0 100.0 "toFixed() digits"))),
  ("toExponential", fun this args => do
    let x ← thisNumber this
    match arg args 0 with
    | .undefined => return .text (Numeric.exponentialText x none)
    | v =>
      return .text (Numeric.exponentialText x
        (some (← digitsArg v 0.0 100.0 "toExponential()")))),
  ("toPrecision", fun this args => do
    let x ← thisNumber this
    match arg args 0 with
    | .undefined => return .text (Numeric.toText x)
    | v => return .text (Numeric.precisionText x (← digitsArg v 1.0 100.0 "toPrecision()")))]

/-- A test of a value that has to be a number as it stands. -/
def numberTest (f : Float → Bool) : Method := fun _ args =>
  match arg args 0 with
  | .number x => return .bool (f x)
  | _ => return .bool false

def parseWhole : Method := fun _ args => do
  let s ← toText (arg args 0)
  return .number (Numeric.leadingWhole s (Numeric.toWord (← toNumber (arg args 1))).toNat)

def parseNumber : Method := fun _ args => do
  return .number (Numeric.leading (← toText (arg args 0)))

def isWhole (x : Float) : Bool := x.isFinite && x.floor == x

def numberStatics : Methods := [
  ("isInteger", numberTest isWhole),
  ("isSafeInteger", numberTest fun x => isWhole x && x.abs ≤ 9007199254740991.0),
  ("isFinite", numberTest Float.isFinite),
  ("isNaN", numberTest Float.isNaN),
  ("parseInt", parseWhole),
  ("parseFloat", parseNumber)]

def numberConstants : List (String × Float) := [
  ("EPSILON", Float.ofBits 0x3CB0000000000000),
  ("MAX_SAFE_INTEGER", 9007199254740991.0),
  ("MIN_SAFE_INTEGER", -9007199254740991.0),
  ("MAX_VALUE", Float.ofBits 0x7FEFFFFFFFFFFFFF),
  ("MIN_VALUE", Float.ofBits 1),
  ("POSITIVE_INFINITY", Numeric.infinity),
  ("NEGATIVE_INFINITY", -Numeric.infinity),
  ("NaN", Numeric.nan)]

def thisBool (this : Datum) : Action Bool := do
  match unboxed this (← heap) with
  | .bool b => return b
  | _ => typeError "not a boolean"

def boolMethods : Methods := [
  ("toString", fun this _ => do return .text (if ← thisBool this then "true" else "false")),
  ("valueOf", fun this _ => do return .bool (← thisBool this))]

/-! ### Mathematics -/

def ofOne (f : Float → Float) : Method := fun _ args => do
  return .number (f (← toNumber (arg args 0)))

def ofTwo (f : Float → Float → Float) : Method := fun _ args => do
  let x ← toNumber (arg args 0)
  return .number (f x (← toNumber (arg args 1)))

/-- The larger of two numbers, where a positive zero is larger than a negative one. -/
def larger (x y : Float) : Float :=
  if x.isNaN || y.isNaN then Numeric.nan
  else if x == 0.0 && y == 0.0 then Float.ofBits (x.toBits &&& y.toBits)
  else if x < y then y else x

def smaller (x y : Float) : Float := -(larger (-x) (-y))

def sign (x : Float) : Float := if x < 0.0 then -1.0 else if 0.0 < x then 1.0 else x

def ofAll (f : Float → Float → Float) (start : Float) : Method := fun _ args => do
  let xs ← forAll toNumber args
  return .number (xs.foldl f start)

/-- How many of the first bits of a word are zero. -/
def leadingZeros (w : UInt32) : Nat := if w == 0 then 32 else 31 - Nat.log2 w.toNat

/-- The nearest number of single precision. -/
def toSingle (x : Float) : Float := x.toFloat32.toFloat

def mathMethods : Methods := [
  ("abs", ofOne Float.abs), ("ceil", ofOne Float.ceil), ("floor", ofOne Float.floor),
  ("round", ofOne Numeric.round), ("trunc", ofOne Numeric.trunc), ("sign", ofOne sign),
  ("sqrt", ofOne Float.sqrt), ("cbrt", ofOne Float.cbrt),
  ("exp", ofOne Float.exp), ("expm1", ofOne fun x => Float.exp x - 1.0),
  ("log", ofOne Float.log), ("log2", ofOne Float.log2), ("log10", ofOne Float.log10),
  ("log1p", ofOne fun x => Float.log (1.0 + x)),
  ("sin", ofOne Float.sin), ("cos", ofOne Float.cos), ("tan", ofOne Float.tan),
  ("asin", ofOne Float.asin), ("acos", ofOne Float.acos), ("atan", ofOne Float.atan),
  ("sinh", ofOne Float.sinh), ("cosh", ofOne Float.cosh), ("tanh", ofOne Float.tanh),
  ("asinh", ofOne Float.asinh), ("acosh", ofOne Float.acosh), ("atanh", ofOne Float.atanh),
  ("fround", ofOne toSingle),
  ("atan2", ofTwo Float.atan2), ("pow", ofTwo Numeric.power),
  ("imul", ofTwo (onWords (· * ·))),
  ("clz32", ofOne fun x => Numeric.ofNat (leadingZeros (Numeric.toWord x))),
  ("hypot", fun _ args => do
    let xs ← forAll toNumber args
    return .number (xs.foldl (fun sum x => sum + x * x) 0.0).sqrt),
  ("max", ofAll larger (-Numeric.infinity)),
  ("min", ofAll smaller Numeric.infinity),
  ("random", fun _ _ => return .number 0.5)]

def mathConstants : List (String × Float) := [
  ("E", 2.718281828459045), ("LN10", 2.302585092994046), ("LN2", 0.6931471805599453),
  ("LOG10E", 0.4342944819032518), ("LOG2E", 1.4426950408889634), ("PI", 3.141592653589793),
  ("SQRT1_2", 0.7071067811865476), ("SQRT2", 1.4142135623730951)]

/-! ### Symbols -/

def thisSymbol (this : Datum) : Action Nat := do
  match unboxed this (← heap) with
  | .symbol id => return id
  | _ => typeError "not a symbol"

def symbolText (h : Heap) (id : Nat) : String := "Symbol(" ++ h.symbolName id ++ ")"

def newSymbol (name : String) : Action Datum := change fun h =>
  (.symbol h.symbols.size, { h with symbols := h.symbols.push name })

/-- The description that a symbol of all scripts is kept with. -/
def sharedName (name : String) : String := "*shared*" ++ name

def symbolMethods : Methods := [
  ("toString", fun this _ => do
    let id ← thisSymbol this
    return .text (symbolText (← heap) id)),
  ("valueOf", fun this _ => do return .symbol (← thisSymbol this)),
  ("get description", fun this _ => do
    let id ← thisSymbol this
    return .text ((← heap).symbolName id))]

def symbolStatics : Methods := [
  ("for", fun _ args => do
    let name ← toText (arg args 0)
    let holder := Datum.object Heap.symbolProto
    match ← getText holder (sharedName name) with
    | .symbol id => return .symbol id
    | _ =>
      let s ← newSymbol name
      defineOn holder (.text (sharedName name)) (.quiet s)
      return s)]

end Stencil.Script.Library
