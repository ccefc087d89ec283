import Stencil.Script.Numeric
import Stencil.Script.Property
/-!
How values become texts, numbers and truth values, when two values are equal, and what the operators
give. An object takes part with the primitive value that its methods give.
-/
namespace Stencil.Script

namespace Datum

/-- What a value counts as where a condition stands. -/
def isTrue : Datum → Bool
  | .undefined | .null => false
  | .bool b => b
  | .number x => !(x == 0.0 || x.isNaN)
  | .text s => !s.isEmpty
  | _ => true

def isMissing : Datum → Bool
  | .undefined | .null => true
  | _ => false

def isObject : Datum → Bool
  | .object _ => true
  | _ => false

def ofNat (n : Nat) : Datum := .number (Float.ofNat n)

/-- The same value of the same type. -/
def same : Datum → Datum → Bool
  | .undefined, .undefined => true
  | .null, .null => true
  | .bool a, .bool b => a == b
  | .number x, .number y => x == y
  | .text s, .text t => s == t
  | .symbol a, .symbol b => a == b
  | .object a, .object b => a == b
  | _, _ => false

/-- As `same`, but what is not a number is the same as itself. -/
def sameKey : Datum → Datum → Bool
  | .number x, .number y => x == y || (x.isNaN && y.isNaN)
  | a, b => same a b

/-- As `sameKey`, but zeros of different signs differ. -/
def identical : Datum → Datum → Bool
  | .number x, .number y => (x.isNaN && y.isNaN) || x.toBits == y.toBits
  | a, b => same a b

end Datum

namespace Action

/-- The kind of primitive value that is asked for first. -/
inductive Hint where
  | any
  | number
  | text
  deriving DecidableEq

def Hint.word : Hint → String
  | .any => "default"
  | .number => "number"
  | .text => "string"

/-- The first primitive value that one of the methods gives. -/
def primitiveBy (v : Datum) : List String → Action Datum
  | [] => typeError "toPrimitive"
  | name :: rest => do
    let f ← getText v name
    if (← heap).isCallable f then
      let p ← call f v []
      if p.isObject then primitiveBy v rest else return p
    else primitiveBy v rest

def toPrimitive (hint : Hint) (v : Datum) : Action Datum := do
  match v with
  | .object _ =>
    match ← method? v Key.primitive with
    | some f =>
      let p ← call f v [.text hint.word]
      if p.isObject then typeError "toPrimitive" else return p
    | none =>
      primitiveBy v (if hint == .text then ["toString", "valueOf"] else ["valueOf", "toString"])
  | v => return v

def primitiveText : Datum → Action String
  | .undefined => return "undefined"
  | .null => return "null"
  | .bool b => return if b then "true" else "false"
  | .number x => return Numeric.toText x
  | .text s => return s
  | .symbol _ => typeError "cannot convert symbol to string"
  | .object _ => typeError "toPrimitive"

def toText (v : Datum) : Action String := do
  match v with
  | .text s => return s
  | v => primitiveText (← toPrimitive .text v)

def primitiveNumber : Datum → Action Float
  | .undefined => return Numeric.nan
  | .null => return 0.0
  | .bool b => return if b then 1.0 else 0.0
  | .number x => return x
  | .text s => return Numeric.ofText s
  | .symbol _ => typeError "cannot convert symbol to number"
  | .object _ => typeError "toPrimitive"

def toNumber (v : Datum) : Action Float := do
  match v with
  | .number x => return x
  | v => primitiveNumber (← toPrimitive .number v)

/-- A whole number, with zero for what is not a number. -/
def toWhole (v : Datum) : Action Float := do
  let x ← toNumber v
  return if x.isNaN then 0.0 else Numeric.trunc x

def toKey (v : Datum) : Action Key := do
  match v with
  | .text s => return .text s
  | .symbol id => return .symbol id
  | v =>
    match ← toPrimitive .text v with
    | .symbol id => return .symbol id
    | p => return .text (← primitiveText p)

/-- A place between 0 and `size`; a negative one counts from the end. -/
def toPlace (v : Datum) (size missing : Nat) : Action Nat := do
  match v with
  | .undefined => return missing
  | v =>
    let x ← toWhole v
    let n := Numeric.ofNat size
    let y := if x < 0.0 then x + n else x
    return if y < 0.0 then 0 else if n < y then size else y.toUInt64.toNat

/-- The value under a key that is computed. -/
def getAt (v key : Datum) : Action Datum := do
  let slow : Action Datum := do get v (← toKey key)
  match v, key with
  | .object r, .number x =>
    match (← heap).shape r, Numeric.index? x with
    | .array items _, some i =>
      match items[i]? with
      | some (some item) => return item
      | _ => slow
    | _, _ => slow
  | .undefined, _ | .null, _ => get v (← toKey key)
  | _, _ => slow

/-- The number of places of an array, or of what looks like one. -/
def sizeOf (v : Datum) : Action Nat := do
  match v with
  | .object r =>
    match (← heap).shape r with
    | .array items _ => return items.size
    | _ =>
      let x ← toWhole (← getText v "length")
      return if x ≤ 0.0 then 0 else (min x 9007199254740991.0).toUInt64.toNat
  | .text s => return Units.size s
  | v =>
    let x ← toWhole (← getText v "length")
    return if x ≤ 0.0 then 0 else (min x 9007199254740991.0).toUInt64.toNat

/-! ### Operators -/

def typeName (h : Heap) : Datum → String
  | .undefined => "undefined"
  | .null => "object"
  | .bool _ => "boolean"
  | .number _ => "number"
  | .text _ => "string"
  | .symbol _ => "symbol"
  | .object r => if h.isCallable (.object r) then "function" else "object"

/-- Equality between values of different types. -/
def looselyEqual (a b : Datum) : Action Bool := do
  match a, b with
  | .undefined, .null | .null, .undefined => return true
  | .undefined, _ | .null, _ | _, .undefined | _, .null => return a.same b
  | .object _, .object _ => return a.same b
  | .object _, b => primitivesEqual (← toPrimitive .any a) b
  | a, .object _ => primitivesEqual a (← toPrimitive .any b)
  | a, b => primitivesEqual a b
where
  primitivesEqual (a b : Datum) : Action Bool := do
    match a, b with
    | .undefined, .null | .null, .undefined => return true
    | .undefined, _ | .null, _ | _, .undefined | _, .null => return a.same b
    | .symbol _, _ | _, .symbol _ => return a.same b
    | .text _, .text _ => return a.same b
    | a, b => return (← primitiveNumber a) == (← primitiveNumber b)

/-- Texts get no longer than this. -/
def maxText : Nat := Nat.pow 2 26

/-- One text after another. -/
def joined (a b : String) : Action Datum :=
  if maxText < a.utf8ByteSize + b.utf8ByteSize then rangeError "invalid string length"
  else return .text (Units.append a b)

def plus (a b : Datum) : Action Datum := do
  match a, b with
  | .number x, .number y => return .number (x + y)
  | .text s, .text t => joined s t
  | a, b =>
    let a ← toPrimitive .any a
    let b ← toPrimitive .any b
    match a, b with
    | .text s, b => joined s (← primitiveText b)
    | a, .text t => joined (← primitiveText a) t
    | a, b =>
      let x ← primitiveNumber a
      return .number (x + (← primitiveNumber b))

/-- The order of two values; `none` if there is none. -/
def isLess (leftFirst : Bool) (a b : Datum) : Action (Option Bool) := do
  let (p, q) ← if leftFirst then do
      let p ← toPrimitive .number a
      let q ← toPrimitive .number b
      Pure.pure (p, q)
    else do
      let q ← toPrimitive .number b
      let p ← toPrimitive .number a
      Pure.pure (p, q)
  match p, q with
  | .text s, .text t => return some (Units.less s t)
  | p, q =>
    let x ← primitiveNumber p
    let y ← primitiveNumber q
    return if x.isNaN || y.isNaN then none else some (x < y)

def arithmetic (f : Float → Float → Float) (a b : Datum) : Action Datum := do
  let x ← toNumber a
  let y ← toNumber b
  return .number (f x y)

/-- An operation on the bits of two numbers. -/
def onWords (f : UInt32 → UInt32 → UInt32) (x y : Float) : Float :=
  Numeric.ofSignedWord (f (Numeric.toWord x) (Numeric.toWord y))

/-- A shift to the right that keeps the sign. -/
def shiftSigned (a b : UInt32) : UInt32 :=
  let n := b % 32
  if a < 0x80000000 then a >>> n else ~~~(~~~a >>> n)

def comparison (test : Option Bool → Bool) (leftFirst : Bool) (a b : Datum) : Action Datum := do
  match a, b with
  | .number x, .number y =>
    return .bool (test (if x.isNaN || y.isNaN then none else some (x < y)))
  | a, b => return .bool (test (← isLess leftFirst a b))

/-- The function that a chain of bound ones ends in. -/
def unbound (h : Heap) : (steps : Nat) → Datum → Datum
  | 0, f => f
  | steps + 1, f =>
    match f with
    | .object r => match h.shape r with
      | .bound f _ _ => unbound h steps f
      | _ => f
    | f => f

/-- The value descends from what the function makes. -/
def isInstance (v f : Datum) : Action Bool := do
  match f with
  | .object _ =>
    match ← method? f Key.instanceTest with
    | some test => return (← call test f [v]).isTrue
    | none =>
      let h ← heap
      if !h.isCallable f then typeError "invalid 'instanceof' right operand"
      else
        match v with
        | .object r =>
          match ← getText (unbound h 100 f) "prototype" with
          | .object proto => return (← heap).descends proto (h.objects.size + 1) r
          | _ => typeError "operand 'prototype' property is not an object"
        | _ => return false
  | _ => typeError "invalid 'instanceof' right operand"

def isIn (key v : Datum) : Action Bool := do
  match v with
  | .object r =>
    let k ← toKey key
    return ((← heap).find? r k).isSome
  | _ => typeError "invalid 'in' operand"

def operate (op : BinaryOp) (a b : Datum) : Action Datum := do
  match op with
  | .add => plus a b
  | .sub => arithmetic (· - ·) a b
  | .mul => arithmetic (· * ·) a b
  | .div => arithmetic (· / ·) a b
  | .rem => arithmetic Numeric.remainder a b
  | .pow => arithmetic Numeric.power a b
  | .shiftLeft => arithmetic (onWords fun x n => x <<< (n % 32)) a b
  | .shiftRight => arithmetic (onWords shiftSigned) a b
  | .shiftRightUnsigned =>
    arithmetic (fun x y => Numeric.ofWord (Numeric.toWord x >>> (Numeric.toWord y % 32))) a b
  | .bitAnd => arithmetic (onWords (· &&& ·)) a b
  | .bitOr => arithmetic (onWords (· ||| ·)) a b
  | .bitXor => arithmetic (onWords (· ^^^ ·)) a b
  | .less => comparison (· == some true) true a b
  | .greater => comparison (· == some true) false b a
  | .lessEq => comparison (· == some false) false b a
  | .greaterEq => comparison (· == some false) true a b
  | .equal => return .bool (← looselyEqual a b)
  | .notEqual => return .bool (!(← looselyEqual a b))
  | .same => return .bool (a.same b)
  | .notSame => return .bool (!a.same b)
  | .isIn => return .bool (← isIn a b)
  | .isInstance => return .bool (← isInstance a b)

end Action
end Stencil.Script
