import Stencil.Json.Reader
import Stencil.Json.Writer
import Stencil.Script.Library.Basic
/-!
JSON texts of script values. What has no place in JSON is left out; a unit that is half of a character
is escaped.
-/
namespace Stencil.Script.Library
open Action

/-! ### Writing -/

def quotedChar (c : Char) : List Char :=
  match Units.alone? c with
  | some u => '\\' :: 'u' :: Json.hex4 u
  | none => Json.writeChar c

def quotedText (s : String) : String :=
  String.ofList ('"' :: s.toList.flatMap quotedChar ++ ['"'])

structure Notation where
  /-- A function that gives the values that are written. -/
  replacer : Option Datum := none
  /-- The names that are written. -/
  names : Option (List String) := none
  /-- What a level is indented with. -/
  gap : String := ""

/-- The parts of a list or an object between its brackets. -/
def bracketed (n : Notation) (indent opening closing : String) (parts : List String) : String :=
  if parts.isEmpty then opening ++ closing
  else if n.gap.isEmpty then opening ++ String.intercalate "," parts ++ closing
  else
    let inner := "\n" ++ indent ++ n.gap
    opening ++ inner ++ String.intercalate ("," ++ inner) parts ++ "\n" ++ indent ++ closing

/-- The value that is written for a member. -/
def written (n : Notation) (holder : Datum) (key : String) (v : Datum) : Action Datum := do
  let v ← match v with
    | .object _ => do
      let f ← getText v "toJSON"
      if (← heap).isCallable f then call f v [.text key] else pure v
    | v => pure v
  match n.replacer with
  | some f => call f holder [.text key, v]
  | none => return v

/-- The text of a value, unless it has none. An object must not stand within itself. -/
def write (n : Notation) : (fuel : Nat) → (holder : Datum) → (key : String) → Datum →
    (indent : String) → (above : List Ref) → Action (Option String)
  | 0, _, _, _, _, _ => rangeError "Maximum call stack size exceeded"
  | fuel + 1, holder, key, v, indent, above => do
    let v ← written n holder key v
    let h ← heap
    match unboxed v h with
    | .null => return some "null"
    | .bool b => return some (if b then "true" else "false")
    | .number x => return some (if x.isFinite then Numeric.toText x else "null")
    | .text s => return some (quotedText s)
    | .object r =>
      if h.isCallable (.object r) then return none
      if above.contains r then typeError "circular reference"
      let above := r :: above
      let inner := indent ++ n.gap
      if h.isArray (.object r) then
        let items ← placesOf (.object r)
        let parts ← forAll (fun (item, i) => do
          let s ← write n fuel (.object r) (toString i) item inner above
          return s.getD "null") items.zipIdx
        return some (bracketed n indent "[" "]" parts)
      else
        let names := n.names.getD (h.listedNames r)
        let parts ← forAll (fun name => do
          let item ← getText (.object r) name
          let s ← write n fuel (.object r) name item inner above
          let colon := if n.gap.isEmpty then ":" else ": "
          return s.map fun s => quotedText name ++ colon ++ s) names
        return some (bracketed n indent "\x7b" "\x7d" (parts.filterMap id))
    | _ => return none

/-- How deep values may nest. -/
def maxNesting : Nat := 2000

/-- The text of a value, unless it has none. -/
def textOf (n : Notation) (v : Datum) : Action (Option String) := do
  let holder ← newRecord [("", v)]
  write n maxNesting holder "" v "" []

/-- The gap that an argument asks for. -/
def gapOf (v : Datum) : Action String := do
  match unboxed v (← heap) with
  | .number x => return String.ofList (List.replicate (min 10 x.toUInt64.toNat) ' ')
  | .text s => return Units.slice s 0 10
  | _ => return ""

/-- The names that a list asks for. -/
def namesOf (v : Datum) : Action (List String) := do
  let items ← placesOf v
  let h ← heap
  let texts ← forAll (fun item => do
    match unboxed item h with
    | .text s => return some s
    | .number x => return some (Numeric.toText x)
    | _ => return none) items
  return (texts.filterMap id).eraseDups

/-! ### Reading -/

def numberOf : Json.Number → Float
  | .int n => Numeric.ofInt n
  | .float x => Numeric.ofBinary x

mutual

/-- The script value of a JSON value. -/
def ofJson : Json → Action Datum
  | .null => return .null
  | .bool b => return .bool b
  | .number n => return .number (numberOf n)
  | .string s => return .text s
  | .array items => do newArray (← ofItems items)
  | .object entries => do newRecord (← ofEntries entries)

def ofItems : List Json → Action (List Datum)
  | [] => return []
  | j :: rest => do
    let v ← ofJson j
    return v :: (← ofItems rest)

def ofEntries : List (String × Json) → Action (List (String × Datum))
  | [] => return []
  | (k, j) :: rest => do
    let v ← ofJson j
    return (k, v) :: (← ofEntries rest)

end

/-- Lets a function give the values that are read, the inner ones first. -/
def revive (f : Datum) : (fuel : Nat) → (holder : Datum) → (key : String) → Action Datum
  | 0, _, _ => rangeError "Maximum call stack size exceeded"
  | fuel + 1, holder, key => do
    let v ← getText holder key
    match v with
    | .object r =>
      forEach (fun name => do
        match ← revive f fuel v name with
        | .undefined => delete v (.text name)
        | x => defineOn v (.text name) (.ofValue x)) ((← heap).listedNames r)
    | _ => pure ()
    call f holder [.text key, v]

def jsonMethods : Methods := [
  ("stringify", fun _ args => do
    let h ← heap
    let replacer := arg args 1
    let names ← if h.isArray replacer then some <$> namesOf replacer else pure none
    let n : Notation := {
      replacer := if h.isCallable replacer then some replacer else none
      names
      gap := ← gapOf (arg args 2) }
    match ← textOf n (arg args 0) with
    | some s => return .text s
    | none => return .undefined),
  ("parse", fun _ args => do
    match Json.read? (← toText (arg args 0)) with
    | none => syntaxError "unexpected token"
    | some j =>
      let v ← ofJson j
      if (← heap).isCallable (arg args 1) then
        revive (arg args 1) maxNesting (← newRecord [("", v)]) ""
      else return v)]

end Stencil.Script.Library
