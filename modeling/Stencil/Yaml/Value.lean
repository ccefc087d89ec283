import Stencil.Yaml.Node
import Stencil.Json.Basic
import Stencil.Number.Decimal
/-!
Values of documents. A plain scalar is nothing, a truth value, a number or else a string, as its text
says; a quoted one is a string. Within a value no mapping has a key twice, and values nest at most
128 levels deep.
-/
namespace Stencil.Yaml

inductive Value where
  | null
  | bool (b : Bool)
  | number (n : Json.Number)
  | string (s : String)
  | sequence (items : List Value)
  | mapping (entries : List (Value × Value))
  /-- A value under a tag of its own; the tag is given without its mark. -/
  | tagged (tag : String) (value : Value)
  deriving Repr, BEq

/-- How deep values nest. -/
def maxNesting : Nat := 128

/-! ### Plain scalars -/

def isNull (s : String) : Bool := ["", "null", "Null", "NULL", "~"].contains s

def bool? (s : String) : Option Bool :=
  if ["true", "True", "TRUE"].contains s then some true
  else if ["false", "False", "FALSE"].contains s then some false
  else none

/-- Digits with a zero before them are no number. -/
def isZeroPadded (s : List Char) : Bool :=
  let s := match s with
    | '-' :: s => s
    | '+' :: s => s
    | s => s
  match s with
  | '0' :: d :: s => (d :: s).all Char.isDigit
  | _ => false

/-- Digits after the mark of their base. -/
def based? : List Char → Option Nat
  | '0' :: 'x' :: s => natOfDigits? 16 s
  | '0' :: 'o' :: s => natOfDigits? 8 s
  | '0' :: 'b' :: s => natOfDigits? 2 s
  | _ => none

/-- A whole number: decimal, or in base 16, 8 or 2 after `0x`, `0o` or `0b`. -/
def int? (s : List Char) : Option Int :=
  match s with
  | '-' :: s =>
    match based? s with
    | some n => some (-(n : Int))
    | none => if isZeroPadded s then none else (natOfDigits? 10 s).map fun n => -(n : Int)
  | s =>
    let t := match s with
      | '+' :: t => t
      | t => t
    match based? t with
    | some n => some n
    | none => if isZeroPadded s then none else (natOfDigits? 10 t).map fun n => (n : Int)

/-- A number with a point or a power, an infinity, or the value that is not a number. A decimal too
large for a number is none. -/
def float? (s : String) : Option Binary64 :=
  if [".inf", ".Inf", ".INF", "+.inf", "+.Inf", "+.INF"].contains s then some (.infinity false)
  else if ["-.inf", "-.Inf", "-.INF"].contains s then some (.infinity true)
  else if [".nan", ".NaN", ".NAN"].contains s then some .nan
  else (Binary64.ofText? s.toList).filter (·.isFinite)

/-- The number of a plain scalar, if it is one. A whole number is refused when 64 bits do not hold
it and 128 bits do; a larger one is read as a decimal. -/
def number? (s : String) : Option (Option Json.Number) :=
  let large := (float? s).filter fun _ => !isZeroPadded s.toList
  match int? s.toList with
  | some n =>
    if -Int.pow 2 63 ≤ n && n < Int.pow 2 64 then some (some (.int n))
    else if -Int.pow 2 127 ≤ n && n < Int.pow 2 128 then none
    else some (large.map .float)
  | none => some (large.map .float)

/-- What a plain scalar stands for. -/
def plain? (s : String) : Option Value :=
  if isNull s then some .null
  else match bool? s with
    | some b => some (.bool b)
    | none => (number? s).map fun
      | some n => .number n
      | none => .string s

/-! ### Tags -/

/-- The tag of a value of its own: what stands after the mark. -/
def ownTag? (tag : Option String) : Option String :=
  match tag.map String.toList with
  | some ('!' :: name) => some (String.ofList name)
  | _ => none

/-- A scalar with a tag of the format itself. Tags other than those of the scalars that are not
strings make it a string. -/
def formatTagged? (tag text : String) : Option Value :=
  if tag == "tag:yaml.org,2002:bool" then (bool? text).map .bool
  else if tag == "tag:yaml.org,2002:int" then do
    match int? text.toList with
    | some n =>
      if -Int.pow 2 63 ≤ n && n < Int.pow 2 64 then some (.number (.int n)) else none
    | none => none
  else if tag == "tag:yaml.org,2002:float" then (float? text).map fun x => .number (.float x)
  else if tag == "tag:yaml.org,2002:null" then (if isNull text && text != "" then some .null else none)
  else some (.string text)

def scalar? (tag : Option String) (plain : Bool) (text : String) : Option Value :=
  match tag, ownTag? tag with
  | some t, none => formatTagged? t text
  | _, _ => if plain then plain? text else some (.string text)

/-- Puts a value under its tag, if that is one of its own; such a tag has a name. -/
def underTag (tag : Option String) (v : Value) : Option Value :=
  match ownTag? tag with
  | some "" => none
  | some name => some (.tagged name v)
  | none => some v

/-- No key stands twice. -/
def distinctKeys : List (Value × Value) → Bool
  | [] => true
  | (k, _) :: rest => !rest.any (fun e => e.1 == k) && distinctKeys rest

mutual

/-- The value of a node; `left` is the number of levels that may still open. -/
def Node.value? (left : Nat) : Node → Option Value
  | .scalar tag plain text => do underTag tag (← scalar? tag plain text)
  | .sequence tag items =>
    if left = 0 then none else do underTag tag (.sequence (← values? (left - 1) items))
  | .mapping tag entries =>
    if left = 0 then none
    else do
      let entries ← entries? (left - 1) entries
      if distinctKeys entries then underTag tag (.mapping entries) else none

def values? (left : Nat) : List Node → Option (List Value)
  | [] => some []
  | n :: rest => do return (← n.value? left) :: (← values? left rest)

def entries? (left : Nat) : List (Node × Node) → Option (List (Value × Value))
  | [] => some []
  | (k, v) :: rest => do return (← k.value? left, ← v.value? left) :: (← entries? left rest)

end

/-- The text of a scalar that is a key of the outermost mapping. -/
def Node.keyText? : Node → Option String
  | .scalar _ _ text => some text
  | _ => none

/-- The values of a document that is a mapping: keys are the texts of scalars, a later entry of a
key replaces an earlier one, and a document of nothing has no entries. -/
def valuesOfText? (text : String) : Option (Assoc Value) := do
  match ← Node.ofText? text with
  | none => some []
  | some (.scalar _ true "") => some []
  | some (.mapping _ entries) =>
    let entries ← entries.mapM fun (k, v) => do
      return (← k.keyText?, ← v.value? (maxNesting - 1))
    return Assoc.ofList entries
  | some _ => none

/-! ### As JSON -/

/-- The text of a scalar as a key of an object. -/
def Value.keyText? : Value → Option String
  | .bool b => some (if b then "true" else "false")
  | .number n => some n.toText
  | .string s => some s
  | _ => none

mutual

/-- A value as JSON; none when a key is not a scalar. A tagged value is an object of one entry, and
an infinity is null. -/
def Value.json? : Value → Option Json
  | .null => some .null
  | .bool b => some (.bool b)
  | .number (.float x) => some (if x.isFinite then .number (.float x) else .null)
  | .number n => some (.number n)
  | .string s => some (.string s)
  | .sequence items => do return .array (← jsonItems? items)
  | .mapping entries => do return .object (Assoc.ofList (← jsonEntries? entries))
  | .tagged tag v => do return .object [("!" ++ tag, ← v.json?)]

def jsonItems? : List Value → Option (List Json)
  | [] => some []
  | v :: rest => do return (← v.json?) :: (← jsonItems? rest)

def jsonEntries? : List (Value × Value) → Option (List (String × Json))
  | [] => some []
  | (k, v) :: rest => do return (← k.keyText?, ← v.json?) :: (← jsonEntries? rest)

end

end Stencil.Yaml
