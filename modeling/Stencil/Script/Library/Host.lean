import Stencil.Component.Value
import Stencil.Json.Reader
import Stencil.Script.Library.Notation
import Stencil.Script.Library.Number
/-!
What scripts are given besides the functions of the language: values that stand for markup and
components, the methods of plugins, and a console. Also the functions that belong to no object.
-/
namespace Stencil.Script.Library
open Action

/-- The text of a value where a text is asked for by name. -/
def asText (v : Datum) : Action String := do
  match v with
  | .symbol id => return symbolText (← heap) id
  | v => toText v

def escapedChar (c : Char) : List Char :=
  if c == '&' then "&amp;".toList
  else if c == '<' then "&lt;".toList
  else if c == '>' then "&gt;".toList
  else if c == '"' then "&quot;".toList
  else if c == '\'' then "&#39;".toList
  else [c]

def hostMethods : Methods := [
  ("createComponent", fun _ args => do
    let values ← match arg args 1 with
      | .undefined => newPlain []
      | v => pure v
    let id ← asText (arg args 0)
    newRecord [(Value.componentMark, .text id), ("values", values)]),
  ("html", fun _ args => do newRecord [(Value.markupMark, .text (← asText (arg args 0)))]),
  ("escape", fun _ args => do
    return .text (String.ofList ((← asText (arg args 0)).toList.flatMap escapedChar)))]

/-! ### Plugins -/

/-- Calls the method of a plugin. What it takes and gives is JSON. -/
def callPlugin (name : String) (args : List Datum) : Action Datum := do
  let refuse := fun (message : String) =>
    (fail Heap.errorProto ("plugin " ++ name ++ ": " ++ message) : Action Datum)
  let text ← textOf {} (← newArray args)
  match text.bind Json.read?, (← heap).plugins.lookup name with
  | some (.array items), some method =>
    match method items with
    | .ok j => ofJson j
    | .error message => refuse message
  | _, _ => refuse "malformed arguments"

/-! ### The console -/

/-- The text of a value in a line of the console. -/
def shown (v : Datum) : Action String := do
  match v with
  | .undefined => return "undefined"
  | .null => return "null"
  | .bool b => return if b then "true" else "false"
  | .number x => return Numeric.placedText x
  | .text s => return if s.any fun c => (Units.alone? c).isSome then "" else s
  | .symbol _ => return "[Object]"
  | .object r =>
    if (← heap).isCallable (.object r) then return "[Function]"
    else
      match ← attempt (do return .normal (((← textOf {} v).map Datum.text).getD .undefined)) with
      | .ok (.normal (.text s)) => return s
      | _ => return "[Object]"

def logAt (level : LogLevel) : Method := fun _ args => do
  let texts ← forAll shown args
  modify (·.log ⟨level, "[script] " ++ String.intercalate " " texts⟩)
  return .undefined

def consoleMethods : Methods := [
  ("log", logAt .info), ("info", logAt .info), ("warn", logAt .warn), ("error", logAt .error),
  ("debug", logAt .debug)]

/-! ### Functions that belong to no object -/

/-- Characters that stand for themselves in a part of an address. -/
def partMarks : String := "-_.!~*'()"

/-- Characters that stand for themselves in an address. -/
def addressMarks : String := partMarks ++ ";/?:@&=+$,#"

def byteText (b : UInt8) : List Char :=
  let ds := Numeric.wholeDigits 16 2 b.toNat []
  '%' :: (List.replicate (2 - ds.length) '0' ++ ds).map Char.toUpper

def encode (marks : String) : Method := fun _ args => do
  let s ← toText (arg args 0)
  if s.any fun c => (Units.alone? c).isSome then
    fail Heap.locatorErrorProto "expecting surrogate pair"
  else
    return .text (String.ofList (s.toList.flatMap fun c =>
      if c.isAlphanum || marks.toList.contains c then [c]
      else (String.singleton c).toUTF8.toList.flatMap byteText))

/-- The bytes of a text, where `%` stands before one in hexadecimal digits. -/
def decodedBytes (kept : String) : List Char → Option (List UInt8)
  | '%' :: a :: b :: rest => do
    let n ← natOfDigits? 16 [a, b]
    let after ← decodedBytes kept rest
    if n < 128 && kept.toList.contains (Char.ofNat n) then
      return (String.ofList ['%', a, b]).toUTF8.toList ++ after
    else return UInt8.ofNat n :: after
  | '%' :: _ => none
  | c :: rest => do return (String.singleton c).toUTF8.toList ++ (← decodedBytes kept rest)
  | [] => some []

def decode (kept : String) : Method := fun _ args => do
  let s ← toText (arg args 0)
  match (decodedBytes kept s.toList).bind fun bs => String.fromUTF8? bs.toByteArray with
  | some t => return .text t
  | none => fail Heap.locatorErrorProto "malformed UTF-8"

def globalMethods : Methods := [
  ("parseInt", parseWhole),
  ("parseFloat", parseNumber),
  ("isNaN", fun _ args => do return .bool (← toNumber (arg args 0)).isNaN),
  ("isFinite", fun _ args => do return .bool (← toNumber (arg args 0)).isFinite),
  ("encodeURIComponent", encode partMarks),
  ("encodeURI", encode addressMarks),
  ("decodeURIComponent", decode ""),
  ("decodeURI", decode ";/?:@&=+$,#"),
  ("queueMicrotask", fun _ args => do
    let f ← callback args 0
    modify (·.addJob (.react (.handle f .undefined none) false .undefined))
    return .undefined)]

/-! ### Errors -/

def errorMethods : Methods := [
  ("toString", fun this _ => do
    if !this.isObject then typeError "not an object"
    let name ← match ← getText this "name" with
      | .undefined => pure "Error"
      | v => toText v
    let message ← match ← getText this "message" with
      | .undefined => pure ""
      | v => toText v
    return .text (if name.isEmpty then message else if message.isEmpty then name
      else name ++ ": " ++ message))]

def makeError (args : List Datum) (proto : Ref) : Action Datum := do
  let e ← newObject { proto := some proto, shape := .error }
  match arg args 0 with
  | .undefined => pure ()
  | v => defineOn e (.text "message") (.quiet (.text (← toText v)))
  match arg args 1 with
  | .object r =>
    if ((← heap).find? r (.text "cause")).isSome then
      defineOn e (.text "cause") (.quiet (← getText (.object r) "cause"))
  | _ => pure ()
  return e

end Stencil.Script.Library
