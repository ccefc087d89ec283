import Stencil.Json.Basic
import Stencil.Yaml.Value
/-!
Values that tokens are replaced with: text, markup, a component yet to be made, or a list of those.
As JSON, markup and components are objects that a key of their own marks.
-/
namespace Stencil

inductive Value where
  | text (s : String)
  | markup (s : String)
  | component (id : String) (values : List (String × Value))
  | list (items : List Value)
  deriving Inhabited, Repr

abbrev Values := Assoc Value

/-- A value of a script that is an object without a mark, by the key that it is under. -/
structure UnknownObject where
  key : String
  deriving DecidableEq, Repr

namespace Value

/-- Marks the text of markup. -/
def markupMark : String := "__tessera_html"

/-- Marks the id of a component. -/
def componentMark : String := "__tessera_component"

/-- The value of a text under a key, if there is one. -/
def textUnder? (key : String) (entries : List (String × Json)) : Option String :=
  (Assoc.get? entries key).bind Json.string?

mutual

/-- The value that JSON gives; null gives none. -/
def ofJson? (key : String) : Json → Except UnknownObject (Option Value)
  | .null => .ok none
  | .string s => .ok (some (.text s))
  | .bool b => .ok (some (.text (if b then "true" else "false")))
  | .number n => .ok (some (.text n.toText))
  | .array items => do return some (.list (← ofItems key items))
  | .object entries => do
    match textUnder? markupMark entries with
    | some s => return some (.markup s)
    | none =>
      match textUnder? componentMark entries with
      | some id => return some (.component id (← ofNested entries))
      | none => throw ⟨key⟩

def ofItems (key : String) : List Json → Except UnknownObject (List Value)
  | [] => .ok []
  | j :: rest => do
    let v ← ofJson? key j
    return v.toList ++ (← ofItems key rest)

/-- The values of a component: the first entry under `values`, if that is an object. -/
def ofNested : List (String × Json) → Except UnknownObject (List (String × Value))
  | [] => .ok []
  | (key, j) :: rest =>
    if key = "values" then
      match j with
      | .object inner => ofEntries inner
      | _ => .ok []
    else ofNested rest

/-- The values of the entries of an object; an entry of null has none. -/
def ofEntries : List (String × Json) → Except UnknownObject (List (String × Value))
  | [] => .ok []
  | (key, j) :: rest => do
    let v ← ofJson? key j
    return v.toList.map (key, ·) ++ (← ofEntries rest)

end

mutual

def toJson : Value → Json
  | text s => .string s
  | markup s => .object [(markupMark, .string s)]
  | component id values =>
    .object [(componentMark, .string id), ("values", .object (entriesToJson values))]
  | list items => .array (itemsToJson items)

def itemsToJson : List Value → List Json
  | [] => []
  | v :: rest => v.toJson :: itemsToJson rest

def entriesToJson : List (String × Value) → List (String × Json)
  | [] => []
  | (key, v) :: rest => (key, v.toJson) :: entriesToJson rest

end

mutual

/-- A value as plain text, for the value of an attribute. -/
def plain : Value → String
  | text s => s
  | markup s => s
  | component id _ => "<" ++ id ++ "></" ++ id ++ ">"
  | list items => plainAll items

def plainAll : List Value → String
  | [] => ""
  | v :: rest => v.plain ++ plainAll rest

end

def text? : Value → Option String
  | text s => some s
  | _ => none

mutual

/-- The value of a document value. Mappings have none. -/
def ofDocument? : Json → Option Value
  | .null => none
  | .object _ => none
  | .string s => some (.text s)
  | .bool b => some (.text (if b then "true" else "false"))
  | .number n => some (.text n.toText)
  | .array items => some (.list (ofDocumentItems items))

def ofDocumentItems : List Json → List Value
  | [] => []
  | j :: rest => (ofDocument? j).toList ++ ofDocumentItems rest

end
end Value

namespace Values

/-- The values of an object of JSON. -/
def ofJson? (entries : List (String × Json)) : Except UnknownObject Values :=
  Value.ofEntries entries

def toJson (values : Values) : Json := .object (Value.entriesToJson values)

/-- The values that a page declares. Those that JSON cannot hold are left out. -/
def ofDocument (declared : Assoc Yaml.Value) : Values :=
  declared.filterMap fun (key, v) => (v.json?.bind Value.ofDocument?).map (key, ·)

end Values
end Stencil
