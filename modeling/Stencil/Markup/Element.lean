import Stencil.Markup.Name
/-!
Elements and their attributes. Attributes keep their order; an attribute written without a value
differs from one with an empty value only in how it is written.
-/
namespace Stencil.Markup

structure Attribute where
  name : String
  value : Option String := none
  deriving DecidableEq, Repr

structure Element where
  name : String
  attributes : List Attribute := []
  deriving DecidableEq, Repr

namespace Element

/-- Elements that have neither content nor an end tag. -/
def voidNames : List String :=
  ["area", "base", "br", "col", "embed", "hr", "img", "input", "link", "meta", "param", "source",
    "track", "wbr"]

/-- Elements whose content is text up to their own end tag. -/
def verbatimNames : List String := ["script", "style", "textarea", "title"]

def isVoid (e : Element) : Bool := voidNames.contains e.name

def isVerbatim (e : Element) : Bool := verbatimNames.contains e.name

/-- The element stands for a component. -/
def isCustom (e : Element) : Bool := Name.isCustom e.name

/-- The first attribute of a name. -/
def attribute? (e : Element) (name : String) : Option Attribute :=
  e.attributes.find? (·.name == name)

/-- The value of an attribute; one written without a value has the empty one. -/
def attr? (e : Element) (name : String) : Option String :=
  (e.attribute? name).map (·.value.getD "")

def hasAttr (e : Element) (name : String) : Bool := e.attributes.any (·.name == name)

/-- The first attribute of the name gets the value. -/
def assign (name value : String) : List Attribute → List Attribute
  | [] => [⟨name, some value⟩]
  | a :: rest =>
    if a.name = name then ⟨name, some value⟩ :: rest else a :: assign name value rest

/-- The attribute gets the value in its place, or is added as the last one. -/
def setAttr (e : Element) (name value : String) : Element :=
  { e with attributes := assign name value e.attributes }

/-- The element without the first attribute of the name. -/
def eraseAttr (e : Element) (name : String) : Element :=
  { e with attributes := e.attributes.eraseP (·.name == name) }

end Element

/-- An element that a rule matches is left out of the tree. A rule may ask for a name, for the
presence of an attribute, or for both; a rule that asks for nothing matches nothing. -/
structure IgnoreRule where
  tag : Option String := none
  attr : Option String := none
  deriving DecidableEq, Repr

def IgnoreRule.matches (r : IgnoreRule) (e : Element) : Bool :=
  (r.tag.isSome || r.attr.isSome) &&
    r.tag.all (· == e.name) && r.attr.all e.hasAttr

end Stencil.Markup
