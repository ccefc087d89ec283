import Stencil.Markup.Arena
import Stencil.Markup.Token
/-!
The places of a tree that expansion acts on: custom elements, elements with a `ref` attribute,
slots, and, in templates, tokens in text and in values of attributes. All are listed in document
order, by the number of the node when the tree is laid out from a first number on.
-/
namespace Stencil.Markup

/-- Tokens have a meaning in templates alone. -/
inductive Mode where
  | page
  | template
  deriving DecidableEq, Repr

structure AttributeSite where
  node : NodeId
  name : String
  tokens : List Token
  deriving DecidableEq, Repr

structure TextSite where
  node : NodeId
  tokens : List Token
  deriving DecidableEq, Repr

structure Sites where
  attributes : List AttributeSite := []
  texts : List TextSite := []
  refs : List NodeId := []
  customs : List NodeId := []
  /-- Slots by name; no name stands twice. -/
  slots : List (String × NodeId) := []
  deriving DecidableEq, Repr

/-- The slot that content without a name goes to. -/
def defaultSlot : String := "default"

/-- A name that is given and not empty, or else the default one. -/
def slotName (name : Option String) : String := (name.filter (!·.isEmpty)).getD defaultSlot

namespace Sites

/-- Tokens in the values of an element's attributes. -/
def ofAttributes (node : NodeId) (e : Element) : List AttributeSite :=
  e.attributes.filterMap fun a =>
    match Token.ofText (a.value.getD "") with
    | [] => none
    | tokens => some ⟨node, a.name, tokens⟩

def attributesOf : NodeId × Content → List AttributeSite
  | (node, .element e) => ofAttributes node e
  | _ => []

def textOf : NodeId × Content → Option TextSite
  | (node, .text s) =>
    match Token.ofText s with
    | [] => none
    | tokens => some ⟨node, tokens⟩
  | _ => none

/-- The node when its element is of the class. -/
def elementOf (p : Element → Bool) : NodeId × Content → Option NodeId
  | (node, .element e) => if p e then some node else none
  | _ => none

def slotOf : NodeId × Content → Option (String × NodeId)
  | (node, .element e) => if e.name = "slot" then some (slotName (e.attr? "name"), node) else none
  | _ => none

/-- The first name that stands a second time. -/
def firstRepeated? (seen : List String) : List (String × NodeId) → Option String
  | [] => none
  | (name, _) :: rest =>
    if seen.contains name then some name else firstRepeated? (name :: seen) rest

/-- The sites among numbered contents. -/
def ofNumbered (mode : Mode) (nodes : List (NodeId × Content)) : Except Error Sites :=
  let slots := nodes.filterMap slotOf
  match firstRepeated? [] slots with
  | some name => .error (.duplicateSlot name)
  | none => .ok {
      attributes := if mode = .template then nodes.flatMap attributesOf else []
      texts := if mode = .template then nodes.filterMap textOf else []
      refs := nodes.filterMap (elementOf (·.hasAttr "ref"))
      customs := nodes.filterMap (elementOf (·.isCustom))
      slots }

/-- The nodes of a tree with their numbers when it is laid out from `first` on. -/
def numbered (first : NodeId) (t : Tree) : List (NodeId × Content) :=
  t.contents.zipIdx first |>.map fun (c, id) => (id, c)

/-- The sites of a tree that is laid out from 0 on. -/
def ofTree (mode : Mode) (t : Tree) : Except Error Sites := ofNumbered mode (numbered 0 t)

/-- The sites of a tree that is laid out `offset` numbers later. -/
def shift (sites : Sites) (offset : Nat) : Sites where
  attributes := sites.attributes.map fun s => { s with node := offset + s.node }
  texts := sites.texts.map fun s => { s with node := offset + s.node }
  refs := sites.refs.map (offset + ·)
  customs := sites.customs.map (offset + ·)
  slots := sites.slots.map fun (name, node) => (name, offset + node)

end Sites

/-- A tree with its sites. -/
structure Document where
  tree : Tree
  sites : Sites
  deriving Repr

namespace Document

/-- The document of a source. -/
def ofSource (mode : Mode) (rules : List IgnoreRule) (source : String) : Except Error Document := do
  let tree := Tree.ofSource rules source
  return ⟨tree, ← Sites.ofTree mode tree⟩

/-- Names of the custom elements, each at its first use. -/
def uses (d : Document) : List String :=
  (d.tree.contents.filterMap fun c =>
    (c.element?.filter (·.isCustom)).map (·.name)).foldl
      (fun names n => if names.contains n then names else names ++ [n]) []

end Document
end Stencil.Markup
