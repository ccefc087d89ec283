import Stencil.Component.Expansion
/-!
Expansion as a rewriting of trees. Nothing is moved here: a tree is read from its root down, and what
stands in the place of each node is said at once. Slots are filled from an environment, so the
content of a slot is rewritten where it was written, by those who wrote it.
-/
namespace Stencil
open Markup

/-- A tree with the values that expansion knows of its nodes. -/
inductive Sketch (η : Type) where
  /-- `rich` has the values of attributes that are more than text; `slot` names the slot, if the node
  is one that will be filled. -/
  | node (content : Content) (rich : Values) (slot : Option η) (children : List (Sketch η))

/-- A child of a host, as a slot gets it. -/
structure Light where
  /-- The slot that the child is assigned to. -/
  slot : String
  blank : Bool
  trees : List Tree

/-- What a slot is filled with; blanks alone do not count. -/
def Light.content (children : List Light) (name : String) : Option (List Tree) :=
  let own := children.filter (·.slot = name)
  if own.all (·.blank) then none else some (own.flatMap (·.trees))

namespace Markup

/-- The slot that a child of a host names. -/
def Content.slotName (c : Content) : String :=
  Markup.slotName (c.element?.bind fun e => (e.attribute? "slot").bind (·.value))

def Content.isBlank (c : Content) : Bool := c.text?.any Text.isBlankText

def Content.withoutSlot : Content → Content
  | .element e => .element (e.eraseAttr "slot")
  | c => c

def Content.isSlot (c : Content) : Bool := c.element?.any (·.name == "slot")

end Markup

namespace Sketch
variable {η : Type}

mutual

/-- The tree as it is. -/
def tree : Sketch η → Tree
  | node c _ _ ts => .node c (trees ts)

def trees : List (Sketch η) → List Tree
  | [] => []
  | t :: ts => t.tree :: trees ts

end

mutual

/-- A tree whose nodes have nothing but their content. -/
def ofTree : Tree → Sketch η
  | .node c ts => node c [] none (ofTrees ts)

def ofTrees : List Tree → List (Sketch η)
  | [] => []
  | t :: ts => ofTree t :: ofTrees ts

end

/-! ### The rewriting -/

/-- Makes the trees of an instance from its host: the element, its rich values, and its children. -/
abbrev Maker := Element → Values → List Light → Option (List Tree)

mutual

/-- The trees that take the place of a node. A child of a host loses its `slot` attribute before. -/
def rewrite (make : Maker) (fill : η → Option (List Tree)) (light : Bool) :
    Sketch η → List Tree
  | node _ _ (some slot) ts => (fill slot).getD (rewriteAll make fill ts)
  | node c rich none ts =>
    let c := if light then c.withoutSlot else c
    match c with
    | .element e =>
      if e.name = "slot" then [.node c (trees ts)]
      else
        match if e.isCustom then make e rich (lights make fill ts) else none with
        | some made => made
        | none => [.node c (rewriteAll make fill ts)]
    | _ => [.node c (rewriteAll make fill ts)]

def rewriteAll (make : Maker) (fill : η → Option (List Tree)) : List (Sketch η) → List Tree
  | [] => []
  | t :: ts => rewrite make fill false t ++ rewriteAll make fill ts

/-- The children of a host. -/
def lights (make : Maker) (fill : η → Option (List Tree)) : List (Sketch η) → List Light
  | [] => []
  | node c rich slot ts :: rest =>
    ⟨c.slotName, c.isBlank, rewrite make fill true (node c rich slot ts)⟩ :: lights make fill rest

end

/-! ### Templates with their values -/

/-- Which value an attribute of a custom element keeps beside its text. -/
abbrev Keep := Values → List Token → String → Option Value

/-- Puts values into the value of an attribute. -/
def fillSite (keep : Keep) (values : Values) : Element × Values → AttributeSite → Element × Values
  | (e, rich), site =>
    match e.attr? site.name with
    | none => (e, rich)
    | some text =>
      (e.setAttr site.name (Expansion.fillAttribute values site.tokens text),
        match if e.isCustom then keep values site.tokens text else none with
        | some v => rich.put site.name v
        | none => rich)

/-- Puts values into the attributes of an element, and takes away its `ref`. -/
def fillElement (keep : Keep) (values : Values) (e : Element) : Element × Values :=
  let (filled, rich) := (Sites.ofAttributes 0 e).foldl (fillSite keep values) (e, [])
  (filled.eraseAttr "ref", rich)

mutual

/-- The texts of a value. Markup and components have none. -/
def valueTexts : Value → List String
  | .text s => [Entity.escapeText s]
  | .markup _ => []
  | .component _ _ => []
  | .list items => itemTexts items

def itemTexts : List Value → List String
  | [] => []
  | v :: rest => valueTexts v ++ itemTexts rest

end

def pieceTexts : Expansion.Piece → List String
  | .literal s => if s.isEmpty then [] else [s]
  | .value v => valueTexts v

/-- The texts that a text becomes when values are put into its tokens. It stays one text unless a list
is put into it. -/
def fillTokens (values : Values) (tokens : List Token) (raw : Bool) (s : String) : List String :=
  let ps := Expansion.pieces values tokens s.toList
  if ps.all (·.isPlain raw) then [String.join (ps.map (·.text raw))] else ps.flatMap pieceTexts

def fillText (values : Values) (raw : Bool) (s : String) : List String :=
  fillTokens values (Token.ofText s) raw s

mutual

/-- A part of a template with its values; `raw` tells whether texts are taken as they are. -/
def fillTree (keep : Keep) (values : Values) (raw : Bool) : Tree → List (Sketch String)
  | .node (.text s) _ => (fillText values raw s).map fun s => node (.text s) [] none []
  | .node (.element e) ts =>
    let (filled, rich) := fillElement keep values e
    let slot := if e.name = "slot" then some (slotName (e.attr? "name")) else none
    [node (.element filled) rich slot
      (fillTrees keep values (Expansion.rawParents.contains e.name) ts)]
  | .node c ts => [node c [] none (fillTrees keep values false ts)]

def fillTrees (keep : Keep) (values : Values) (raw : Bool) : List Tree → List (Sketch String)
  | [] => []
  | t :: ts => fillTree keep values raw t ++ fillTrees keep values raw ts

end

/-- The values of an instance: those of the page, and over them those of the attributes. -/
def hostValues (document : Values) (e : Element) (rich : Values) : Values :=
  (Expansion.hostValues e rich).foldl Expansion.putHostValue document

/-- Makes instances of the components of a library, nested at most `depth` levels deep. -/
def make (keep : Keep) (library : Library) (document : Values) : (depth : Nat) → Maker
  | 0, _, _, _ => none
  | depth + 1, e, rich, children =>
    (library.component? e.name).map fun c =>
      rewriteAll (make keep library document depth) (Light.content children)
        (fillTrees keep (hostValues document e rich) false c.document.tree.children)

end Sketch

/-- The tree of a page whose instances have been made. -/
def Markup.Page.rewritten (keep : Sketch.Keep) (library : Library) (depth : Nat) (page : Page) :
    Tree :=
  .node page.document.tree.content
    (Sketch.rewriteAll (Sketch.make keep library (Values.ofDocument page.values) depth) Empty.elim
      (Sketch.ofTrees page.document.tree.children))

end Stencil
