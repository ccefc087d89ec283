import Stencil.Markup.Tree
import Stencil.Markup.Builder
import Stencil.Text.Blank
/-!
A store of nodes that can be moved. A node is known by its number; it names its parent and its
children. The store only grows: a node that is taken out of its place stays, detached, and may be
put into another place. Node 0 is the root. `tree` is the view of the store that all reading goes
through; the numbers of the nodes do not show in it.
-/
namespace Stencil.Markup

abbrev NodeId := Nat

structure Node where
  content : Content
  parent : Option NodeId := none
  children : List NodeId := []
  deriving DecidableEq, Repr

structure Arena where
  nodes : Array Node

/-! ### The nodes of a tree -/

/-- Numbers of the roots of trees that are laid out one after the other from `id` on. -/
def Tree.rootIds (id : NodeId) : List Tree → List NodeId
  | [] => []
  | t :: ts => id :: rootIds (id + t.size) ts

mutual

/-- The nodes of a tree in document order, numbered from `id` on. -/
def Tree.layout (parent : Option NodeId) (id : NodeId) : Tree → List Node
  | .node c ts => ⟨c, parent, Tree.rootIds (id + 1) ts⟩ :: Tree.layoutAll (some id) (id + 1) ts

def Tree.layoutAll (parent : Option NodeId) (id : NodeId) : List Tree → List Node
  | [] => []
  | t :: ts => t.layout parent id ++ Tree.layoutAll parent (id + t.size) ts

end

namespace Arena

/-- A store that holds a root alone. -/
def empty : Arena := ⟨#[⟨.root, none, []⟩]⟩

/-- The number of the root. -/
def root : NodeId := 0

/-- How many nodes there are, those without a place included. -/
def size (a : Arena) : Nat := a.nodes.size

/-- A store that holds one tree. -/
def ofTree (t : Tree) : Arena := ⟨(t.layout none 0).toArray⟩

/-- Adds a tree without a place in document order; its root gets the first free number. -/
def graft (a : Arena) (t : Tree) : NodeId × Arena :=
  (a.size, ⟨a.nodes ++ (t.layout none a.size).toArray⟩)

/-- A store that holds what a source holds; elements left out of the tree have no place. -/
def ofSource (s : Source) : Arena := s.dropped.foldl (fun a t => (a.graft t).2) (ofTree s.tree)

/-! ### Reading -/

/-- A node; an unknown number stands for a root without children. -/
def node (a : Arena) (id : NodeId) : Node := a.nodes.getD id ⟨.root, none, []⟩

def content (a : Arena) (id : NodeId) : Content := (a.node id).content

def parent? (a : Arena) (id : NodeId) : Option NodeId := (a.node id).parent

def children (a : Arena) (id : NodeId) : List NodeId := (a.node id).children

def element? (a : Arena) (id : NodeId) : Option Element := (a.content id).element?

def text? (a : Arena) (id : NodeId) : Option String := (a.content id).text?

/-- The tree of a node, cut off below `depth` levels. -/
def treeTo (a : Arena) : (depth : Nat) → NodeId → Tree
  | 0, id => .node (a.content id) []
  | depth + 1, id => .node (a.content id) ((a.children id).map (a.treeTo depth))

/-- The tree of a node. No branch is longer than there are nodes. -/
def tree (a : Arena) (id : NodeId) : Tree := a.treeTo a.size id

/-- The nodes of a subtree in document order, cut off below `depth` levels. -/
def descendantsTo (a : Arena) : (depth : Nat) → NodeId → List NodeId
  | 0, id => [id]
  | depth + 1, id => id :: (a.children id).flatMap (a.descendantsTo depth)

/-- The nodes of a subtree in document order, the node itself first. -/
def descendants (a : Arena) (id : NodeId) : List NodeId := a.descendantsTo a.size id

def ancestorsTo (a : Arena) : (height : Nat) → NodeId → List NodeId
  | 0, _ => []
  | height + 1, id =>
    match a.parent? id with
    | none => []
    | some p => p :: a.ancestorsTo height p

/-- The nodes above a node, its parent first. -/
def ancestors (a : Arena) (id : NodeId) : List NodeId := a.ancestorsTo a.size id

/-- The node stands somewhere below the root, or is the root. -/
def isAttached (a : Arena) (id : NodeId) : Bool := (a.ancestors id).getLastD id == root

/-- The node stands somewhere below the other. -/
def isBelow (a : Arena) (id above : NodeId) : Bool := (a.ancestors id).contains above

/-- A node above `id` and below `stop` has a content of the class; without `stop` above it, all
nodes above it count. -/
def hasAncestorBefore (a : Arena) (stop : NodeId) (p : Content → Bool) (id : NodeId) : Bool :=
  ((a.ancestors id).takeWhile (· != stop)).any (p <| a.content ·)

/-- The place of a node among the children of its parent. -/
def indexInParent? (a : Arena) (id : NodeId) : Option Nat :=
  (a.parent? id).bind fun p => (a.children p).findIdx? (· == id)

/-- A text of blanks alone. -/
def isBlankText (a : Arena) (id : NodeId) : Bool := (a.text? id).any Text.isBlankText

def textContent (a : Arena) (id : NodeId) : String := (a.tree id).textContent

def html (a : Arena) (id : NodeId) : String := (a.tree id).html

/-- The first element of the name in document order. -/
def findElement? (a : Arena) (start : NodeId) (name : String) : Option NodeId :=
  (a.descendants start).find? fun id => (a.element? id).any (·.name == name)

/-! ### Writing -/

/-- Adds a node without a place. -/
def alloc (a : Arena) (c : Content) : NodeId × Arena := (a.size, ⟨a.nodes.push ⟨c, none, []⟩⟩)

def modify (a : Arena) (id : NodeId) (f : Node → Node) : Arena := ⟨a.nodes.modify id f⟩

def setContent (a : Arena) (id : NodeId) (c : Content) : Arena :=
  a.modify id ({ · with content := c })

def setParent (a : Arena) (id : NodeId) (p : Option NodeId) : Arena :=
  a.modify id ({ · with parent := p })

def setChildren (a : Arena) (id : NodeId) (ids : List NodeId) : Arena :=
  a.modify id ({ · with children := ids })

/-- Changes an element; other nodes stay. -/
def modifyElement (a : Arena) (id : NodeId) (f : Element → Element) : Arena :=
  match a.element? id with
  | some e => a.setContent id (.element (f e))
  | none => a

/-- Takes a node out of its place. What is below it stays below it. -/
def detach (a : Arena) (id : NodeId) : Arena :=
  match a.parent? id with
  | none => a
  | some p => (a.setParent id none).setChildren p ((a.children p).filter (· != id))

/-- Makes a node the last child of another. -/
def append (a : Arena) (parent child : NodeId) : Arena :=
  let a := a.detach child
  (a.setParent child (some parent)).setChildren parent (a.children parent ++ [child])

/-- Makes a node a child of another at an index, or the last one if there are fewer children. -/
def insert (a : Arena) (parent index child : NodeId) : Arena :=
  let a := a.detach child
  let ids := a.children parent
  (a.setChildren parent (ids.insertIdx (min index ids.length) child)).setParent child (some parent)

def detachAll (a : Arena) (ids : List NodeId) : Arena := ids.foldl detach a

/-- Makes nodes children of a node, in their order from an index on. -/
def placeAt (a : Arena) (parent index : NodeId) (ids : List NodeId) : Arena :=
  let old := a.children parent
  let a := a.setChildren parent (old.take index ++ ids ++ old.drop index)
  ids.foldl (fun a id => a.setParent id (some parent)) a

/-- Puts nodes right before another. Nothing but taking them out happens when that node is among
them, and nothing at all when it has no parent. -/
def insertBefore (a : Arena) (anchor : NodeId) (ids : List NodeId) : Arena :=
  match a.parent? anchor with
  | none => a
  | some parent =>
    let a := a.detachAll ids
    match a.indexInParent? anchor with
    | none => a
    | some index => a.placeAt parent index ids

/-- Puts nodes into the place of another, which is left without a place. -/
def replaceWith (a : Arena) (target : NodeId) (ids : List NodeId) : Arena :=
  (a.insertBefore target ids).detach target

/-- Takes all children of a node out of their places. -/
def takeChildren (a : Arena) (id : NodeId) : List NodeId × Arena :=
  let ids := a.children id
  (ids, ids.foldl (fun a c => a.setParent c none) (a.setChildren id []))

end Arena
end Stencil.Markup
