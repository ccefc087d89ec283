import Stencil.Markup.Element
/-!
Markup as a tree, and the text of a tree. The root of a document and of a fragment has no text of
its own. Text, comments and declarations are written as they are; a double quote in the value of
an attribute is written as a reference.
-/
namespace Stencil.Markup

/-- What a node is, its children apart. -/
inductive Content where
  | root
  | element (e : Element)
  | text (s : String)
  | comment (s : String)
  | directive (s : String)
  deriving DecidableEq, Repr

def Content.element? : Content → Option Element
  | .element e => some e
  | _ => none

def Content.text? : Content → Option String
  | .text s => some s
  | _ => none

/-- A node and all below it. -/
inductive Tree where
  | node (content : Content) (children : List Tree)
  deriving Repr

namespace Tree

def content : Tree → Content
  | node c _ => c

def children : Tree → List Tree
  | node _ ts => ts

mutual

def decEq : (s t : Tree) → Decidable (s = t)
  | node c ss, node d ts =>
    match (inferInstance : Decidable (c = d)), decEqAll ss ts with
    | isTrue h, isTrue hs => isTrue (by rw [h, hs])
    | isFalse h, _ => isFalse (by intro e; injection e with e _; exact h e)
    | _, isFalse h => isFalse (by intro e; injection e with _ e; exact h e)

def decEqAll : (ss ts : List Tree) → Decidable (ss = ts)
  | [], [] => isTrue rfl
  | [], _ :: _ => isFalse (by simp)
  | _ :: _, [] => isFalse (by simp)
  | s :: ss, t :: ts =>
    match decEq s t, decEqAll ss ts with
    | isTrue h, isTrue hs => isTrue (by rw [h, hs])
    | isFalse h, _ => isFalse (by intro e; injection e with e _; exact h e)
    | _, isFalse h => isFalse (by intro e; injection e with _ e; exact h e)

end

instance : DecidableEq Tree := decEq

mutual

/-- The number of nodes. -/
def size : Tree → Nat
  | node _ ts => 1 + sizeAll ts

def sizeAll : List Tree → Nat
  | [] => 0
  | t :: ts => t.size + sizeAll ts

end

mutual

/-- The nodes in document order: a node stands before its children, and they in their order. -/
def contents : Tree → List Content
  | node c ts => c :: contentsAll ts

def contentsAll : List Tree → List Content
  | [] => []
  | t :: ts => t.contents ++ contentsAll ts

end

mutual

theorem length_contents (t : Tree) : t.contents.length = t.size := by
  cases t with
  | node c ts => simp [contents, size, length_contentsAll ts]; omega

theorem length_contentsAll (ts : List Tree) : (contentsAll ts).length = sizeAll ts := by
  cases ts with
  | nil => rfl
  | cons t ts => simp [contentsAll, sizeAll, length_contents t, length_contentsAll ts]

end

/-- All text below, without markup. -/
def textContent (t : Tree) : String := String.join (t.contents.filterMap Content.text?)

/-- The value of an attribute with its double quotes as references. -/
def quoteValue (s : List Char) : List Char :=
  s.flatMap fun c => if c = '"' then "&quot;".toList else [c]

/-- An attribute after a space. -/
def writeAttribute (a : Attribute) : List Char :=
  ' ' :: a.name.toList ++
    match a.value with
    | none => []
    | some v => '=' :: '"' :: quoteValue v.toList ++ ['"']

def writeStartTag (e : Element) : List Char :=
  '<' :: e.name.toList ++ e.attributes.flatMap writeAttribute ++ ['>']

def writeEndTag (e : Element) : List Char := '<' :: '/' :: e.name.toList ++ ['>']

mutual

/-- The markup of a tree. -/
def write : Tree → List Char
  | node .root ts => writeAll ts
  | node (.text s) _ => s.toList
  | node (.comment s) _ => "<!--".toList ++ s.toList ++ "-->".toList
  | node (.directive s) _ => "<!".toList ++ s.toList ++ ['>']
  | node (.element e) ts =>
    writeStartTag e ++ if e.isVoid then [] else writeAll ts ++ writeEndTag e

def writeAll : List Tree → List Char
  | [] => []
  | t :: ts => t.write ++ writeAll ts

end

def html (t : Tree) : String := String.ofList t.write

/-- The markup below the node, without the node itself. -/
def innerHtml (t : Tree) : String := String.ofList (writeAll t.children)

end Tree
end Stencil.Markup
