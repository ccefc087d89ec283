import Stencil.Markup.Lexeme
import Stencil.Markup.Tree
/-!
The tree of a source. Lexemes are read into the innermost open element. An end tag closes the
innermost open element of its name and all that are open inside it, and is dropped when no such
element is open; the end of the source closes everything. Texts that come to stand next to each
other are one text. An element that an ignore rule matches is left out when it closes.
-/
namespace Stencil.Markup

/-- A tree under construction. Lists of siblings hold the last one first. -/
structure Builder where
  /-- Children so far of the innermost open element. -/
  siblings : List Tree := []
  /-- Open elements, the innermost first, each with the siblings before it. -/
  opened : List (Element × List Tree) := []
  /-- Elements left out, the last one first. -/
  dropped : List Tree := []

namespace Builder

/-- A text is joined to a text right before it; an empty one adds nothing. -/
def joinText (s : String) : List Tree → List Tree
  | .node (.text t) below :: before => .node (.text (t ++ s)) below :: before
  | before => .node (.text s) [] :: before

def addText (b : Builder) (s : String) : Builder :=
  if s.isEmpty then b else { b with siblings := joinText s b.siblings }

def add (b : Builder) (c : Content) : Builder :=
  { b with siblings := .node c [] :: b.siblings }

def openElement (b : Builder) (e : Element) : Builder :=
  { b with siblings := [], opened := (e, b.siblings) :: b.opened }

/-- Closes the innermost open element. -/
def closeElement (rules : List IgnoreRule) (b : Builder) : Builder :=
  match b.opened with
  | [] => b
  | (e, before) :: outer =>
    let t := Tree.node (.element e) b.siblings.reverse
    if rules.any (·.matches e) then
      { siblings := before, opened := outer, dropped := t :: b.dropped }
    else { b with siblings := t :: before, opened := outer }

def closeMany (rules : List IgnoreRule) : Nat → Builder → Builder
  | 0, b => b
  | n + 1, b => closeMany rules n (b.closeElement rules)

/-- The builder after one more lexeme. -/
def step (rules : List IgnoreRule) (b : Builder) : Lexeme → Builder
  | .text s => b.addText s
  | .comment s => b.add (.comment s)
  | .directive s => b.add (.directive s)
  | .opening e => b.openElement e
  | .leaf e => (b.openElement e).closeElement rules
  | .verbatim e s => ((b.openElement e).addText s).closeElement rules
  | .closing name =>
    match b.opened.findIdx? (·.1.name == name) with
    | some i => b.closeMany rules (i + 1)
    | none => b

/-- Closes what is open. -/
def finish (rules : List IgnoreRule) (b : Builder) : Builder := b.closeMany rules b.opened.length

end Builder

/-- What a source holds: its tree, and the elements that were left out of it. -/
structure Source where
  tree : Tree
  dropped : List Tree

/-- Reads a source. -/
def Source.read (rules : List IgnoreRule) (source : String) : Source :=
  let b := ((Lexeme.ofSource source.toList).foldl (Builder.step rules) {}).finish rules
  ⟨.node .root b.siblings.reverse, b.dropped.reverse⟩

/-- The tree of a source. -/
def Tree.ofSource (rules : List IgnoreRule) (source : String) : Tree :=
  (Source.read rules source).tree

end Stencil.Markup
