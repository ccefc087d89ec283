import Stencil.Script.Grammar
/-!
The short form of a script: its tokens without comments, and with no more blanks between them than
are needed to tell them apart. A line ends where it did, unless a mark before its end says that the
statement goes on or is over.
-/
namespace Stencil.Script
namespace Short

/-- Marks that need no blank beside them. -/
def separates (c : Char) : Bool := "()[]\x7b\x7d;,".toList.contains c

/-- Marks after which a line need not end. -/
def endsLine (c : Char) : Bool := "([\x7b;,".toList.contains c

/-- What stands between two tokens. -/
def gap (last first : Option Char) (newline : Bool) : List Char :=
  if newline then (if last.any endsLine then [] else ['\n'])
  else if last.any separates || first.any separates then []
  else [' ']

/-- The text of tokens after a token that ends at a place with a character. -/
def join (source : Array Char) : (stop : Nat) → (last : Option Char) → List Token → List Char
  | _, _, [] => []
  | stop, last, t :: rest =>
    let text := (source.extract t.start t.stop).toList
    let between := if stop < t.start && last.isSome then gap last text.head? t.newline else []
    between ++ text ++ join source t.stop text.getLast? rest

end Short

/-- A shorter text of a module that does the same; there is none if the module is malformed. Names
that are declared twice are let pass. -/
def minify? (source : String) : Option String := do
  let tokens ← Token.ofText? source
  let _ ← Program.ofText? false source
  return String.ofList (Short.join source.toList.toArray 0 none tokens)

end Stencil.Script
