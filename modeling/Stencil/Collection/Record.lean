import Stencil.Text.Search
/-!
Documents as they come from files: a path below the source directory, and the content. Paths have
slashes, and no dots that mean the directory itself before them.
-/
namespace Stencil

structure FilePath where
  pathname : String
  /-- The directory; `.` for files that stand in no other one. -/
  dirname : String
  filename : String
  deriving DecidableEq, Repr

namespace FilePath

/-- The text without the `./` before it, however often it stands there. -/
def dropDots : List Char → List Char
  | '.' :: '/' :: s => dropDots s
  | s => s

/-- The text before and after the last place of a character. -/
def cutLast? (c : Char) (s : List Char) : Option (List Char × List Char) :=
  (Text.cutChar? c s.reverse).map fun (after, before) => (before.reverse, after.reverse)

/-- A text with slashes for backslashes. -/
def slashed (p : String) : String :=
  String.ofList (p.toList.map fun c => if c = '\\' then '/' else c)

/-- The path that a text writes; backslashes count as slashes. -/
def ofText (p : String) : FilePath :=
  let s := dropDots (slashed p).toList
  match cutLast? '/' s with
  | some (dir, name) => ⟨String.ofList s, String.ofList dir, String.ofList name⟩
  | none => ⟨String.ofList s, ".", String.ofList s⟩

/-- What follows the last dot of the file name, unless the dot leads it. -/
def extension? (p : FilePath) : Option String :=
  match cutLast? '.' p.filename.toList with
  | some (stem, ext) => if stem.isEmpty then none else some (String.ofList ext)
  | none => none

end FilePath

/-- A file that has been read. -/
structure Record where
  path : FilePath
  content : String
  deriving DecidableEq, Repr

def Record.ofText (pathname content : String) : Record := ⟨.ofText pathname, content⟩

/-- What the documents of a collection are. -/
inductive Kind where
  | page
  | template
  deriving DecidableEq, Repr

end Stencil
