import Stencil.Collection.Record
import Stencil.Files.Tree
/-!
The files of a directory that have one of some extensions. Hidden and excluded names are left out,
with all that is below them.
-/
namespace Stencil

inductive EnumerateError where
  | missingDirectory (dir : String)
  /-- A file that holds no text. -/
  | unreadable (path : String)
  deriving DecidableEq, Repr

/-- A name of a hidden or excluded file or directory. -/
def isSkipped (exclude : List String) (name : String) : Bool :=
  name.toList.head? == some '.' || exclude.contains name

/-- The file is one of those that are read. -/
def isListed (extensions exclude : List String) (names : List String) : Bool :=
  !names.any (isSkipped exclude) && Path.hasExtension (Path.ofSegments names) extensions

/-- Reads a file that stands below a directory. -/
def readRecord (dir : String) : List String × FileContent → Except EnumerateError Record
  | (names, .text s) => .ok (.ofText (Path.ofSegments names) s)
  | (names, .bytes _) => .error (.unreadable (Path.join dir (Path.ofSegments names)))

/-- The files of a directory in the order of their paths. -/
def FileTree.enumerate (t : FileTree) (dir : String) (extensions exclude : List String) :
    Except EnumerateError (List Record) :=
  if t.isDirectory dir then do
    let listed := (t.filesBelow dir).filter fun f => isListed extensions exclude f.1
    let records ← listed.mapM (readRecord dir)
    return records.mergeSort fun a b => !decide (b.path.pathname < a.path.pathname)
  else throw (.missingDirectory dir)

end Stencil
