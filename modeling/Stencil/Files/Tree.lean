import Stencil.Files.Path
/-!
A tree of files and directories, as a table of places. A place is the list of names that leads to it
from the root, which is a directory itself. A path is followed name by name, so every directory on
its way has to be there.
-/
namespace Stencil

inductive FileContent where
  | text (s : String)
  /-- Bytes that are no text. -/
  | bytes (bs : List UInt8)
  deriving DecidableEq, Repr

/-- Bytes of UTF-8 are text. -/
def FileContent.ofBytes (bs : List UInt8) : FileContent :=
  match String.fromUTF8? ⟨bs.toArray⟩ with
  | some s => .text s
  | none => .bytes bs

structure FileTree where
  /-- The directory that relative paths start from. -/
  current : String := "/"
  directories : List (List String) := []
  files : List (List String × FileContent) := []

namespace FileTree

def hasDirectory (t : FileTree) (place : List String) : Bool :=
  place.isEmpty || t.directories.contains place

def content? (t : FileTree) (place : List String) : Option FileContent := t.files.lookup place

/-- Where following a path ends. -/
inductive Way where
  | at (place : List String)
  /-- A directory on the way is missing. -/
  | missing
  /-- A file stands where a directory should. -/
  | blocked
  deriving DecidableEq, Repr

def follow (t : FileTree) (place : List String) : List Path.Component → Way
  | [] => .at place
  | c :: cs =>
    if t.hasDirectory place then
      match c with
      | .normal name => t.follow (place ++ [name]) cs
      | .parent => t.follow place.dropLast cs
      | _ => t.follow place cs
    else if (t.content? place).isSome then .blocked
    else .missing

/-- The path from the root. -/
def absolute (t : FileTree) (p : String) : String := Path.join t.current p

/-- The path from the root in its plain form; an empty path stays empty. -/
def cleanPath (t : FileTree) (p : String) : String :=
  if p.isEmpty then p else Path.clean (t.absolute p)

/-- The path asks for a directory by its last part. -/
def namesDirectory (p : String) : Bool :=
  match (Path.segments p).getLast? with
  | some last => last == "" || last == "."
  | none => true

/-- The place that a path leads to, whether anything stands there or not. -/
def way (t : FileTree) (p : String) : Way :=
  if p.isEmpty then .missing
  else
    match t.follow [] (Path.components (t.absolute p)) with
    | .at place =>
      if namesDirectory p && !t.hasDirectory place then
        if (t.content? place).isSome then .blocked else .missing
      else .at place
    | other => other

def isDirectory (t : FileTree) (p : String) : Bool :=
  match t.way p with
  | .at place => t.hasDirectory place
  | _ => false

def isFile (t : FileTree) (p : String) : Bool :=
  match t.way p with
  | .at place => (t.content? place).isSome
  | _ => false

def contains (t : FileTree) (p : String) : Bool := t.isFile p || t.isDirectory p

/-- The text of a file. -/
def readText? (t : FileTree) (p : String) : Option String :=
  match t.way p with
  | .at place =>
    match t.content? place with
    | some (.text s) => some s
    | _ => none
  | _ => none

/-- Puts a file at a place. -/
def putFile (place : List String) (c : FileContent) :
    List (List String × FileContent) → List (List String × FileContent)
  | [] => [(place, c)]
  | (q, old) :: rest => if q = place then (q, c) :: rest else (q, old) :: putFile place c rest

/-- Writes a file into a directory that is there. -/
def write? (t : FileTree) (p : String) (c : FileContent) : Option FileTree :=
  match t.way p with
  | .at place =>
    if t.hasDirectory place || !t.hasDirectory place.dropLast then none
    else some { t with files := putFile place c t.files }
  | _ => none

/-- Follows components and makes the directories that are missing, up to one that cannot be made. -/
def makeAlong (t : FileTree) (place : List String) : List Path.Component → Bool × FileTree
  | [] => (true, t)
  | c :: cs =>
    match c with
    | .normal name =>
      let next := place ++ [name]
      if (t.content? next).isSome then (false, t)
      else if t.hasDirectory next then t.makeAlong next cs
      else { t with directories := t.directories ++ [next] }.makeAlong next cs
    | .parent => t.makeAlong place.dropLast cs
    | _ => t.makeAlong place cs

/-- Makes a directory and all those above it; tells whether that worked. -/
def makeDirectories (t : FileTree) (p : String) : Bool × FileTree :=
  if p.isEmpty then (true, t) else t.makeAlong [] (Path.components (t.absolute p))

/-- What removing a file has led to. -/
inductive Removal where
  | removed (rest : FileTree)
  | missing
  | refused

def remove (t : FileTree) (p : String) : Removal :=
  match t.way p with
  | .at place =>
    if t.hasDirectory place then .refused
    else if (t.content? place).isSome then
      .removed { t with files := t.files.filter (·.1 != place) }
    else .missing
  | .missing => .missing
  | .blocked => .refused

/-- The files below a place, by the names that lead to them from there. -/
def below (t : FileTree) (place : List String) : List (List String × FileContent) :=
  t.files.filterMap fun (q, c) =>
    if place.isPrefixOf q then some (q.drop place.length, c) else none

/-- The files below a directory, in the order of their names, those of a directory together. -/
def filesBelow (t : FileTree) (p : String) : List (List String × FileContent) :=
  match t.way p with
  | .at place => (t.below place).mergeSort fun a b => !decide (b.1 < a.1)
  | _ => []

end FileTree
end Stencil
