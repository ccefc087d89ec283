import Stencil.Text.Blank
import Stencil.Text.Search
/-!
Paths with slashes. A path is text; its components leave out empty parts and the single dots that
do not lead it. Taking a parent or changing the extension cuts the text, so what stands before the
cut stays as it was written.
-/
namespace Stencil.Path

inductive Component where
  | root
  | current
  | parent
  | normal (name : String)
  deriving DecidableEq, Repr

def Component.text : Component → String
  | .root => "/"
  | .current => "."
  | .parent => ".."
  | .normal name => name

/-- What a component leaves of itself in a clean path. -/
def Component.kept? : Component → Option String
  | .normal name => some name
  | .parent => some ".."
  | _ => none

/-- The parts between slashes. -/
def segments (p : String) : List String := (Text.splitOn '/' p.toList).map String.ofList

def isAbsolute (p : String) : Bool := p.toList.head? == some '/'

/-- The component of a part, if it is one; `leading` says that the part starts the path. -/
def component? (leading : Bool) (part : String) : Option Component :=
  if part = "" then none
  else if part = "." then (if leading then some .current else none)
  else if part = ".." then some .parent
  else some (.normal part)

def components (p : String) : List Component :=
  match segments p with
  | [] => []
  | first :: rest =>
    (if isAbsolute p then [.root] else (component? true first).toList) ++
      rest.filterMap (component? false)

def ofSegments (parts : List String) : String := String.intercalate "/" parts

/-- How many parts there are up to the last one that is a component. -/
def significant (parts : List String) : Nat :=
  (parts.zipIdx.foldl (fun n (part, i) =>
    if (component? (i == 0) part).isSome then i + 1 else n) 0)

/-- The parts without those after the last component. -/
def trimParts (parts : List String) : List String := parts.take (significant parts)

/-- The parts before the last component, and its text. -/
def splitLast? (p : String) : Option (List String × String) :=
  match (trimParts (segments p)).reverse with
  | [] => none
  | last :: before => some (before.reverse, last)

/-- The name of the file that the path leads to. -/
def fileName? (p : String) : Option String :=
  match splitLast? p with
  | some (before, last) =>
    match component? before.isEmpty last with
    | some (.normal name) => some name
    | _ => none
  | none => none

/-- The path without its last component. -/
def parent? (p : String) : Option String :=
  (splitLast? p).map fun (before, _) =>
    match trimParts before with
    | [] => if isAbsolute p then "/" else ""
    | parts => ofSegments parts

/-- A path and the paths above it, as many as `count`. -/
def ancestorsTo : (count : Nat) → String → List String
  | 0, p => [p]
  | count + 1, p => p :: ((parent? p).map (ancestorsTo count)).getD []

/-- A path and all paths above it. -/
def ancestors (p : String) : List String := ancestorsTo (segments p).length p

/-- A name cut at its last dot, unless the dot leads it. -/
def splitName (name : String) : String × Option String :=
  match Text.cutChar? '.' name.toList.reverse with
  | none => (name, none)
  | some (ext, stem) =>
    if stem.isEmpty then (name, none)
    else (String.ofList stem.reverse, some (String.ofList ext.reverse))

/-- What follows the last dot of the file name. -/
def extension? (p : String) : Option String :=
  (fileName? p).bind fun name => if name = ".." then none else (splitName name).2

/-- A path from a directory; an absolute one stands for itself. -/
def join (dir p : String) : String :=
  if isAbsolute p then p
  else if dir.isEmpty || dir.toList.getLast? == some '/' then dir ++ p
  else dir ++ "/" ++ p

/-- The path with its extension replaced. A path that leads to no file name is left, and of a name
that is one dot and an extension the two dots remain. -/
def withExtension (p ext : String) : String :=
  match splitLast? p, fileName? p with
  | some (before, _), some name =>
    let dir := String.join (before.map (· ++ "/"))
    let (stem, old) := splitName name
    let whole := trimParts (segments p) == segments p
    if stem == "." && old.isSome && whole then dir ++ ".."
    else dir ++ stem ++ "." ++ ext
  | _, _ => p

/-- Takes away `..` with the component before it, and single dots. -/
def normalize (p : String) : String :=
  let names := (components p).foldl (fun names c =>
    match c with
    | .normal name => name :: names
    | .parent => names.tail
    | _ => names) []
  (if isAbsolute p then "/" else "") ++ ofSegments names.reverse

/-- Slashes that lead a path: one, unless there are two and no more. -/
def leadingSlashes (p : String) : String :=
  match p.toList with
  | '/' :: '/' :: '/' :: _ => "/"
  | '/' :: '/' :: _ => "//"
  | '/' :: _ => "/"
  | _ => ""

/-- The path without repeated slashes and single dots; a slash at its end stays. -/
def clean (p : String) : String :=
  let names := (components p).filterMap Component.kept?
  let slash := if 1 < p.length && p.toList.getLast? == some '/' && !names.isEmpty then "/" else ""
  leadingSlashes p ++ ofSegments names ++ slash

/-- What is left of a path below a directory. -/
def below? (dir p : String) : Option (List Component) :=
  go (components dir) (components p)
where
  go : List Component → List Component → Option (List Component)
    | [], cs => some cs
    | _ :: _, [] => none
    | d :: ds, c :: cs => if d = c then go ds cs else none

def ofComponents (cs : List Component) : String := ofSegments (cs.map Component.text)

/-- The extension is one of the list, in any ASCII case. -/
def hasExtension (p : String) (extensions : List String) : Bool :=
  (extension? p).any fun ext =>
    extensions.any fun x => Text.lowerAscii x.toList == Text.lowerAscii ext.toList

/-- A component is hidden or is in the list. -/
def crosses (exclude : List String) (cs : List Component) : Bool :=
  cs.any fun c => c.text.toList.head? == some '.' || exclude.contains c.text

/-- A component of the path is hidden or is in the list. -/
def isExcluded (p : String) (exclude : List String) : Bool := crosses exclude (components p)

end Stencil.Path
