import Stencil.Toml.Scalar
/-!
Reading a configuration file: lines of keys and values below headers of tables.
-/
namespace Stencil.Toml
open Text

/-- How deep values may nest, and how many parts a key may have. -/
def maxDepth : Nat := 80

def isBareKey (c : Char) : Bool := c.isAlphanum || c == '_' || c == '-'

/-- One part of a key. -/
def simpleKey? (s : List Char) : Option (String × List Char) :=
  match s with
  | '"' :: s => (basic? (s.length + 1) s).map fun (cs, s) => (String.ofList cs, s)
  | '\'' :: s => (literal? s).map fun (cs, s) => (String.ofList cs, s)
  | s =>
    let name := s.takeWhile isBareKey
    if name.isEmpty then none else some (String.ofList name, s.dropWhile isBareKey)

/-- A key with dots between its parts: the parts before the last one, the last one, and what
follows. -/
def key? : (fuel : Nat) → List Char → Option (List String × String × List Char)
  | 0, _ => none
  | fuel + 1, s => do
    let (name, s) ← simpleKey? (skipSpaces s)
    match skipSpaces s with
    | '.' :: s =>
      let (path, last, s) ← key? fuel s
      return (name :: path, last, s)
    | s => return ([], name, s)

/-- A key of a file. -/
def fullKey? (s : List Char) : Option (List String × String × List Char) := do
  let (path, last, s) ← key? (s.length + 1) s
  if maxDepth ≤ path.length + 1 then none else some (path, last, s)

/-- The text after a comment, up to the end of its line. -/
def comment? : List Char → Option (List Char)
  | '#' :: s => some (s.dropWhile isAllowed)
  | _ => none

/-- Skips blanks, ends of lines and comments. -/
def skipTrivia : (fuel : Nat) → List Char → List Char
  | 0, s => s
  | fuel + 1, s =>
    let s := skipBlankLines s
    match comment? s with
    | some s => skipTrivia fuel s
    | none => s

/-- Skips blanks, ends of lines and comments between the values of an array. -/
def skipAll (s : List Char) : List Char := skipTrivia (s.length + 1) s

mutual

/-- A value; `room` counts the levels that may still nest. -/
def value? : (fuel room : Nat) → List Char → Option (Toml × List Char)
  | 0, _, _ => none
  | fuel + 1, room, s =>
    match s with
    | '"' :: _ => (text? s).map fun (t, s) => (.string t, s)
    | '\'' :: _ => (text? s).map fun (t, s) => (.string t, s)
    | '[' :: s =>
      match room with
      | 0 => none
      | room + 1 => (items? fuel room s).map fun (items, s) => (.array items, s)
    | '{' :: s =>
      match room with
      | 0 => none
      | room + 1 => do
        match skipSpaces s with
        | '}' :: s => return (.table .closed [], s)
        | s =>
          let (t, s) ← entries? fuel room ⟨.closed, []⟩ s
          return (.table .closed t.entries, s)
    | s =>
      match dropPrefix? "true".toList s, dropPrefix? "false".toList s with
      | some s, _ => some (.boolean true, s)
      | _, some s => some (.boolean false, s)
      | none, none => number? s

/-- The rest of an array. -/
def items? : (fuel room : Nat) → List Char → Option (List Toml × List Char)
  | 0, _, _ => none
  | fuel + 1, room, s =>
    match skipAll s with
    | ']' :: s => some ([], s)
    | s => do
      let (v, s) ← value? fuel room s
      match skipAll s with
      | ']' :: s => return ([v], s)
      | ',' :: s =>
        let (vs, s) ← items? fuel room s
        return (v :: vs, s)
      | _ => none

/-- The rest of a table in braces, which is not empty. -/
def entries? : (fuel room : Nat) → Table → List Char → Option (Table × List Char)
  | 0, _, _, _ => none
  | fuel + 1, room, t, s => do
    let (path, name, s) ← fullKey? s
    let s ← char? '=' s
    let (v, s) ← value? fuel room (skipSpaces s)
    let t ← t.put? path name v
    match skipSpaces s with
    | '}' :: s => return (t, s)
    | ',' :: s => entries? fuel room t s
    | _ => none

end

/-- The text after the rest of a line, which holds nothing but a comment. -/
def endOfLine? (s : List Char) : Option (List Char) :=
  let s := skipSpaces s
  match (comment? s).getD s with
  | [] => some []
  | s => lineEnd? s

/-- Changes the table of the last header. -/
def atHeader (header : Option (List String × String)) (f : Table → Option Table) (t : Table) :
    Option Table :=
  match header with
  | none => f t
  | some (path, name) => t.modify? false f (path ++ [name])

/-- A header, and what follows its closing brackets. -/
def header? (double : Bool) (s : List Char) : Option (List String × String × List Char) := do
  let (path, name, s) ← fullKey? s
  let s ← char? ']' s
  let s ← if double then char? ']' s else some s
  return (path, name, s)

/-- Reads lines into the table of the last header. -/
def readLines (t : Table) (header : Option (List String × String)) : (fuel : Nat) → List Char →
    Option Table
  | 0, _ => none
  | fuel + 1, s =>
    match skipSpaces s with
    | [] => some t
    | '[' :: '[' :: s => do
      let (path, name, s) ← header? true s
      readLines (← t.push? path name) (some (path, name)) fuel (← endOfLine? s)
    | '[' :: s => do
      let (path, name, s) ← header? false s
      readLines (← t.open? path name) (some (path, name)) fuel (← endOfLine? s)
    | c :: s =>
      if c == '#' || c == '\n' || c == '\r' then do
        readLines t header fuel (← endOfLine? (c :: s))
      else do
        let (path, name, rest) ← fullKey? (c :: s)
        let rest ← char? '=' rest
        let (v, rest) ← value? (rest.length + 1) maxDepth (skipSpaces rest)
        let t ← atHeader header (·.put? path name v) t
        readLines t header fuel (← endOfLine? rest)

/-- The table that a file holds. -/
def read? (text : String) : Option (Assoc Toml) :=
  let s := match text.toList with
    | '\uFEFF' :: s => s
    | s => s
  (readLines ⟨.header, []⟩ none (s.length + 1) s).map (·.entries)

end Stencil.Toml
