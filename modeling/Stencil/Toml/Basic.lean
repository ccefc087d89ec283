import Stencil.Assoc
import Stencil.Number.Binary64
/-!
Values of a configuration file, and how tables grow. A table remembers how it came to be, since that
decides what may still be added to it.
-/
namespace Stencil

namespace Toml

/-- How a table came to be. -/
inductive Origin where
  /-- By a header of its own. -/
  | header
  /-- By the header of a table below it. -/
  | implied
  /-- By a key of several parts. -/
  | dotted
  /-- As a value in braces. Nothing can be added to it. -/
  | closed
  deriving DecidableEq, Repr

end Toml

inductive Toml where
  | string (s : String)
  | integer (n : Int)
  | float (x : Binary64)
  | boolean (b : Bool)
  | dateTime
  | array (items : List Toml)
  | table (origin : Toml.Origin) (entries : List (String × Toml))
  /-- Tables that stand under one header of double brackets. -/
  | tables (items : List (List (String × Toml)))
  deriving Repr

namespace Toml

/-- A table that is being filled. -/
structure Table where
  origin : Origin
  entries : Assoc Toml

/-- Changes the table that a path leads to, and makes the tables that are missing on the way.
`byKey` says that the path is the part of a key before its last name; such a path leads through no
table that has a header. -/
def Table.modify? (byKey : Bool) (f : Table → Option Table) : (path : List String) → Table →
    Option Table
  | [], t => f t
  | name :: path, t =>
    match Assoc.get? t.entries name with
    | none => do
      let inner ← modify? byKey f path ⟨if byKey then .dotted else .implied, []⟩
      return { t with entries := t.entries.put name (.table inner.origin inner.entries) }
    | some (.table origin entries) =>
      if origin = .closed || (byKey && origin = .header) then none
      else do
        let inner ← modify? byKey f path ⟨origin, entries⟩
        return { t with entries := t.entries.put name (.table inner.origin inner.entries) }
    | some (.tables items) =>
      match items.getLast? with
      | none => none
      | some entries => do
        if byKey then none
        let inner ← modify? byKey f path ⟨.header, entries⟩
        return { t with entries := t.entries.put name (.tables (items.dropLast ++ [inner.entries])) }
    | some _ => none

/-- Adds an entry under a new name. -/
def Table.add? (name : String) (v : Toml) (t : Table) : Option Table :=
  if Assoc.has t.entries name then none else some { t with entries := t.entries.put name v }

/-- Adds a value under a key of one or several parts. A key of several parts adds to tables that
such keys have made, and to no other. -/
def Table.put? (path : List String) (name : String) (v : Toml) (t : Table) : Option Table :=
  t.modify? true (fun inner =>
    if (inner.origin = .dotted) = path.isEmpty then none else inner.add? name v) path

/-- Opens the table of a header. -/
def Table.open? (path : List String) (name : String) (t : Table) : Option Table :=
  t.modify? false (fun inner =>
    match Assoc.get? inner.entries name with
    | none => some { inner with entries := inner.entries.put name (.table .header []) }
    | some (.table .implied entries) =>
      some { inner with entries := inner.entries.put name (.table .header entries) }
    | some _ => none) path

/-- Adds a table under a header of double brackets. -/
def Table.push? (path : List String) (name : String) (t : Table) : Option Table :=
  t.modify? false (fun inner =>
    match Assoc.get? inner.entries name with
    | none => some { inner with entries := inner.entries.put name (.tables [[]]) }
    | some (.tables items) =>
      some { inner with entries := inner.entries.put name (.tables (items ++ [[]])) }
    | some _ => none) path

end Toml
end Stencil
