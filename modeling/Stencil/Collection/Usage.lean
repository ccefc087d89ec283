import Stencil.Assoc
/-!
Which names each document uses, and which documents use each name. The two tables are inverse to
each other, and neither holds an empty set.
-/
namespace Stencil

namespace SortedSet

/-- Adds a string to a list in increasing order, unless it is there. -/
def insert (s : String) : List String → List String
  | [] => [s]
  | t :: ts => if s < t then s :: t :: ts else if s = t then t :: ts else t :: insert s ts

/-- The strings of a list in increasing order, each once. -/
def ofList (ss : List String) : List String := ss.foldl (fun set s => insert s set) []

end SortedSet

structure Usage where
  byUser : Assoc (List String) := []
  byName : Assoc (List String) := []
  deriving Repr

namespace Usage

def usesOf (u : Usage) (user : String) : List String := (Assoc.get? u.byUser user).getD []

def usersOf (u : Usage) (name : String) : List String := (Assoc.get? u.byName name).getD []

def isEmpty (u : Usage) : Bool := u.byUser.isEmpty

/-- Sets the set of a key, or drops the key when the set is empty. -/
def putSet (key : String) (set : List String) (table : Assoc (List String)) :
    Assoc (List String) :=
  if set.isEmpty then table.erase key else table.put key set

/-- A use is recorded. -/
def record (u : Usage) (user name : String) : Usage where
  byUser := u.byUser.put user (SortedSet.insert name (u.usesOf user))
  byName := u.byName.put name (SortedSet.insert user (u.usersOf name))

/-- A use is forgotten. -/
def forget (u : Usage) (user name : String) : Usage where
  byUser := putSet user ((u.usesOf user).filter (· != name)) u.byUser
  byName := putSet name ((u.usersOf name).filter (· != user)) u.byName

/-- All uses of a document are forgotten. -/
def forgetUser (u : Usage) (user : String) : Usage :=
  (u.usesOf user).foldl (fun u name => u.forget user name) u

/-- A document uses these names from now on. -/
def replace (u : Usage) (user : String) (names : List String) : Usage :=
  let next := SortedSet.ofList names
  let stale := (u.usesOf user).filter (!next.contains ·)
  next.foldl (fun u name => u.record user name) (stale.foldl (fun u name => u.forget user name) u)

end Usage
end Stencil
