import Stencil.Collection.Record
import Stencil.Collection.Usage
import Stencil.Text.Quoted
/-!
A collection of parsed documents. A document is found by its path and by the id that it declares;
both are its aliases, and no alias belongs to two documents. Documents keep the order in which they
came, and the key of a document stays valid until it is deleted. How content is read, which names a
document uses, and whether a document is let in are parameters.
-/
namespace Stencil

/-- A stored document. -/
structure Item (α : Type) where
  path : FilePath
  content : String
  result : α
  deriving Repr

/-- Whether a document is let in, and the id it is found by besides its path. -/
inductive Decision where
  | skip
  | store (id : Option String)
  deriving DecidableEq, Repr

/-- The documents of a collection: how they are read and let in. -/
structure Schema (α ε : Type) where
  kind : Kind
  parse : Record → Except ε α
  uses : α → List String
  beforeSet : Item α → Decision
  beforeUpdate : Item α → Item α → Decision := fun _ next => beforeSet next

abbrev ItemKey := Nat

/-- What a call did to the collection. -/
inductive Outcome where
  | inserted (key : ItemKey)
  | updated (key : ItemKey)
  | skipped
  deriving DecidableEq, Repr

inductive CollectionError (ε : Type) where
  | parse (path : String) (cause : ε)
  | duplicateKey (key path existing : String)
  deriving Repr

def CollectionError.message {ε : Type} (cause : ε → String) : CollectionError ε → String
  | .parse path e => "Failed to parse " ++ path ++ ": " ++ cause e
  | .duplicateKey key path existing =>
    "Duplicate key " ++ Text.quoted key ++ ": " ++ path ++ " conflicts with " ++ existing

structure Entry (α : Type) where
  item : Item α
  /-- The names that the document is found by, the id that it declares first. -/
  aliases : List String
  deriving Repr

structure Collection (α : Type) where
  /-- Places of documents; a deleted document leaves its place empty. -/
  entries : List (Option (Entry α)) := []
  /-- Empty places, the one that is filled next first. -/
  free : List ItemKey := []
  /-- Keys in the order in which the documents came. -/
  order : List ItemKey := []
  byId : Assoc ItemKey := []
  byDirectory : Assoc (List ItemKey) := []
  usage : Usage := {}

namespace Collection
variable {α ε : Type}

def entryOf? (c : Collection α) (key : ItemKey) : Option (Entry α) := (c.entries[key]?).join

def item? (c : Collection α) (key : ItemKey) : Option (Item α) := (c.entryOf? key).map (·.item)

/-- The key that a path or an id leads to. -/
def key? (c : Collection α) (id : String) : Option ItemKey := Assoc.get? c.byId id

/-- The document that a path or an id leads to. -/
def get? (c : Collection α) (id : String) : Option (Item α) := (c.key? id).bind c.item?

def aliases (c : Collection α) (key : ItemKey) : List String :=
  ((c.entryOf? key).map (·.aliases)).getD []

def size (c : Collection α) : Nat := c.order.length

def items (c : Collection α) : List (Item α) := c.order.filterMap c.item?

/-- The first alias of every document. -/
def ids (c : Collection α) : List String := c.order.filterMap fun k => (c.aliases k).head?

/-- Directories that hold a document, in increasing order. -/
def directories (c : Collection α) : List String := SortedSet.ofList c.byDirectory.keys

/-- The documents that stand in a directory. -/
def inDirectory (c : Collection α) (dir : String) : List (Item α) :=
  ((Assoc.get? c.byDirectory dir).getD []).filterMap c.item?

/-- The key of the document that has this path. -/
def keyOfPath? (c : Collection α) (pathname : String) : Option ItemKey := do
  let key ← c.key? pathname
  let item ← c.item? key
  if item.path.pathname = pathname then some key else none

def aliasesOf (path : FilePath) (id : Option String) : List String :=
  match id with
  | some id => if id = path.pathname then [path.pathname] else [id, path.pathname]
  | none => [path.pathname]

/-- Reads a record. -/
def parse (s : Schema α ε) (r : Record) : Except (CollectionError ε) (Item α) :=
  match s.parse r with
  | .ok result => .ok ⟨r.path, r.content, result⟩
  | .error e => .error (.parse r.path.pathname e)

/-- The first alias that belongs to a document other than `owner`. -/
def conflict? (c : Collection α) (aliases : List String) (owner : Option ItemKey) :
    Option (String × ItemKey) :=
  aliases.findSome? fun a =>
    match c.key? a with
    | some key => if some key = owner then none else some (a, key)
    | none => none

def checkAliases (c : Collection α) (aliases : List String) (owner : Option ItemKey)
    (pathname : String) : Except (CollectionError ε) Unit :=
  match c.conflict? aliases owner with
  | none => .ok ()
  | some (a, key) =>
    .error (.duplicateKey a pathname (((c.item? key).map (·.path.pathname)).getD ""))

def putAliases (aliases : List String) (key : ItemKey) (byId : Assoc ItemKey) : Assoc ItemKey :=
  aliases.foldl (fun table a => table.put a key) byId

/-- Drops the aliases that lead to the key. -/
def dropAliases (aliases : List String) (key : ItemKey) (byId : Assoc ItemKey) : Assoc ItemKey :=
  aliases.foldl (fun table a => if Assoc.get? table a = some key then table.erase a else table) byId

/-- Fills a place, which is an empty one or the first one behind the last. -/
def fill (c : Collection α) (key : ItemKey) (e : Entry α) : List (Option (Entry α)) :=
  if key < c.entries.length then c.entries.set key (some e) else c.entries ++ [some e]

/-- Stores a document under a free key. -/
def add (s : Schema α ε) (c : Collection α) (item : Item α) (aliases : List String) :
    ItemKey × Collection α :=
  let key := c.free.headD c.entries.length
  let bucket := (Assoc.get? c.byDirectory item.path.dirname).getD []
  (key, {
    entries := c.fill key ⟨item, aliases⟩
    free := c.free.tail
    order := c.order ++ [key]
    byId := putAliases aliases key c.byId
    byDirectory := c.byDirectory.put item.path.dirname (bucket ++ [key])
    usage := c.usage.replace item.path.pathname (s.uses item.result) })

/-- Gives a stored document new content in its place. -/
def patch (s : Schema α ε) (c : Collection α) (key : ItemKey) (old : Entry α) (next : Item α)
    (aliases : List String) : Collection α :=
  { c with
    entries := c.entries.set key
      (some ⟨{ old.item with content := next.content, result := next.result }, aliases⟩)
    byId := putAliases aliases key (dropAliases old.aliases key c.byId)
    usage := c.usage.replace next.path.pathname (s.uses next.result) }

/-- Stores a record whose path is not in the collection. -/
def insertNew (s : Schema α ε) (c : Collection α) (r : Record) :
    Except (CollectionError ε) (Outcome × Collection α) := do
  let item ← parse s r
  match s.beforeSet item with
  | .skip => return (.skipped, c)
  | .store id =>
    let aliases := aliasesOf item.path id
    c.checkAliases aliases none item.path.pathname
    let (key, c) := c.add s item aliases
    return (.inserted key, c)

/-- Reads the record of a stored document again. -/
def reread (s : Schema α ε) (c : Collection α) (key : ItemKey) (r : Record) :
    Except (CollectionError ε) (Outcome × Collection α) := do
  let next ← parse s r
  match c.entryOf? key with
  | none => return (.skipped, c)
  | some old =>
    match s.beforeUpdate old.item next with
    | .skip => return (.skipped, c)
    | .store id =>
      let aliases := aliasesOf next.path id
      c.checkAliases aliases (some key) next.path.pathname
      return (.updated key, c.patch s key old next aliases)

/-- Stores a record: a document that has its path is read again, any other record is added. -/
def set (s : Schema α ε) (c : Collection α) (r : Record) :
    Except (CollectionError ε) (Outcome × Collection α) :=
  match c.keyOfPath? r.path.pathname with
  | some key => c.reread s key r
  | none => c.insertNew s r

/-- Reads a stored document again; a record of an unknown path is added. -/
def update (s : Schema α ε) (c : Collection α) (r : Record) :
    Except (CollectionError ε) (Outcome × Collection α) :=
  match c.keyOfPath? r.path.pathname with
  | none => c.insertNew s r
  | some key => c.reread s key r

/-- Drops a key from the bucket of a directory, and the bucket with its last key. -/
def dropFromDirectory (dir : String) (key : ItemKey) (table : Assoc (List ItemKey)) :
    Assoc (List ItemKey) :=
  match (Assoc.get? table dir).map (·.filter (· != key)) with
  | none => table
  | some [] => table.erase dir
  | some keys => table.put dir keys

/-- Takes out the document that a path or an id leads to. -/
def delete (c : Collection α) (id : String) : Option (Item α) × Collection α :=
  match (c.key? id).bind fun key => (c.entryOf? key).map (key, ·) with
  | none => (none, c)
  | some (key, e) => (some e.item, {
      entries := c.entries.set key none
      free := key :: c.free
      order := c.order.filter (· != key)
      byId := dropAliases e.aliases key c.byId
      byDirectory := dropFromDirectory e.item.path.dirname key c.byDirectory
      usage := c.usage.forgetUser e.item.path.pathname })

end Collection
end Stencil
