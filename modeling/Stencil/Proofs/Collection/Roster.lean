import Stencil.Proofs.Collection.Tables
/-!
A collection shows what a plain list of documents shows. The list holds each document with the id
that it declares; storing replaces the document of the path in its place or adds it at the end, and
deleting takes out one document. Nothing that a collection shows tells it from such a list.
-/
namespace Stencil

/-- A document of a plain list. -/
structure Doc (α : Type) where
  item : Item α
  /-- What the document is found by besides its path. -/
  id : Option String

namespace Doc
variable {α : Type}

def path (d : Doc α) : String := d.item.path.pathname

def directory (d : Doc α) : String := d.item.path.dirname

/-- The names that the document is found by, the path last. -/
def names (d : Doc α) : List String :=
  match d.id with
  | none => [d.path]
  | some id => if id = d.path then [d.path] else [id, d.path]

def entry (d : Doc α) : Entry α := ⟨d.item, d.names⟩

end Doc

/-- Documents in the order in which they came. -/
abbrev Roster (α : Type) := List (Doc α)

/-- What a call answers. A key is shown as the document that it leads to. -/
inductive Answer (α ε : Type) where
  | inserted (item : Option (Item α)) (names : List String)
  | updated (item : Option (Item α)) (names : List String)
  | skipped
  | refused (e : CollectionError ε)
  | deleted (item : Option (Item α))

/-- The call has changed something. -/
def Answer.Changes {α ε : Type} : Answer α ε → Prop
  | .inserted .. | .updated .. | .deleted (some _) => True
  | .skipped | .refused _ | .deleted none => False

/-- What documents can be seen by. -/
structure View (α : Type) where
  size : Nat
  items : List (Item α)
  ids : List String
  get? : String → Option (Item α)
  aliases : String → List String
  directories : List String
  inDirectory : String → List (Item α)

/-! ### The list -/

namespace Roster
variable {α ε : Type}

/-- The document that a path or an id leads to. -/
def find? (docs : Roster α) (name : String) : Option (Doc α) :=
  List.find? (·.names.contains name) docs

def atPath? (docs : Roster α) (path : String) : Option (Doc α) :=
  List.find? (·.path = path) docs

/-- The first name of a document that one of another path has, and that document. -/
def clash? (docs : Roster α) (d : Doc α) : Option (String × Doc α) :=
  d.names.findSome? fun name =>
    (find? (docs.filter (·.path ≠ d.path)) name).map (name, ·)

/-- Whether a document is let in, and what it is stored as; one that is stored keeps its path. -/
def decision (s : Schema α ε) (docs : Roster α) (next : Item α) : Decision × Item α :=
  match docs.atPath? next.path.pathname with
  | none => (s.beforeSet next, next)
  | some old =>
    (s.beforeUpdate old.item next, { old.item with content := next.content, result := next.result })

def store (s : Schema α ε) (docs : Roster α) (r : Record) : Answer α ε × Roster α :=
  match s.parse r with
  | .error e => (.refused (.parse r.path.pathname e), docs)
  | .ok result =>
    match docs.decision s ⟨r.path, r.content, result⟩ with
    | (.skip, _) => (.skipped, docs)
    | (.store id, item) =>
      let d : Doc α := ⟨item, id⟩
      match docs.clash? d with
      | some (name, other) => (.refused (.duplicateKey name d.path other.path), docs)
      | none =>
        if (docs.atPath? d.path).isSome then
          (.updated d.item d.names, docs.map fun old => if old.path = d.path then d else old)
        else (.inserted d.item d.names, docs ++ [d])

def delete (docs : Roster α) (name : String) : Answer α ε × Roster α :=
  match docs.find? name with
  | none => (.deleted none, docs)
  | some d => (.deleted (some d.item), docs.filter (·.path ≠ d.path))

def step (s : Schema α ε) (docs : Roster α) : Collection.Call → Answer α ε × Roster α
  | .set r | .update r => docs.store s r
  | .delete name => docs.delete name

def afterAll (s : Schema α ε) (docs : Roster α) (calls : List Collection.Call) : Roster α :=
  calls.foldl (fun docs call => (docs.step s call).2) docs

def view (docs : Roster α) : View α where
  size := docs.length
  items := docs.map (·.item)
  ids := docs.map fun d => d.id.getD d.path
  get? name := (docs.find? name).map (·.item)
  aliases name := ((docs.find? name).map (·.names)).getD []
  directories := SortedSet.ofList (docs.map (·.directory))
  inDirectory dir := (docs.filter (·.directory = dir)).map (·.item)

end Roster

namespace Collection
variable {α ε : Type} {c : Collection α} {docs : Roster α}

def view (c : Collection α) : View α where
  size := c.size
  items := c.items
  ids := c.ids
  get? := c.get?
  aliases name := ((c.key? name).map c.aliases).getD []
  directories := c.directories
  inDirectory := c.inDirectory

/-- What a call that stores has answered. -/
def answerOf : Except (CollectionError ε) (Outcome × Collection α) → Answer α ε
  | .ok (.inserted key, c) => .inserted (c.item? key) (c.aliases key)
  | .ok (.updated key, c) => .updated (c.item? key) (c.aliases key)
  | .ok (.skipped, _) => .skipped
  | .error e => .refused e

def answer (s : Schema α ε) (c : Collection α) : Call → Answer α ε
  | .set r => answerOf (c.set s r)
  | .update r => answerOf (c.update s r)
  | .delete name => .deleted (c.delete name).1

/-- The entries in the order of the collection. -/
def listed (c : Collection α) : List (Entry α) := c.order.filterMap c.entryOf?

/-- The collection holds the documents of a list in their order. -/
structure Lists (c : Collection α) (docs : Roster α) : Prop extends Filed c where
  listed_eq : c.listed = docs.map (·.entry)

theorem names_eq (item : Item α) (id : Option String) :
    (⟨item, id⟩ : Doc α).names = aliasesOf item.path id := by
  cases id <;> rfl

theorem aliasesOf_congr {path other : FilePath} (same : path.pathname = other.pathname)
    (id : Option String) : aliasesOf path id = aliasesOf other id := by
  cases id with
  | none => rw [aliasesOf, aliasesOf, same]
  | some id => rw [aliasesOf, aliasesOf, same]

theorem head?_names (d : Doc α) : d.names.head? = some (d.id.getD d.path) := by
  rw [Doc.names]
  cases d.id with
  | none => rfl
  | some id =>
    by_cases same : id = d.path
    · simp [same]
    · simp [same]

theorem mem_listed (keyed : Keyed c) {e : Entry α} :
    e ∈ c.listed ↔ ∃ key, c.entryOf? key = some e := by
  rw [listed, List.mem_filterMap]
  constructor
  · rintro ⟨key, -, stands⟩
    exact ⟨key, stands⟩
  · rintro ⟨key, stands⟩
    exact ⟨key, keyed.mem_order.mpr (by rw [stands]; rfl), stands⟩

/-! ### Looking up -/

/-- One entry at most has the property that a key decides. -/
theorem find?_listed (keyed : Keyed c) {p : Entry α → Bool} {found : Option ItemKey}
    (leads : ∀ key e, c.entryOf? key = some e → (p e ↔ found = some key))
    (stands : ∀ key, found = some key → (c.entryOf? key).isSome) :
    c.listed.find? p = found.bind c.entryOf? := by
  cases found with
  | none =>
    refine List.find?_eq_none.mpr fun e mem holds => ?_
    obtain ⟨key, here⟩ := (mem_listed keyed).mp mem
    cases (leads key e here).mp holds
  | some key =>
    obtain ⟨e, here⟩ := Option.isSome_iff_exists.mp (stands key rfl)
    rw [Option.bind_some, here]
    cases other : c.listed.find? p with
    | none =>
      have absent := List.find?_eq_none.mp other e ((mem_listed keyed).mpr ⟨key, here⟩)
      exact absurd ((leads key e here).mpr rfl) absent
    | some e' =>
      obtain ⟨key', here'⟩ := (mem_listed keyed).mp (List.mem_of_find?_eq_some other)
      have same := (leads key' e' here').mp (List.find?_some other)
      rw [← Option.some.inj same, here] at here'
      exact here'.symm

section
variable (lists : Lists c docs)
include lists

theorem Lists.find?_eq {p : Entry α → Bool} {found : Option ItemKey}
    (leads : ∀ key e, c.entryOf? key = some e → (p e ↔ found = some key))
    (stands : ∀ key, found = some key → (c.entryOf? key).isSome) :
    (List.find? (p ·.entry) docs).map (·.entry) = found.bind c.entryOf? := by
  rw [← find?_listed lists.toKeyed leads stands, lists.listed_eq, List.find?_map]
  rfl

theorem Lists.find? (name : String) :
    (docs.find? name).map (·.entry) = (c.key? name).bind c.entryOf? := by
  refine lists.find?_eq (p := fun e => e.aliases.contains name) (fun key e here => ?_)
    fun key leads => ?_
  · rw [List.contains_iff_mem, lists.key?_iff]
    exact ⟨fun mem => ⟨e, here, mem⟩, fun ⟨e', here', mem⟩ => by
      rw [here] at here'
      rwa [Option.some.inj here']⟩
  · obtain ⟨e, here, -⟩ := lists.key?_iff.mp leads
    rw [here]
    rfl

theorem Lists.atPath? (path : String) :
    (docs.atPath? path).map (·.entry) = (c.keyOfPath? path).bind c.entryOf? := by
  refine lists.find?_eq (p := fun e => e.item.path.pathname = path) (fun key e here => ?_)
    fun key leads => ?_
  · rw [decide_eq_true_iff, keyOfPath?_eq_some lists.toKeyed]
    exact ⟨fun same => ⟨e, here, same⟩, fun ⟨e', here', same⟩ => by
      rw [here] at here'
      rwa [Option.some.inj here']⟩
  · obtain ⟨e, here, -⟩ := (keyOfPath?_eq_some lists.toKeyed).mp leads
    rw [here]
    rfl

/-- Another document has the name when its key is not that of the path. -/
theorem Lists.find?_other (path name : String) :
    (Roster.find? (docs.filter (·.path ≠ path)) name).map (·.entry) =
      ((c.key? name).filter (some · ≠ c.keyOfPath? path)).bind c.entryOf? := by
  rw [Roster.find?, List.find?_filter]
  refine lists.find?_eq
    (p := fun e => decide (decide (e.item.path.pathname ≠ path) = true ∧
      e.aliases.contains name = true))
    (fun key e here => ?_) fun key leads => ?_
  · rw [decide_eq_true_iff, decide_eq_true_iff, List.contains_iff_mem,
      Option.filter_eq_some_iff, decide_eq_true_iff, lists.key?_iff, and_comm]
    refine and_congr ⟨fun mem => ⟨e, here, mem⟩, fun ⟨e', here', mem⟩ => ?_⟩ (not_congr ?_)
    · rw [here] at here'
      rwa [Option.some.inj here']
    · rw [eq_comm (a := some key), keyOfPath?_eq_some lists.toKeyed, here]
      simp
  · obtain ⟨e, here, -⟩ := lists.key?_iff.mp (Option.filter_eq_some_iff.mp leads).1
    rw [here]
    rfl

/-- A name is refused by the collection when it is by the list. -/
theorem Lists.checkAliases (d : Doc α) :
    (c.checkAliases d.names (c.keyOfPath? d.path) d.path : Except (CollectionError ε) Unit) =
      match docs.clash? d with
      | none => .ok ()
      | some (name, other) => .error (.duplicateKey name d.path other.path) := by
  have same : (docs.clash? d).map (fun f => (f.1, f.2.path)) =
      (c.conflict? d.names (c.keyOfPath? d.path)).map
        fun f => (f.1, ((c.item? f.2).map (·.path.pathname)).getD "") := by
    rw [Roster.clash?, conflict?, List.map_findSome?, List.map_findSome?]
    refine congrArg (fun f => d.names.findSome? f) (funext fun name => ?_)
    have other := lists.find?_other d.path name
    rw [Function.comp_apply, Function.comp_apply]
    cases leads : c.key? name with
    | none =>
      rw [leads] at other
      rw [Option.map_eq_none_iff.mp other]
      rfl
    | some key =>
      rw [leads] at other
      by_cases own : some key = c.keyOfPath? d.path
      · rw [Option.filter_some_neg (by simpa using own)] at other
        rw [Option.map_eq_none_iff.mp other]
        simp [own]
      · obtain ⟨e, here, -⟩ := lists.key?_iff.mp leads
        rw [Option.filter_some_pos (by simpa using own), Option.bind_some, here] at other
        obtain ⟨d', stands, rfl⟩ := Option.map_eq_some_iff.mp other
        rw [stands]
        dsimp only
        rw [if_neg own]
        simp only [Option.map_some, item?, here]
        rfl
  rw [Collection.checkAliases]
  cases found : c.conflict? d.names (c.keyOfPath? d.path) with
  | none =>
    rw [found] at same
    rw [Option.map_eq_none_iff.mp same]
  | some f =>
    rw [found] at same
    obtain ⟨⟨name, other⟩, clash, pair⟩ := Option.map_eq_some_iff.mp same
    simp only [Prod.mk.injEq] at pair
    rw [clash]
    simp only [pair]

theorem Lists.size_eq : c.size = docs.length := by
  have all := congrArg List.length lists.listed_eq
  rw [listed, List.length_map, List.length_filterMap_eq_countP] at all
  rw [size, ← all, eq_comm, List.countP_eq_length]
  intro key mem
  simpa using lists.mem_order.mp mem

theorem Lists.items_eq : c.items = docs.map (·.item) := by
  have all := congrArg (List.map (·.item)) lists.listed_eq
  rw [listed, List.map_filterMap, List.map_map] at all
  exact all

theorem Lists.ids_eq : c.ids = docs.map fun d => d.id.getD d.path := by
  have all := congrArg (List.filterMap (·.aliases.head?)) lists.listed_eq
  rw [listed, List.filterMap_filterMap, List.filterMap_map] at all
  refine (List.filterMap_congr fun key mem => ?_).trans (all.trans ?_)
  · obtain ⟨e, here⟩ := Option.isSome_iff_exists.mp (lists.mem_order.mp mem)
    simp [aliases, here]
  · rw [List.filterMap_eq_map_iff_forall_eq_some.mpr]
    intro d _
    exact head?_names d

theorem Lists.get?_eq (name : String) : c.get? name = (docs.find? name).map (·.item) := by
  have found := congrArg (Option.map (·.item)) (lists.find? name)
  rw [Option.map_map, Option.map_bind] at found
  exact found.symm

theorem Lists.aliases_eq (name : String) :
    ((c.key? name).map c.aliases).getD [] = ((docs.find? name).map (·.names)).getD [] := by
  have found := congrArg (Option.map (·.aliases)) (lists.find? name)
  rw [Option.map_map] at found
  refine Eq.trans ?_ (congrArg (·.getD []) found).symm
  cases c.key? name with
  | none => rfl
  | some key => rfl

theorem Lists.directories_eq : c.directories = SortedSet.ofList (docs.map (·.directory)) := by
  have here : ∀ dir, dir ∈ docs.map (·.directory) ↔ ∃ e ∈ c.listed, e.item.path.dirname = dir := by
    intro dir
    rw [lists.listed_eq, List.mem_map]
    simp [Doc.entry, Doc.directory]
  have tables := lists.toFiled.consistent
  refine SortedSet.eq_of_mem_iff (SortedSet.increasing_ofList _) (SortedSet.increasing_ofList _)
    fun dir => ?_
  rw [directories, SortedSet.mem_ofList, SortedSet.mem_ofList, here, Assoc.keys, List.mem_map]
  constructor
  · rintro ⟨⟨_, keys⟩, mem, rfl⟩
    obtain ⟨key, first⟩ := List.exists_mem_of_ne_nil keys (tables.bucket_ne_nil _ _ mem)
    obtain ⟨e, stands, own⟩ := tables.bucket_own _ _ key mem first
    exact ⟨e, (mem_listed lists.toKeyed).mpr ⟨key, entryOf?_eq_some.mpr stands⟩, own⟩
  · rintro ⟨e, mem, rfl⟩
    obtain ⟨key, stands⟩ := (mem_listed lists.toKeyed).mp mem
    obtain ⟨keys, bucket, -⟩ := tables.bucket_once key e (entryOf?_eq_some.mp stands)
    exact ⟨_, bucket, rfl⟩

theorem Lists.inDirectory_eq (dir : String) :
    c.inDirectory dir = (docs.filter (·.directory = dir)).map (·.item) := by
  have all := congrArg (fun es => (List.filter (·.item.path.dirname = dir) es).map (·.item))
    lists.listed_eq
  rw [List.filter_map, List.map_map] at all
  refine Eq.trans ?_ all
  rw [Collection.inDirectory, ← bucket, lists.bucket_eq, listed, List.filter_filterMap,
    List.map_filterMap, List.filterMap_filter]
  refine List.filterMap_congr fun key _ => ?_
  rw [directoryOf?, item?]
  cases c.entryOf? key with
  | none => rfl
  | some e =>
    by_cases own : e.item.path.dirname = dir
    · simp [own, Option.filter]
    · simp [own, Option.filter]

theorem Lists.view_eq : c.view = docs.view := by
  rw [view, Roster.view, lists.size_eq, lists.items_eq, lists.ids_eq, lists.directories_eq]
  simp only [View.mk.injEq, true_and]
  exact ⟨funext lists.get?_eq, funext lists.aliases_eq, funext lists.inDirectory_eq⟩

end

/-! ### Changes of the list -/

section
variable {s : Schema α ε}

theorem lists_empty : Lists ({} : Collection α) [] where
  toFiled := filed_empty
  listed_eq := rfl

theorem listed_add {item : Item α} {aliases : List String} (keyed : Keyed c) :
    (c.add s item aliases).2.listed = c.listed ++ [⟨item, aliases⟩] := by
  have order : (c.add s item aliases).2.order = c.order ++ [c.freeKey] := rfl
  rw [listed, order, List.filterMap_append, listed]
  congr 1
  · refine List.filterMap_congr fun key mem => ?_
    have other : key ≠ c.freeKey := by
      rintro rfl
      rw [keyed.mem_order, entryOf?_free keyed] at mem
      cases mem
    rw [entryOf?_add keyed, if_neg other]
  · simp [entryOf?_add keyed]

theorem path_eq_iff (keyed : Keyed c) {key k : ItemKey} {e e' : Entry α}
    (stands : c.entryOf? key = some e) (stands' : c.entryOf? k = some e') :
    e'.item.path.pathname = e.item.path.pathname ↔ k = key := by
  constructor
  · intro same
    exact keyed.alias_unique stands' (keyed.path_mem stands') stands (same ▸ keyed.path_mem stands)
  · rintro rfl
    rw [stands] at stands'
    rw [Option.some.inj stands']

theorem listed_patch {key : ItemKey} {old : Entry α} {next : Item α} {aliases : List String}
    (keyed : Keyed c) (stands : c.entryOf? key = some old) :
    (c.patch s key old next aliases).listed = c.listed.map fun e =>
      if e.item.path.pathname = old.item.path.pathname then
        ⟨{ old.item with content := next.content, result := next.result }, aliases⟩
      else e := by
  have order : (c.patch s key old next aliases).order = c.order := rfl
  rw [listed, order, listed, List.map_filterMap]
  refine List.filterMap_congr fun k mem => ?_
  obtain ⟨e, here⟩ := Option.isSome_iff_exists.mp (keyed.mem_order.mp mem)
  rw [entryOf?_patch stands, here, Option.map_some]
  simp only [path_eq_iff keyed stands here]
  split
  · rfl
  · rfl

theorem listed_without {key : ItemKey} {e : Entry α} (keyed : Keyed c)
    (stands : c.entryOf? key = some e) : (c.without key e).listed =
      c.listed.filter (·.item.path.pathname ≠ e.item.path.pathname) := by
  have order : (c.without key e).order = c.order.filter (· != key) := rfl
  rw [listed, order, listed, List.filter_filterMap, List.filterMap_filter]
  refine List.filterMap_congr fun k mem => ?_
  obtain ⟨e', here⟩ := Option.isSome_iff_exists.mp (keyed.mem_order.mp mem)
  rw [entryOf?_without, here]
  have same := path_eq_iff keyed stands here
  by_cases own : k = key
  · simp [own, same.mpr own, Option.filter]
  · simp [own, mt same.mp own, Option.filter]

theorem lists_add {d : Doc α} (lists : Lists c docs) (fresh : ∀ a ∈ d.names, c.key? a = none) :
    Lists (c.add s d.item d.names).2 (docs ++ [d]) where
  toFiled := by
    refine filed_add lists.toFiled fresh ?_
    rw [← Doc.path]
    exact names_eq d.item d.id ▸ path_mem_aliasesOf d.item.path d.id
  listed_eq := by
    rw [listed_add lists.toKeyed, lists.listed_eq, List.map_append]
    rfl

theorem lists_patch {key : ItemKey} {old : Entry α} {next : Item α} {id : Option String}
    {d : Doc α} (lists : Lists c docs) (stands : c.entryOf? key = some old)
    (made : d = ⟨{ old.item with content := next.content, result := next.result }, id⟩)
    (fresh : ∀ a ∈ d.names, ∀ k, c.key? a = some k → k = key) :
    Lists (c.patch s key old next d.names)
      (docs.map fun x => if x.path = d.path then d else x) where
  toFiled := by
    refine filed_patch lists.toFiled stands fresh ?_
    have own := path_mem_aliasesOf d.item.path d.id
    rw [← names_eq] at own
    rw [made] at own ⊢
    exact own
  listed_eq := by
    rw [listed_patch lists.toKeyed stands, lists.listed_eq, List.map_map, List.map_map]
    refine List.map_congr_left fun x _ => ?_
    rw [Function.comp_apply, Function.comp_apply]
    have path : d.path = old.item.path.pathname := by rw [made]; rfl
    by_cases own : x.path = d.path
    · have own' : x.entry.item.path.pathname = old.item.path.pathname := by rw [← path, ← own]; rfl
      rw [if_pos own, if_pos own', Doc.entry, made]
    · have own' : x.entry.item.path.pathname ≠ old.item.path.pathname := by
        rw [← path]
        exact own
      rw [if_neg own, if_neg own']

theorem lists_without {key : ItemKey} {d : Doc α} (lists : Lists c docs)
    (stands : c.entryOf? key = some d.entry) :
    Lists (c.without key d.entry) (docs.filter (·.path ≠ d.path)) where
  toFiled := filed_without lists.toFiled stands
  listed_eq := by
    rw [listed_without lists.toKeyed stands, lists.listed_eq, List.filter_map]
    rfl

/-! ### Calls -/

/-- A name that no other document has is free, or leads to the document of the path. -/
theorem Lists.owned_of_clash (lists : Lists c docs) {d : Doc α} (free : docs.clash? d = none) :
    ∀ a ∈ d.names, ∀ key, c.key? a = some key → some key = c.keyOfPath? d.path := by
  have checked := lists.checkAliases (ε := Empty) d
  rw [free] at checked
  exact ok_of_checkAliases checked

/-- Adding a record of a new path. -/
theorem lists_insertNew {r : Record} (lists : Lists c docs)
    (absent : c.keyOfPath? r.path.pathname = none) :
    answerOf (c.insertNew s r) = (docs.store s r).1 ∧
      Lists (c.afterStore (c.insertNew s r)) (docs.store s r).2 := by
  have missing : docs.atPath? r.path.pathname = none := by
    have found := lists.atPath? r.path.pathname
    rw [absent] at found
    exact Option.map_eq_none_iff.mp found
  rw [insertNew, Roster.store, parse]
  cases s.parse r with
  | error e => exact ⟨rfl, lists⟩
  | ok result =>
    simp only [bind, Except.bind, Roster.decision, missing]
    cases s.beforeSet ⟨r.path, r.content, result⟩ with
    | skip => exact ⟨rfl, lists⟩
    | store id =>
      obtain ⟨d, made⟩ : ∃ d : Doc α, d = ⟨⟨r.path, r.content, result⟩, id⟩ := ⟨_, rfl⟩
      have item : d.item = ⟨r.path, r.content, result⟩ := by rw [made]
      have names : aliasesOf r.path id = d.names := by rw [made, names_eq]
      have path : r.path.pathname = d.path := by rw [made]; rfl
      dsimp only
      rw [← made, ← item, names, path, ← absent, path, lists.checkAliases]
      cases clash : docs.clash? d with
      | some f => exact ⟨rfl, lists⟩
      | none =>
        rw [← path, missing]
        refine ⟨?_, lists_add lists fun a mem => ?_⟩
        · have stands : (c.add s d.item d.names).2.entryOf? c.freeKey = some ⟨d.item, d.names⟩ := by
            rw [entryOf?_add lists.toKeyed, if_pos rfl]
          show Answer.inserted ((c.add s d.item d.names).2.item? c.freeKey)
            ((c.add s d.item d.names).2.aliases c.freeKey) = _
          rw [item?, aliases, stands]
          rfl
        · rw [Option.eq_none_iff_forall_ne_some]
          intro key leads
          have owned := lists.owned_of_clash clash a mem key leads
          rw [← path, absent] at owned
          cases owned

/-- Reading a record of a known path again. -/
theorem lists_reread {r : Record} {key : ItemKey} (lists : Lists c docs)
    (found : c.keyOfPath? r.path.pathname = some key) :
    answerOf (c.reread s key r) = (docs.store s r).1 ∧
      Lists (c.afterStore (c.reread s key r)) (docs.store s r).2 := by
  obtain ⟨old, stands, same⟩ := (keyOfPath?_eq_some lists.toKeyed).mp found
  obtain ⟨d₀, here, rfl⟩ : ∃ d₀, docs.atPath? r.path.pathname = some d₀ ∧ d₀.entry = old := by
    have listed := lists.atPath? r.path.pathname
    rw [found, Option.bind_some, stands] at listed
    exact Option.map_eq_some_iff.mp listed
  rw [reread, Roster.store, parse]
  cases s.parse r with
  | error e => exact ⟨rfl, lists⟩
  | ok result =>
    simp only [bind, Except.bind, Roster.decision, here, stands]
    have item₀ : d₀.entry.item = d₀.item := rfl
    rw [item₀]
    cases s.beforeUpdate d₀.item ⟨r.path, r.content, result⟩ with
    | skip => exact ⟨rfl, lists⟩
    | store id =>
      obtain ⟨d, made⟩ : ∃ d : Doc α,
          d = ⟨{ d₀.item with content := r.content, result := result }, id⟩ := ⟨_, rfl⟩
      have path : d.path = r.path.pathname := by
        rw [made]
        exact same
      have names : aliasesOf r.path id = d.names := by
        rw [made, names_eq]
        exact aliasesOf_congr same.symm id
      have checked := lists.checkAliases (ε := ε) d
      rw [path, found] at checked
      dsimp only
      rw [← made, names, checked, path, here]
      cases clash : docs.clash? d with
      | some f => exact ⟨rfl, lists⟩
      | none =>
        have owned := lists.owned_of_clash clash
        rw [path, found] at owned
        have left : Lists (c.patch s key d₀.entry ⟨r.path, r.content, result⟩ d.names)
            (docs.map fun x => if x.path = d.path then d else x) :=
          lists_patch lists stands made fun a mem k leads => Option.some.inj (owned a mem k leads)
        rw [path] at left
        refine ⟨?_, left⟩
        have patched : (c.patch s key d₀.entry ⟨r.path, r.content, result⟩ d.names).entryOf? key =
            some ⟨d.item, d.names⟩ := by
          rw [entryOf?_patch stands, if_pos rfl, made]
          rfl
        show Answer.updated
          ((c.patch s key d₀.entry ⟨r.path, r.content, result⟩ d.names).item? key)
          ((c.patch s key d₀.entry ⟨r.path, r.content, result⟩ d.names).aliases key) = _
        rw [item?, aliases, patched]
        have item : d.item = { d₀.item with content := r.content, result := result } := by rw [made]
        rw [Option.map_some, item]
        rfl

theorem lists_set (lists : Lists c docs) (r : Record) :
    answerOf (c.set s r) = (docs.store s r).1 ∧
      Lists (c.afterStore (c.set s r)) (docs.store s r).2 := by
  rw [set]
  cases found : c.keyOfPath? r.path.pathname with
  | none => exact lists_insertNew lists found
  | some key => exact lists_reread lists found

theorem lists_delete (lists : Lists c docs) (name : String) :
    (.deleted (c.delete name).1 : Answer α ε) = (docs.delete name).1 ∧
      Lists (c.delete name).2 (docs.delete (ε := ε) name).2 := by
  have listed := lists.find? name
  rw [delete_eq, Roster.delete]
  cases leads : c.key? name with
  | none =>
    rw [leads] at listed
    rw [Option.map_eq_none_iff.mp listed]
    exact ⟨rfl, lists⟩
  | some key =>
    obtain ⟨e, stands, -⟩ := lists.key?_iff.mp leads
    rw [leads, Option.bind_some, stands] at listed
    obtain ⟨d, here, rfl⟩ := Option.map_eq_some_iff.mp listed
    rw [here, Option.bind_some, stands]
    exact ⟨rfl, lists_without lists stands⟩

/-- A call answers the same and leaves the same documents. -/
theorem lists_after (s : Schema α ε) (lists : Lists c docs) (call : Call) :
    c.answer s call = (docs.step s call).1 ∧ Lists (c.after s call) (docs.step s call).2 := by
  cases call with
  | set r => exact lists_set lists r
  | update r =>
    rw [answer, after, update_eq_set]
    exact lists_set lists r
  | delete name => exact lists_delete lists name

theorem lists_afterAll (s : Schema α ε) (lists : Lists c docs) (calls : List Call) :
    Lists (c.afterAll (calls.map (s, ·))) (docs.afterAll s calls) := by
  induction calls generalizing c docs with
  | nil => exact lists
  | cons call calls ih => exact ih (lists_after s lists call).2

end

/-- In the list, a call that changes nothing leaves the documents as they are. -/
theorem step_of_unchanged {s : Schema α ε} {call : Call}
    (unchanged : ¬ (docs.step s call).1.Changes) : (docs.step s call).2 = docs := by
  have stored : ∀ r, ¬ (docs.store s r).1.Changes → (docs.store s r).2 = docs := by
    intro r
    rw [Roster.store]
    split
    · exact fun _ => rfl
    · split
      · exact fun _ => rfl
      · dsimp only
        split
        · exact fun _ => rfl
        · split
          · exact fun h => absurd trivial h
          · exact fun h => absurd trivial h
  cases call with
  | set r => exact stored r unchanged
  | update r => exact stored r unchanged
  | delete name =>
    revert unchanged
    rw [Roster.step, Roster.delete]
    split
    · exact fun _ => rfl
    · exact fun h => absurd trivial h

/-- After any calls the collection shows what the list shows, and it answers every further call as
the list does; one that changes nothing leaves all that is shown as it is. -/
theorem shows_roster (s : Schema α ε) (calls : List Call) :
    (afterAll ({} : Collection α) (calls.map (s, ·))).view = (Roster.afterAll s [] calls).view ∧
      ∀ call, (afterAll {} (calls.map (s, ·))).answer s call =
          ((Roster.afterAll s [] calls).step s call).1 ∧
        (¬ ((afterAll {} (calls.map (s, ·))).answer s call).Changes →
          ((afterAll {} (calls.map (s, ·))).after s call).view =
            (afterAll {} (calls.map (s, ·))).view) := by
  have lists := lists_afterAll s lists_empty calls
  refine ⟨lists.view_eq, fun call => ?_⟩
  obtain ⟨answered, next⟩ := lists_after s lists call
  refine ⟨answered, fun unchanged => ?_⟩
  rw [answered] at unchanged
  rw [next.view_eq, step_of_unchanged unchanged, lists.view_eq]

end Collection
end Stencil
