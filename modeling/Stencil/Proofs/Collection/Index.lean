import Stencil.Proofs.Collection.Edit
import Stencil.Proofs.Collection.Tables
/-!
The index of a collection is exact. Whatever calls have been made, it tells of the uses of the stored
documents and of nothing else: names that a document has given up, uses of documents that are gone and
sets that have become empty are not in it.
-/
namespace Stencil

/-! ### Tables of sets -/

/-- A table of sets has each key once, and no empty set. -/
structure Trim (table : Assoc (List String)) : Prop where
  distinct : table.Distinct
  ne_nil : ∀ {key set}, (key, set) ∈ table → set ≠ []

section
variable {table : Assoc (List String)} {key : String} {set : List String}

theorem trim_put (trim : Trim table) (filled : set ≠ []) : Trim (table.put key set) where
  distinct := Assoc.distinct_put trim.distinct key set
  ne_nil {k _} mem := by
    have found := Assoc.get?_of_mem (Assoc.distinct_put trim.distinct key set) mem
    rw [Assoc.get?_put] at found
    split at found
    · rwa [← Option.some.inj found]
    · exact trim.ne_nil (Assoc.mem_of_get? found)

theorem trim_putSet (trim : Trim table) : Trim (Usage.putSet key set table) := by
  rw [Usage.putSet]
  split
  · exact ⟨Assoc.distinct_erase trim.distinct key,
      fun mem => trim.ne_nil (List.mem_of_mem_filter mem)⟩
  · next filled => exact trim_put trim fun empty => filled (by rw [empty]; rfl)

theorem mem_set_iff (trim : Trim table) {x : String} :
    x ∈ (Assoc.get? table key).getD [] ↔ ∃ set, (key, set) ∈ table ∧ x ∈ set := by
  constructor
  · intro mem
    cases found : Assoc.get? table key with
    | none =>
      rw [found] at mem
      cases mem
    | some set =>
      rw [found] at mem
      exact ⟨set, Assoc.mem_of_get? found, mem⟩
  · rintro ⟨set, stands, mem⟩
    rw [Assoc.get?_of_mem trim.distinct stands]
    exact mem

theorem isEmpty_iff (trim : Trim table) :
    table.isEmpty = true ↔ ∀ key, (Assoc.get? table key).getD [] = [] := by
  rw [List.isEmpty_iff]
  constructor
  · rintro rfl key
    rfl
  · intro none
    rw [List.eq_nil_iff_forall_not_mem]
    rintro ⟨key, set⟩ mem
    have empty := none key
    rw [Assoc.get?_of_mem trim.distinct mem] at empty
    exact trim.ne_nil mem empty

end

theorem SortedSet.insert_ne_nil (s : String) (set : List String) : SortedSet.insert s set ≠ [] := by
  intro empty
  have mem : s ∈ SortedSet.insert s set := SortedSet.mem_insert.mpr (.inl rfl)
  rw [empty] at mem
  cases mem

namespace Usage
variable {u : Usage}

/-- Both tables are trim, and the users of a name are kept in increasing order. -/
structure Kept (u : Usage) : Prop where
  byUser : Trim u.byUser
  byName : Trim u.byName
  users : ∀ name, SortedSet.Increasing (u.usersOf name)

theorem kept_empty : Kept {} where
  byUser := ⟨List.nodup_nil, fun mem => absurd mem List.not_mem_nil⟩
  byName := ⟨List.nodup_nil, fun mem => absurd mem List.not_mem_nil⟩
  users _ := List.Pairwise.nil

theorem kept_record (h : u.Kept) (user name : String) : (u.record user name).Kept where
  byUser := trim_put h.byUser (SortedSet.insert_ne_nil _ _)
  byName := trim_put h.byName (SortedSet.insert_ne_nil _ _)
  users other := by
    rw [usersOf_record]
    split
    · exact SortedSet.increasing_insert (h.users name)
    · exact h.users other

theorem kept_forget (h : u.Kept) (user name : String) : (u.forget user name).Kept where
  byUser := trim_putSet h.byUser
  byName := trim_putSet h.byName
  users other := by
    rw [usersOf_forget]
    split
    · exact (h.users name).filter _
    · exact h.users other

theorem kept_replace (h : u.Kept) (user : String) (names : List String) :
    (u.replace user names).Kept :=
  foldl_keeps (P := Kept) (fun _ name h => kept_record h user name) _
    (foldl_keeps (P := Kept) (fun _ name h => kept_forget h user name) _ h)

theorem kept_forgetUser (h : u.Kept) (user : String) : (u.forgetUser user).Kept :=
  foldl_keeps (P := Kept) (fun _ name h => kept_forget h user name) _ h

end Usage

namespace Collection
variable {α ε : Type} {c : Collection α} {uses : α → List String} {s : Schema α ε}

/-! ### Calls -/

/-- A sound collection whose index is kept well. -/
structure Indexed (uses : α → List String) (c : Collection α) : Prop extends Sound uses c where
  kept : c.usage.Kept

theorem indexed_empty (uses : α → List String) : Indexed uses ({} : Collection α) where
  toSound := sound_empty uses
  kept := Usage.kept_empty

theorem indexed_of_edits {c' : Collection α} (indexed : Indexed s.uses c) (h : Edits s c c') :
    Indexed s.uses c' := by
  cases h with
  | kept => exact indexed
  | added fresh path =>
    exact ⟨sound_add indexed.toSound fresh path, Usage.kept_replace indexed.kept _ _⟩
  | patched stands fresh path same =>
    exact ⟨sound_patch indexed.toSound stands fresh path same,
      Usage.kept_replace indexed.kept _ _⟩
  | removed stands =>
    exact ⟨sound_without indexed.toSound stands, Usage.kept_forgetUser indexed.kept _⟩

theorem indexed_afterStore (indexed : Indexed s.uses c) (r : Record) :
    Indexed s.uses (c.afterStore (c.set s r)) := by
  cases done : c.set s r with
  | ok out => exact indexed_of_edits indexed (edits_set indexed.toKeyed done)
  | error e => exact indexed

theorem indexed_after (indexed : Indexed s.uses c) (call : Call) :
    Indexed s.uses (c.after s call) := by
  cases call with
  | set r => exact indexed_afterStore indexed r
  | update r =>
    rw [after, update_eq_set]
    exact indexed_afterStore indexed r
  | delete name => exact indexed_of_edits indexed (edits_delete name)

theorem indexed_afterAll (indexed : Indexed uses c) (calls : List (Schema α ε × Call)) :
    Indexed uses (c.afterAll (calls.map fun e => ({ e.1 with uses := uses }, e.2))) := by
  induction calls generalizing c with
  | nil => exact indexed
  | cons e calls ih => exact ih (indexed_after (s := { e.1 with uses := uses }) indexed e.2)

/-! ### What the index says -/

/-- The index tells of the uses of the stored documents. -/
structure ExactIndex (uses : α → List String) (c : Collection α) : Prop where
  paths_once : (c.items.map (·.path.pathname)).Nodup
  users_increasing : ∀ name, SortedSet.Increasing (c.usage.usersOf name)
  mem_users : ∀ name path, path ∈ c.usage.usersOf name ↔
    ∃ item ∈ c.items, item.path.pathname = path ∧ name ∈ uses item.result
  uses_increasing : ∀ path, SortedSet.Increasing (c.usage.usesOf path)
  mem_uses : ∀ path name, name ∈ c.usage.usesOf path ↔
    ∃ item ∈ c.items, item.path.pathname = path ∧ name ∈ uses item.result
  user_once : c.usage.byUser.keys.Nodup
  name_once : c.usage.byName.keys.Nodup
  inverse : ∀ user name, (∃ names, (user, names) ∈ c.usage.byUser ∧ name ∈ names) ↔
    ∃ users, (name, users) ∈ c.usage.byName ∧ user ∈ users
  names_ne_nil : ∀ user names, (user, names) ∈ c.usage.byUser → names ≠ []
  users_ne_nil : ∀ name users, (name, users) ∈ c.usage.byName → users ≠ []
  isEmpty_iff : c.usage.isEmpty = true ↔ ∀ item ∈ c.items, uses item.result = []

theorem nodup_paths (keyed : Keyed c) : (c.items.map (·.path.pathname)).Nodup := by
  refine (List.nodup_map_iff_inj_on (nodup_items keyed)).mpr fun item mem item' mem' same => ?_
  obtain ⟨e, found, rfl⟩ := (mem_items keyed).mp mem
  obtain ⟨e', found', rfl⟩ := (mem_items keyed).mp mem'
  rw [same, found'] at found
  rw [Option.some.inj found]

theorem Sound.mem_usesOf (sound : Sound uses c) {path name : String} :
    name ∈ c.usage.usesOf path ↔
      ∃ item ∈ c.items, item.path.pathname = path ∧ name ∈ uses item.result := by
  rw [sound.inverse, mem_usersOf sound]
  constructor
  · rintro ⟨e, found, mem⟩
    have same := path_of_at? sound.toKeyed found
    exact ⟨e.item, (mem_items sound.toKeyed).mpr ⟨e, by rw [same]; exact found, rfl⟩, same, mem⟩
  · rintro ⟨item, stored, rfl, mem⟩
    obtain ⟨e, found, rfl⟩ := (mem_items sound.toKeyed).mp stored
    exact ⟨e, found, mem⟩

theorem Indexed.isEmpty_iff (indexed : Indexed uses c) :
    c.usage.isEmpty = true ↔ ∀ item ∈ c.items, uses item.result = [] := by
  refine (Stencil.isEmpty_iff indexed.kept.byUser).trans ?_
  constructor
  · intro none item mem
    rw [List.eq_nil_iff_forall_not_mem]
    intro name used
    have here : name ∈ c.usage.usesOf item.path.pathname :=
      indexed.toSound.mem_usesOf.mpr ⟨item, mem, rfl, used⟩
    rw [Usage.usesOf, none] at here
    cases here
  · intro none path
    refine List.eq_nil_iff_forall_not_mem.mpr fun name mem => ?_
    obtain ⟨item, stored, -, used⟩ := indexed.toSound.mem_usesOf.mp mem
    rw [none item stored] at used
    cases used

theorem Indexed.exact (indexed : Indexed uses c) : ExactIndex uses c where
  paths_once := nodup_paths indexed.toKeyed
  users_increasing := indexed.kept.users
  mem_users name path := by
    rw [← indexed.inverse]
    exact indexed.toSound.mem_usesOf
  uses_increasing := indexed.ordered
  mem_uses path name := indexed.toSound.mem_usesOf
  user_once := indexed.kept.byUser.distinct
  name_once := indexed.kept.byName.distinct
  inverse user name := by
    rw [← mem_set_iff indexed.kept.byUser, ← mem_set_iff indexed.kept.byName]
    exact indexed.inverse user name
  names_ne_nil _ _ := indexed.kept.byUser.ne_nil
  users_ne_nil _ _ := indexed.kept.byName.ne_nil
  isEmpty_iff := indexed.isEmpty_iff

/-- After any calls the index is exact. What is parsed and let in may be decided anew at each of
them; which names a document uses is told by the document alone. -/
theorem exactIndex_afterAll (uses : α → List String) (calls : List (Schema α ε × Call)) :
    ExactIndex uses (afterAll ({} : Collection α)
      (calls.map fun e => ({ e.1 with uses := uses }, e.2))) :=
  (indexed_afterAll (indexed_empty uses) calls).exact

end Collection
end Stencil
