import Mathlib.Data.List.Nodup
import Stencil.Proofs.Collection.Sound
/-!
The tables of a collection agree. Whatever calls have been made, with whatever answers of the schema
on the way, the order, the empty places, the names and the directories tell of the same documents.
-/
namespace Stencil

namespace Assoc
variable {α : Type} {es : Assoc α} {key : String} {a : α}

theorem mem_of_get? (found : get? es key = some a) : (key, a) ∈ es := by
  obtain ⟨e, here, rfl⟩ := Option.map_eq_some_iff.mp found
  have same : e.1 = key := by simpa using List.find?_some here
  rw [← same]
  exact List.mem_of_find?_eq_some here

theorem get?_of_mem (distinct : es.Distinct) (mem : (key, a) ∈ es) : get? es key = some a := by
  induction es with
  | nil => cases mem
  | cons e es ih =>
    obtain ⟨head, tail⟩ := List.nodup_cons.mp distinct
    rcases List.mem_cons.mp mem with rfl | mem
    · simp [get?]
    · have other : e.1 ≠ key := by
        rintro rfl
        exact head (List.mem_map.mpr ⟨_, mem, rfl⟩)
      have skip : get? (e :: es) key = get? es key := by simp [get?, other]
      rw [skip]
      exact ih tail mem

end Assoc

namespace Collection
variable {α ε : Type} {c : Collection α}

/-! ### Directories -/

/-- The keys of a directory; none without a bucket. -/
def bucket (c : Collection α) (dir : String) : List ItemKey :=
  (Assoc.get? c.byDirectory dir).getD []

def directoryOf? (c : Collection α) (key : ItemKey) : Option String :=
  (c.entryOf? key).map (·.item.path.dirname)

/-- Every place is told of by the table that it belongs to. A bucket holds the keys of its
directory in the order of the collection. -/
structure Filed (c : Collection α) : Prop extends Keyed c where
  free_of_empty : ∀ {key}, c.entries[key]? = some none → key ∈ c.free
  byId_distinct : c.byId.Distinct
  byDirectory_distinct : c.byDirectory.Distinct
  bucket_eq : ∀ dir, c.bucket dir = c.order.filter (c.directoryOf? · = some dir)
  bucket_ne_nil : ∀ {dir keys}, (dir, keys) ∈ c.byDirectory → keys ≠ []

theorem filed_empty : Filed ({} : Collection α) where
  toKeyed := keyed_empty
  free_of_empty h := by simp at h
  byId_distinct := List.nodup_nil
  byDirectory_distinct := List.nodup_nil
  bucket_eq dir := rfl
  bucket_ne_nil h := by cases h

theorem entryOf?_eq_some {key : ItemKey} {e : Entry α} :
    c.entryOf? key = some e ↔ c.entries[key]? = some (some e) := by
  rw [entryOf?, Option.join_eq_some_iff]

theorem distinct_putAliases {table : Assoc ItemKey} (h : table.Distinct) (aliases : List String)
    (key : ItemKey) : (putAliases aliases key table).Distinct := by
  rw [putAliases]
  induction aliases generalizing table with
  | nil => exact h
  | cons a aliases ih => exact ih (Assoc.distinct_put h a key)

theorem distinct_dropAliases {table : Assoc ItemKey} (h : table.Distinct) (aliases : List String)
    (key : ItemKey) : (dropAliases aliases key table).Distinct := by
  rw [dropAliases]
  induction aliases generalizing table with
  | nil => exact h
  | cons a aliases ih =>
    rw [List.foldl_cons]
    split
    · exact ih (Assoc.distinct_erase h a)
    · exact ih h

section
variable {dir : String} {key : ItemKey} {table : Assoc (List ItemKey)}

theorem get?_dropFromDirectory (other : String) :
    (Assoc.get? (dropFromDirectory dir key table) other).getD [] =
      if other = dir then ((Assoc.get? table dir).getD []).filter (· != key)
      else (Assoc.get? table other).getD [] := by
  rw [dropFromDirectory]
  cases found : Assoc.get? table dir with
  | none =>
    by_cases same : other = dir
    · simp [same, found]
    · simp [same]
  | some keys =>
    rw [Option.map_some]
    split
    · next h => cases h
    · next h =>
      rw [Assoc.get?_erase]
      by_cases same : other = dir
      · simp [same, Option.some.inj h]
      · simp [same]
    · next keys' _ h =>
      rw [Assoc.get?_put]
      by_cases same : other = dir
      · simp [same, ← Option.some.inj h]
      · simp [same]

theorem distinct_dropFromDirectory (h : table.Distinct) :
    (dropFromDirectory dir key table).Distinct := by
  rw [dropFromDirectory]
  split
  · exact h
  · exact Assoc.distinct_erase h dir
  · exact Assoc.distinct_put h dir _

theorem ne_nil_of_mem_put {es : Assoc (List ItemKey)} {d : String} {keys new : List ItemKey}
    (filled : ∀ {d keys}, (d, keys) ∈ es → keys ≠ []) (distinct : es.Distinct) (some : new ≠ [])
    (mem : (d, keys) ∈ es.put dir new) : keys ≠ [] := by
  have found := Assoc.get?_of_mem (Assoc.distinct_put distinct dir new) mem
  rw [Assoc.get?_put] at found
  split at found
  · rwa [← Option.some.inj found]
  · exact filled (Assoc.mem_of_get? found)

theorem ne_nil_of_mem_dropFromDirectory {d : String} {keys : List ItemKey}
    (filled : ∀ {d keys}, (d, keys) ∈ table → keys ≠ []) (distinct : table.Distinct)
    (mem : (d, keys) ∈ dropFromDirectory dir key table) : keys ≠ [] := by
  rw [dropFromDirectory] at mem
  split at mem
  · exact filled mem
  · exact filled (List.mem_of_mem_filter mem)
  · next keys' rest _ =>
    refine ne_nil_of_mem_put filled distinct (fun empty => ?_) mem
    exact rest (by rw [empty])

end

/-! ### What one call does -/

section
variable {uses : α → List String} {s : Schema α ε}

theorem filed_add {item : Item α} {aliases : List String} (filed : Filed c)
    (fresh : ∀ a ∈ aliases, c.key? a = none) (path : item.path.pathname ∈ aliases) :
    Filed (c.add s item aliases).2 where
  toKeyed := keyed_add filed.toKeyed fresh path
  free_of_empty := by
    intro key empty
    have entries : (c.add s item aliases).2.entries = c.fill c.freeKey ⟨item, aliases⟩ := rfl
    rw [entries, getElem?_fill (free_le_length filed.toKeyed)] at empty
    split at empty
    · cases empty
    · next other =>
      have old := filed.free_of_empty empty
      cases free : c.free with
      | nil =>
        rw [free] at old
        cases old
      | cons first rest =>
        rw [free] at old
        rw [freeKey, free] at other
        have tail : (c.add s item aliases).2.free = rest := by simp [add, free]
        rw [tail]
        exact (List.mem_cons.mp old).resolve_left other
  byId_distinct := distinct_putAliases filed.byId_distinct aliases _
  byDirectory_distinct := Assoc.distinct_put filed.byDirectory_distinct _ _
  bucket_eq dir := by
    have order : (c.add s item aliases).2.order = c.order ++ [c.freeKey] := rfl
    have table : (c.add s item aliases).2.bucket dir =
        if dir = item.path.dirname then c.bucket item.path.dirname ++ [c.freeKey]
        else c.bucket dir := by
      rw [bucket]
      refine (congrArg (·.getD []) (Assoc.get?_put c.byDirectory _ dir _)).trans ?_
      split
      · rfl
      · rfl
    have old : c.order.filter ((c.add s item aliases).2.directoryOf? · = some dir) =
        c.bucket dir := by
      rw [filed.bucket_eq]
      refine List.filter_congr fun key mem => ?_
      have other : key ≠ c.freeKey := by
        rintro rfl
        rw [filed.mem_order, entryOf?_free filed.toKeyed] at mem
        cases mem
      rw [directoryOf?, entryOf?_add filed.toKeyed, if_neg other, directoryOf?]
    have new : (c.add s item aliases).2.directoryOf? c.freeKey = some item.path.dirname := by
      rw [directoryOf?, entryOf?_add filed.toKeyed, if_pos rfl]
      rfl
    rw [table, order, List.filter_append, old]
    by_cases same : dir = item.path.dirname
    · simp [same, new]
    · simp [same, new, Ne.symm same]
  bucket_ne_nil := ne_nil_of_mem_put filed.bucket_ne_nil filed.byDirectory_distinct (by simp)

theorem filed_patch {key : ItemKey} {old : Entry α} {next : Item α} {aliases : List String}
    (filed : Filed c) (stands : c.entryOf? key = some old)
    (fresh : ∀ a ∈ aliases, ∀ k, c.key? a = some k → k = key)
    (path : old.item.path.pathname ∈ aliases) : Filed (c.patch s key old next aliases) where
  toKeyed := keyed_patch filed.toKeyed stands fresh path
  free_of_empty := by
    intro k empty
    rw [patch, List.getElem?_set] at empty
    split at empty
    · split at empty
      · cases empty
      · cases empty
    · exact filed.free_of_empty empty
  byId_distinct := distinct_putAliases (distinct_dropAliases filed.byId_distinct _ key) aliases key
  byDirectory_distinct := filed.byDirectory_distinct
  bucket_eq dir := by
    refine (filed.bucket_eq dir).trans (List.filter_congr fun k _ => ?_)
    rw [directoryOf?, directoryOf?, entryOf?_patch stands]
    split
    · next same =>
      rw [same, stands]
      rfl
    · rfl
  bucket_ne_nil := filed.bucket_ne_nil

theorem filed_without {key : ItemKey} {e : Entry α} (filed : Filed c)
    (stands : c.entryOf? key = some e) : Filed (c.without key e) where
  toKeyed := keyed_without filed.toKeyed stands
  free_of_empty := by
    intro k empty
    rw [without, List.getElem?_set] at empty
    split at empty
    · next same =>
      rw [← same]
      exact List.mem_cons_self
    · exact List.mem_cons_of_mem _ (filed.free_of_empty empty)
  byId_distinct := distinct_dropAliases filed.byId_distinct _ key
  byDirectory_distinct := distinct_dropFromDirectory filed.byDirectory_distinct
  bucket_eq dir := by
    have order : (c.without key e).order = c.order.filter (· != key) := rfl
    have table : (c.without key e).bucket dir =
        if dir = e.item.path.dirname then (c.bucket e.item.path.dirname).filter (· != key)
        else c.bucket dir := get?_dropFromDirectory dir
    have old : (c.order.filter (· != key)).filter ((c.without key e).directoryOf? · = some dir) =
        (c.bucket dir).filter (· != key) := by
      rw [filed.bucket_eq, List.filter_comm (fun k => k != key)]
      refine List.filter_congr fun k mem => ?_
      have other : k ≠ key := by simpa using (List.mem_filter.mp mem).2
      rw [directoryOf?, entryOf?_without, if_neg other, directoryOf?]
    rw [table, order, old]
    split
    · next same => rw [same]
    · next other =>
      -- the key stands in no other bucket
      refine (List.filter_eq_self.mpr fun k mem => ?_).symm
      rw [filed.bucket_eq] at mem
      have here := (List.mem_filter.mp mem).2
      rw [bne_iff_ne]
      rintro rfl
      rw [directoryOf?, stands] at here
      simp only [Option.map_some, Option.some.injEq, decide_eq_true_eq] at here
      exact other here.symm
  bucket_ne_nil := ne_nil_of_mem_dropFromDirectory filed.bucket_ne_nil filed.byDirectory_distinct

end

/-! ### Calls -/

/-- A call that changes a collection. -/
inductive Call where
  | set (r : Record)
  | update (r : Record)
  | delete (name : String)

/-- The collection after a record has been stored, or as it is when that has failed. -/
def afterStore (c : Collection α) : Except (CollectionError ε) (Outcome × Collection α) →
    Collection α
  | .ok (_, c') => c'
  | .error _ => c

def after (s : Schema α ε) (c : Collection α) : Call → Collection α
  | .set r => c.afterStore (c.set s r)
  | .update r => c.afterStore (c.update s r)
  | .delete name => (c.delete name).2

/-- The collection after calls. What is parsed and let in may be decided anew at each of them. -/
def afterAll (c : Collection α) (calls : List (Schema α ε × Call)) : Collection α :=
  calls.foldl (fun c (s, call) => c.after s call) c

theorem update_eq_set (s : Schema α ε) (c : Collection α) (r : Record) :
    c.update s r = c.set s r := by
  rw [update, set]
  cases c.keyOfPath? r.path.pathname <;> rfl

/-- What a successful call has done to the documents. -/
inductive Edits (s : Schema α ε) (c : Collection α) : Collection α → Prop where
  | kept : Edits s c c
  | added {item aliases} (fresh : ∀ a ∈ aliases, c.key? a = none)
      (path : item.path.pathname ∈ aliases) : Edits s c (c.add s item aliases).2
  | patched {key old next aliases} (stands : c.entryOf? key = some old)
      (fresh : ∀ a ∈ aliases, ∀ k, c.key? a = some k → k = key)
      (path : old.item.path.pathname ∈ aliases)
      (same : next.path.pathname = old.item.path.pathname) :
      Edits s c (c.patch s key old next aliases)
  | removed {key e} (stands : c.entryOf? key = some e) : Edits s c (c.without key e)

theorem filed_of_edits {s : Schema α ε} {c' : Collection α} (filed : Filed c)
    (h : Edits s c c') : Filed c' := by
  cases h with
  | kept => exact filed
  | added fresh path => exact filed_add filed fresh path
  | patched stands fresh path _ => exact filed_patch filed stands fresh path
  | removed stands => exact filed_without filed stands

theorem ok_of_checkAliases {aliases : List String} {owner : Option ItemKey} {path : String}
    (ok : (c.checkAliases aliases owner path : Except (CollectionError ε) Unit) = .ok ()) :
    ∀ a ∈ aliases, ∀ k, c.key? a = some k → some k = owner :=
  conflict?_eq_none.mp (checkAliases_eq_ok.mp ok)

theorem edits_insertNew {s : Schema α ε} {r : Record} {out : Outcome} {c' : Collection α}
    (done : c.insertNew s r = .ok (out, c')) : Edits s c c' := by
  rw [insertNew] at done
  cases parsed : parse s r with
  | error e => simp [parsed, bind, Except.bind] at done
  | ok item =>
    simp only [parsed, bind, Except.bind] at done
    cases decision : s.beforeSet item with
    | skip =>
      simp only [decision] at done
      cases done
      exact .kept
    | store id =>
      simp only [decision] at done
      cases checked : (c.checkAliases (aliasesOf item.path id) none item.path.pathname :
          Except (CollectionError ε) Unit) with
      | error e => simp [checked] at done
      | ok _ =>
        simp only [checked] at done
        cases done
        refine .added (fun a mem => ?_) (path_mem_aliasesOf _ _)
        rw [Option.eq_none_iff_forall_ne_some]
        intro k leads
        cases ok_of_checkAliases checked a mem k leads

theorem edits_reread {s : Schema α ε} {r : Record} {key : ItemKey} {out : Outcome}
    {c' : Collection α} (keyed : Keyed c) (found : c.keyOfPath? r.path.pathname = some key)
    (done : c.reread s key r = .ok (out, c')) : Edits s c c' := by
  obtain ⟨old, stands, same⟩ := (keyOfPath?_eq_some keyed).mp found
  rw [reread] at done
  cases parsed : parse s r with
  | error e => simp [parsed, bind, Except.bind] at done
  | ok next =>
    have path : next.path = r.path := by
      rw [parse] at parsed
      split at parsed
      · cases parsed
        rfl
      · cases parsed
    simp only [parsed, bind, Except.bind, stands] at done
    cases decision : s.beforeUpdate old.item next with
    | skip =>
      simp only [decision] at done
      cases done
      exact .kept
    | store id =>
      simp only [decision] at done
      cases checked : (c.checkAliases (aliasesOf next.path id) (some key) next.path.pathname :
          Except (CollectionError ε) Unit) with
      | error e => simp [checked] at done
      | ok _ =>
        simp only [checked] at done
        cases done
        rw [← path] at same
        refine .patched stands (fun a mem k leads => ?_) ?_ same.symm
        · exact Option.some.inj (ok_of_checkAliases checked a mem k leads)
        · rw [same]
          exact path_mem_aliasesOf _ _

theorem edits_set {s : Schema α ε} {r : Record} {out : Outcome} {c' : Collection α}
    (keyed : Keyed c) (done : c.set s r = .ok (out, c')) : Edits s c c' := by
  rw [set] at done
  split at done
  · next key found => exact edits_reread keyed found done
  · exact edits_insertNew done

theorem edits_delete {s : Schema α ε} (name : String) : Edits s c (c.delete name).2 := by
  rw [delete_eq]
  split
  · exact .kept
  · next key e found =>
    obtain ⟨k, -, here⟩ := Option.bind_eq_some_iff.mp found
    obtain ⟨e', stands, same⟩ := Option.map_eq_some_iff.mp here
    cases same
    exact .removed stands

theorem filed_afterStore {s : Schema α ε} (filed : Filed c) (r : Record) :
    Filed (c.afterStore (c.set s r)) := by
  cases done : c.set s r with
  | ok out => exact filed_of_edits filed (edits_set filed.toKeyed done)
  | error e => exact filed

theorem filed_after (s : Schema α ε) (filed : Filed c) (call : Call) : Filed (c.after s call) := by
  cases call with
  | set r => exact filed_afterStore filed r
  | update r =>
    rw [after, update_eq_set]
    exact filed_afterStore filed r
  | delete name => exact filed_of_edits (s := s) filed (edits_delete name)

theorem filed_afterAll (filed : Filed c) (calls : List (Schema α ε × Call)) :
    Filed (c.afterAll calls) := by
  induction calls generalizing c with
  | nil => exact filed
  | cons call calls ih => exact ih (filed_after call.1 filed call.2)

/-! ### What the tables say -/

/-- The five tables tell of the same documents. -/
structure Consistent (c : Collection α) : Prop where
  order_nodup : c.order.Nodup
  mem_order : ∀ key : ItemKey, key ∈ c.order ↔ ∃ e, c.entries[key]? = some (some e)
  free_nodup : c.free.Nodup
  mem_free : ∀ key : ItemKey, key ∈ c.free ↔ c.entries[key]? = some none
  name_once : c.byId.keys.Nodup
  name_iff : ∀ name (key : ItemKey), (name, key) ∈ c.byId ↔
    ∃ e, c.entries[key]? = some (some e) ∧ name ∈ e.aliases
  aliases_disjoint : ∀ (key key' : ItemKey) (e e' : Entry α), c.entries[key]? = some (some e) →
    c.entries[key']? = some (some e') → key ≠ key' → e.aliases.Disjoint e'.aliases
  path_mem : ∀ (key : ItemKey) (e : Entry α), c.entries[key]? = some (some e) → e.item.path.pathname ∈ e.aliases
  directory_once : c.byDirectory.keys.Nodup
  bucket_once : ∀ (key : ItemKey) (e : Entry α), c.entries[key]? = some (some e) →
    ∃ keys, (e.item.path.dirname, keys) ∈ c.byDirectory ∧ keys.count key = 1
  bucket_own : ∀ dir keys (key : ItemKey), (dir, keys) ∈ c.byDirectory → key ∈ keys →
    ∃ e, c.entries[key]? = some (some e) ∧ e.item.path.dirname = dir
  bucket_ne_nil : ∀ dir keys, (dir, keys) ∈ c.byDirectory → keys ≠ []

theorem Filed.mem_bucket (filed : Filed c) {dir : String} {key : ItemKey} :
    key ∈ c.bucket dir ↔ ∃ e, c.entryOf? key = some e ∧ e.item.path.dirname = dir := by
  rw [filed.bucket_eq, List.mem_filter, filed.mem_order, directoryOf?]
  cases c.entryOf? key <;> simp

theorem Filed.nodup_bucket (filed : Filed c) (dir : String) : (c.bucket dir).Nodup := by
  rw [filed.bucket_eq]
  exact filed.order_nodup.filter _

theorem Filed.consistent (filed : Filed c) : Consistent c where
  order_nodup := filed.order_nodup
  mem_order key := by
    rw [filed.mem_order, Option.isSome_iff_exists]
    simp only [entryOf?_eq_some]
  free_nodup := filed.free_nodup
  mem_free key := ⟨filed.free_empty, filed.free_of_empty⟩
  name_once := filed.byId_distinct
  name_iff name key := by
    simp only [← entryOf?_eq_some]
    rw [← filed.key?_iff]
    exact ⟨Assoc.get?_of_mem filed.byId_distinct, Assoc.mem_of_get?⟩
  aliases_disjoint key key' e e' stands stands' other := by
    intro a mem mem'
    exact other (filed.alias_unique (entryOf?_eq_some.mpr stands) mem
      (entryOf?_eq_some.mpr stands') mem')
  path_mem key e stands := filed.path_mem (entryOf?_eq_some.mpr stands)
  directory_once := filed.byDirectory_distinct
  bucket_once key e stands := by
    have mem : key ∈ c.bucket e.item.path.dirname :=
      filed.mem_bucket.mpr ⟨e, entryOf?_eq_some.mpr stands, rfl⟩
    have nodup := filed.nodup_bucket e.item.path.dirname
    rw [bucket] at mem nodup
    cases found : Assoc.get? c.byDirectory e.item.path.dirname with
    | none =>
      rw [found] at mem
      cases mem
    | some keys =>
      rw [found] at mem nodup
      exact ⟨keys, Assoc.mem_of_get? found, List.count_eq_one_of_mem nodup mem⟩
  bucket_own dir keys key stands mem := by
    have found := Assoc.get?_of_mem filed.byDirectory_distinct stands
    obtain ⟨e, here, own⟩ := filed.mem_bucket.mp (show key ∈ c.bucket dir by
      rw [bucket, found]
      exact mem)
    exact ⟨e, entryOf?_eq_some.mp here, own⟩
  bucket_ne_nil dir keys := filed.bucket_ne_nil

/-- After any calls the tables agree. -/
theorem consistent_afterAll (calls : List (Schema α ε × Call)) :
    Consistent (afterAll ({} : Collection α) calls) :=
  (filed_afterAll filed_empty calls).consistent

end Collection
end Stencil
