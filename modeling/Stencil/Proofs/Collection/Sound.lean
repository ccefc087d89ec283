import Stencil.Collection.Basic
import Stencil.Proofs.Collection.Usage
/-!
Sound collections: every alias leads to the document that has it, and the index holds the uses of
the documents. Adding, reading again and deleting keep a collection sound, and each of them changes
the document of one path alone.
-/
namespace Stencil.Collection
variable {α ε : Type} {c : Collection α}

/-- The entry of the document that has this path. -/
def at? (c : Collection α) (path : String) : Option (Entry α) :=
  (c.keyOfPath? path).bind c.entryOf?

structure Keyed (c : Collection α) : Prop where
  free_empty : ∀ {key}, key ∈ c.free → c.entries[key]? = some none
  free_nodup : c.free.Nodup
  mem_order : ∀ {key}, key ∈ c.order ↔ (c.entryOf? key).isSome
  order_nodup : c.order.Nodup
  key?_iff : ∀ {a key}, c.key? a = some key ↔ ∃ e, c.entryOf? key = some e ∧ a ∈ e.aliases
  path_mem : ∀ {key e}, c.entryOf? key = some e → e.item.path.pathname ∈ e.aliases

structure Sound (uses : α → List String) (c : Collection α) : Prop extends Keyed c where
  inverse : c.usage.Inverse
  ordered : c.usage.Ordered
  usesOf_eq : ∀ path, c.usage.usesOf path =
    ((c.at? path).map fun e => SortedSet.ofList (uses e.item.result)).getD []

theorem at?_eq_some (keyed : Keyed c) {path : String} {e : Entry α} :
    c.at? path = some e ↔ ∃ key, c.entryOf? key = some e ∧ e.item.path.pathname = path := by
  constructor
  · intro h
    obtain ⟨key, found, stands⟩ := Option.bind_eq_some_iff.mp h
    refine ⟨key, stands, ?_⟩
    obtain ⟨key', -, found⟩ := Option.bind_eq_some_iff.mp found
    obtain ⟨item, here, found⟩ := Option.bind_eq_some_iff.mp found
    split at found
    · next same =>
      cases found
      rw [item?, stands] at here
      cases here
      exact same
    · cases found
  · rintro ⟨key, stands, rfl⟩
    have found : c.keyOfPath? e.item.path.pathname = some key := by
      have leads := keyed.key?_iff.mpr ⟨e, stands, keyed.path_mem stands⟩
      simp [keyOfPath?, leads, item?, stands]
    rw [at?, found]
    exact stands

theorem path_of_at? (keyed : Keyed c) {path : String} {e : Entry α} (found : c.at? path = some e) :
    e.item.path.pathname = path := by
  obtain ⟨key, -, same⟩ := (at?_eq_some keyed).mp found
  exact same

/-- An alias belongs to one document. -/
theorem Keyed.alias_unique (keyed : Keyed c) {a : String} {key key' : ItemKey} {e e' : Entry α}
    (stands : c.entryOf? key = some e) (mem : a ∈ e.aliases) (stands' : c.entryOf? key' = some e')
    (mem' : a ∈ e'.aliases) : key = key' := by
  have leads := keyed.key?_iff.mpr ⟨e, stands, mem⟩
  rw [keyed.key?_iff.mpr ⟨e', stands', mem'⟩] at leads
  exact (Option.some.inj leads).symm

/-- The documents of two collections differ at most at one path. -/
theorem at?_eq_of_entryOf? {c' : Collection α} (keyed : Keyed c) (keyed' : Keyed c') {path : String}
    (same : ∀ key e, e.item.path.pathname ≠ path →
      (c'.entryOf? key = some e ↔ c.entryOf? key = some e)) {other : String} (ne : other ≠ path) :
    c'.at? other = c.at? other := by
  ext e
  rw [at?_eq_some keyed', at?_eq_some keyed]
  constructor
  · rintro ⟨key, stands, rfl⟩
    exact ⟨key, (same key e ne).mp stands, rfl⟩
  · rintro ⟨key, stands, rfl⟩
    exact ⟨key, (same key e ne).mpr stands, rfl⟩

theorem keyed_empty : Keyed ({} : Collection α) where
  free_empty h := by cases h
  free_nodup := List.nodup_nil
  mem_order := by simp [entryOf?]
  order_nodup := List.nodup_nil
  key?_iff := by simp [key?, Assoc.get?, entryOf?]
  path_mem := by simp [entryOf?]

theorem sound_empty (uses : α → List String) : Sound uses ({} : Collection α) where
  toKeyed := keyed_empty
  inverse user name := by simp [Usage.usesOf, Usage.usersOf, Assoc.get?]
  ordered user := List.Pairwise.nil
  usesOf_eq path := rfl

/-! ### Aliases -/

theorem get?_putAliases (aliases : List String) (key : ItemKey) (table : Assoc ItemKey)
    (a : String) : Assoc.get? (putAliases aliases key table) a =
      if a ∈ aliases then some key else Assoc.get? table a := by
  rw [putAliases]
  induction aliases generalizing table with
  | nil => simp
  | cons b aliases ih =>
    rw [List.foldl_cons, ih, Assoc.get?_put]
    by_cases same : a = b
    · simp [same]
    · simp [same]

theorem get?_dropAliases (aliases : List String) (key : ItemKey) (table : Assoc ItemKey)
    (a : String) : Assoc.get? (dropAliases aliases key table) a =
      if a ∈ aliases ∧ Assoc.get? table a = some key then none else Assoc.get? table a := by
  rw [dropAliases]
  induction aliases generalizing table with
  | nil => simp
  | cons b aliases ih =>
    rw [List.foldl_cons, ih]
    by_cases leads : Assoc.get? table b = some key
    · rw [if_pos leads, Assoc.get?_erase]
      by_cases same : a = b
      · simp [same, leads]
      · simp [same]
    · rw [if_neg leads]
      by_cases same : a = b
      · simp [same, leads]
      · simp [same]

theorem path_mem_aliasesOf (path : FilePath) (id : Option String) :
    path.pathname ∈ aliasesOf path id := by
  cases id with
  | none => simp [aliasesOf]
  | some id =>
    rw [aliasesOf]
    split
    · exact List.mem_singleton_self _
    · exact List.mem_cons_of_mem _ (List.mem_singleton_self _)

theorem conflict?_eq_none {aliases : List String} {owner : Option ItemKey} :
    c.conflict? aliases owner = none ↔
      ∀ a ∈ aliases, ∀ key, c.key? a = some key → some key = owner := by
  rw [conflict?, List.findSome?_eq_none_iff]
  refine forall₂_congr fun a _ => ?_
  cases c.key? a with
  | none => simp
  | some key => simp

/-! ### Adding -/

section
variable {uses : α → List String} {s : Schema α ε} {item : Item α} {aliases : List String}

/-- The key that the next document gets. -/
def freeKey (c : Collection α) : ItemKey := c.free.headD c.entries.length

theorem entryOf?_free (keyed : Keyed c) : c.entryOf? (c.freeKey) = none := by
  cases free : c.free with
  | nil => simp [entryOf?, freeKey, free]
  | cons key rest =>
    have inFree : key ∈ c.free := by rw [free]; exact List.mem_cons_self
    have empty := keyed.free_empty inFree
    simp [entryOf?, freeKey, free, empty]

theorem getElem?_fill {key : Nat} (bound : key ≤ c.entries.length) (e : Entry α) (k : Nat) :
    (c.fill key e)[k]? = if k = key then some (some e) else c.entries[k]? := by
  rw [fill]
  split
  · next inside =>
    rw [List.getElem?_set]
    by_cases same : key = k
    · subst same
      simp [inside]
    · simp [same, Ne.symm same]
  · next outside =>
    have last : key = c.entries.length := Nat.le_antisymm bound (Nat.le_of_not_lt outside)
    rw [List.getElem?_append]
    subst last
    by_cases same : k = c.entries.length
    · simp [same]
    · rw [if_neg same]
      split
      · rfl
      · rw [List.getElem?_eq_none (by simp; omega), List.getElem?_eq_none (by omega)]

theorem free_le_length (keyed : Keyed c) : c.freeKey ≤ c.entries.length := by
  cases free : c.free with
  | nil => simp [freeKey, free]
  | cons key rest =>
    have inFree : key ∈ c.free := by rw [free]; exact List.mem_cons_self
    have empty := keyed.free_empty inFree
    obtain ⟨inside, -⟩ := List.getElem?_eq_some_iff.mp empty
    rw [freeKey, free]
    exact Nat.le_of_lt inside

theorem entryOf?_add (keyed : Keyed c) (k : ItemKey) :
    (c.add s item aliases).2.entryOf? k =
      if k = c.freeKey then some ⟨item, aliases⟩ else c.entryOf? k := by
  have entries : (c.add s item aliases).2.entries = c.fill c.freeKey ⟨item, aliases⟩ := rfl
  rw [entryOf?, entries, getElem?_fill (free_le_length keyed), entryOf?]
  split
  · rfl
  · rfl

theorem keyed_add (keyed : Keyed c) (fresh : ∀ a ∈ aliases, c.key? a = none)
    (path : item.path.pathname ∈ aliases) : Keyed (c.add s item aliases).2 := by
  have empty := entryOf?_free keyed
  refine ⟨?_, ?_, ?_, ?_, ?_, ?_⟩
  · intro key mem
    obtain ⟨first, rest, free⟩ : ∃ first rest, c.free = first :: rest := by
      cases free : c.free with
      | nil => simp [add, free] at mem
      | cons first rest => exact ⟨first, rest, rfl⟩
    have mem : key ∈ rest := by simpa [add, free] using mem
    have nodup := keyed.free_nodup
    rw [free] at nodup
    have other : key ≠ first := by
      rintro rfl
      exact (List.nodup_cons.mp nodup).1 mem
    have entries : (c.add s item aliases).2.entries = c.fill c.freeKey ⟨item, aliases⟩ := rfl
    rw [entries, getElem?_fill (free_le_length keyed),
      if_neg (by simpa [freeKey, free] using other)]
    exact keyed.free_empty (by rw [free]; exact List.mem_cons_of_mem _ mem)
  · exact keyed.free_nodup.sublist (List.tail_sublist c.free)
  · intro key
    rw [entryOf?_add keyed]
    have order : (c.add s item aliases).2.order = c.order ++ [c.freeKey] := rfl
    rw [order, List.mem_append, List.mem_singleton, keyed.mem_order]
    by_cases same : key = c.freeKey
    · simp [same]
    · simp [same]
  · refine List.nodup_append.mpr ⟨keyed.order_nodup, by simp, ?_⟩
    intro key old key' new same
    have new : key' = c.freeKey := List.mem_singleton.mp new
    rw [keyed.mem_order, same, new, empty] at old
    cases old
  · intro a key
    have leads : (c.add s item aliases).2.key? a =
        if a ∈ aliases then some (c.freeKey) else c.key? a :=
      get?_putAliases aliases _ c.byId a
    rw [leads, entryOf?_add keyed]
    by_cases new : a ∈ aliases
    · rw [if_pos new]
      by_cases same : key = c.freeKey
      · simp [same, new]
      · rw [if_neg same, ← keyed.key?_iff, fresh a new]
        simp [Ne.symm same]
    · rw [if_neg new]
      by_cases same : key = c.freeKey
      · rw [if_pos same, keyed.key?_iff, same, empty]
        simp [new]
      · rw [if_neg same]
        exact keyed.key?_iff
  · intro key e stands
    rw [entryOf?_add keyed] at stands
    split at stands
    · cases stands
      exact path
    · exact keyed.path_mem stands

theorem at?_add (keyed : Keyed c) (fresh : ∀ a ∈ aliases, c.key? a = none)
    (path : item.path.pathname ∈ aliases) (other : String) :
    (c.add s item aliases).2.at? other =
      if other = item.path.pathname then some ⟨item, aliases⟩ else c.at? other := by
  have keyed' := keyed_add (s := s) keyed fresh path
  split
  · next same =>
    rw [at?_eq_some keyed']
    exact ⟨_, by rw [entryOf?_add keyed, if_pos rfl], same.symm⟩
  · next ne =>
    refine at?_eq_of_entryOf? keyed keyed' (fun key e apart => ?_) ne
    rw [entryOf?_add keyed]
    split
    · next same =>
      rw [same, entryOf?_free keyed]
      constructor
      · intro new
        cases new
        exact absurd rfl apart
      · intro old
        cases old
    · rfl

theorem sound_add (sound : Sound s.uses c) (fresh : ∀ a ∈ aliases, c.key? a = none)
    (path : item.path.pathname ∈ aliases) : Sound s.uses (c.add s item aliases).2 where
  toKeyed := keyed_add sound.toKeyed fresh path
  inverse := Usage.inverse_replace sound.inverse _ _
  ordered := Usage.ordered_replace sound.ordered _ _
  usesOf_eq other := by
    rw [at?_add sound.toKeyed fresh path]
    refine (Usage.usesOf_replace sound.ordered item.path.pathname other _).trans ?_
    split
    · rfl
    · exact sound.usesOf_eq other

end

/-! ### Reading again -/

section
variable {s : Schema α ε} {key : ItemKey} {old : Entry α} {next : Item α} {aliases : List String}

theorem entryOf?_patch (stands : c.entryOf? key = some old) (k : ItemKey) :
    (c.patch s key old next aliases).entryOf? k =
      if k = key then
        some ⟨{ old.item with content := next.content, result := next.result }, aliases⟩
      else c.entryOf? k := by
  have inside : key < c.entries.length := by
    by_contra outside
    rw [entryOf?, List.getElem?_eq_none (Nat.le_of_not_lt outside)] at stands
    cases stands
  rw [entryOf?, patch]
  dsimp only
  rw [List.getElem?_set]
  by_cases same : k = key
  · simp [same, inside]
  · simp [same, Ne.symm same, entryOf?]

theorem keyed_patch (keyed : Keyed c) (stands : c.entryOf? key = some old)
    (fresh : ∀ a ∈ aliases, ∀ k, c.key? a = some k → k = key)
    (path : old.item.path.pathname ∈ aliases) : Keyed (c.patch s key old next aliases) := by
  refine ⟨?_, keyed.free_nodup, ?_, keyed.order_nodup, ?_, ?_⟩
  · intro k mem
    have empty := keyed.free_empty mem
    have other : k ≠ key := by
      rintro rfl
      simp [entryOf?, empty] at stands
    rw [patch]
    dsimp only
    rw [List.getElem?_set_ne (Ne.symm other)]
    exact empty
  · intro k
    rw [entryOf?_patch stands]
    refine keyed.mem_order.trans ?_
    split
    · next same => simp [same, stands]
    · rfl
  · intro a k
    have leads : (c.patch s key old next aliases).key? a =
        if a ∈ aliases then some key
        else if a ∈ old.aliases ∧ c.key? a = some key then none else c.key? a := by
      refine (get?_putAliases aliases key _ a).trans ?_
      rw [get?_dropAliases]
      rfl
    rw [leads, entryOf?_patch stands]
    by_cases new : a ∈ aliases
    · rw [if_pos new]
      by_cases same : k = key
      · simp [same, new]
      · rw [if_neg same, ← keyed.key?_iff]
        constructor
        · intro h
          exact absurd (Option.some.inj h).symm same
        · intro h
          exact absurd (fresh a new k h) same
    · rw [if_neg new]
      by_cases same : k = key
      · rw [if_pos same, same]
        have gone : ¬ (a ∈ old.aliases ∧ c.key? a = some key) → c.key? a ≠ some key := by
          intro out leads
          obtain ⟨e, here, mem⟩ := keyed.key?_iff.mp leads
          rw [stands] at here
          cases here
          exact out ⟨mem, leads⟩
        split
        · simp [new]
        · next out => simp [new, gone out]
      · rw [if_neg same, ← keyed.key?_iff]
        split
        · next drop => simp [drop.2, Ne.symm same]
        · rfl
  · intro k e here
    rw [entryOf?_patch stands] at here
    split at here
    · cases here
      exact path
    · exact keyed.path_mem here

theorem at?_patch (keyed : Keyed c) (stands : c.entryOf? key = some old)
    (fresh : ∀ a ∈ aliases, ∀ k, c.key? a = some k → k = key)
    (path : old.item.path.pathname ∈ aliases) (other : String) :
    (c.patch s key old next aliases).at? other =
      if other = old.item.path.pathname then
        some ⟨{ old.item with content := next.content, result := next.result }, aliases⟩
      else c.at? other := by
  have keyed' : Keyed (c.patch s key old next aliases) := keyed_patch keyed stands fresh path
  split
  · next same =>
    rw [at?_eq_some keyed']
    exact ⟨key, by rw [entryOf?_patch stands, if_pos rfl], same.symm⟩
  · next ne =>
    refine at?_eq_of_entryOf? keyed keyed' (fun k e apart => ?_) ne
    rw [entryOf?_patch stands]
    split
    · next same =>
      rw [same, stands]
      constructor
      · intro new
        cases new
        exact absurd rfl apart
      · intro old
        cases old
        exact absurd rfl apart
    · rfl

theorem sound_patch (sound : Sound s.uses c) (stands : c.entryOf? key = some old)
    (fresh : ∀ a ∈ aliases, ∀ k, c.key? a = some k → k = key)
    (path : old.item.path.pathname ∈ aliases)
    (same : next.path.pathname = old.item.path.pathname) :
    Sound s.uses (c.patch s key old next aliases) where
  toKeyed := keyed_patch sound.toKeyed stands fresh path
  inverse := Usage.inverse_replace sound.inverse _ _
  ordered := Usage.ordered_replace sound.ordered _ _
  usesOf_eq other := by
    rw [at?_patch sound.toKeyed stands fresh path]
    refine (Usage.usesOf_replace sound.ordered next.path.pathname other _).trans ?_
    rw [same]
    split
    · rfl
    · exact sound.usesOf_eq other

end

/-! ### Deleting -/

/-- A collection without the document of a key. -/
def without (c : Collection α) (key : ItemKey) (e : Entry α) : Collection α where
  entries := c.entries.set key none
  free := key :: c.free
  order := c.order.filter (· != key)
  byId := dropAliases e.aliases key c.byId
  byDirectory := dropFromDirectory e.item.path.dirname key c.byDirectory
  usage := c.usage.forgetUser e.item.path.pathname

theorem delete_eq (c : Collection α) (id : String) :
    c.delete id = match (c.key? id).bind fun key => (c.entryOf? key).map (key, ·) with
      | none => (none, c)
      | some (key, e) => (some e.item, c.without key e) := rfl

section
variable {key : ItemKey} {e : Entry α}

theorem entryOf?_without (c : Collection α) (key : ItemKey) (e : Entry α) (k : ItemKey) :
    (c.without key e).entryOf? k = if k = key then none else c.entryOf? k := by
  rw [entryOf?, without]
  dsimp only
  rw [List.getElem?_set]
  by_cases same : key = k
  · subst same
    rw [if_pos rfl, if_pos rfl]
    split <;> rfl
  · rw [if_neg same, if_neg (Ne.symm same)]
    rfl

theorem keyed_without (keyed : Keyed c) (stands : c.entryOf? key = some e) :
    Keyed (c.without key e) := by
  have inside : key < c.entries.length := by
    by_contra outside
    rw [entryOf?, List.getElem?_eq_none (Nat.le_of_not_lt outside)] at stands
    cases stands
  refine ⟨?_, ?_, ?_, keyed.order_nodup.filter _, ?_, ?_⟩
  · intro k mem
    have entries : (c.without key e).entries = c.entries.set key none := rfl
    rw [entries, List.getElem?_set]
    rcases List.mem_cons.mp mem with rfl | mem
    · simp [inside]
    · split
      · simp
      · exact keyed.free_empty mem
  · refine List.nodup_cons.mpr ⟨fun mem => ?_, keyed.free_nodup⟩
    have empty := keyed.free_empty mem
    simp [entryOf?, empty] at stands
  · intro k
    have order : (c.without key e).order = c.order.filter (· != key) := rfl
    rw [order, List.mem_filter, keyed.mem_order, entryOf?_without]
    by_cases same : k = key
    · simp [same]
    · simp [same]
  · intro a k
    have leads : (c.without key e).key? a =
        if a ∈ e.aliases ∧ c.key? a = some key then none else c.key? a :=
      get?_dropAliases e.aliases key c.byId a
    rw [leads, entryOf?_without]
    by_cases same : k = key
    · rw [if_pos same, same]
      split
      · simp
      · next out =>
        constructor
        · intro found
          obtain ⟨e', here, mem⟩ := keyed.key?_iff.mp found
          rw [stands] at here
          cases here
          exact absurd ⟨mem, found⟩ out
        · rintro ⟨e', none, -⟩
          cases none
    · rw [if_neg same, ← keyed.key?_iff]
      split
      · next drop => simp [drop.2, Ne.symm same]
      · rfl
  · intro k e' here
    rw [entryOf?_without] at here
    split at here
    · cases here
    · exact keyed.path_mem here

theorem at?_without (keyed : Keyed c) (stands : c.entryOf? key = some e) (other : String) :
    (c.without key e).at? other =
      if other = e.item.path.pathname then none else c.at? other := by
  have keyed' := keyed_without keyed stands
  split
  · next same =>
    rw [Option.eq_none_iff_forall_ne_some]
    intro e' found
    obtain ⟨k, here, path⟩ := (at?_eq_some keyed').mp found
    rw [entryOf?_without] at here
    split at here
    · cases here
    · next other =>
      refine other (keyed.alias_unique here ?_ stands (keyed.path_mem stands))
      rw [← same, ← path]
      exact keyed.path_mem here
  · next ne =>
    refine at?_eq_of_entryOf? keyed keyed' (fun k e' apart => ?_) ne
    rw [entryOf?_without]
    split
    · next same =>
      rw [same, stands]
      constructor
      · intro none
        cases none
      · intro here
        cases here
        exact absurd rfl apart
    · rfl

theorem sound_without {uses : α → List String} (sound : Sound uses c)
    (stands : c.entryOf? key = some e) : Sound uses (c.without key e) where
  toKeyed := keyed_without sound.toKeyed stands
  inverse := Usage.inverse_forgetUser sound.inverse _
  ordered := Usage.ordered_forgetUser sound.ordered _
  usesOf_eq other := by
    rw [at?_without sound.toKeyed stands]
    refine (Usage.usesOf_forgetUser sound.ordered e.item.path.pathname other).trans ?_
    split
    · rfl
    · exact sound.usesOf_eq other

end

/-! ### The calls -/

/-- The document that an alias leads to. -/
theorem get?_eq_some (keyed : Keyed c) {a : String} {item : Item α} :
    c.get? a = some item ↔
      ∃ e, c.at? e.item.path.pathname = some e ∧ a ∈ e.aliases ∧ e.item = item := by
  constructor
  · intro found
    obtain ⟨key, leads, here⟩ := Option.bind_eq_some_iff.mp found
    obtain ⟨e, stands, mem⟩ := keyed.key?_iff.mp leads
    rw [item?, stands] at here
    exact ⟨e, (at?_eq_some keyed).mpr ⟨key, stands, rfl⟩, mem, Option.some.inj here⟩
  · rintro ⟨e, found, mem, rfl⟩
    obtain ⟨key, stands, -⟩ := (at?_eq_some keyed).mp found
    rw [get?, keyed.key?_iff.mpr ⟨e, stands, mem⟩, Option.bind_some, item?, stands]
    rfl

theorem mem_items (keyed : Keyed c) {item : Item α} :
    item ∈ c.items ↔ ∃ e, c.at? item.path.pathname = some e ∧ e.item = item := by
  rw [items, List.mem_filterMap]
  constructor
  · rintro ⟨key, -, here⟩
    obtain ⟨e, stands, rfl⟩ := Option.map_eq_some_iff.mp here
    exact ⟨e, (at?_eq_some keyed).mpr ⟨key, stands, rfl⟩, rfl⟩
  · rintro ⟨e, found, rfl⟩
    obtain ⟨key, stands, -⟩ := (at?_eq_some keyed).mp found
    refine ⟨key, keyed.mem_order.mpr ?_, ?_⟩
    · rw [stands]
      rfl
    · rw [item?, stands]
      rfl

theorem mem_usersOf {uses : α → List String} (sound : Sound uses c) {path name : String} :
    path ∈ c.usage.usersOf name ↔ ∃ e, c.at? path = some e ∧ name ∈ uses e.item.result := by
  rw [← sound.inverse, sound.usesOf_eq]
  cases c.at? path with
  | none => simp
  | some e => simp [SortedSet.mem_ofList]

/-- No alias belongs to a document of another path. -/
def Admits (c : Collection α) (path : String) (aliases : List String) : Prop :=
  ∀ a ∈ aliases, ∀ e, c.at? e.item.path.pathname = some e → a ∈ e.aliases →
    e.item.path.pathname = path

/-- The entry that storing a document leaves at its path; one that stands there keeps its path. -/
def stored (c : Collection α) (item : Item α) (aliases : List String) : Entry α :=
  match c.at? item.path.pathname with
  | some old => ⟨{ old.item with content := item.content, result := item.result }, aliases⟩
  | none => ⟨item, aliases⟩

/-- The collection has stored a document and is sound. -/
structure Stores (s : Schema α ε) (c : Collection α) (item : Item α) (aliases : List String)
    (c' : Collection α) : Prop where
  sound : Sound s.uses c'
  at?_eq : ∀ path, c'.at? path =
    if path = item.path.pathname then some (c.stored item aliases) else c.at? path

theorem keyOfPath?_eq_some (keyed : Keyed c) {path : String} {key : ItemKey} :
    c.keyOfPath? path = some key ↔ ∃ e, c.entryOf? key = some e ∧ e.item.path.pathname = path := by
  constructor
  · intro found
    obtain ⟨key', leads, found⟩ := Option.bind_eq_some_iff.mp found
    obtain ⟨item, here, found⟩ := Option.bind_eq_some_iff.mp found
    split at found
    · next same =>
      cases found
      obtain ⟨e, stands, rfl⟩ := Option.map_eq_some_iff.mp here
      exact ⟨e, stands, same⟩
    · cases found
  · rintro ⟨e, stands, rfl⟩
    have leads := keyed.key?_iff.mpr ⟨e, stands, keyed.path_mem stands⟩
    simp [keyOfPath?, leads, item?, stands]

theorem keyOfPath?_eq_none (keyed : Keyed c) {path : String} (none : c.keyOfPath? path = none)
    {key : ItemKey} {e : Entry α} (stands : c.entryOf? key = some e) :
    e.item.path.pathname ≠ path := by
  intro same
  rw [(keyOfPath?_eq_some keyed).mpr ⟨e, stands, same⟩] at none
  cases none

theorem admits_iff_of_absent (keyed : Keyed c) {path : String} {aliases : List String}
    (absent : c.keyOfPath? path = none) :
    c.Admits path aliases ↔ ∀ a ∈ aliases, c.key? a = none := by
  constructor
  · intro admits a mem
    cases leads : c.key? a with
    | none => rfl
    | some key =>
      obtain ⟨e, stands, has⟩ := keyed.key?_iff.mp leads
      have same := admits a mem e ((at?_eq_some keyed).mpr ⟨key, stands, rfl⟩) has
      exact absurd same (keyOfPath?_eq_none keyed absent stands)
  · intro fresh a mem e found has
    obtain ⟨key, stands, -⟩ := (at?_eq_some keyed).mp found
    have leads := keyed.key?_iff.mpr ⟨e, stands, has⟩
    rw [fresh a mem] at leads
    cases leads

theorem admits_iff_of_present (keyed : Keyed c) {old : Entry α} {key : ItemKey}
    {aliases : List String} (stands : c.entryOf? key = some old) :
    c.Admits old.item.path.pathname aliases ↔
      ∀ a ∈ aliases, ∀ k, c.key? a = some k → k = key := by
  constructor
  · intro admits a mem k leads
    obtain ⟨e, here, has⟩ := keyed.key?_iff.mp leads
    have same := admits a mem e ((at?_eq_some keyed).mpr ⟨k, here, rfl⟩) has
    refine keyed.alias_unique here (keyed.path_mem here) stands ?_
    rw [same]
    exact keyed.path_mem stands
  · intro fresh a mem e found has
    obtain ⟨k, here, -⟩ := (at?_eq_some keyed).mp found
    have same := fresh a mem k (keyed.key?_iff.mpr ⟨e, here, has⟩)
    rw [same, stands] at here
    cases here
    rfl

theorem checkAliases_eq_ok {aliases : List String} {owner : Option ItemKey} {path : String} :
    (c.checkAliases aliases owner path : Except (CollectionError ε) Unit) = .ok () ↔
      c.conflict? aliases owner = none := by
  rw [checkAliases]
  split
  · next none => simp [none]
  · next found => simp [found]

theorem checkAliases_iff_of_absent (keyed : Keyed c) {path : String} {aliases : List String}
    (absent : c.keyOfPath? path = none) (name : String) :
    (c.checkAliases aliases none name : Except (CollectionError ε) Unit) = .ok () ↔
      c.Admits path aliases := by
  rw [checkAliases_eq_ok, conflict?_eq_none, admits_iff_of_absent keyed absent]
  refine forall₂_congr fun a _ => ?_
  cases c.key? a with
  | none => simp
  | some key => simp

theorem checkAliases_iff_of_present (keyed : Keyed c) {old : Entry α} {key : ItemKey}
    {aliases : List String} (stands : c.entryOf? key = some old) (name : String) :
    (c.checkAliases aliases (some key) name : Except (CollectionError ε) Unit) = .ok () ↔
      c.Admits old.item.path.pathname aliases := by
  rw [checkAliases_eq_ok, conflict?_eq_none, admits_iff_of_present keyed stands]
  simp only [Option.some.injEq]

/-- Documents that are let in are found by the id that `idOf` tells. -/
structure Keys (s : Schema α ε) (idOf : Item α → Option String) : Prop where
  set : ∀ item, s.beforeSet item = .skip ∨ s.beforeSet item = .store (idOf item)
  update : ∀ old next, s.beforeUpdate old next = .skip ∨
    s.beforeUpdate old next = .store (idOf next)

/-- No document is kept out. -/
structure Open (s : Schema α ε) (idOf : Item α → Option String) : Prop where
  set : ∀ item, s.beforeSet item = .store (idOf item)
  update : ∀ old next, s.beforeUpdate old next = .store (idOf next)

theorem Open.keys {s : Schema α ε} {idOf : Item α → Option String} (h : Open s idOf) :
    Keys s idOf := ⟨fun item => .inr (h.set item), fun old next => .inr (h.update old next)⟩

section
variable {s : Schema α ε} {idOf : Item α → Option String} {r : Record} {result : α}
  {c' : Collection α}

theorem stores_add (sound : Sound s.uses c) {item : Item α} {aliases : List String}
    (absent : c.keyOfPath? item.path.pathname = none) (admits : c.Admits item.path.pathname aliases)
    (path : item.path.pathname ∈ aliases) : Stores s c item aliases (c.add s item aliases).2 := by
  have fresh := (admits_iff_of_absent sound.toKeyed absent).mp admits
  refine ⟨sound_add sound fresh path, fun other => ?_⟩
  have nothing : c.at? item.path.pathname = none := by rw [at?, absent]; rfl
  rw [at?_add sound.toKeyed fresh path, stored, nothing]

theorem stores_patch (sound : Sound s.uses c) {key : ItemKey} {old : Entry α} {next : Item α}
    {aliases : List String} (stands : c.entryOf? key = some old)
    (same : next.path.pathname = old.item.path.pathname)
    (admits : c.Admits next.path.pathname aliases) (path : next.path.pathname ∈ aliases) :
    Stores s c next aliases (c.patch s key old next aliases) := by
  rw [same] at admits path
  have fresh := (admits_iff_of_present sound.toKeyed stands).mp admits
  refine ⟨sound_patch sound stands fresh path same, fun other => ?_⟩
  rw [at?_patch sound.toKeyed stands fresh path, stored, same,
    (at?_eq_some sound.toKeyed).mpr ⟨key, stands, rfl⟩]

/-- How storing a document ends: it is kept out, or put in with its aliases, or refused because
another document has one of them. -/
inductive Ends (s : Schema α ε) (idOf : Item α → Option String) (c : Collection α) (i : Item α) :
    Except (CollectionError ε) (Outcome × Collection α) → Prop where
  | skipped (skip : s.beforeSet i = .skip ∨ ∃ old, s.beforeUpdate old i = .skip) :
      Ends s idOf c i (.ok (.skipped, c))
  | stored {out c'} (admits : c.Admits i.path.pathname (aliasesOf i.path (idOf i)))
      (other : out ≠ .skipped) (stores : Stores s c i (aliasesOf i.path (idOf i)) c') :
      Ends s idOf c i (.ok (out, c'))
  | refused {e} (clash : ¬ c.Admits i.path.pathname (aliasesOf i.path (idOf i))) :
      Ends s idOf c i (.error e)

/-- The check of the aliases decides whether a document that is let in is put in. -/
theorem Ends.of_check {i : Item α} {check : Except (CollectionError ε) Unit} {out : Outcome}
    (checks : check = .ok () ↔ c.Admits i.path.pathname (aliasesOf i.path (idOf i)))
    (other : out ≠ .skipped)
    (stores : c.Admits i.path.pathname (aliasesOf i.path (idOf i)) →
      Stores s c i (aliasesOf i.path (idOf i)) c') :
    Ends s idOf c i (check.bind fun _ => .ok (out, c')) := by
  cases clash : check with
  | ok =>
    have admits := checks.mp clash
    exact .stored admits other (stores admits)
  | error e =>
    refine .refused fun admits => ?_
    rw [checks.mpr admits] at clash
    cases clash

theorem insertNew_ends (sound : Sound s.uses c) (keys : Keys s idOf)
    (parsed : s.parse r = .ok result) (absent : c.keyOfPath? r.path.pathname = none) :
    Ends s idOf c ⟨r.path, r.content, result⟩ (c.insertNew s r) := by
  have read : Collection.parse s r = .ok ⟨r.path, r.content, result⟩ := by
    rw [Collection.parse, parsed]
  rw [insertNew, read]
  rcases keys.set ⟨r.path, r.content, result⟩ with skip | store
  · simp only [bind, Except.bind, skip]
    exact .skipped (.inl skip)
  · simp only [bind, Except.bind, store]
    exact .of_check (checkAliases_iff_of_absent sound.toKeyed absent _) (by simp) fun admits =>
      stores_add sound absent admits (path_mem_aliasesOf _ _)

theorem reread_ends (sound : Sound s.uses c) (keys : Keys s idOf)
    (parsed : s.parse r = .ok result) {key : ItemKey} {old : Entry α}
    (stands : c.entryOf? key = some old) (same : old.item.path.pathname = r.path.pathname) :
    Ends s idOf c ⟨r.path, r.content, result⟩ (c.reread s key r) := by
  have read : Collection.parse s r = .ok ⟨r.path, r.content, result⟩ := by
    rw [Collection.parse, parsed]
  rw [reread, read]
  simp only [bind, Except.bind, stands]
  rcases keys.update old.item ⟨r.path, r.content, result⟩ with skip | store
  · simp only [skip]
    exact .skipped (.inr ⟨_, skip⟩)
  · simp only [store]
    refine .of_check ?_ (by simp) fun admits =>
      stores_patch sound stands same.symm admits (path_mem_aliasesOf _ _)
    rw [checkAliases_iff_of_present sound.toKeyed stands, same]

/-- Storing a record that is read without failure. -/
theorem set_ends (sound : Sound s.uses c) (keys : Keys s idOf)
    (parsed : s.parse r = .ok result) :
    Ends s idOf c ⟨r.path, r.content, result⟩ (c.set s r) := by
  rw [set]
  cases found : c.keyOfPath? r.path.pathname with
  | none => exact insertNew_ends sound keys parsed found
  | some key =>
    obtain ⟨old, stands, same⟩ := (keyOfPath?_eq_some sound.toKeyed).mp found
    exact reread_ends sound keys parsed stands same

theorem set_of_parse_error {e : ε} (failed : s.parse r = .error e) :
    c.set s r = .error (.parse r.path.pathname e) := by
  have read : Collection.parse s r = .error (.parse r.path.pathname e) := by
    rw [Collection.parse, failed]
  rw [set]
  split
  · rw [reread, read]
    rfl
  · rw [insertNew, read]
    rfl

/-- What storing a record has done. -/
theorem set_ok (sound : Sound s.uses c) (keys : Keys s idOf) {out : Outcome}
    (done : c.set s r = .ok (out, c')) :
    (out = .skipped ∧ c' = c) ∨
    (out ≠ .skipped ∧ ∃ result, s.parse r = .ok result ∧
      c.Admits r.path.pathname (aliasesOf r.path (idOf ⟨r.path, r.content, result⟩)) ∧
      Stores s c ⟨r.path, r.content, result⟩
        (aliasesOf r.path (idOf ⟨r.path, r.content, result⟩)) c') := by
  cases parsed : s.parse r with
  | error e =>
    rw [set_of_parse_error parsed] at done
    cases done
  | ok result =>
    have ends := set_ends sound keys parsed
    rw [done] at ends
    cases ends with
    | skipped skip => exact .inl ⟨rfl, rfl⟩
    | stored admits other stores => exact .inr ⟨other, result, rfl, admits, stores⟩

/-- Where no document is kept out, storing succeeds as long as the aliases are free. -/
theorem set_of_open (sound : Sound s.uses c) (lets : Open s idOf)
    (parsed : s.parse r = .ok result) :
    (c.Admits r.path.pathname (aliasesOf r.path (idOf ⟨r.path, r.content, result⟩)) ∧
      ∃ out c', c.set s r = .ok (out, c') ∧ out ≠ .skipped ∧
        Stores s c ⟨r.path, r.content, result⟩
          (aliasesOf r.path (idOf ⟨r.path, r.content, result⟩)) c') ∨
    (¬ c.Admits r.path.pathname (aliasesOf r.path (idOf ⟨r.path, r.content, result⟩)) ∧
      ∃ e, c.set s r = .error e) := by
  have ends := set_ends sound lets.keys parsed
  cases done : c.set s r with
  | error e =>
    rw [done] at ends
    cases ends with
    | refused clash => exact .inr ⟨clash, e, rfl⟩
  | ok made =>
    obtain ⟨out, c'⟩ := made
    rw [done] at ends
    cases ends with
    | skipped skip =>
      rcases skip with skip | ⟨old, skip⟩
      · rw [lets.set] at skip
        cases skip
      · rw [lets.update] at skip
        cases skip
    | stored admits other stores => exact .inl ⟨admits, out, c', rfl, other, stores⟩

end

/-- Deleting an alias takes out the document that it leads to. -/
theorem delete_some {uses : α → List String} (sound : Sound uses c) {a : String} {item : Item α}
    (found : c.get? a = some item) :
    ∃ e c', c.delete a = (some item, c') ∧ e.item = item ∧ a ∈ e.aliases ∧
      c.at? item.path.pathname = some e ∧ Sound uses c' ∧
      ∀ path, c'.at? path = if path = item.path.pathname then none else c.at? path := by
  obtain ⟨key, leads, here⟩ := Option.bind_eq_some_iff.mp found
  obtain ⟨e, stands, mem⟩ := sound.key?_iff.mp leads
  obtain ⟨e', stands', rfl⟩ := Option.map_eq_some_iff.mp here
  rw [stands] at stands'
  cases stands'
  refine ⟨e, c.without key e, ?_, rfl, mem, (at?_eq_some sound.toKeyed).mpr ⟨key, stands, rfl⟩,
    sound_without sound stands, at?_without sound.toKeyed stands⟩
  rw [delete_eq, leads, Option.bind_some, stands]
  rfl

theorem delete_none {a : String} (missing : c.get? a = none) (keyed : Keyed c) :
    c.delete a = (none, c) := by
  rw [delete_eq]
  cases leads : c.key? a with
  | none => rfl
  | some key =>
    obtain ⟨e, stands, -⟩ := keyed.key?_iff.mp leads
    simp [get?, leads, item?, stands] at missing

end Stencil.Collection
