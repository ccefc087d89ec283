import Stencil.Proofs.Files.Straight
import Stencil.Proofs.Site.ChangeOrder
/-!
Collections that mirror the files of a directory: each file that is read has its document, and there
are no other documents. Loading makes such a collection from any files that have one, and a change
of one file keeps it, once the document of that file has been stored again or dropped.
-/
namespace Stencil

theorem Record.path_ofText (pathname content : String) :
    (Record.ofText pathname content).path = .ofText pathname := by
  rw [Record.ofText]

namespace Collection
variable {α ε : Type} {s : Schema α ε} {idOf : Item α → Option String} {c c' target : Collection α}
  {r : Record}

/-- The entry that a record makes in a collection that has nothing at its path. -/
def made? (s : Schema α ε) (idOf : Item α → Option String) (r : Record) : Option (Entry α) :=
  match s.parse r with
  | .ok result =>
    some ⟨⟨r.path, r.content, result⟩, aliasesOf r.path (idOf ⟨r.path, r.content, result⟩)⟩
  | .error _ => none

theorem path_of_made? {e : Entry α} (made : made? s idOf r = some e) : e.item.path = r.path := by
  rw [made?] at made
  split at made
  · cases made
    rfl
  · cases made

/-- What storing a record has done where an older document has its path. -/
theorem at?_of_set (sound : Sound s.uses c) (lets : Open s idOf)
    (same : ∀ e, c.at? r.path.pathname = some e → e.item.path = r.path) {out : Outcome}
    (done : c.set s r = .ok (out, c')) : Sound s.uses c' ∧ ∃ e, made? s idOf r = some e ∧
      ∀ path, c'.at? path = if path = r.path.pathname then some e else c.at? path := by
  cases parsed : s.parse r with
  | error e =>
    rw [set_of_parse_error parsed] at done
    cases done
  | ok result =>
    rcases set_of_open sound lets parsed with ⟨-, out', c'', stored, -, stores⟩ | ⟨-, e, failed⟩
    · rw [stored] at done
      cases done
      refine ⟨stores.sound, _, by rw [made?, parsed], fun path => ?_⟩
      rw [stores.at?_eq, Collection.stored]
      cases old : c.at? r.path.pathname with
      | none => rfl
      | some e =>
        dsimp only
        rw [same e old]
    · rw [failed] at done
      cases done

/-- A record can be stored when a sound collection has its document and all that are there. -/
theorem set_of_target (sound : Sound s.uses c) (lets : Open s idOf) (whole : Keyed target)
    (part : ∀ path e, c.at? path = some e → target.at? path = some e) {e : Entry α}
    (made : made? s idOf r = some e) (inside : target.at? r.path.pathname = some e) :
    ∃ out c', c.set s r = .ok (out, c') := by
  cases parsed : s.parse r with
  | error e =>
    rw [made?, parsed] at made
    cases made
  | ok result =>
    rw [made?, parsed] at made
    cases made
    rcases set_of_open sound lets parsed with ⟨-, out, c', stored, -⟩ | ⟨clash, -⟩
    · exact ⟨out, c', stored⟩
    · refine absurd ((admits_iff sound.toKeyed).mpr fun a mem other held => ?_) clash
      obtain ⟨d, found, has⟩ := held
      exact held_unique whole ⟨d, part other d found, has⟩ ⟨_, inside, mem⟩

end Collection

namespace Site
open Markup

section
variable {α : Type} {schema : Schema α Markup.Error} {idOf : Item α → Option String}
  {c c' target : Collection α} {rs : List Record}

/-- What loading records has done when each path has one record. -/
theorem at?_of_loadAll (sound : Collection.Sound schema.uses c) (lets : Collection.Open schema idOf)
    (once : ∀ r ∈ rs, ∀ r' ∈ rs, r.path.pathname = r'.path.pathname → r = r')
    (same : ∀ r ∈ rs, ∀ e, c.at? r.path.pathname = some e → Collection.made? schema idOf r = some e)
    (done : loadAll schema c rs = (.ok (), c')) : Collection.Sound schema.uses c' ∧
      (∀ r ∈ rs, ∃ e, Collection.made? schema idOf r = some e ∧
        c'.at? r.path.pathname = some e) ∧
      ∀ path, (∀ r ∈ rs, r.path.pathname ≠ path) → c'.at? path = c.at? path := by
  induction rs generalizing c with
  | nil =>
    cases done
    exact ⟨sound, fun r mem => absurd mem List.not_mem_nil, fun path _ => rfl⟩
  | cons r rs ih =>
    rw [loadAll] at done
    split at done
    · cases done
    · next out c₁ stored =>
      obtain ⟨sound₁, e, made, at?_eq⟩ := Collection.at?_of_set sound lets
        (fun e found => Collection.path_of_made? (same r List.mem_cons_self e found)) stored
      obtain ⟨sound', inside, others⟩ := ih sound₁
        (fun r₁ mem₁ r₂ mem₂ => once r₁ (List.mem_cons_of_mem _ mem₁) r₂
          (List.mem_cons_of_mem _ mem₂))
        (fun r' mem d found => by
          rw [at?_eq] at found
          split at found
          · next own =>
            rw [once r' (List.mem_cons_of_mem _ mem) r List.mem_cons_self own, made, found]
          · exact same r' (List.mem_cons_of_mem _ mem) d found)
        done
      refine ⟨sound', List.forall_mem_cons.mpr ⟨?_, inside⟩, fun path other => ?_⟩
      · by_cases later : ∃ r' ∈ rs, r'.path.pathname = r.path.pathname
        · obtain ⟨r', mem, own⟩ := later
          rw [← once r' (List.mem_cons_of_mem _ mem) r List.mem_cons_self own]
          exact inside r' mem
        · refine ⟨e, made, ?_⟩
          rw [others _ fun r' mem own => later ⟨r', mem, own⟩, at?_eq, if_pos rfl]
      · obtain ⟨first, rest⟩ := List.forall_mem_cons.mp other
        rw [others path rest, at?_eq, if_neg first.symm]

/-- Records can be loaded when a sound collection has all their documents. -/
theorem loadAll_of_target (sound : Collection.Sound schema.uses c)
    (lets : Collection.Open schema idOf) (whole : Collection.Keyed target)
    (part : ∀ path e, c.at? path = some e → target.at? path = some e)
    (inside : ∀ r ∈ rs, ∃ e, Collection.made? schema idOf r = some e ∧
      target.at? r.path.pathname = some e) :
    ∃ c', loadAll schema c rs = (.ok (), c') := by
  induction rs generalizing c with
  | nil => exact ⟨c, rfl⟩
  | cons r rs ih =>
    obtain ⟨⟨e, made, here⟩, rest⟩ := List.forall_mem_cons.mp inside
    obtain ⟨out, c₁, stored⟩ := Collection.set_of_target sound lets whole part made here
    obtain ⟨sound₁, d, made', at?_eq⟩ := Collection.at?_of_set sound lets (fun old found => by
      have old := part _ old found
      rw [here] at old
      rw [← Option.some.inj old]
      exact Collection.path_of_made? made) stored
    rw [made] at made'
    obtain rfl := Option.some.inj made'
    obtain ⟨c', done⟩ := ih sound₁ (fun path d found => by
      rw [at?_eq] at found
      split at found
      · next own => rw [own, here, ← found]
      · exact part path d found) rest
    exact ⟨c', by rw [loadAll, stored]; exact done⟩

end

/-! ### Files and their documents -/

/-- Names that lead to a file that is read. -/
structure ReadNames (extensions exclude names : List String) : Prop where
  plain : ∀ n ∈ names, PlainName n
  listed : isListed extensions exclude names

theorem ReadNames.eq_of_recordPath {extensions exclude names names' : List String}
    (h : ReadNames extensions exclude names) (h' : ReadNames extensions exclude names')
    (same : recordPath names = recordPath names') : names = names' :=
  recordPath_injective h.plain h'.plain h.listed h'.listed same

section
variable {α : Type} (schema : Schema α Markup.Error) (idOf : Item α → Option String)

/-- The collection has the document of a file, if there is a file. -/
def Shows (c : Collection α) (names : List String) : Option FileContent → Prop
  | some (.text s) => ∃ e,
    Collection.made? schema idOf (.ofText (Path.ofSegments names) s) = some e ∧
      c.at? (recordPath names) = some e
  | some (.bytes _) => False
  | none => c.at? (recordPath names) = none

/-- The collection has the documents of the files of a directory that are read, and no others. -/
structure Mirrors (t : FileTree) (dir : String) (extensions exclude : List String)
    (c : Collection α) : Prop where
  sound : Collection.Sound schema.uses c
  documents : ∀ names, ReadNames extensions exclude names →
    Shows schema idOf c names (t.content? (t.placeOf dir ++ names))
  named : ∀ path e, c.at? path = some e →
    ∃ names, ReadNames extensions exclude names ∧ recordPath names = path

end

section
variable {α : Type} {schema : Schema α Markup.Error} {idOf : Item α → Option String}
  {t t' : FileTree} {dir : String} {extensions exclude names : List String} {c c' : Collection α}
  {rs : List Record}

theorem Shows.congr {content : Option FileContent} (h : Shows schema idOf c names content)
    (same : c'.at? (recordPath names) = c.at? (recordPath names)) :
    Shows schema idOf c' names content := by
  unfold Shows at h ⊢
  rw [same]
  exact h

theorem Shows.at?_eq {content : Option FileContent} (h : Shows schema idOf c names content)
    (h' : Shows schema idOf c' names content) :
    c.at? (recordPath names) = c'.at? (recordPath names) := by
  unfold Shows at h h'
  split at h
  · obtain ⟨e, made, found⟩ := h
    obtain ⟨e', made', found'⟩ := h'
    rw [made] at made'
    rw [found, found', made']
  · exact h.elim
  · exact h.trans h'.symm

theorem Shows.of_some {d : FileContent} (h : Shows schema idOf c names (some d)) : ∃ s e,
    d = .text s ∧ Collection.made? schema idOf (.ofText (Path.ofSegments names) s) = some e ∧
      c.at? (recordPath names) = some e := by
  cases d with
  | text s =>
    obtain ⟨e, made, found⟩ := h
    exact ⟨s, e, rfl, made, found⟩
  | bytes bs => exact h.elim

theorem Shows.path_eq {content : Option FileContent} (h : Shows schema idOf c names content)
    {e : Entry α} (found : c.at? (recordPath names) = some e) :
    e.item.path = .ofText (Path.ofSegments names) := by
  cases content with
  | none =>
    rw [h] at found
    cases found
  | some d =>
    obtain ⟨s, e', -, made, found'⟩ := h.of_some
    rw [found] at found'
    rw [Option.some.inj found', Collection.path_of_made? made, Record.path_ofText]

namespace Mirrors

/-- One tree has one collection. -/
theorem at?_eq (h : Mirrors schema idOf t dir extensions exclude c)
    (h' : Mirrors schema idOf t dir extensions exclude c') (path : String) :
    c.at? path = c'.at? path := by
  have known : ∀ {c₁ : Collection α}, Mirrors schema idOf t dir extensions exclude c₁ →
      (c₁.at? path).isSome → c.at? path = c'.at? path := by
    intro c₁ h₁ some
    obtain ⟨e, found⟩ := Option.isSome_iff_exists.mp some
    obtain ⟨names, read, rfl⟩ := h₁.named path e found
    exact (h.documents names read).at?_eq (h'.documents names read)
  by_cases some : (c.at? path).isSome
  · exact known h some
  · by_cases some' : (c'.at? path).isSome
    · exact known h' some'
    · rw [Option.not_isSome_iff_eq_none.mp some, Option.not_isSome_iff_eq_none.mp some']

theorem alike (h : Mirrors schema idOf t dir extensions exclude c)
    (h' : Mirrors schema idOf t dir extensions exclude c') : c.Alike c' :=
  Collection.alike_of_at? h.sound h'.sound (h.at?_eq h')

end Mirrors

/-! ### Loading -/

theorem mirrors_of_loadAll (regular : t.Regular) (lets : Collection.Open schema idOf)
    (listed : t.enumerate dir extensions exclude = .ok rs)
    (done : loadAll schema {} rs = (.ok (), c)) :
    Mirrors schema idOf t dir extensions exclude c := by
  have mem : ∀ {r}, r ∈ rs ↔ _ := fun {r} => FileTree.mem_of_enumerate regular.once listed
  have empty : ∀ path, ({} : Collection α).at? path = none := fun _ => rfl
  have plain : ∀ {names : List String} {s : String}, isListed extensions exclude names →
      t.content? (t.placeOf dir ++ names) = some (.text s) →
      ReadNames extensions exclude names := fun {names s} read content =>
    ⟨regular.plain_below (by rw [content]; rfl), read⟩
  obtain ⟨sound, inside, others⟩ := at?_of_loadAll (Collection.sound_empty _) lets
    (fun r mem₁ r' mem₂ same => by
      obtain ⟨names, s, read, content, rfl⟩ := mem.mp mem₁
      obtain ⟨names', s', read', content', rfl⟩ := mem.mp mem₂
      obtain rfl := (plain read content).eq_of_recordPath (plain read' content') same
      rw [content] at content'
      cases content'
      rfl)
    (fun r _ e found => by
      rw [empty] at found
      cases found) done
  refine ⟨sound, fun names read => ?_, fun path e found => ?_⟩
  · cases content : t.content? (t.placeOf dir ++ names) with
    | none =>
      refine (others (recordPath names) fun r mem₁ same => ?_).trans (empty _)
      obtain ⟨names', s, read', content', rfl⟩ := mem.mp mem₁
      obtain rfl := (plain read' content').eq_of_recordPath read same
      rw [content] at content'
      cases content'
    | some d =>
      obtain ⟨s, rfl⟩ := FileTree.text_of_enumerate regular.once listed read.listed content
      exact inside _ (mem.mpr ⟨names, s, read.listed, content, rfl⟩)
  · by_cases own : ∃ r ∈ rs, r.path.pathname = path
    · obtain ⟨r, mem₁, rfl⟩ := own
      obtain ⟨names, s, read, content, rfl⟩ := mem.mp mem₁
      exact ⟨names, plain read content, rfl⟩
    · rw [others path fun r mem₁ same => own ⟨r, mem₁, same⟩, empty] at found
      cases found

/-- What a collection mirrors can be loaded. -/
theorem Mirrors.load (h : Mirrors schema idOf t dir extensions exclude c) (regular : t.Regular)
    (lets : Collection.Open schema idOf) (there : t.isDirectory dir) :
    ∃ rs fresh, t.enumerate dir extensions exclude = .ok rs ∧
      loadAll schema {} rs = (.ok (), fresh) := by
  have document : ∀ {names : List String} {d : FileContent}, isListed extensions exclude names →
      t.content? (t.placeOf dir ++ names) = some d → _ := fun {names d} read content =>
    Shows.of_some (content ▸ h.documents names ⟨regular.plain_below (by rw [content]; rfl), read⟩)
  have texts : ∀ names d, isListed extensions exclude names →
      t.content? (t.placeOf dir ++ names) = some d → ∃ s, d = .text s := by
    intro names d read content
    obtain ⟨s, -, text, -⟩ := document read content
    exact ⟨s, text⟩
  obtain ⟨rs, listed⟩ := FileTree.exists_enumerate regular.once there texts
  obtain ⟨fresh, done⟩ := loadAll_of_target (Collection.sound_empty _) lets h.sound.toKeyed
    (fun path e found => by cases found) fun r mem => by
      obtain ⟨names, s, read, content, rfl⟩ :=
        (FileTree.mem_of_enumerate regular.once listed).mp mem
      obtain ⟨s', e, same, made, found⟩ := document read content
      cases same
      exact ⟨e, made, found⟩
  exact ⟨rs, fresh, listed, done⟩

/-! ### One change -/

namespace Mirrors
variable {p : String}

/-- A change outside the files that are read. -/
theorem unaffected {place : List String} (h : Mirrors schema idOf t dir extensions exclude c)
    (edited : t.Edited t' [place])
    (other : ∀ names, ReadNames extensions exclude names → place ≠ t.placeOf dir ++ names) :
    Mirrors schema idOf t' dir extensions exclude c where
  sound := h.sound
  documents names read := by
    rw [edited.placeOf_eq, edited.files _ (by simpa using (other names read).symm)]
    exact h.documents names read
  named := h.named

/-- A change of a file that is read, and of the document at its path. -/
theorem affected (h : Mirrors schema idOf t dir extensions exclude c)
    (edited : t.Edited t' [t.placeOf dir ++ names]) (read : ReadNames extensions exclude names)
    (sound : Collection.Sound schema.uses c')
    (others : ∀ path, path ≠ recordPath names → c'.at? path = c.at? path)
    (here : Shows schema idOf c' names (t'.content? (t.placeOf dir ++ names))) :
    Mirrors schema idOf t' dir extensions exclude c' where
  sound := sound
  documents names' read' := by
    rw [edited.placeOf_eq]
    by_cases own : names' = names
    · rw [own]
      exact here
    · rw [edited.files _ (by simpa using own)]
      exact (h.documents names' read').congr
        (others _ fun same => own (read'.eq_of_recordPath read same))
  named path e found := by
    by_cases own : path = recordPath names
    · exact ⟨names, read, own.symm⟩
    · exact h.named path e (others path own ▸ found)

/-- A file that is read has changed, and has been stored again or dropped. -/
theorem edit (h : Mirrors schema idOf t dir extensions exclude c)
    (lets : Collection.Open schema idOf) (read : ReadNames extensions exclude names)
    (place : t.placeOf p = t.placeOf dir ++ names) (altered : t.Altered p t') (regular : t.Regular)
    (text : t'.isFile p → ∃ content, t'.readText? p = some content)
    (done : c.edit schema (editOf t' p names) = .ok c') :
    Mirrors schema idOf t' dir extensions exclude c' := by
  have edited := altered.edited regular
  have place' : t'.placeOf p = t.placeOf dir ++ names := (edited.placeOf_eq p).trans place
  rw [place] at edited
  by_cases file : t'.isFile p
  · obtain ⟨content, found⟩ := text file
    have stands := (FileTree.readText?_eq_some.mp found).2
    rw [editOf, found] at done
    dsimp only at done
    rw [recordPath_of_plain read.plain read.listed, Collection.edit] at done
    obtain ⟨⟨out, c₁⟩, stored, same⟩ := ok_of_map done
    obtain rfl : c' = c₁ := same.symm
    have own : (Record.ofText (Path.ofSegments names) content).path.pathname =
      recordPath names := rfl
    obtain ⟨sound, e, made, at?_eq⟩ := Collection.at?_of_set h.sound lets (fun e old => by
      rw [own] at old
      rw [Record.path_ofText]
      exact (h.documents names read).path_eq old) stored
    have at?_eq : ∀ path, c'.at? path = if path = recordPath names then some e else c.at? path :=
      at?_eq
    refine h.affected edited read sound (fun path other => ?_) ?_
    · rw [at?_eq, if_neg other]
    · rw [← place', stands]
      exact ⟨e, made, by rw [at?_eq, if_pos rfl]⟩
  · have before : t.isFile p := altered.changed.resolve_right file
    have gone : t'.content? (t.placeOf dir ++ names) = none := by
      rw [← place']
      by_contra some
      exact file (FileTree.isFile_iff.mpr
        ⟨altered.grows.way (FileTree.isFile_iff.mp before).1, Option.isSome_iff_ne_none.mpr some⟩)
    rw [editOf, readText?_none file] at done
    dsimp only at done
    have absent : ∀ r, Collection.Edit.drop (recordPath names) = .store r →
        ∃ result, schema.parse r = .ok result := fun r same => by cases same
    obtain ⟨sound, at?_eq⟩ := Collection.edit_ok h.sound lets absent (fun path same => by
      obtain rfl := Collection.Edit.drop.inj same
      obtain ⟨d, content⟩ := Option.isSome_iff_exists.mp (FileTree.isFile_iff.mp before).2
      rw [place] at content
      obtain ⟨s, e, -, -, found⟩ := Shows.of_some (content ▸ h.documents names read)
      rw [found]
      rfl) done
    have at?_eq : ∀ path, c'.at? path = if path = recordPath names then none else c.at? path :=
      at?_eq
    refine h.affected edited read sound (fun path other => ?_) ?_
    · rw [at?_eq, if_neg other]
    · rw [gone]
      exact (at?_eq _).trans (if_pos rfl)

end Mirrors
end

end Site
end Stencil
