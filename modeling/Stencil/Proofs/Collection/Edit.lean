import Stencil.Proofs.Collection.Sound
import Stencil.Proofs.Result
/-!
Documents of several paths change, one after the other, from one collection to a fresh one. While
changes are pending, an alias may still belong to a document that is about to give it up; a change
is refused exactly then. What has changed in the end does not depend on the order.
-/
namespace Stencil.Collection
variable {α ε : Type} {c c' fresh : Collection α}

/-- The document of a path has an alias. -/
def Held (c : Collection α) (path a : String) : Prop := ∃ e, c.at? path = some e ∧ a ∈ e.aliases

theorem held_unique (keyed : Keyed c) {path other a : String} (held : c.Held path a)
    (held' : c.Held other a) : path = other := by
  obtain ⟨e, found, mem⟩ := held
  obtain ⟨e', found', mem'⟩ := held'
  obtain ⟨key, stands, rfl⟩ := (at?_eq_some keyed).mp found
  obtain ⟨key', stands', rfl⟩ := (at?_eq_some keyed).mp found'
  have same := keyed.alias_unique stands mem stands' mem'
  rw [same, stands'] at stands
  rw [Option.some.inj stands]

theorem admits_iff (keyed : Keyed c) {path : String} {aliases : List String} :
    c.Admits path aliases ↔ ∀ a ∈ aliases, ∀ other, c.Held other a → other = path := by
  constructor
  · rintro admits a mem other ⟨e, found, has⟩
    have here := path_of_at? keyed found
    rw [← here] at found
    rw [← here]
    exact admits a mem e found has
  · intro free a mem e found has
    exact free a mem _ ⟨e, found, has⟩

/-- What a file asks of the collection of its kind. -/
inductive Edit where
  | store (r : Record)
  | drop (path : String)

def Edit.path : Edit → String
  | .store r => r.path.pathname
  | .drop path => path

def edit (s : Schema α ε) (c : Collection α) : Edit → Except (CollectionError ε) (Collection α)
  | .store r => (c.set s r).map (·.2)
  | .drop path => .ok (c.delete path).2

def editAll (s : Schema α ε) (c : Collection α) :
    List Edit → Except (CollectionError ε) (Collection α)
  | [] => .ok c
  | e :: rest => c.edit s e >>= fun c => c.editAll s rest

theorem editAll_append (s : Schema α ε) (c : Collection α) (es es' : List Edit) :
    c.editAll s (es ++ es') = c.editAll s es >>= fun c => c.editAll s es' := by
  induction es generalizing c with
  | nil => rfl
  | cons e es ih =>
    rw [List.cons_append, editAll, editAll, bind_assoc]
    simp only [ih]

section
variable (s : Schema α ε) (idOf : Item α → Option String)

/-- The aliases that a document has after an edit. -/
def Edit.aliases : Edit → List String
  | .store r =>
    match s.parse r with
    | .ok result => aliasesOf r.path (idOf ⟨r.path, r.content, result⟩)
    | .error _ => []
  | .drop _ => []

/-- The entry that an edit leaves at its path. -/
def edited (c : Collection α) : Edit → Option (Entry α)
  | .store r =>
    match s.parse r with
    | .ok result => some (c.stored ⟨r.path, r.content, result⟩
        (aliasesOf r.path (idOf ⟨r.path, r.content, result⟩)))
    | .error _ => none
  | .drop _ => none

/-- An edit brings the document of its path to the one of a fresh collection. -/
structure Fits (c fresh : Collection α) (e : Edit) : Prop where
  reads : ∀ r, e = .store r → ∃ result, s.parse r = .ok result
  stands : ∀ path, e = .drop path → (c.at? path).isSome
  aliases : ∀ a, a ∈ e.aliases s idOf ↔ fresh.Held e.path a

/-- Edits that are still to come, and the collection that they lead to. -/
structure Pending (c fresh : Collection α) (es : List Edit) : Prop where
  sound : Sound s.uses c
  freshSound : Sound s.uses fresh
  fits : ∀ e ∈ es, Fits s idOf c fresh e
  apart : es.Pairwise (·.path ≠ ·.path)
  settled : ∀ path a, (∀ e ∈ es, path ≠ e.path) → c.Held path a → fresh.Held path a

end

section
variable {s : Schema α ε} {idOf : Item α → Option String} {e : Edit} {es es' : List Edit}

theorem stored_congr {item : Item α} (aliases : List String)
    (same : c'.at? item.path.pathname = c.at? item.path.pathname) :
    c'.stored item aliases = c.stored item aliases := by
  rw [stored, stored, same]

theorem edited_congr (same : c'.at? e.path = c.at? e.path) :
    edited s idOf c' e = edited s idOf c e := by
  cases e with
  | drop path => rfl
  | store r =>
    rw [edited, edited]
    split
    · exact congrArg some (stored_congr _ same)
    · rfl

theorem aliases_of_edited {d : Entry α} (done : edited s idOf c e = some d) :
    d.aliases = e.aliases s idOf := by
  cases e with
  | drop path => cases done
  | store r =>
    rw [edited] at done
    rw [Edit.aliases]
    split at done
    · cases done
      rw [stored]
      split
      · rfl
      · rfl
    · cases done

/-- What one edit does, when nothing refuses it. -/
theorem edit_ok (sound : Sound s.uses c) (lets : Open s idOf)
    (reads : ∀ r, e = .store r → ∃ result, s.parse r = .ok result)
    (stands : ∀ path, e = .drop path → (c.at? path).isSome) (done : c.edit s e = .ok c') :
    Sound s.uses c' ∧
      ∀ path, c'.at? path = if path = e.path then edited s idOf c e else c.at? path := by
  cases e with
  | store r =>
    obtain ⟨result, parsed⟩ := reads r rfl
    rw [edit] at done
    rcases set_of_open sound lets parsed with ⟨-, out, c'', stored, -, stores⟩ | ⟨-, err, failed⟩
    · rw [stored] at done
      cases done
      refine ⟨stores.sound, fun path => ?_⟩
      rw [stores.at?_eq, edited, parsed]
      rfl
    · rw [failed] at done
      cases done
  | drop path =>
    cases done
    obtain ⟨d, here⟩ := Option.isSome_iff_exists.mp (stands path rfl)
    have own := path_of_at? sound.toKeyed here
    obtain ⟨key, stands, -⟩ := (at?_eq_some sound.toKeyed).mp here
    have found : c.get? path = some d.item :=
      (get?_eq_some sound.toKeyed).mpr
        ⟨d, by rw [own, here], by rw [← own]; exact sound.path_mem stands, rfl⟩
    obtain ⟨d', c'', deleted, -, -, -, sound', at?_eq⟩ := delete_some sound found
    rw [deleted]
    refine ⟨sound', fun other => ?_⟩
    rw [at?_eq, own]
    rfl

theorem held_edited {r : Record} {result : α} (parsed : s.parse r = .ok result) {a : String} :
    (∃ d, edited s idOf c (.store r) = some d ∧ a ∈ d.aliases) ↔
      a ∈ (Edit.store r).aliases s idOf := by
  constructor
  · rintro ⟨d, done, mem⟩
    rwa [← aliases_of_edited done]
  · intro mem
    cases done : edited s idOf c (.store r) with
    | none =>
      rw [edited, parsed] at done
      cases done
    | some d => exact ⟨d, rfl, by rwa [aliases_of_edited done]⟩

theorem edit_of_admits (sound : Sound s.uses c) (lets : Open s idOf)
    (fits : Fits s idOf c fresh e) :
    (∃ c', c.edit s e = .ok c') ↔ c.Admits e.path (e.aliases s idOf) := by
  cases e with
  | store r =>
    obtain ⟨result, parsed⟩ := fits.reads r rfl
    rw [edit, Edit.aliases, parsed]
    rcases set_of_open sound lets parsed with ⟨admits, out, c'', stored, -⟩ | ⟨clash, err, failed⟩
    · rw [stored]
      exact ⟨fun _ => admits, fun _ => ⟨c'', rfl⟩⟩
    · rw [failed]
      constructor
      · rintro ⟨_, done⟩
        cases done
      · intro admits
        exact absurd admits clash
  | drop path =>
    constructor
    · intro _ a mem
      cases mem
    · intro _
      exact ⟨_, rfl⟩

/-- An edit is refused exactly when a document that is still to change has one of its aliases. -/
theorem Pending.edit_iff (h : Pending s idOf c fresh (e :: es)) (lets : Open s idOf) :
    (∃ c', c.edit s e = .ok c') ↔ ∀ e' ∈ es, ∀ a, fresh.Held e.path a → ¬ c.Held e'.path a := by
  have fits := h.fits e List.mem_cons_self
  rw [edit_of_admits h.sound lets fits, admits_iff h.sound.toKeyed]
  constructor
  · intro free e' mem a new old
    exact (List.pairwise_cons.mp h.apart).1 e' mem
      (free a ((fits.aliases a).mpr new) e'.path old).symm
  · intro free a mem other old
    have new := (fits.aliases a).mp mem
    by_cases waits : ∃ e' ∈ es, other = e'.path
    · obtain ⟨e', later, rfl⟩ := waits
      exact absurd old (free e' later a new)
    · by_cases own : other = e.path
      · exact own
      · refine held_unique h.freshSound.toKeyed (h.settled other a ?_ old) new
        intro e' pending same
        rcases List.mem_cons.mp pending with rfl | later
        · exact own same
        · exact waits ⟨e', later, same⟩

/-- After an edit the others are pending still. -/
theorem Pending.step (h : Pending s idOf c fresh (e :: es)) (lets : Open s idOf)
    (done : c.edit s e = .ok c') : Pending s idOf c' fresh es := by
  have fits := h.fits e List.mem_cons_self
  obtain ⟨before, apart⟩ := List.pairwise_cons.mp h.apart
  obtain ⟨sound, at?_eq⟩ := edit_ok h.sound lets fits.reads fits.stands done
  refine ⟨sound, h.freshSound, fun e' mem => ?_, apart, fun path a done held => ?_⟩
  · have later := h.fits e' (List.mem_cons_of_mem _ mem)
    refine ⟨later.reads, fun path same => ?_, later.aliases⟩
    have own : path = e'.path := by rw [same]; rfl
    rw [at?_eq, if_neg (own ▸ (before e' mem).symm)]
    exact later.stands path same
  · obtain ⟨d, found, has⟩ := held
    rw [at?_eq] at found
    split at found
    · next own =>
      rw [own, ← fits.aliases, ← aliases_of_edited found]
      exact has
    · next other =>
      refine h.settled path a (fun e' mem same => ?_) ⟨d, found, has⟩
      rcases List.mem_cons.mp mem with rfl | later
      · exact other same
      · exact done e' later same

theorem Pending.at?_later (h : Pending s idOf c fresh (e :: es)) (lets : Open s idOf)
    (done : c.edit s e = .ok c') {e' : Edit} (later : e' ∈ es) :
    c'.at? e'.path = c.at? e'.path := by
  have fits := h.fits e List.mem_cons_self
  rw [(edit_ok h.sound lets fits.reads fits.stands done).2, if_neg]
  exact ((List.pairwise_cons.mp h.apart).1 e' later).symm

/-- A run of edits is refused exactly when one of them takes an alias of a document that is to
change later. -/
theorem Pending.run_iff (h : Pending s idOf c fresh es) (lets : Open s idOf) :
    (∃ c', c.editAll s es = .ok c') ↔
      es.Pairwise fun e e' => ∀ a, fresh.Held e.path a → ¬ c.Held e'.path a := by
  induction es generalizing c with
  | nil => exact ⟨fun _ => .nil, fun _ => ⟨c, rfl⟩⟩
  | cons e es ih =>
    have kept : ∀ {c₁}, c.edit s e = .ok c₁ → ∀ e' ∈ es, ∀ a,
        c₁.Held e'.path a ↔ c.Held e'.path a := by
      intro c₁ first e' later a
      rw [Held, h.at?_later lets first later, Held]
    rw [List.pairwise_cons]
    constructor
    · rintro ⟨c', done⟩
      obtain ⟨c₁, first, rest⟩ := ok_of_bind done
      refine ⟨(h.edit_iff lets).mp ⟨c₁, first⟩, ?_⟩
      refine ((ih (h.step lets first)).mp ⟨c', rest⟩).imp_of_mem fun {e₁ e₂} _ mem free a new => ?_
      rw [← kept first e₂ mem]
      exact free a new
    · rintro ⟨now, later⟩
      obtain ⟨c₁, first⟩ := (h.edit_iff lets).mpr now
      obtain ⟨c', rest⟩ := (ih (h.step lets first)).mpr
        (later.imp_of_mem fun {e₁ e₂} _ mem free a new => by
          rw [kept first e₂ mem]
          exact free a new)
      exact ⟨c', by rw [editAll, first]; exact rest⟩

/-- Where a run of edits leads to. -/
theorem Pending.run (h : Pending s idOf c fresh es) (lets : Open s idOf)
    (done : c.editAll s es = .ok c') : Sound s.uses c' ∧
      (∀ e ∈ es, c'.at? e.path = edited s idOf c e) ∧
      ∀ path, (∀ e ∈ es, path ≠ e.path) → c'.at? path = c.at? path := by
  induction es generalizing c with
  | nil =>
    cases done
    exact ⟨h.sound, fun e mem => absurd mem List.not_mem_nil, fun path _ => rfl⟩
  | cons e es ih =>
    obtain ⟨c₁, first, rest⟩ := ok_of_bind done
    have fits := h.fits e List.mem_cons_self
    have at?_eq := (edit_ok h.sound lets fits.reads fits.stands first).2
    obtain ⟨sound, changed, others⟩ := ih (h.step lets first) rest
    refine ⟨sound, fun e' mem => ?_, fun path other => ?_⟩
    · rcases List.mem_cons.mp mem with rfl | later
      · rw [others _ (List.pairwise_cons.mp h.apart).1, at?_eq, if_pos rfl]
      · rw [changed e' later]
        exact edited_congr (h.at?_later lets first later)
    · rw [others path fun e' later => other e' (List.mem_cons_of_mem _ later), at?_eq,
        if_neg (other e List.mem_cons_self)]

theorem Pending.perm (h : Pending s idOf c fresh es) (perm : es.Perm es') :
    Pending s idOf c fresh es' where
  sound := h.sound
  freshSound := h.freshSound
  fits e mem := h.fits e (perm.mem_iff.mpr mem)
  apart := (perm.pairwise_iff Ne.symm).mp h.apart
  settled path a other := h.settled path a fun e mem => other e (perm.mem_iff.mp mem)

end

/-! ### Collections that hold the same -/

/-- The same documents, under the same aliases and with the same uses. -/
structure Alike (c c' : Collection α) : Prop where
  items : c.items.Perm c'.items
  at?_eq : ∀ path, c.at? path = c'.at? path
  usesOf_eq : ∀ path, c.usage.usesOf path = c'.usage.usesOf path

theorem nodup_items (keyed : Keyed c) : c.items.Nodup := by
  refine List.Pairwise.filterMap c.item? (fun key key' apart item here item' here' same => apart ?_)
    keyed.order_nodup
  obtain ⟨e, stands, rfl⟩ := Option.map_eq_some_iff.mp here
  obtain ⟨e', stands', rfl⟩ := Option.map_eq_some_iff.mp here'
  refine keyed.alias_unique stands (keyed.path_mem stands) stands' ?_
  rw [same]
  exact keyed.path_mem stands'

theorem alike_of_at? {uses : α → List String} (sound : Sound uses c) (sound' : Sound uses c')
    (same : ∀ path, c.at? path = c'.at? path) : Alike c c' where
  items := by
    refine (List.perm_ext_iff_of_nodup (nodup_items sound.toKeyed)
      (nodup_items sound'.toKeyed)).mpr fun item => ?_
    rw [mem_items sound.toKeyed, mem_items sound'.toKeyed, same]
  at?_eq := same
  usesOf_eq path := by rw [sound.usesOf_eq, sound'.usesOf_eq, same]

/-- What edits have led to does not depend on their order. -/
theorem Pending.alike {s : Schema α ε} {idOf : Item α → Option String} {es es' : List Edit}
    {c'' : Collection α} (h : Pending s idOf c fresh es) (lets : Open s idOf) (perm : es.Perm es')
    (done : c.editAll s es = .ok c') (done' : c.editAll s es' = .ok c'') : Alike c' c'' := by
  obtain ⟨sound, changed, others⟩ := h.run lets done
  obtain ⟨sound', changed', others'⟩ := (h.perm perm).run lets done'
  refine alike_of_at? sound sound' fun path => ?_
  by_cases own : ∃ e ∈ es, path = e.path
  · obtain ⟨e, mem, rfl⟩ := own
    rw [changed e mem, changed' e (perm.mem_iff.mp mem)]
  · have other : ∀ e ∈ es, path ≠ e.path := fun e mem same => own ⟨e, mem, same⟩
    rw [others path other, others' path fun e mem => other e (perm.mem_iff.mpr mem)]

end Stencil.Collection
