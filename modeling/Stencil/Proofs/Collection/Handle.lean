import Stencil.Proofs.Collection.Roster
/-!
What a key leads to. A call tells in its answer what it has done, and from the answers alone one
knows what stands under a key that has been given: the document of the path for which it was given,
as it was last accepted, and nothing once that document is deleted. Keys of deleted documents are
given again, so that nothing stands there only up to the call that gives the key anew.
-/
namespace Stencil.Collection
variable {α ε : Type} {c c' : Collection α} {s : Schema α ε} {key : ItemKey} {item : Item α}

/-- What a call has done by its answer. A record that is stored is told of as it is read. -/
inductive Event (α : Type) where
  | inserted (key : ItemKey) (item : Item α)
  | updated (key : ItemKey) (item : Item α)
  | deleted (item : Item α)
  | nothing

namespace Event

def Deletes (path : String) : Event α → Prop
  | .deleted item => item.path.pathname = path
  | .inserted .. | .updated .. | .nothing => False

def Gives (key : ItemKey) : Event α → Prop
  | .inserted k _ => k = key
  | .updated .. | .deleted _ | .nothing => False

/-- The document after a record of its path has been accepted. -/
def renew (item : Item α) : Event α → Item α
  | .inserted _ next | .updated _ next =>
    if next.path.pathname = item.path.pathname then
      { item with content := next.content, result := next.result }
    else item
  | .deleted _ | .nothing => item

/-- What stands under a key after one more call. -/
def held (key : ItemKey) : Option (Item α) → Event α → Option (Item α)
  | none, .inserted k item => if k = key then some item else none
  | none, _ => none
  | some item, .deleted gone =>
    if gone.path.pathname = item.path.pathname then none else some item
  | some item, e => some (e.renew item)

theorem renew_path (item : Item α) (e : Event α) : (e.renew item).path = item.path := by
  cases e with
  | inserted k next | updated k next =>
    rw [renew]
    split
    · rfl
    · rfl
  | deleted gone | nothing => rfl

end Event

/-- The document with the content that was last accepted for its path. -/
def latest (item : Item α) (events : List (Event α)) : Item α := events.foldl Event.renew item

/-- What storing a record has done. -/
def storing (read : Except (CollectionError ε) (Item α))
    (ended : Except (CollectionError ε) (Outcome × Collection α)) : Event α :=
  match read, ended with
  | .ok item, .ok (.inserted key, _) => .inserted key item
  | .ok item, .ok (.updated key, _) => .updated key item
  | _, _ => .nothing

def event (s : Schema α ε) (c : Collection α) : Call → Event α
  | .set r => storing (parse s r) (c.set s r)
  | .update r => storing (parse s r) (c.update s r)
  | .delete name => (c.delete name).1.elim .nothing .deleted

/-- What the calls do, one after the other. -/
def events (c : Collection α) : List (Schema α ε × Call) → List (Event α)
  | [] => []
  | (s, call) :: calls => c.event s call :: (c.after s call).events calls

/-! ### One call -/

/-- What is done to the tables by a call that has done this. -/
inductive Does (s : Schema α ε) (c : Collection α) : Event α → Collection α → Prop where
  | nothing : Does s c .nothing c
  | inserted {item aliases} (absent : c.keyOfPath? item.path.pathname = none) :
      Does s c (.inserted c.freeKey item) (c.add s item aliases).2
  | updated {key old next aliases} (stands : c.entryOf? key = some old)
      (same : next.path.pathname = old.item.path.pathname) :
      Does s c (.updated key next) (c.patch s key old next aliases)
  | deleted {key e} (stands : c.entryOf? key = some e) :
      Does s c (.deleted e.item) (c.without key e)

theorem path_of_parse {r : Record} (read : parse s r = .ok item) : item.path = r.path := by
  rw [parse] at read
  split at read
  · cases read
    rfl
  · cases read

theorem does_insertNew {r : Record} (absent : c.keyOfPath? r.path.pathname = none) :
    Does s c (storing (parse s r) (c.insertNew s r)) (c.afterStore (c.insertNew s r)) := by
  rw [insertNew]
  cases read : parse s r with
  | error e => exact .nothing
  | ok item =>
    rw [← path_of_parse read] at absent
    simp only [bind, Except.bind]
    cases s.beforeSet item with
    | skip => exact .nothing
    | store id =>
      dsimp only
      cases (c.checkAliases (aliasesOf item.path id) none item.path.pathname :
          Except (CollectionError ε) Unit) with
      | error e => exact .nothing
      | ok _ => exact .inserted absent

theorem does_reread {r : Record} {old : Entry α} (stands : c.entryOf? key = some old)
    (same : old.item.path.pathname = r.path.pathname) :
    Does s c (storing (parse s r) (c.reread s key r)) (c.afterStore (c.reread s key r)) := by
  rw [reread]
  cases read : parse s r with
  | error e => exact .nothing
  | ok next =>
    rw [← path_of_parse read] at same
    simp only [bind, Except.bind, stands]
    cases s.beforeUpdate old.item next with
    | skip => exact .nothing
    | store id =>
      dsimp only
      cases (c.checkAliases (aliasesOf next.path id) (some key) next.path.pathname :
          Except (CollectionError ε) Unit) with
      | error e => exact .nothing
      | ok _ => exact .updated stands same.symm

theorem does_set (keyed : Keyed c) (r : Record) :
    Does s c (storing (parse s r) (c.set s r)) (c.afterStore (c.set s r)) := by
  rw [set]
  cases found : c.keyOfPath? r.path.pathname with
  | none => exact does_insertNew found
  | some key =>
    obtain ⟨old, stands, same⟩ := (keyOfPath?_eq_some keyed).mp found
    exact does_reread stands same

theorem does_after (keyed : Keyed c) (s : Schema α ε) (call : Call) :
    Does s c (c.event s call) (c.after s call) := by
  cases call with
  | set r => exact does_set keyed r
  | update r =>
    rw [event, after, update_eq_set]
    exact does_set keyed r
  | delete name =>
    rw [event, after, delete_eq]
    split
    · exact .nothing
    · next key e found =>
      obtain ⟨k, -, here⟩ := Option.bind_eq_some_iff.mp found
      obtain ⟨e', stands, same⟩ := Option.map_eq_some_iff.mp here
      cases same
      exact .deleted stands

/-- The answer of a call tells what stands under a key after it. -/
theorem Does.item?_eq {e : Event α} (does : Does s c e c') (keyed : Keyed c) (key : ItemKey) :
    c'.item? key = e.held key (c.item? key) := by
  cases does with
  | nothing => cases c.item? key <;> rfl
  | @inserted new aliases absent =>
    rw [item?, item?, entryOf?_add keyed]
    cases stands : c.entryOf? key with
    | none => simp only [Event.held, Option.map_none, eq_comm (a := key)]; split <;> rfl
    | some e =>
      have other : key ≠ c.freeKey := by
        rintro rfl
        rw [entryOf?_free keyed] at stands
        cases stands
      have apart := keyOfPath?_eq_none keyed absent stands
      simp [other, Event.held, Event.renew, Ne.symm apart]
  | @updated k old next aliases stands same =>
    rw [item?, item?, entryOf?_patch stands]
    by_cases own : key = k
    · subst own
      simp [stands, Event.held, Event.renew, same]
    · cases here : c.entryOf? key with
      | none => simp [own, Event.held]
      | some e =>
        have apart : ¬ next.path.pathname = e.item.path.pathname := by
          rw [same, path_eq_iff keyed here stands]
          exact Ne.symm own
        simp [own, Event.held, Event.renew, apart]
  | @deleted k e stands =>
    rw [item?, item?, entryOf?_without]
    by_cases own : key = k
    · subst own
      simp [stands, Event.held]
    · cases here : c.entryOf? key with
      | none => simp [own, Event.held]
      | some e' =>
        have apart : ¬ e.item.path.pathname = e'.item.path.pathname := by
          rw [path_eq_iff keyed here stands]
          exact Ne.symm own
        simp [own, Event.held, apart]

/-! ### Many calls -/

theorem item?_afterAll (keyed : Filed c) (calls : List (Schema α ε × Call)) (key : ItemKey) :
    (c.afterAll calls).item? key = (c.events calls).foldl (Event.held key) (c.item? key) := by
  induction calls generalizing c with
  | nil => rfl
  | cons call calls ih =>
    have next := ih (filed_after call.1 keyed call.2)
    rw [(does_after keyed.toKeyed call.1 call.2).item?_eq keyed.toKeyed] at next
    exact next

theorem foldl_held_of_kept {es : List (Event α)} (kept : ∀ e ∈ es, ¬ e.Deletes item.path.pathname) :
    es.foldl (Event.held key) (some item) = some (latest item es) := by
  induction es generalizing item with
  | nil => rfl
  | cons e es ih =>
    obtain ⟨own, rest⟩ := List.forall_mem_cons.mp kept
    rw [List.foldl_cons, latest, List.foldl_cons]
    have here : Event.held key (some item) e = some (e.renew item) := by
      cases e with
      | inserted k next | updated k next | nothing => rfl
      | deleted gone => exact if_neg own
    rw [here]
    exact ih (by rwa [Event.renew_path])

theorem foldl_held_none {es : List (Event α)} (unused : ∀ e ∈ es, ¬ e.Gives key) :
    es.foldl (Event.held key) none = none := by
  induction es with
  | nil => rfl
  | cons e es ih =>
    obtain ⟨own, rest⟩ := List.forall_mem_cons.mp unused
    rw [List.foldl_cons]
    have here : Event.held key none e = none := by
      cases e with
      | inserted k next => exact if_neg own
      | updated k next | deleted gone | nothing => rfl
    rw [here]
    exact ih rest

theorem latest_path (item : Item α) (es : List (Event α)) : (latest item es).path = item.path := by
  induction es generalizing item with
  | nil => rfl
  | cons e es ih => exact (ih (e.renew item)).trans (Event.renew_path item e)

theorem get?_of_item? (keyed : Keyed c) (stands : c.item? key = some item) :
    c.get? item.path.pathname = some item := by
  obtain ⟨e, here, rfl⟩ := Option.map_eq_some_iff.mp stands
  have leads := keyed.key?_iff.mpr ⟨e, here, keyed.path_mem here⟩
  rw [get?, leads]
  exact stands

theorem item?_inserted (filed : Filed c) {call : Call}
    (given : c.event s call = .inserted key item) : (c.after s call).item? key = some item := by
  have does := does_after filed.toKeyed s call
  rw [given] at does
  generalize c.after s call = c' at does ⊢
  cases does with
  | inserted absent =>
    rw [item?, entryOf?_add filed.toKeyed, if_pos rfl]
    rfl

/-- A key that a call has given for a path leads, whatever is called from then on, to the document
of that path as it was last accepted, as long as no call deletes that document. Once one does the
key leads to nothing, until a later call gives it again. -/
theorem item?_of_given_key (calls : List (Schema α ε × Call)) (call : Call)
    (given : (afterAll {} calls).event s call = .inserted key item)
    (later : List (Schema α ε × Call)) :
    let start := (afterAll {} calls).after s call
    ((∀ e ∈ start.events later, ¬ e.Deletes item.path.pathname) →
      (start.afterAll later).item? key = some (latest item (start.events later)) ∧
        (start.afterAll later).get? item.path.pathname =
          some (latest item (start.events later))) ∧
      ∀ before gone after, start.events later = before ++ .deleted gone :: after →
        (∀ e ∈ before, ¬ e.Deletes item.path.pathname) →
        gone.path.pathname = item.path.pathname → (∀ e ∈ after, ¬ e.Gives key) →
        (start.afterAll later).item? key = none := by
  intro start
  have before := filed_afterAll filed_empty calls
  have filed : Filed start := filed_after s before call
  have first : start.item? key = some item := item?_inserted before given
  have run := item?_afterAll filed later key
  rw [first] at run
  constructor
  · intro kept
    rw [foldl_held_of_kept kept] at run
    refine ⟨run, ?_⟩
    have found := get?_of_item? (filed_afterAll filed later).toKeyed run
    rwa [latest_path] at found
  · intro before gone after parts kept same unused
    rw [run, parts, List.foldl_append, foldl_held_of_kept kept, List.foldl_cons]
    have emptied : Event.held key (some (latest item before)) (.deleted gone) = none := by
      rw [Event.held, if_pos (by rw [same, latest_path])]
    rw [emptied, foldl_held_none unused]

/-- Documents that are their own contents. -/
def plain : Schema String Empty where
  kind := .page
  parse r := .ok r.content
  uses _ := []
  beforeSet _ := .store none

/-- A text in a file of the source directory itself. -/
def note (name content : String) : Record := ⟨⟨name, ".", name⟩, content⟩

/-- The key of a document leads to it with what is read again. When two documents are deleted the
key of the one that goes first leads to nothing, though another document is stored. -/
theorem item?_of_first_note :
    let start := after plain {} (.set (note "a" "x"))
    let kept := [(plain, Call.set (note "b" "z")), (plain, .update (note "a" "y"))]
    let emptied := [(plain, Call.set (note "b" "z")), (plain, .delete "a"), (plain, .delete "b"),
      (plain, .set (note "c" "z"))]
    (start.afterAll kept).item? 0 = some ⟨⟨"a", ".", "a"⟩, "y", "y"⟩ ∧
      (start.afterAll emptied).item? 0 = none := by
  have given : event plain (afterAll {} ([] : List (Schema String Empty × Call)))
      (.set (note "a" "x")) = .inserted 0 ⟨⟨"a", ".", "a"⟩, "x", "x"⟩ := rfl
  constructor
  · refine ((item?_of_given_key [] _ given _).1 ?_).1
    exact List.forall_mem_cons.mpr ⟨id, List.forall_mem_cons.mpr ⟨id, nofun⟩⟩
  · refine (item?_of_given_key [] _ given _).2 [.inserted 1 ⟨⟨"b", ".", "b"⟩, "z", "z"⟩] _
      [.deleted ⟨⟨"b", ".", "b"⟩, "z", "z"⟩, .inserted 1 ⟨⟨"c", ".", "c"⟩, "z", "z"⟩] rfl ?_ rfl ?_
    · exact List.forall_mem_singleton.mpr id
    · exact List.forall_mem_cons.mpr ⟨id, List.forall_mem_singleton.mpr (by simp [Event.Gives])⟩

/-- A key that has been given for one path leads to a document of another one when its own has been
deleted and the place is filled again. -/
theorem key_of_deleted_given_again :
    let start := after plain {} (.set (note "a" "x"))
    event plain {} (.set (note "a" "x")) = .inserted 0 ⟨⟨"a", ".", "a"⟩, "x", "x"⟩ ∧
      (start.delete "a").1 = some ⟨⟨"a", ".", "a"⟩, "x", "x"⟩ ∧
      (start.afterAll [(plain, .delete "a"), (plain, .set (note "b" "y"))]).item? 0 =
        some ⟨⟨"b", ".", "b"⟩, "y", "y"⟩ := by
  exact ⟨rfl, rfl, rfl⟩

end Stencil.Collection
