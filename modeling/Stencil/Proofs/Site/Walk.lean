import Mathlib.Data.List.Nodup
import Stencil.Proofs.Collection.Edit
import Stencil.Proofs.Site.Dependents
/-!
Which pages depend on a template. The walk goes from an id to the templates that use it and on to
those that use them, along cycles too: it takes no name twice, and the names that it takes are those
from which a chain of uses leads to the id. The pages that use one of them depend on the id.
-/
namespace Stencil.Site
open Markup

/-! ### What the walk takes -/

section
variable {users : String → List String}

/-- Whatever holds at the start of the walk, and goes from a name to its users, holds at its end. -/
theorem closure_least {P : String → Prop} (step : ∀ n, P n → ∀ m ∈ users n, P m)
    (left pending : List String) (start : ∀ n ∈ pending, P n) :
    ∀ n ∈ closure users left pending, P n := by
  induction left, pending using closure.induct users with
  | case1 left =>
    rw [closure]
    exact start
  | case2 left name rest ih =>
    have head : P name := start name List.mem_cons_self
    intro n found
    rw [closure] at found
    rcases List.mem_cons.mp found with rfl | found
    · exact head
    · refine ih (fun m mem => ?_) n found
      rcases List.mem_append.mp mem with fresh | later
      · have user : m ∈ users name := by
          simpa using (List.mem_filter.mp fresh).2
        exact step name head m user
      · exact start m (List.mem_cons_of_mem _ later)

/-- The names that are left are divided among the two lists. -/
theorem divide_perm (found left : List String) :
    ((divide found left).1 ++ (divide found left).2).Perm left :=
  List.filter_append_perm _ _

theorem closure_subset (left pending : List String) :
    ∀ n ∈ closure users left pending, n ∈ pending ++ left := by
  induction left, pending using closure.induct users with
  | case1 left =>
    intro n found
    rw [closure] at found
    cases found
  | case2 left name rest ih =>
    intro n found
    rw [closure] at found
    rcases List.mem_cons.mp found with rfl | found
    · exact List.mem_cons_self
    · refine List.mem_cons_of_mem _ ?_
      have inside := ih n found
      have mem := (divide_perm (users name) left).mem_iff (a := n)
      rcases List.mem_append.mp inside with inside | later
      · rcases List.mem_append.mp inside with fresh | waiting
        · exact List.mem_append_right _ (mem.mp (List.mem_append_left _ fresh))
        · exact List.mem_append_left _ waiting
      · exact List.mem_append_right _ (mem.mp (List.mem_append_right _ later))

theorem nodup_closure (left pending : List String) (once : (pending ++ left).Nodup) :
    (closure users left pending).Nodup := by
  induction left, pending using closure.induct users with
  | case1 left =>
    rw [closure]
    exact List.nodup_nil
  | case2 left name rest ih =>
    obtain ⟨fresh, once⟩ := List.nodup_cons.mp once
    have moved : (((divide (users name) left).1 ++ rest) ++ (divide (users name) left).2).Perm
        (rest ++ left) := by
      refine List.Perm.trans ?_ ((divide_perm (users name) left).append_left rest)
      rw [← List.append_assoc]
      exact List.perm_append_comm.append_right _
    rw [closure]
    refine List.nodup_cons.mpr ⟨fun again => fresh ?_, ih (moved.nodup_iff.mpr once)⟩
    exact moved.mem_iff.mp (closure_subset _ _ name again)

end

/-! ### Chains of uses -/

/-- A chain of uses leads from a name to the id: the name is the id, or there is a template of that
name that uses a name from which a chain leads on. -/
inductive LeadsTo (s : Site) (id : String) : String → Prop where
  | here : LeadsTo s id id
  | through {n m : String} {item : Item Component} (stored : item ∈ s.templates.items)
      (own : item.result.id = n) (used : m ∈ item.result.document.uses) (rest : LeadsTo s id m) :
      LeadsTo s id n

section
variable {s : Site}

theorem mem_usersOf_iff (sound : Sound s) {user name : String} :
    user ∈ s.usersOf name ↔ ∃ item ∈ s.templates.items, item.result.id = user ∧
      name ∈ item.result.document.uses := by
  have keyed := sound.templates.sound.toKeyed
  rw [mem_usersOf sound]
  constructor
  · rintro ⟨path, e, found, used, own⟩
    exact ⟨e.item, mem_templateItems sound found, own, used⟩
  · rintro ⟨item, stored, own, used⟩
    obtain ⟨e, found, rfl⟩ := (Collection.mem_items keyed).mp stored
    exact ⟨_, e, found, used, own⟩

/-- The walk takes the names from which chains lead to the id. -/
theorem mem_leading (sound : Sound s) {id n : String} : n ∈ s.leading id ↔ LeadsTo s id n := by
  constructor
  · refine closure_least (fun m leads user mem => ?_) _ _ (fun m mem => ?_) n
    · obtain ⟨item, stored, own, used⟩ := (mem_usersOf_iff sound).mp mem
      exact .through stored own used leads
    · rw [List.mem_singleton.mp mem]
      exact .here
  · intro leads
    induction leads with
    | here => exact s.self_mem_leading id
    | through stored own used rest ih =>
      exact leading_closed sound ih ((mem_usersOf_iff sound).mpr ⟨_, stored, own, used⟩)

/-- No two templates have one id. -/
theorem nodup_templateIds (sound : Sound s) : (s.templates.items.map (·.result.id)).Nodup := by
  have keyed := sound.templates.sound.toKeyed
  have byId : ∀ item ∈ s.templates.items, s.templates.get? item.result.id = some item := by
    intro item stored
    obtain ⟨e, found, rfl⟩ := (Collection.mem_items keyed).mp stored
    exact (Collection.get?_eq_some keyed).mpr
      ⟨e, found, (sound.templates.aliases found _).mpr (.inl rfl), rfl⟩
  have once := Collection.nodup_items keyed
  refine (List.nodup_map_iff_inj_on once).mpr fun item mem other mem' same => ?_
  have first := byId item mem
  rw [same, byId other mem'] at first
  exact (Option.some.inj first).symm

theorem nodup_leading (sound : Sound s) (id : String) : (s.leading id).Nodup := by
  refine nodup_closure _ _ (List.nodup_cons.mpr ⟨fun mem => ?_, ?_⟩)
  · simpa using (List.mem_filter.mp mem).2
  · exact (nodup_templateIds sound).filter _

theorem length_leading_le (sound : Sound s) (id : String) :
    (s.leading id).length ≤ s.templates.items.length + 1 := by
  have inside := (nodup_leading sound id).length_le_of_subset
    fun n found => closure_subset _ _ n found
  refine inside.trans ?_
  have kept := List.length_filter_le (· != id) (s.templates.items.map (·.result.id))
  rw [List.length_map] at kept
  simp only [List.length_append, List.length_singleton]
  omega

end

/-- The pages that depend on an id are, in increasing order and each once, those that use a name
from which a chain of uses through templates leads to the id. The walk that finds them takes no name
twice, so it ends when it has taken each template once. -/
theorem dependents_by_chains {s : Site} (reached : Reached s) (id : String) :
    (s.dependents id).Pairwise (· < ·) ∧
      (∀ path, path ∈ s.dependents id ↔ ∃ page ∈ s.pages.items, page.path.pathname = path ∧
        ∃ n ∈ page.result.document.uses, LeadsTo s id n) ∧
      (s.leading id).Nodup ∧ (s.leading id).length ≤ s.templates.items.length + 1 := by
  have sound := reached.sound
  refine ⟨SortedSet.increasing_ofList _, fun path => ?_, nodup_leading sound id,
    length_leading_le sound id⟩
  rw [mem_dependents sound]
  constructor
  · rintro ⟨n, found, e, here, used⟩
    refine ⟨e.item, ?_, Collection.path_of_at? sound.pages.toKeyed here, n, used,
      (mem_leading sound).mp found⟩
    refine (Collection.mem_items sound.pages.toKeyed).mpr ⟨e, ?_, rfl⟩
    rw [Collection.path_of_at? sound.pages.toKeyed here, here]
  · rintro ⟨page, stored, rfl, n, used, leads⟩
    obtain ⟨e, here, rfl⟩ := (Collection.mem_items sound.pages.toKeyed).mp stored
    exact ⟨n, (mem_leading sound).mpr leads, e, here, used⟩

/-- A page, and a template that uses one that is missing. -/
def dayTree : FileTree where
  directories := [["pages"], ["templates"]]
  files := [
    (["templates", "day.html"], .text "<template id=\"x-day\"><x-night></x-night></template>"),
    (["pages", "index.html"], .text "<x-day></x-day>")]

/-- The files after the missing template has come, which uses the first one. -/
def ringTree : FileTree :=
  { dayTree with files := dayTree.files ++ [
      (["templates", "night.html"], .text "<template id=\"x-night\"><x-day></x-day></template>")] }

def daySite : Site := ((ofConfig {} dayTree).initialise dayTree).2

/-- The page depends on a template that it does not use itself, and the cycle of the two templates
does not keep the walk from its end. -/
theorem ring_dependents : ∃ change gone s',
    daySite.applyChange ringTree "templates/night.html" = .ok (change, gone, s') ∧
    s'.dependents "x-night" = ["index.html"] ∧
    (∃ page ∈ s'.pages.items, page.path.pathname = "index.html" ∧
      ∃ n ∈ page.result.document.uses, LeadsTo s' "x-night" n) ∧
    (s'.leading "x-night").Nodup := by
  have listed : ((daySite.applyChange ringTree "templates/night.html").toOption.map
      fun done => done.2.2.dependents "x-night") = some ["index.html"] := by decide +kernel
  obtain ⟨⟨change, gone, s'⟩, done, page⟩ := Option.map_eq_some_iff.mp listed
  replace done := ok_of_toOption done
  have reached : Reached s' :=
    .applyChange (.initialise (.ofConfig {} dayTree) dayTree) done
  obtain ⟨-, chains, once, -⟩ := dependents_by_chains reached "x-night"
  refine ⟨change, gone, s', done, page, (chains "index.html").mp ?_, once⟩
  rw [page]
  exact List.mem_singleton_self _

end Stencil.Site
