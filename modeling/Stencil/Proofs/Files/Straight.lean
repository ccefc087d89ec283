import Stencil.Proofs.Files.Named
import Stencil.Proofs.Files.Written
/-!
Paths that do not step up, and one file of a tree that is written or deleted at such a path. The path
is below a directory exactly when its place is, and a path that steps up behind a directory counts as
hidden there. The files of other places are kept, and the tree stays one in which every place stands
once.
-/
namespace Stencil

namespace Path

/-- The path does not step up. -/
def Straight (p : String) : Prop := .parent ∉ components p

instance (p : String) : Decidable (Straight p) := inferInstanceAs (Decidable (¬ _))

section
variable {cs : List Component} {p : String}

theorem segments_ofComponents (filled : cs ≠ [])
    (plain : ∀ c ∈ cs, c = .parent ∨ ∃ n, IsName n ∧ c = .normal n) :
    segments (ofComponents cs) = cs.map Component.text := by
  refine segments_ofSegments_of_noSlash (by simpa using filled) fun text mem => ?_
  obtain ⟨c, own, rfl⟩ := List.mem_map.mp mem
  rcases plain c own with rfl | ⟨n, name, rfl⟩
  · decide
  · exact name.noSlash

theorem components_ofComponents (filled : cs ≠ [])
    (plain : ∀ c ∈ cs, c = .parent ∨ ∃ n, IsName n ∧ c = .normal n) :
    components (ofComponents cs) = cs := by
  have cut := segments_ofComponents filled plain
  have rest : parts (ofComponents cs) = cs := parts_ofSegments plain
  rw [parts, cut] at rest
  obtain ⟨c, tail, rfl⟩ := List.exists_cons_of_ne_nil filled
  have first : ∀ leading, component? leading c.text = some c := by
    intro leading
    rcases plain c List.mem_cons_self with rfl | ⟨n, name, rfl⟩
    · cases leading with
      | false => rfl
      | true => rfl
    · exact name.component? leading
  have relative : isAbsolute (ofComponents (c :: tail)) = false := by
    by_contra absolute
    obtain ⟨q, same⟩ := isAbsolute_iff.mp (Bool.not_eq_false _ ▸ absolute)
    have slash : ("/" ++ q).toList = [] ++ '/' :: q.toList := by
      rw [String.toList_append]
      rfl
    rw [same, segments, slash, Text.splitOn_append List.not_mem_nil, List.map_cons,
      List.map_cons] at cut
    have none := first true
    rw [← (List.cons.inj cut).1] at none
    cases none
  rw [List.map_cons, List.filterMap_cons_some (first false)] at rest
  rw [components, cut, List.map_cons]
  dsimp only
  rw [relative, if_neg (by simp), first]
  exact rest

theorem components_ne_nil (nonempty : p ≠ "") : components p ≠ [] := by
  cases chars : p.toList with
  | nil => exact absurd (String.toList_eq_nil_iff.mp chars) nonempty
  | cons c s =>
    by_cases slash : c = '/'
    · have absolute : isAbsolute p := by
        rw [isAbsolute, chars, slash]
        rfl
      obtain ⟨q, rfl⟩ := isAbsolute_iff.mp absolute
      rw [components_slash]
      exact List.cons_ne_nil _ _
    · obtain ⟨part, rest, cut⟩ := Text.splitOn_cons slash s
      have relative : isAbsolute p = false := by
        rw [isAbsolute, chars]
        simpa using slash
      have filled : String.ofList (c :: part) ≠ "" := by
        intro empty
        have chars := congrArg String.toList empty
        rw [String.toList_ofList] at chars
        cases chars
      rw [components, segments, chars, cut, List.map_cons]
      dsimp only
      rw [relative, if_neg (by simp), component?, if_neg filled]
      split
      · exact List.cons_ne_nil _ _
      · split
        · exact List.cons_ne_nil _ _
        · exact List.cons_ne_nil _ _

theorem exists_names (named : ∀ c ∈ cs, ∃ n, IsName n ∧ c = .normal n) :
    ∃ names : List String, (∀ n ∈ names, IsName n) ∧ cs = names.map .normal := by
  induction cs with
  | nil => exact ⟨[], fun n mem => absurd mem List.not_mem_nil, rfl⟩
  | cons c cs ih =>
    obtain ⟨n, name, rfl⟩ := named c List.mem_cons_self
    obtain ⟨names, rest, rfl⟩ := ih fun d mem => named d (List.mem_cons_of_mem _ mem)
    exact ⟨n :: names, List.forall_mem_cons.mpr ⟨name, rest⟩, rfl⟩

/-- A step up is hidden, so what is not hidden are names. -/
theorem names_of_visible {exclude : List String}
    (plain : ∀ c ∈ cs, c = .parent ∨ ∃ n, IsName n ∧ c = .normal n)
    (visible : isExcluded (ofComponents cs) exclude = false) :
    ∃ names : List String, (∀ n ∈ names, IsName n) ∧ cs = names.map .normal := by
  by_cases filled : cs = []
  · exact ⟨[], fun n mem => absurd mem List.not_mem_nil, filled⟩
  · rw [isExcluded, components_ofComponents filled plain, crosses, List.any_eq_false] at visible
    refine exists_names fun c mem => (plain c mem).resolve_left ?_
    rintro rfl
    exact visible _ mem (by simp [Component.text])

/-- A path from the root that does not step up is made of names. -/
theorem names_of_straight (absolute : isAbsolute p) (straight : Straight p) :
    ∃ names : List String, (∀ n ∈ names, IsName n) ∧
      components p = .root :: names.map .normal := by
  rw [Straight, components_of_isAbsolute absolute, List.mem_cons, not_or] at straight
  rw [components_of_isAbsolute absolute]
  have named : ∀ c ∈ parts p, ∃ n, IsName n ∧ c = .normal n := by
    intro c mem
    refine (part_cases mem).resolve_left ?_
    rintro rfl
    exact straight.2 mem
  obtain ⟨names, plain, same⟩ := exists_names named
  exact ⟨names, plain, by rw [same]⟩

/-- Components lead from names to names. -/
theorem isName_walk {place : List String} (named : ∀ n, .normal n ∈ cs → IsName n)
    (plain : ∀ n ∈ place, IsName n) : ∀ n ∈ walk place cs, IsName n := by
  induction cs generalizing place with
  | nil => exact plain
  | cons c cs ih =>
    refine ih (fun n mem => named n (List.mem_cons_of_mem _ mem)) ?_
    cases c with
    | root | current => exact plain
    | parent => exact fun n mem => plain n (List.dropLast_subset _ mem)
    | normal m =>
      intro n mem
      rcases List.mem_append.mp mem with before | last
      · exact plain n before
      · rw [List.mem_singleton.mp last]
        exact named m List.mem_cons_self

theorem isName_of_part {n : String} (mem : .normal n ∈ parts p) : IsName n := by
  rcases part_cases mem with is | ⟨m, name, is⟩
  · cases is
  · cases is
    exact name

end

end Path

namespace FileTree
variable {t : FileTree} {root p : String} {names : List String}

theorem placeOf_eq_walk (h : Path.isAbsolute t.current) (p : String) :
    t.placeOf p = Path.walk [] (Path.parts (t.absolute p)) := by
  rw [placeOf, Path.components_of_isAbsolute (isAbsolute_absolute h p)]
  rfl

/-- A place is made of names. -/
theorem isName_placeOf (h : Path.isAbsolute t.current) (p : String) :
    ∀ n ∈ t.placeOf p, Path.IsName n := by
  rw [placeOf_eq_walk h]
  exact Path.isName_walk (fun _ => Path.isName_of_part) fun n mem =>
    absurd mem List.not_mem_nil

/-- A path that does not step up spells its place. -/
theorem components_of_straight (h : Path.isAbsolute t.current)
    (straight : Path.Straight (t.absolute p)) :
    Path.components (t.absolute p) = .root :: (t.placeOf p).map .normal := by
  obtain ⟨names, -, comps⟩ := Path.names_of_straight (isAbsolute_absolute h p) straight
  have walked : t.placeOf p = names := by
    rw [placeOf, comps]
    exact (Path.walk_names [] names).trans (List.nil_append names)
  rw [walked, comps]

/-- Of paths that do not step up, one is below another when its place is. -/
theorem below?_iff_of_straight (h : Path.isAbsolute t.current) (nonempty : p ≠ "")
    (straight : Path.Straight (t.absolute p)) (absolute : Path.isAbsolute root)
    (straight' : Path.Straight root) {cs : List Path.Component} :
    Path.below? root (t.cleanPath p) = some cs ↔
      (t.placeOf p).map .normal = (t.placeOf root).map .normal ++ cs := by
  have fromRoot : t.absolute root = root := by rw [FileTree.absolute, Path.join, if_pos absolute]
  have above := components_of_straight h (fromRoot.symm ▸ straight')
  rw [fromRoot] at above
  rw [Path.below?_eq_some, cleanPath, if_neg (by simpa using nonempty),
    Path.components_clean (isAbsolute_absolute h p), components_of_straight h straight, above,
    List.cons_append, List.cons.injEq]
  simp

theorem placeOf_prefix (h : Path.isAbsolute t.current) (nonempty : p ≠ "")
    (straight : Path.Straight (t.absolute p)) (absolute : Path.isAbsolute root)
    (straight' : Path.Straight root) {cs : List Path.Component}
    (below : Path.below? root (t.cleanPath p) = some cs) : t.placeOf root <+: t.placeOf p := by
  have comps := (below?_iff_of_straight h nonempty straight absolute straight').mp below
  obtain ⟨front, back, split, same, -⟩ := List.map_eq_append_iff.mp comps
  have injective : Function.Injective Path.Component.normal := fun m n => Path.Component.normal.inj
  rw [split, ← List.map_injective_iff.mpr injective same]
  exact List.prefix_append _ _

/-- What is not hidden behind a directory are names. -/
theorem names_below (h : Path.isAbsolute t.current) (nonempty : p ≠ "") (proper : root ≠ "")
    {exclude : List String} {cs : List Path.Component}
    (below : Path.below? root (t.cleanPath p) = some cs)
    (visible : Path.isExcluded (Path.ofComponents cs) exclude = false) :
    ∃ names : List String, (∀ n ∈ names, Path.IsName n) ∧ cs = names.map .normal := by
  rw [Path.below?_eq_some, cleanPath, if_neg (by simpa using nonempty),
    Path.components_clean (isAbsolute_absolute h p),
    Path.components_of_isAbsolute (isAbsolute_absolute h p)] at below
  refine Path.names_of_visible (fun c mem => ?_) visible
  obtain ⟨d, ds, dir⟩ := List.exists_cons_of_ne_nil (Path.components_ne_nil proper)
  rw [dir, List.cons_append] at below
  refine Path.part_cases (p := t.absolute p) ?_
  rw [(List.cons.inj below).2]
  exact List.mem_append_right _ mem

end FileTree
end Stencil

namespace Stencil.FileTree
variable {t t' : FileTree} {p : String}

/-- A tree in which every place stands once, and in which no name has a backslash. -/
structure Regular (t : FileTree) : Prop where
  absolute : Path.isAbsolute t.current
  once : (t.files.map Prod.fst).Nodup
  plain : ∀ place ∈ t.files.map Prod.fst, ∀ n ∈ place, PlainName n

theorem Regular.plain_below (h : t.Regular) {place names : List String}
    (stands : (t.content? (place ++ names)).isSome) : ∀ n ∈ names, PlainName n := by
  obtain ⟨c, content⟩ := Option.isSome_iff_exists.mp stands
  have mem := (content?_eq_some h.once).mp content
  exact fun n inside =>
    h.plain _ (List.mem_map_of_mem mem) n (List.mem_append_right _ inside)

/-- A file is written, in directories that may be made for it, or it is deleted. -/
inductive Altered (t : FileTree) (p : String) : FileTree → Prop where
  | written {dir : String} {c : FileContent} {t' : FileTree}
      (done : (t.makeDirectories dir).2.write? p c = some t') : Altered t p t'
  | deleted {t' : FileTree} (done : t.remove p = .removed t') : Altered t p t'

theorem files_makeAlong (cs : List Path.Component) (from_ : List String) :
    (t.makeAlong from_ cs).2.files = t.files := by
  induction cs generalizing t from_ with
  | nil => rfl
  | cons c cs ih =>
    rw [makeAlong.eq_def]
    cases c with
    | root => exact ih _
    | current => exact ih _
    | parent => exact ih _
    | normal name =>
      dsimp only
      split
      · rfl
      · split
        · exact ih _
        · exact ih _

theorem files_makeDirectories (t : FileTree) (dir : String) :
    (t.makeDirectories dir).2.files = t.files := by
  rw [makeDirectories]
  split
  · rfl
  · exact files_makeAlong _ _

theorem map_putFile (place : List String) (c : FileContent)
    (files : List (List String × FileContent)) :
    (putFile place c files).map Prod.fst = if place ∈ files.map Prod.fst then
      files.map Prod.fst else files.map Prod.fst ++ [place] := by
  induction files with
  | nil => rfl
  | cons f files ih =>
    obtain ⟨q, old⟩ := f
    rw [putFile]
    by_cases here : q = place
    · simp [here]
    · rw [if_neg here, List.map_cons, ih, List.map_cons]
      by_cases later : place ∈ files.map Prod.fst
      · rw [if_pos later, if_pos (List.mem_cons_of_mem _ later)]
      · have absent : place ∉ q :: files.map Prod.fst := by
          rw [List.mem_cons]
          exact not_or.mpr ⟨Ne.symm here, later⟩
        rw [if_neg later, if_neg absent]
        rfl

/-- What deleting a file has done. -/
theorem remove_eq_removed (done : t.remove p = .removed t') : t.isFile p ∧
    t' = { t with files := t.files.filter (·.1 != t.placeOf p) } := by
  rw [remove] at done
  split at done
  · next place leads =>
    have here := way_at leads
    subst here
    split at done
    · cases done
    · split at done
      · next stands => exact ⟨isFile_iff.mpr ⟨leads, stands⟩, (Removal.removed.inj done).symm⟩
      · cases done
  · cases done
  · cases done

namespace Altered
variable (h : Altered t p t')
include h

theorem keeps {place : List String} (other : place ≠ t.placeOf p) : Keeps t t' place := by
  cases h with
  | @written dir c _ done =>
    have made := keeps_makeDirectories t dir place
    exact made.trans (keeps_of_write? done (made.placeOf_eq p ▸ other))
  | deleted done =>
    have kept := keeps_remove (t := t) other
    rwa [done] at kept

theorem grows : Grows t t' := by
  cases h with
  | @written dir c _ done =>
    exact (keeps_makeDirectories t dir []).toGrows.trans (grows_of_write? done)
  | deleted done =>
    rw [(remove_eq_removed done).2]
    exact ⟨rfl, fun _ => id⟩

/-- A file stood there, or stands there now. -/
theorem changed : t.isFile p ∨ t'.isFile p := by
  cases h with
  | @written dir c _ done =>
    obtain ⟨leads, -, same⟩ := write?_eq_some done
    have grows := grows_of_write? done
    refine .inr (isFile_iff.mpr ⟨grows.way leads, ?_⟩)
    rw [grows.placeOf_eq, content?, same, lookup_putFile, if_pos rfl]
    rfl
  | deleted done => exact .inl (remove_eq_removed done).1

theorem nonempty : p ≠ "" := by
  rcases h.changed with file | file
  · exact (way_eq_at.mp (isFile_iff.mp file).1).1
  · exact (way_eq_at.mp (isFile_iff.mp file).1).1

theorem places : ∀ place ∈ t'.files.map Prod.fst,
    place = t.placeOf p ∨ place ∈ t.files.map Prod.fst := by
  intro place mem
  cases h with
  | @written dir c _ done =>
    obtain ⟨-, -, rfl⟩ := write?_eq_some done
    rw [(keeps_makeDirectories t dir []).placeOf_eq, files_makeDirectories, map_putFile] at mem
    split at mem
    · exact .inr mem
    · exact (List.mem_append.mp mem).symm.imp_left List.mem_singleton.mp
  | deleted done =>
    rw [(remove_eq_removed done).2] at mem
    exact .inr ((List.filter_sublist.map _).subset mem)

theorem once (once : (t.files.map Prod.fst).Nodup) : (t'.files.map Prod.fst).Nodup := by
  cases h with
  | @written dir c _ done =>
    obtain ⟨-, -, rfl⟩ := write?_eq_some done
    rw [files_makeDirectories, map_putFile]
    split
    · exact once
    · next absent =>
      refine List.nodup_append.mpr ⟨once, List.nodup_singleton _, ?_⟩
      rintro a mem b own rfl
      rw [List.mem_singleton.mp own] at mem
      exact absent mem
  | deleted done =>
    rw [(remove_eq_removed done).2]
    exact once.sublist (List.filter_sublist.map _)

theorem regular (regular : t.Regular) (plain : ∀ n ∈ t.placeOf p, '\\' ∉ n.toList) :
    t'.Regular where
  absolute := by
    rw [h.grows.current]
    exact regular.absolute
  once := h.once regular.once
  plain place mem := by
    rcases h.places place mem with rfl | old
    · exact fun n inside => ⟨isName_placeOf regular.absolute p n inside, plain n inside⟩
    · exact regular.plain place old

theorem edited (regular : t.Regular) : t.Edited t' [t.placeOf p] where
  current := h.grows.current
  absolute := regular.absolute
  once := regular.once
  once' := h.once regular.once
  directories := h.grows.directories
  files place other := (h.keeps (by simpa using other)).content

end Altered

end Stencil.FileTree
