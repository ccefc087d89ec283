import Stencil.Proofs.Files.Place
/-!
Trees to which files have been written. Writing and removing reach the place that a path leads to;
the file of every other place is kept, no directory is gone, and none comes where a file stands.
-/
namespace Stencil

namespace Path

theorem isAbsolute_append {a b : String} (filled : a ≠ "") :
    isAbsolute (a ++ b) = isAbsolute a := by
  rw [isAbsolute, isAbsolute, String.toList_append, List.head?_append]
  cases chars : a.toList with
  | nil => exact absurd (String.toList_eq_nil_iff.mp chars) filled
  | cons c s => rfl

theorem isAbsolute_join {dir p : String} (relative : isAbsolute p = false) :
    isAbsolute (join dir p) = isAbsolute dir := by
  by_cases empty : dir = ""
  · subst empty
    rw [join, relative]
    exact relative
  · rw [join, relative]
    split
    · next own => cases own
    · split
      · exact isAbsolute_append empty
      · rw [String.append_assoc]
        exact isAbsolute_append empty

theorem parts_join {dir p : String} (relative : isAbsolute p = false) :
    parts (join dir p) = parts dir ++ parts p := by
  rw [join, relative, if_neg (by simp)]
  split
  · next open_ =>
    rcases Bool.or_eq_true_iff.mp open_ with empty | slash
    · rw [String.isEmpty_iff.mp empty, String.empty_append, parts_empty, List.nil_append]
    · obtain ⟨before, chars⟩ : ∃ before, dir.toList = before ++ ['/'] :=
        List.getLast?_eq_some_iff.mp (by simpa using slash)
      have cut : dir = String.ofList before ++ "/" ++ "" := by
        refine String.toList_injective ?_
        simp [chars]
      have behind : dir ++ p = String.ofList before ++ "/" ++ p := by
        rw [cut, String.append_empty]
      rw [behind, parts_append, cut, parts_append, parts_empty, List.append_nil]
  · exact parts_append dir p

theorem components_of_isAbsolute {p : String} (absolute : isAbsolute p) :
    components p = .root :: parts p := by
  obtain ⟨q, rfl⟩ := isAbsolute_iff.mp absolute
  rw [components_slash, parts_slash]

end Path

namespace FileTree
variable {t t' t'' : FileTree} {p q s : String} {place : List String}

theorem placeOf_congr (current : t'.current = t.current) (p : String) :
    t'.placeOf p = t.placeOf p := by
  rw [placeOf, placeOf, absolute, absolute, current]

/-- A path below a directory leads on from the place of the directory. -/
theorem placeOf_join (h : Path.isAbsolute t.current) {dir : String}
    (relative : Path.isAbsolute p = false) :
    t.placeOf (Path.join dir p) = Path.walk (t.placeOf dir) (Path.parts p) := by
  have behind : Path.parts (t.absolute (Path.join dir p)) =
      Path.parts (t.absolute dir) ++ Path.parts p := by
    by_cases own : Path.isAbsolute dir
    · rw [absolute, absolute, Path.join, Path.isAbsolute_join relative, if_pos own,
        Path.join.eq_1 t.current dir, if_pos own, Path.parts_join relative]
    · have own : Path.isAbsolute dir = false := by simpa using own
      have below : Path.isAbsolute (Path.join dir p) = false :=
        (Path.isAbsolute_join relative).trans own
      rw [absolute, absolute, Path.parts_join below, Path.parts_join own, Path.parts_join relative,
        List.append_assoc]
  rw [placeOf, placeOf, Path.components_of_isAbsolute (isAbsolute_absolute h _),
    Path.components_of_isAbsolute (isAbsolute_absolute h _), behind, Path.walk, Path.walk,
    Path.walk, ← List.cons_append, List.foldl_append]

theorem placeOf_join_names (h : Path.isAbsolute t.current) {names : List String}
    (proper : names ≠ []) (plain : ∀ n ∈ names, Path.IsName n) (dir : String) :
    t.placeOf (Path.join dir (Path.ofSegments names)) = t.placeOf dir ++ names := by
  obtain ⟨n, rest, rfl⟩ := List.exists_cons_of_ne_nil proper
  have relative := Path.isAbsolute_ofSegments (plain n List.mem_cons_self) rest
  rw [placeOf_join h relative, Path.parts, Path.segments_ofSegments proper plain,
    Path.filterMap_component? plain, Path.walk_names]

/-- No directory is gone. -/
structure Grows (t t' : FileTree) : Prop where
  current : t'.current = t.current
  directories : ∀ d, t.hasDirectory d → t'.hasDirectory d

theorem Grows.refl (t : FileTree) : Grows t t := ⟨rfl, fun _ => id⟩

theorem Grows.trans (first : Grows t t') (second : Grows t' t'') : Grows t t'' where
  current := second.current.trans first.current
  directories d there := second.directories d (first.directories d there)

theorem Grows.placeOf_eq (h : Grows t t') (p : String) : t'.placeOf p = t.placeOf p :=
  placeOf_congr h.current p

theorem Grows.way (h : Grows t t') (leads : t.way p = .at (t.placeOf p)) :
    t'.way p = .at (t'.placeOf p) := by
  rw [h.placeOf_eq]
  exact way_mono h.directories h.current leads

/-- The file of a place is kept, and no directory comes in its place. -/
structure Keeps (t t' : FileTree) (place : List String) : Prop extends Grows t t' where
  content : t'.content? place = t.content? place
  plain : (t.content? place).isSome → t'.hasDirectory place = t.hasDirectory place

theorem Keeps.refl (t : FileTree) (place : List String) : Keeps t t place :=
  ⟨.refl t, rfl, fun _ => rfl⟩

theorem Keeps.trans (first : Keeps t t' place) (second : Keeps t' t'' place) :
    Keeps t t'' place where
  toGrows := first.toGrows.trans second.toGrows
  content := second.content.trans first.content
  plain file := (second.plain (by rwa [first.content])).trans (first.plain file)

/-- A text that a path leads to, where no directory stands. -/
structure Stands (t : FileTree) (p s : String) : Prop where
  text : t.readText? p = some s
  plain : t.hasDirectory (t.placeOf p) = false

theorem Stands.way (stands : t.Stands p s) : t.way p = .at (t.placeOf p) :=
  (readText?_eq_some.mp stands.text).1

theorem Stands.content (stands : t.Stands p s) : t.content? (t.placeOf p) = some (.text s) :=
  (readText?_eq_some.mp stands.text).2

theorem Stands.kept (stands : t.Stands p s) (keeps : Keeps t t' (t.placeOf p)) :
    t'.Stands p s := by
  have same := keeps.placeOf_eq p
  refine ⟨readText?_eq_some.mpr ⟨keeps.way stands.way, ?_⟩, ?_⟩
  · rw [same, keeps.content, stands.content]
  · rw [same, keeps.plain (by rw [stands.content]; rfl), stands.plain]

/-- Paths that lead to one place lead to one text. -/
theorem Stands.of_placeOf_eq (stands : t.Stands p s) (leads : t.way q = .at (t.placeOf q))
    (same : t.placeOf q = t.placeOf p) : t.Stands q s where
  text := readText?_eq_some.mpr ⟨leads, same ▸ stands.content⟩
  plain := same ▸ stands.plain

/-! ### Writing -/

theorem keeps_directory {d : List String} (free : t.content? d = none) :
    Keeps t { t with directories := t.directories ++ [d] } place where
  current := rfl
  directories e there := by
    rw [hasDirectory, Bool.or_eq_true] at there ⊢
    exact there.imp id fun mem => by simpa using .inl (by simpa using mem)
  content := rfl
  plain file := by
    have other : place ≠ d := by
      rintro rfl
      rw [free] at file
      cases file
    simp [hasDirectory, other]

theorem keeps_makeAlong (cs : List Path.Component) (from_ : List String) :
    Keeps t (t.makeAlong from_ cs).2 place := by
  induction cs generalizing t from_ with
  | nil => exact .refl _ _
  | cons c cs ih =>
    rw [makeAlong.eq_def]
    cases c with
    | root => exact ih _
    | current => exact ih _
    | parent => exact ih _
    | normal name =>
      dsimp only
      split
      · exact .refl _ _
      · next free =>
        split
        · exact ih _
        · exact (keeps_directory (by simpa using free)).trans (ih _)

theorem keeps_makeDirectories (t : FileTree) (p : String) (place : List String) :
    Keeps t (t.makeDirectories p).2 place := by
  rw [makeDirectories]
  split
  · exact .refl _ _
  · exact keeps_makeAlong _ _

theorem lookup_putFile (files : List (List String × FileContent)) (place other : List String)
    (c : FileContent) :
    (putFile place c files).lookup other =
      if other = place then some c else files.lookup other := by
  induction files with
  | nil =>
    by_cases same : other = place
    · simp [putFile, same]
    · simp [putFile, List.lookup_cons, same, beq_eq_false_iff_ne.mpr same]
  | cons f files ih =>
    obtain ⟨q, old⟩ := f
    rw [putFile]
    by_cases here : q = place
    · rw [if_pos here, List.lookup_cons, List.lookup_cons, here]
      by_cases same : other = place
      · simp [same]
      · simp [same, beq_eq_false_iff_ne.mpr same]
    · rw [if_neg here, List.lookup_cons, List.lookup_cons, ih]
      by_cases same : other = q
      · subst same
        simp [here]
      · simp [beq_eq_false_iff_ne.mpr same]

/-- What writing a file has done. -/
theorem write?_eq_some {c : FileContent} (done : t.write? p c = some t') :
    t.way p = .at (t.placeOf p) ∧ t.hasDirectory (t.placeOf p) = false ∧
      t' = { t with files := putFile (t.placeOf p) c t.files } := by
  rw [write?] at done
  split at done
  · next place leads =>
    have here := way_at leads
    subst here
    split at done
    · cases done
    · next plain =>
      simp only [Bool.or_eq_true, Bool.not_eq_true', not_or, Bool.not_eq_true] at plain
      exact ⟨leads, plain.1, (Option.some.inj done).symm⟩
  · cases done

theorem stands_of_write? (done : t.write? p (.text s) = some t') : t'.Stands p s := by
  obtain ⟨leads, plain, rfl⟩ := write?_eq_some done
  have more : ∀ d, t.hasDirectory d →
      hasDirectory { t with files := putFile (t.placeOf p) (.text s) t.files } d :=
    fun _ there => there
  refine ⟨readText?_eq_some.mpr ⟨way_mono more rfl leads, ?_⟩, plain⟩
  show (putFile (t.placeOf p) (.text s) t.files).lookup (t.placeOf p) = _
  rw [lookup_putFile, if_pos rfl]

theorem grows_of_write? {c : FileContent} (done : t.write? p c = some t') : Grows t t' := by
  obtain ⟨-, -, rfl⟩ := write?_eq_some done
  exact ⟨rfl, fun _ => id⟩

theorem keeps_of_write? {c : FileContent} (done : t.write? p c = some t')
    (other : place ≠ t.placeOf p) : Keeps t t' place := by
  have grows := grows_of_write? done
  obtain ⟨-, -, rfl⟩ := write?_eq_some done
  refine ⟨grows, ?_, fun _ => rfl⟩
  show (putFile (t.placeOf p) c t.files).lookup place = _
  rw [lookup_putFile, if_neg other]
  rfl

/-! ### Removing -/

/-- The tree after a file has been removed, or has not. -/
def Removal.tree (t : FileTree) : Removal → FileTree
  | .removed rest => rest
  | _ => t

theorem lookup_filter_ne (files : List (List String × FileContent)) (place other : List String) :
    (files.filter (·.1 != place)).lookup other =
      if other = place then none else files.lookup other := by
  induction files with
  | nil => simp
  | cons f files ih =>
    obtain ⟨q, c⟩ := f
    rw [List.filter_cons]
    by_cases here : q = place
    · rw [if_neg (by simp [here]), ih, List.lookup_cons, here]
      by_cases same : other = place
      · simp [same]
      · simp [same, beq_eq_false_iff_ne.mpr same]
    · rw [if_pos (by simp [here]), List.lookup_cons, List.lookup_cons, ih]
      by_cases same : other = q
      · subst same
        simp [here]
      · simp [beq_eq_false_iff_ne.mpr same]

theorem keeps_remove (other : place ≠ t.placeOf p) : Keeps t ((t.remove p).tree t) place := by
  rw [remove]
  split
  · next found leads =>
    have here := way_at leads
    subst here
    split
    · exact .refl _ _
    · split
      · refine ⟨⟨rfl, fun _ => id⟩, ?_, fun _ => rfl⟩
        show (t.files.filter (·.1 != t.placeOf p)).lookup place = _
        rw [lookup_filter_ne, if_neg other]
        rfl
      · exact .refl _ _
  · exact .refl _ _
  · exact .refl _ _

/-- A text that stands can be removed, and cannot be read then. -/
theorem remove_of_stands (stands : t.Stands p s) :
    ∃ t', t.remove p = .removed t' ∧
      ∀ q, t.placeOf q = t.placeOf p → t'.readText? q = none := by
  refine ⟨{ t with files := t.files.filter (·.1 != t.placeOf p) }, ?_, fun q same => ?_⟩
  · rw [remove, stands.way]
    dsimp only
    rw [stands.plain, stands.content]
    rfl
  · refine Option.eq_none_iff_forall_ne_some.mpr fun s' read => ?_
    have content' := (readText?_eq_some.mp read).2
    change (t.files.filter (·.1 != t.placeOf p)).lookup (t.placeOf q) = _ at content'
    rw [lookup_filter_ne, if_pos same] at content'
    cases content'

end FileTree
end Stencil
