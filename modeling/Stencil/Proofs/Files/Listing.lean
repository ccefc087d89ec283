import Mathlib.Data.List.Lex
import Mathlib.Data.List.Nodup
import Mathlib.Data.String.Basic
import Stencil.Proofs.Files.Place
import Stencil.Proofs.Result
/-!
The records that the files of a directory make. The records of one path come in the order of the names
of their files, whatever other files there are. Also when some files have changed, a file that is read
and shares its record path with no other one makes all the records of that path.
-/
namespace Stencil

/-! ### Sorting -/

section
variable {α κ : Type} [LinearOrder κ] (key : α → κ)

/-- Not greater, as sorting asks for it. -/
def notAfter (a b : α) : Bool := !decide (key b < key a)

theorem notAfter_eq [∀ i j : κ, Decidable (i < j)] :
    (fun a b => !decide (key b < key a)) = notAfter key := by
  funext a b
  exact congrArg (!·) (decide_eq_decide.mpr Iff.rfl)

theorem notAfter_iff {a b : α} : notAfter key a b ↔ key a ≤ key b := by
  simp [notAfter]

theorem notAfter_trans (a b c : α) : notAfter key a b → notAfter key b c → notAfter key a c := by
  simp only [notAfter_iff]
  exact le_trans

theorem notAfter_total (a b : α) : (notAfter key a b || notAfter key b a) = true := by
  simp only [Bool.or_eq_true, notAfter_iff]
  exact le_total _ _

/-- Sorting keeps the order of what has one key. -/
theorem filter_mergeSort (xs : List α) (k : κ) [DecidableEq κ] :
    (xs.mergeSort (notAfter key)).filter (key · = k) = xs.filter (key · = k) := by
  have same : (xs.filter (key · = k)).Pairwise fun a b => notAfter key a b = true := by
    refine List.pairwise_of_forall_mem_list fun a ha b hb => ?_
    have ka := of_decide_eq_true (List.mem_filter.mp ha).2
    have kb := of_decide_eq_true (List.mem_filter.mp hb).2
    rw [notAfter_iff, ka, kb]
  have inside := (List.sublist_mergeSort (notAfter_trans key) (notAfter_total key) same
    List.filter_sublist).filter fun a => decide (key a = k)
  rw [List.filter_filter] at inside
  simp only [Bool.and_self] at inside
  refine (inside.eq_of_length ?_).symm
  exact ((List.mergeSort_perm xs (notAfter key)).filter _).length_eq.symm

/-- Sorted lists of different keys are the same when they have the same elements. -/
theorem filter_mergeSort_eq {xs ys : List α} {keep : α → Bool} (once : (xs.map key).Nodup)
    (once' : (ys.map key).Nodup) (same : ∀ a, keep a → (a ∈ xs ↔ a ∈ ys)) :
    (xs.mergeSort (notAfter key)).filter keep = (ys.mergeSort (notAfter key)).filter keep := by
  have sorted : ∀ zs : List α, ((zs.mergeSort (notAfter key)).filter keep).Pairwise
      fun a b => notAfter key a b = true := fun zs =>
    (List.pairwise_mergeSort (notAfter_trans key) (notAfter_total key) zs).sublist
      List.filter_sublist
  have nodup : ∀ {zs : List α}, (zs.map key).Nodup →
      ((zs.mergeSort (notAfter key)).filter keep).Nodup := fun {zs} h =>
    (((List.mergeSort_perm zs _).nodup_iff).mpr h.of_map).filter _
  have mem : ∀ a, a ∈ (xs.mergeSort (notAfter key)).filter keep ↔
      a ∈ (ys.mergeSort (notAfter key)).filter keep := by
    intro a
    simp only [List.mem_filter, List.mem_mergeSort]
    constructor
    · rintro ⟨inside, kept⟩
      exact ⟨(same a kept).mp inside, kept⟩
    · rintro ⟨inside, kept⟩
      exact ⟨(same a kept).mpr inside, kept⟩
  refine List.Perm.eq_of_pairwise ?_ (sorted xs) (sorted ys)
    ((List.perm_ext_iff_of_nodup (nodup once) (nodup once')).mpr mem)
  intro a b ha hb first second
  have equal := le_antisymm ((notAfter_iff key).mp first) ((notAfter_iff key).mp second)
  have hb' := (List.mem_mergeSort.mp (List.mem_filter.mp ((mem b).mpr hb)).1)
  have ha' := (List.mem_mergeSort.mp (List.mem_filter.mp ha).1)
  exact List.inj_on_of_nodup_map once ha' hb' equal

end

/-! ### The files of a directory -/

/-- The path of the record that a file makes, from the names that lead to it. -/
def recordPath (names : List String) : String := (FilePath.ofText (Path.ofSegments names)).pathname

/-- The record of a file that holds text. -/
def recordOf? : List String × FileContent → Option Record
  | (names, .text s) => some (.ofText (Path.ofSegments names) s)
  | (_, .bytes _) => none

theorem toOption_readRecord (dir : String) (f : List String × FileContent) :
    (readRecord dir f).toOption = recordOf? f := by
  obtain ⟨names, c⟩ := f
  cases c with
  | text s => rfl
  | bytes bs => rfl

theorem filter_filterMap_recordOf? (fs : List (List String × FileContent)) (path : String) :
    (fs.filterMap recordOf?).filter (·.path.pathname = path) =
      (fs.filter fun f => recordPath f.1 == path).filterMap recordOf? := by
  induction fs with
  | nil => rfl
  | cons f fs ih =>
    obtain ⟨names, c⟩ := f
    by_cases own : recordPath names = path
    · cases c with
      | text s =>
        have made : recordOf? (names, .text s) = some (.ofText (Path.ofSegments names) s) := rfl
        have here : (Record.ofText (Path.ofSegments names) s).path.pathname = path := own
        simp [own, made, here, ih]
      | bytes bs =>
        have made : recordOf? (names, .bytes bs) = none := rfl
        simp [own, made, ih]
    · cases c with
      | text s =>
        have made : recordOf? (names, .text s) = some (.ofText (Path.ofSegments names) s) := rfl
        have here : (Record.ofText (Path.ofSegments names) s).path.pathname ≠ path := own
        simp [own, made, here, ih]
      | bytes bs =>
        have made : recordOf? (names, .bytes bs) = none := rfl
        simp [own, made, ih]

theorem lookup_eq_some {α β : Type} [BEq α] [LawfulBEq α] {table : List (α × β)}
    (once : (table.map Prod.fst).Nodup) {k : α} {v : β} :
    table.lookup k = some v ↔ (k, v) ∈ table := by
  induction table with
  | nil => simp
  | cons f table ih =>
    obtain ⟨k', v'⟩ := f
    obtain ⟨fresh, once⟩ := List.nodup_cons.mp once
    rw [List.lookup_cons, List.mem_cons, Prod.mk.injEq]
    cases here : k == k' with
    | true =>
      have same := eq_of_beq here
      subst same
      have absent : (k, v) ∉ table := fun mem => fresh (List.mem_map.mpr ⟨_, mem, rfl⟩)
      simp [absent, eq_comm]
    | false =>
      have other : k ≠ k' := fun same => by simp [same] at here
      simp [other, ih once]

namespace FileTree
variable {t t' : FileTree}

/-- The files that make records of one path, in the order in which they are read. -/
def sources (t : FileTree) (place : List String) (extensions exclude : List String)
    (path : String) : List (List String × FileContent) :=
  ((t.below place).mergeSort (notAfter Prod.fst)).filter fun f =>
    isListed extensions exclude f.1 && recordPath f.1 == path

theorem content?_eq_some (once : (t.files.map Prod.fst).Nodup) {place : List String}
    {c : FileContent} : t.content? place = some c ↔ (place, c) ∈ t.files :=
  lookup_eq_some once

theorem mem_below {place names : List String} {c : FileContent} :
    (names, c) ∈ t.below place ↔ (place ++ names, c) ∈ t.files := by
  rw [below, List.mem_filterMap]
  constructor
  · rintro ⟨⟨q, d⟩, mem, is⟩
    dsimp only at is
    split at is
    · next leads =>
      obtain ⟨rest, rfl⟩ := List.isPrefixOf_iff_prefix.mp leads
      cases is
      rwa [List.drop_left]
    · cases is
  · intro mem
    refine ⟨_, mem, ?_⟩
    dsimp only
    rw [if_pos (List.isPrefixOf_iff_prefix.mpr (List.prefix_append _ _)), List.drop_left]

theorem map_below (place : List String) : (t.below place).map (fun f => place ++ f.1) =
    (t.files.map Prod.fst).filter (place.isPrefixOf ·) := by
  rw [below]
  induction t.files with
  | nil => rfl
  | cons f files ih =>
    obtain ⟨q, c⟩ := f
    by_cases leads : place.isPrefixOf q
    · obtain ⟨rest, same⟩ := List.isPrefixOf_iff_prefix.mp leads
      have behind : place ++ q.drop place.length = q := by rw [← same, List.drop_left]
      simp only [List.filterMap_cons, List.map_cons, List.filter_cons, leads, if_true, behind, ih]
    · simp only [List.filterMap_cons, List.map_cons, List.filter_cons, leads, Bool.false_eq_true,
        if_false, ih]

theorem nodup_below (once : (t.files.map Prod.fst).Nodup) (place : List String) :
    ((t.below place).map Prod.fst).Nodup := by
  have apart : ((t.below place).map fun f => place ++ f.1).Nodup := by
    rw [map_below]
    exact once.filter _
  have steps : (t.below place).map (fun f => place ++ f.1) =
      ((t.below place).map Prod.fst).map (place ++ ·) := by
    rw [List.map_map]
    rfl
  rw [steps] at apart
  exact apart.of_map

theorem mem_sources (once : (t.files.map Prod.fst).Nodup) {place extensions exclude : List String}
    {path : String} {names : List String} {c : FileContent} :
    (names, c) ∈ t.sources place extensions exclude path ↔
      t.content? (place ++ names) = some c ∧ isListed extensions exclude names ∧
        recordPath names = path := by
  rw [sources, List.mem_filter, List.mem_mergeSort, mem_below, content?_eq_some once,
    Bool.and_eq_true, beq_iff_eq]

/-- The files of a path are the same where no file of the path has changed. -/
theorem sources_eq (once : (t.files.map Prod.fst).Nodup) (once' : (t'.files.map Prod.fst).Nodup)
    {place extensions exclude : List String} {path : String}
    (same : ∀ names, isListed extensions exclude names → recordPath names = path →
      t'.content? (place ++ names) = t.content? (place ++ names)) :
    t'.sources place extensions exclude path = t.sources place extensions exclude path := by
  refine filter_mergeSort_eq Prod.fst (nodup_below once' _) (nodup_below once _) ?_
  rintro ⟨names, c⟩ keep
  simp only [Bool.and_eq_true, beq_iff_eq] at keep
  rw [mem_below, mem_below, ← content?_eq_some once', ← content?_eq_some once,
    same names keep.1 keep.2]

/-- What enumerating a directory gives. -/
theorem enumerate_ok {dir : String} {extensions exclude : List String} {rs : List Record}
    (done : t.enumerate dir extensions exclude = .ok rs) :
    t.way dir = .at (t.placeOf dir) ∧ t.hasDirectory (t.placeOf dir) ∧ ∀ path,
      rs.filter (·.path.pathname = path) =
        (t.sources (t.placeOf dir) extensions exclude path).filterMap recordOf? ∧
      ∀ f ∈ t.sources (t.placeOf dir) extensions exclude path, (recordOf? f).isSome := by
  rw [enumerate] at done
  split at done
  · next directory =>
    rw [isDirectory] at directory
    split at directory
    · next place leads =>
      have here := way_at leads
      subst here
      refine ⟨leads, directory, ?_⟩
      have sorted : t.filesBelow dir =
          (t.below (t.placeOf dir)).mergeSort (notAfter Prod.fst) := by
        rw [filesBelow, leads, ← notAfter_eq Prod.fst]
      obtain ⟨read, found, done⟩ := ok_of_bind done
      rw [sorted] at found
      cases done
      obtain ⟨same, all⟩ := ok_of_mapM found
      intro path
      have kept : t.sources (t.placeOf dir) extensions exclude path =
          (((t.below (t.placeOf dir)).mergeSort (notAfter Prod.fst)).filter
            fun f => isListed extensions exclude f.1).filter fun f => recordPath f.1 == path := by
        rw [sources, List.filter_filter]
        simp only [Bool.and_comm]
      constructor
      · have byPath : (fun a b : Record => !decide (b.path.pathname < a.path.pathname)) =
            notAfter (·.path.pathname) := notAfter_eq _
        rw [byPath, filter_mergeSort, same, kept, ← filter_filterMap_recordOf?]
        simp only [toOption_readRecord]
      · intro f mem
        rw [kept] at mem
        obtain ⟨r, made⟩ := all f (List.mem_filter.mp mem).1
        rw [← toOption_readRecord dir, made]
        rfl
    · cases directory
  · cases done

/-- The records of a directory are those of the files that are read. -/
theorem mem_of_enumerate (once : (t.files.map Prod.fst).Nodup) {dir : String}
    {extensions exclude : List String} {rs : List Record}
    (done : t.enumerate dir extensions exclude = .ok rs) {r : Record} : r ∈ rs ↔ ∃ names s,
      isListed extensions exclude names ∧
      t.content? (t.placeOf dir ++ names) = some (.text s) ∧
      r = .ofText (Path.ofSegments names) s := by
  obtain ⟨-, -, records⟩ := enumerate_ok done
  have byPath : r ∈ rs ↔ r ∈ rs.filter (·.path.pathname = r.path.pathname) := by
    simp
  rw [byPath, (records _).1, List.mem_filterMap]
  constructor
  · rintro ⟨⟨names, c⟩, source, made⟩
    obtain ⟨content, read, -⟩ := (mem_sources once).mp source
    cases c with
    | text s =>
      cases made
      exact ⟨names, s, read, content, rfl⟩
    | bytes bs => cases made
  · rintro ⟨names, s, read, content, rfl⟩
    exact ⟨(names, .text s), (mem_sources once).mpr ⟨content, read, rfl⟩, rfl⟩

/-- A directory with a file that is read and holds no text is not enumerated. -/
theorem text_of_enumerate (once : (t.files.map Prod.fst).Nodup) {dir : String}
    {extensions exclude names : List String} {rs : List Record}
    (done : t.enumerate dir extensions exclude = .ok rs)
    (read : isListed extensions exclude names) {c : FileContent}
    (content : t.content? (t.placeOf dir ++ names) = some c) : ∃ s, c = .text s := by
  obtain ⟨-, -, records⟩ := enumerate_ok done
  have text := (records (recordPath names)).2 (names, c)
    ((mem_sources once).mpr ⟨content, read, rfl⟩)
  cases c with
  | text s => exact ⟨s, rfl⟩
  | bytes bs => cases text

theorem exists_enumerate (once : (t.files.map Prod.fst).Nodup) {dir : String}
    {extensions exclude : List String} (there : t.isDirectory dir)
    (texts : ∀ names c, isListed extensions exclude names →
      t.content? (t.placeOf dir ++ names) = some c → ∃ s, c = .text s) :
    ∃ rs, t.enumerate dir extensions exclude = .ok rs := by
  rw [enumerate, if_pos there]
  have read : ∀ f ∈ (t.filesBelow dir).filter (isListed extensions exclude ·.1),
      ∃ r, readRecord dir f = .ok r := by
    rintro ⟨names, c⟩ mem
    obtain ⟨below, listed⟩ := List.mem_filter.mp mem
    rw [filesBelow] at below
    split at below
    · next place leads =>
      rw [List.mem_mergeSort, mem_below, way_at leads, ← content?_eq_some once] at below
      obtain ⟨s, rfl⟩ := texts names c listed below
      exact ⟨_, rfl⟩
    · cases below
  obtain ⟨records, found⟩ := exists_mapM read
  dsimp only
  rw [found]
  exact ⟨_, rfl⟩

/-- A directory whose files stand in order is enumerated as it stands. -/
theorem enumerate_of_ordered {dir : String} {place extensions exclude : List String}
    {rs : List Record} (leads : t.way dir = .at place) (there : t.hasDirectory place)
    (ordered : (t.below place).Pairwise fun a b => (!decide (b.1 < a.1)) = true)
    (read : (((t.below place).filter fun f => isListed extensions exclude f.1).mapM
      (readRecord dir)).toOption = some rs)
    (increasing : rs.Pairwise fun a b => (!decide (b.path.pathname < a.path.pathname)) = true) :
    t.enumerate dir extensions exclude = .ok rs := by
  have directory : t.isDirectory dir := by
    rw [isDirectory, leads]
    exact there
  rw [enumerate, if_pos directory, filesBelow, leads]
  dsimp only
  rw [List.mergeSort_of_pairwise ordered, ok_of_toOption read]
  exact congrArg Except.ok (List.mergeSort_of_pairwise increasing)

end FileTree
end Stencil

namespace Stencil

/-! ### Files that are read -/

section
variable {extensions exclude names : List String}

theorem proper_of_listed (listed : isListed extensions exclude names) : names ≠ [] := by
  rintro rfl
  rw [isListed] at listed
  have bare : Path.extension? (Path.ofSegments []) = none := by
    rw [Path.extension?, Path.fileName?, Path.splitLast?, Path.segments,
      show (Path.ofSegments []).toList = [] from rfl, Text.splitOn_of_not_mem List.not_mem_nil]
    rfl
  simp [Path.hasExtension, bare] at listed

/-- The names that lead to a file that is read are not hidden, so its record keeps its path. -/
theorem recordPath_of_listed (plain : ∀ n ∈ names, Path.IsName n)
    (listed : isListed extensions exclude names) :
    recordPath names = FilePath.slashed (Path.ofSegments names) := by
  refine FilePath.pathname_ofText fun dot => ?_
  cases names with
  | nil => exact proper_of_listed listed rfl
  | cons n names =>
    rw [Path.head_ofSegments (plain n List.mem_cons_self)] at dot
    simp [isListed, isSkipped, dot] at listed

theorem ofComponents_names (names : List String) :
    Path.ofComponents (names.map .normal) = Path.ofSegments names := by
  rw [Path.ofComponents, List.map_map]
  exact congrArg Path.ofSegments (List.map_id'' (fun _ => rfl) names)

theorem isExcluded_ofSegments (plain : ∀ n ∈ names, Path.IsName n) (exclude : List String) :
    Path.isExcluded (Path.ofSegments names) exclude = names.any (isSkipped exclude) := by
  cases names with
  | nil =>
    have bare : Path.components (Path.ofSegments []) = [] := by
      rw [Path.components, Path.segments, show (Path.ofSegments []).toList = [] from rfl,
        Text.splitOn_of_not_mem List.not_mem_nil]
      rfl
    rw [Path.isExcluded, bare]
    rfl
  | cons n names =>
    rw [Path.isExcluded, Path.components_ofSegments (List.cons_ne_nil _ _) plain, Path.crosses,
      List.any_map]
    rfl

end

namespace FileTree
variable {t t' : FileTree} {place extensions exclude names : List String}

theorem nodup_sources (once : (t.files.map Prod.fst).Nodup) (path : String) :
    (t.sources place extensions exclude path).Nodup :=
  ((List.mergeSort_perm _ _).nodup_iff.mpr (nodup_below once place).of_map).filter _

/-- No other file makes a record of the path of this one. -/
def OwnPath (t : FileTree) (place extensions exclude names : List String) : Prop :=
  ∀ others, isListed extensions exclude others → (t.content? (place ++ others)).isSome →
    recordPath others = recordPath names → others = names

theorem sources_own (once : (t.files.map Prod.fst).Nodup)
    (own : t.OwnPath place extensions exclude names) (listed : isListed extensions exclude names)
    {c : FileContent} (content : t.content? (place ++ names) = some c) :
    t.sources place extensions exclude (recordPath names) = [(names, c)] := by
  refine List.perm_singleton.mp ((List.perm_ext_iff_of_nodup (nodup_sources once _)
    (List.nodup_singleton _)).mpr ?_)
  rintro ⟨others, d⟩
  rw [mem_sources once, List.mem_singleton]
  constructor
  · rintro ⟨there, read, same⟩
    have alone := own others read (by rw [there]; rfl) same
    rw [alone, content] at there
    rw [alone, Option.some.inj there]
  · intro same
    cases same
    exact ⟨content, listed, rfl⟩

theorem sources_gone (once : (t.files.map Prod.fst).Nodup)
    (own : t.OwnPath place extensions exclude names) (gone : t.content? (place ++ names) = none) :
    t.sources place extensions exclude (recordPath names) = [] := by
  refine List.eq_nil_iff_forall_not_mem.mpr ?_
  rintro ⟨others, d⟩ mem
  obtain ⟨there, read, same⟩ := (mem_sources once).mp mem
  rw [own others read (by rw [there]; rfl) same, gone] at there
  cases there

/-- Only files of some places have changed, and no directory is gone. -/
structure Edited (t t' : FileTree) (places : List (List String)) : Prop where
  current : t'.current = t.current
  absolute : Path.isAbsolute t.current
  once : (t.files.map Prod.fst).Nodup
  once' : (t'.files.map Prod.fst).Nodup
  directories : ∀ d, t.hasDirectory d → t'.hasDirectory d
  files : ∀ place, place ∉ places → t'.content? place = t.content? place

theorem Edited.absolute' {places : List (List String)} (h : Edited t t' places) :
    Path.isAbsolute t'.current := by
  rw [h.current]
  exact h.absolute

theorem Edited.placeOf_eq {places : List (List String)} (h : Edited t t' places) (p : String) :
    t'.placeOf p = t.placeOf p := by
  rw [placeOf, placeOf, FileTree.absolute, FileTree.absolute, h.current]

theorem Edited.cleanPath_eq {places : List (List String)} (h : Edited t t' places) (p : String) :
    t'.cleanPath p = t.cleanPath p := by
  rw [cleanPath, cleanPath, FileTree.absolute, FileTree.absolute, h.current]

theorem Edited.isDirectory {places : List (List String)} (h : Edited t t' places) {dir : String}
    (there : t.isDirectory dir) : t'.isDirectory dir := by
  rw [FileTree.isDirectory] at there ⊢
  split at there
  · next place leads =>
    rw [way_mono h.directories h.current leads]
    exact h.directories _ there
  · cases there

end FileTree
end Stencil
