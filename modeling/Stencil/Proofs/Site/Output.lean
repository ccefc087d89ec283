import Stencil.Proofs.Collection.Index
import Stencil.Proofs.Expansion.Step
import Stencil.Proofs.Files.Named
import Stencil.Proofs.Files.Written
import Stencil.Proofs.Site.Loading
/-!
The files that a build leaves. Each page is written to the place that its path leads to without its
extension, so pages that differ in no more than that share a file: one of them overwrites the other,
and discarding either of them removes the file of both.
-/
namespace Stencil.Site
open Markup

/-! ### Loaded pages -/

/-- Loaded pages come from records. -/
theorem pages_loadAll_ok {s : Site} {rs : List Record} {c c' : Collection Page} (h : Pages c)
    (done : loadAll s.pageSchema c rs = (.ok (), c')) :
    Pages c' ∧ ∀ path, (c'.at? path).isSome →
      (c.at? path).isSome ∨ ∃ r ∈ rs, r.path.pathname = path := by
  induction rs generalizing c with
  | nil =>
    cases done
    exact ⟨h, fun path here => .inl here⟩
  | cons r rs ih =>
    rw [loadAll] at done
    split at done
    · cases done
    · next out c₁ stored =>
      obtain ⟨pages, from_⟩ := ih (h.of_set stored) done
      refine ⟨pages, fun path here => ?_⟩
      rcases from_ path here with before | ⟨r', mem, same⟩
      · rcases Collection.set_ok h.sound s.pageSchema_keys stored with ⟨-, rfl⟩ |
          ⟨-, result, -, -, stores⟩
        · exact .inl before
        · rw [stores.at?_eq] at before
          split at before
          · next own => exact .inr ⟨r, List.mem_cons_self, own.symm⟩
          · exact .inl before
      · exact .inr ⟨r', List.mem_cons_of_mem _ mem, same⟩

theorem Pages.ids_eq {c : Collection Page} (h : Pages c) :
    c.ids = c.items.map (·.path.pathname) := by
  rw [Collection.ids, Collection.items, List.map_filterMap]
  refine List.filterMap_congr fun key _ => ?_
  rw [Collection.aliases, Collection.item?, Option.map_map]
  cases stands : c.entryOf? key with
  | none => rfl
  | some e =>
    have found := (Collection.at?_eq_some h.sound.toKeyed).mpr ⟨key, stands, rfl⟩
    simp [h.aliases found]

theorem Pages.mem_ids {c : Collection Page} (h : Pages c) {path : String} :
    path ∈ c.ids ↔ (c.at? path).isSome := by
  rw [h.ids_eq, List.mem_map, Option.isSome_iff_exists]
  constructor
  · rintro ⟨item, mem, rfl⟩
    obtain ⟨e, found, -⟩ := (Collection.mem_items h.sound.toKeyed).mp mem
    exact ⟨e, found⟩
  · rintro ⟨e, found⟩
    have own := Collection.path_of_at? h.sound.toKeyed found
    exact ⟨e.item, (Collection.mem_items h.sound.toKeyed).mpr ⟨e, own ▸ found, rfl⟩, own⟩

theorem Pages.get?_of_mem {c : Collection Page} (h : Pages c) {path : String} (mem : path ∈ c.ids) :
    (c.get? path).isSome := by
  obtain ⟨e, found⟩ := Option.isSome_iff_exists.mp (h.mem_ids.mp mem)
  have own := Collection.path_of_at? h.sound.toKeyed found
  have leads : c.get? path = some e.item := (Collection.get?_eq_some h.sound.toKeyed).mpr
    ⟨e, own ▸ found, by rw [h.aliases found]; exact List.mem_singleton_self _, rfl⟩
  rw [leads]
  rfl

/-- The pages that a site has loaded, whatever its plugins keep out. -/
theorem pages_of_initialise {s₀ s : Site} {t : FileTree} (done : s₀.initialise t = (.ok (), s)) :
    Pages s.pages ∧ ∃ rs, t.enumerate s.pagesRoot pageExtensions s.config.exclude = .ok rs ∧
      ∀ path ∈ s.pages.ids, ∃ r ∈ rs, r.path.pathname = path := by
  rw [initialise] at done
  split at done
  · cases done
  · next s₁ first =>
    split at done
    · cases done
    · next s₂ second =>
      obtain ⟨rs, -, second⟩ := loadRead_ok second
      obtain ⟨rs', listed, third⟩ := loadRead_ok done
      obtain ⟨loaded, after⟩ := loadPages_ok third
      have empty : s₂.pages = {} := by
        rw [(loadTemplates_ok second).2, (loadTemplates_ok first).2]
      rw [empty] at loaded
      obtain ⟨pages, from_⟩ := pages_loadAll_ok pages_empty loaded
      refine ⟨pages, rs', ?_, fun path mem => ?_⟩
      · rw [after]
        exact ok_of_mapError listed
      · rcases from_ path (pages.mem_ids.mp mem) with before | found
        · cases before
        · exact found

/-- A loaded page comes from a file. -/
theorem file_of_page {s₀ s : Site} {t : FileTree} (done : s₀.initialise t = (.ok (), s))
    {path : String} (mem : path ∈ s.pages.ids) : ∃ names c,
      (t.placeOf s.pagesRoot ++ names, c) ∈ t.files ∧
      isListed pageExtensions s.config.exclude names ∧ recordPath names = path := by
  obtain ⟨-, rs, listed, from_⟩ := pages_of_initialise done
  obtain ⟨r, inside, own⟩ := from_ path mem
  obtain ⟨-, -, records⟩ := FileTree.enumerate_ok listed
  have made : r ∈ rs.filter (·.path.pathname = path) :=
    List.mem_filter.mpr ⟨inside, by simpa using own⟩
  rw [(records path).1] at made
  obtain ⟨⟨names, c⟩, source, -⟩ := List.mem_filterMap.mp made
  obtain ⟨below, is⟩ := List.mem_filter.mp source
  simp only [Bool.and_eq_true, beq_iff_eq] at is
  exact ⟨names, c, FileTree.mem_below.mp (List.mem_mergeSort.mp below), is⟩

/-! ### Building -/

section
variable {s : Site} {t t' : FileTree} {pages : List CompiledPage}

/-- Compiling pages that are all there gives one result for each, in their order. -/
theorem compileAll_ok {paths : List String} (there : ∀ path ∈ paths, (s.pages.get? path).isSome)
    (done : (s.compileAll t paths).1 = .ok pages) : pages.map (·.path) = paths ∧
      ∀ page ∈ pages, ∃ item, s.pages.get? page.path = some item ∧
        (s.compilePage t page.path item.result).1 = .ok page.html := by
  induction paths generalizing pages with
  | nil =>
    cases done
    exact ⟨rfl, fun page mem => absurd mem List.not_mem_nil⟩
  | cons path paths ih =>
    obtain ⟨here, there⟩ := List.forall_mem_cons.mp there
    obtain ⟨item, found⟩ := Option.isSome_iff_exists.mp here
    rw [compileAll, found] at done
    dsimp only at done
    split at done
    · cases done
    · next html logs compiled =>
      cases rest : (s.compileAll t paths).1 with
      | error e =>
        rw [rest] at done
        cases done
      | ok others =>
        rw [rest] at done
        cases done
        obtain ⟨same, all⟩ := ih there rest
        refine ⟨by rw [List.map_cons, same], List.forall_mem_cons.mpr ⟨⟨item, found, ?_⟩, all⟩⟩
        rw [compiled]

/-- What a build that succeeds has done. -/
theorem build_ok {r : BuildResult} (done : (s.build t).result = .ok r) :
    s.initialise t = (.ok (), (s.build t).site) ∧ ∃ pages written,
      ((s.build t).site.compile t none).1 = .ok pages ∧
      save (s.build t).site.config.outputDir pages t = (.ok written, (s.build t).files) := by
  rw [build] at done ⊢
  generalize first : s.initialise t = loaded at done ⊢
  obtain ⟨_ | _, s'⟩ := loaded
  · cases done
  · dsimp only at done ⊢
    generalize second : s'.compile t none = compiled at done ⊢
    obtain ⟨_ | pages, logs⟩ := compiled
    · cases done
    · dsimp only at done ⊢
      generalize third : save s'.config.outputDir pages t = saved at done ⊢
      obtain ⟨_ | written, t'⟩ := saved
      · cases done
      · exact ⟨rfl, pages, written, congrArg Prod.fst second, third⟩

/-! ### Saving -/

/-- The path of the file of a page. -/
def outputFile (dir page : String) : String := Path.join dir (outputPath page)

/-- What saving a page has done. -/
theorem savePage_ok {dir target : String} {page : CompiledPage}
    (done : savePage dir page t = (.ok target, t')) :
    t.Grows t' ∧ t'.Stands (outputFile dir page.path) page.html ∧
      ∀ place, place ≠ t.placeOf (outputFile dir page.path) → t.Keeps t' place := by
  rw [savePage] at done
  have keeps := t.keeps_makeDirectories
    ((Path.parent? (Path.join dir (outputPath page.path))).getD "")
  split at done
  · cases done
  · next t₁ made =>
    rw [made] at keeps
    have grows : t.Grows t₁ := (keeps []).toGrows
    split at done
    · cases done
    · next t₂ written =>
      obtain ⟨-, rfl⟩ := Prod.mk.inj done
      refine ⟨grows.trans (FileTree.grows_of_write? written), FileTree.stands_of_write? written,
        fun place other => (keeps place).trans (FileTree.keeps_of_write? written ?_)⟩
      rwa [grows.placeOf_eq]

theorem save_cons_ok {dir : String} {page : CompiledPage} {written : List String}
    (done : save dir (page :: pages) t = (.ok written, t')) : ∃ target t₁ rest,
      savePage dir page t = (.ok target, t₁) ∧ save dir pages t₁ = (.ok rest, t') := by
  rw [save] at done
  split at done
  · cases done
  · next target t₁ first =>
    generalize later : save dir pages t₁ = saved at done
    obtain ⟨_ | rest, t₂⟩ := saved
    · cases done
    · obtain ⟨-, rfl⟩ := Prod.mk.inj done
      exact ⟨target, t₁, rest, first, later⟩

section
variable {dir : String} {written : List String}

theorem save_grows (done : save dir pages t = (.ok written, t')) : t.Grows t' := by
  induction pages generalizing t written with
  | nil =>
    cases done
    exact .refl _
  | cons page pages ih =>
    obtain ⟨target, t₁, rest, first, later⟩ := save_cons_ok done
    exact (savePage_ok first).1.trans (ih later)

/-- Saving pages keeps the files of all places that are not theirs. -/
theorem save_keeps (done : save dir pages t = (.ok written, t')) {place : List String}
    (other : ∀ page ∈ pages, place ≠ t.placeOf (outputFile dir page.path)) :
    t.Keeps t' place := by
  induction pages generalizing t written with
  | nil =>
    cases done
    exact .refl _ _
  | cons page pages ih =>
    obtain ⟨target, t₁, rest, first, later⟩ := save_cons_ok done
    obtain ⟨own, others⟩ := List.forall_mem_cons.mp other
    have keeps := (savePage_ok first).2.2 place own
    refine keeps.trans (ih later fun page' mem => ?_)
    rw [keeps.placeOf_eq]
    exact others page' mem

/-- Each page that has been saved has a file, which holds the last page of its place. -/
theorem save_stands (done : save dir pages t = (.ok written, t')) {page : CompiledPage}
    (mem : page ∈ pages) : ∃ page' ∈ pages,
      t.placeOf (outputFile dir page'.path) = t.placeOf (outputFile dir page.path) ∧
      t'.Stands (outputFile dir page.path) page'.html := by
  induction pages generalizing t written page with
  | nil => cases mem
  | cons first pages ih =>
    obtain ⟨target, t₁, rest, saved, later⟩ := save_cons_ok done
    obtain ⟨grows, stands, -⟩ := savePage_ok saved
    have behind : ∀ q ∈ pages, ∃ page' ∈ first :: pages,
        t.placeOf (outputFile dir page'.path) = t.placeOf (outputFile dir q.path) ∧
        t'.Stands (outputFile dir q.path) page'.html := by
      intro q inside
      obtain ⟨page', mem', same, stands'⟩ := ih later inside
      rw [grows.placeOf_eq, grows.placeOf_eq] at same
      exact ⟨page', List.mem_cons_of_mem _ mem', same, stands'⟩
    rcases List.mem_cons.mp mem with rfl | inside
    · by_cases covered : ∃ q ∈ pages,
          t₁.placeOf (outputFile dir q.path) = t₁.placeOf (outputFile dir page.path)
      · obtain ⟨q, inside, same⟩ := covered
        obtain ⟨page', mem', same', stands'⟩ := behind q inside
        have on := save_grows later
        rw [grows.placeOf_eq, grows.placeOf_eq] at same
        refine ⟨page', mem', same'.trans same, stands'.of_placeOf_eq (on.way stands.way) ?_⟩
        rw [on.placeOf_eq, on.placeOf_eq, grows.placeOf_eq, grows.placeOf_eq, same]
      · have free : ∀ q ∈ pages, t₁.placeOf (outputFile dir page.path) ≠
            t₁.placeOf (outputFile dir q.path) :=
          fun q inside same => covered ⟨q, inside, same.symm⟩
        exact ⟨page, List.mem_cons_self, rfl, stands.kept (save_keeps later free)⟩
    · exact behind page inside

end

/-! ### Discarding -/

/-- Discarding pages keeps the files of all places that are not theirs. -/
theorem discard_keeps {dir : String} {gone : List String} {place : List String}
    (other : ∀ p ∈ gone, place ≠ t.placeOf (outputFile dir p)) :
    t.Keeps (discard dir gone t).2 place := by
  induction gone generalizing t with
  | nil => exact .refl _ _
  | cons p gone ih =>
    obtain ⟨own, others⟩ := List.forall_mem_cons.mp other
    have keeps := FileTree.keeps_remove own
    rw [outputFile] at keeps
    rw [discard]
    split
    · next t₁ removed =>
      rw [removed] at keeps
      refine keeps.trans (ih fun q mem => ?_)
      rw [FileTree.placeOf_congr keeps.current]
      exact others q mem
    · exact ih others
    · exact .refl _ _

theorem discard_singleton {dir p s q : String} (stands : t.Stands (outputFile dir p) s)
    (same : t.placeOf q = t.placeOf (outputFile dir p)) :
    (discard dir [p] t).2.readText? q = none := by
  obtain ⟨t₁, removed, gone⟩ := FileTree.remove_of_stands stands
  rw [outputFile] at removed
  rw [discard, removed]
  exact gone q same

end

/-! ### Files of pages -/

/-- The file of a page holds the HTML of the page. -/
def HoldsOwn (s : Site) (t files : FileTree) (page : String) : Prop :=
  ∃ item html, s.pages.get? page = some item ∧ (s.compilePage t page item.result).1 = .ok html ∧
    files.readText? (outputFile s.config.outputDir page) = some html

/-- Every page has a file of its own, which stays when other pages are discarded. -/
structure OutputsKept (s : Site) (t files : FileTree) : Prop where
  own : ∀ p ∈ s.pages.ids, s.HoldsOwn t files p
  left : ∀ gone, (∀ p ∈ gone, p ∈ s.pages.ids) → ∀ q ∈ s.pages.ids, q ∉ gone →
    (discard s.config.outputDir gone files).2.readText? (outputFile s.config.outputDir q) =
      files.readText? (outputFile s.config.outputDir q)

/-- No two pages have one place below the output directory. -/
def OutputsApart (s : Site) (t : FileTree) : Prop := ∀ p ∈ s.pages.ids, ∀ q ∈ s.pages.ids,
  t.placeOf (outputFile s.config.outputDir p) = t.placeOf (outputFile s.config.outputDir q) → p = q

/-- The paths differ at most in what stands behind their last dots. -/
def SameStem (p q : String) : Prop := ∃ stem ext ext', p = stem ++ "." ++ ext ∧
  q = stem ++ "." ++ ext' ∧ '.' ∉ ext.toList ∧ '.' ∉ ext'.toList

theorem outputsKept_iff {s : Site} {t : FileTree} {r : BuildResult}
    (built : (s.build t).result = .ok r) :
    (s.build t).site.OutputsKept t (s.build t).files ↔ (s.build t).site.OutputsApart t := by
  obtain ⟨loaded, pages, written, compiled, saved⟩ := build_ok built
  obtain ⟨found, -⟩ := pages_of_initialise loaded
  generalize (s.build t).site = site at *
  generalize (s.build t).files = files at *
  have all : (site.compileAll t site.pages.ids).1 = .ok pages := compiled
  obtain ⟨paths, own⟩ := compileAll_ok (fun path => found.get?_of_mem) all
  have grows := save_grows saved
  have page_of : ∀ p ∈ site.pages.ids, ∃ page ∈ pages, page.path = p := fun p mem =>
    List.mem_map.mp (paths ▸ mem)
  constructor
  · intro kept p memP q memQ same
    by_contra other
    obtain ⟨page, mem, rfl⟩ := page_of p memP
    obtain ⟨page', -, -, stands⟩ := save_stands saved mem
    obtain ⟨-, html, -, -, holds⟩ := kept.own q memQ
    have left := kept.left [page.path] (by simpa using memP) q memQ (by simpa using Ne.symm other)
    rw [holds, discard_singleton stands (by rw [grows.placeOf_eq, grows.placeOf_eq, same])] at left
    cases left
  · intro apart
    have stands : ∀ p ∈ site.pages.ids, ∃ page ∈ pages, page.path = p ∧
        files.Stands (outputFile site.config.outputDir p) page.html := by
      intro p memP
      obtain ⟨page, mem, rfl⟩ := page_of p memP
      obtain ⟨page', mem', same, stands⟩ := save_stands saved mem
      exact ⟨page', mem', apart _ (paths ▸ List.mem_map_of_mem mem') _ memP same, stands⟩
    refine ⟨fun p memP => ?_, fun gone inside q memQ other => ?_⟩
    · obtain ⟨page, mem, rfl, stands⟩ := stands p memP
      obtain ⟨item, here, html⟩ := own page mem
      exact ⟨item, page.html, here, html, stands.text⟩
    · obtain ⟨page, -, -, stands⟩ := stands q memQ
      have keeps : files.Keeps (discard site.config.outputDir gone files).2
          (files.placeOf (outputFile site.config.outputDir q)) := by
        refine discard_keeps fun p mem same => other ?_
        rw [grows.placeOf_eq, grows.placeOf_eq] at same
        rwa [apart q memQ p (inside p mem) same]
      rw [stands.text, (stands.kept keeps).text]

/-! ### Paths of files -/

section
variable {extensions exclude names : List String}

/-- What a file with plain names is written to has its path with another extension. -/
theorem outputPath_of_listed (plain : ∀ n ∈ names, PlainName n)
    (listed : isListed extensions exclude names) : ∃ stem ext names',
      recordPath names = stem ++ "." ++ ext ∧ '.' ∉ ext.toList ∧
      outputPath (recordPath names) = stem ++ "." ++ "html" ∧
      outputPath (recordPath names) = Path.ofSegments names' ∧ names' ≠ [] ∧
      ∀ n ∈ names', Path.IsName n := by
  have named : ∀ n ∈ names, Path.IsName n := fun n mem => (plain n mem).toIsName
  rw [recordPath_of_plain plain listed]
  obtain ⟨before, last, rfl⟩ :=
    (List.eq_nil_or_concat' names).resolve_left (proper_of_listed listed)
  have mem : last ∈ before ++ [last] := List.mem_append_right _ (List.mem_singleton_self _)
  simp only [isListed, Bool.and_eq_true, Bool.not_eq_true', List.any_eq_false] at listed
  obtain ⟨shown, extended⟩ := listed
  have visible : last.toList.head? ≠ some '.' := by
    intro dot
    exact shown last mem (by simp [isSkipped, dot])
  obtain ⟨stem, ext, cut⟩ : ∃ stem ext, Path.splitName last = (stem, some ext) := by
    rw [Path.hasExtension, Path.extension?, Path.fileName?_ofSegments named, Option.bind_some,
      if_neg (named last mem).notParent] at extended
    cases cut : Path.splitName last with
    | mk stem ext =>
      cases ext with
      | none =>
        rw [cut] at extended
        cases extended
      | some ext => exact ⟨stem, ext, rfl⟩
  obtain ⟨same, -, bare⟩ := Path.of_splitName cut
  refine ⟨String.join (before.map (· ++ "/")) ++ stem, ext, before ++ [stem ++ "." ++ "html"],
    ?_, bare, ?_, ?_, by simp, fun n inside => ?_⟩
  · rw [Path.ofSegments_concat, same]
    simp only [String.append_assoc]
  · rw [outputPath, Path.withExtension_ofSegments named visible cut, Path.ofSegments_concat]
    simp only [String.append_assoc]
  · rw [outputPath, Path.withExtension_ofSegments named visible cut]
  · rcases List.mem_append.mp inside with old | new
    · exact named n (List.mem_append_left _ old)
    · rw [List.mem_singleton.mp new]
      exact (named last mem).renamed cut (by decide) (by decide)

end

theorem stem_unique {stem stem' ext ext' : String}
    (same : stem ++ "." ++ ext = stem' ++ "." ++ ext') (bare : '.' ∉ ext.toList) (bare' : '.' ∉ ext'.toList) : stem = stem' := by
  have chars : stem.toList ++ '.' :: ext.toList = stem'.toList ++ '.' :: ext'.toList := by
    simpa using congrArg String.toList same
  exact String.toList_injective (Text.eq_of_append_sep bare bare' chars).1

/-- Where the names of files are plain, pages share a place when they differ in their extensions. -/
theorem same_place_iff {s₀ s : Site} {t : FileTree} (done : s₀.initialise t = (.ok (), s))
    (absolute : Path.isAbsolute t.current) (plain : ∀ f ∈ t.files, ∀ n ∈ f.1, PlainName n)
    {p q dir : String} (memP : p ∈ s.pages.ids) (memQ : q ∈ s.pages.ids) :
    t.placeOf (outputFile dir p) = t.placeOf (outputFile dir q) ↔ SameStem p q := by
  have spec : ∀ p ∈ s.pages.ids, ∃ stem ext names, p = stem ++ "." ++ ext ∧ '.' ∉ ext.toList ∧
      outputPath p = stem ++ "." ++ "html" ∧ outputPath p = Path.ofSegments names ∧
      t.placeOf (outputFile dir p) = t.placeOf dir ++ names := by
    intro p mem
    obtain ⟨own, c, inside, listed, rfl⟩ := file_of_page done mem
    have named : ∀ n ∈ own, PlainName n := fun n here =>
      plain _ inside n (List.mem_append_right _ here)
    obtain ⟨stem, ext, names, path, bare, output, segments, proper, names_⟩ :=
      outputPath_of_listed named listed
    refine ⟨stem, ext, names, path, bare, output, segments, ?_⟩
    rw [outputFile, segments, FileTree.placeOf_join_names absolute proper names_]
  obtain ⟨stem, ext, names, pathP, bareP, outputP, segmentsP, placeP⟩ := spec p memP
  obtain ⟨stem', ext', names', pathQ, bareQ, outputQ, segmentsQ, placeQ⟩ := spec q memQ
  constructor
  · intro same
    rw [placeP, placeQ, List.append_cancel_left_eq] at same
    rw [segmentsP, same, ← segmentsQ, outputQ] at outputP
    have one := stem_unique outputP (by decide) (by decide)
    exact ⟨stem, ext, ext', pathP, one ▸ pathQ, bareP, bareQ⟩
  · rintro ⟨common, e, e', pathP', pathQ', bareP', bareQ'⟩
    have here := stem_unique (pathP.symm.trans pathP') bareP bareP'
    have there := stem_unique (pathQ.symm.trans pathQ') bareQ bareQ'
    rw [outputFile, outputFile, outputP, outputQ, here, there]

/-- After a build every page has a file of its own exactly when no two pages have one place, that is
when no two pages with plain names differ in their extensions alone. -/
theorem outputs_kept_iff {s : Site} {t : FileTree} {r : BuildResult}
    (built : (s.build t).result = .ok r) :
    ((s.build t).site.OutputsKept t (s.build t).files ↔ (s.build t).site.OutputsApart t) ∧
    (Path.isAbsolute t.current → (∀ f ∈ t.files, ∀ n ∈ f.1, PlainName n) →
      ((s.build t).site.OutputsApart t ↔ ∀ p ∈ (s.build t).site.pages.ids,
        ∀ q ∈ (s.build t).site.pages.ids, SameStem p q → p = q)) := by
  have loaded := (build_ok built).1
  refine ⟨outputsKept_iff built, fun absolute plain => ?_⟩
  constructor
  · intro apart p memP q memQ alike
    exact apart p memP q memQ ((same_place_iff loaded absolute plain memP memQ).mpr alike)
  · intro apart p memP q memQ same
    exact apart p memP q memQ ((same_place_iff loaded absolute plain memP memQ).mp same)

/-! ### Pages without custom elements -/

section
variable {s : Site} {t : FileTree}

theorem compile_of_no_hosts {library : Library} {sandbox : Sandbox} {path : String} {page : Page}
    (bare : Expansion.hosts (Expansion.ofPage page).arena Arena.root path = [])
    (settings : Expansion.ClientSettings) :
    ((Scene.ofPage library sandbox path page).compile settings page).1 =
      .ok ((Expansion.ofPage page).addBundle settings).html := by
  have still : (Expansion.expandPage (Scene.ofPage library sandbox path page)).run
      (Expansion.ofPage page) = .ok () (Expansion.ofPage page) := by
    rw [Expansion.expandPage, Expansion.run_get_bind, Expansion.expandWithin,
      Expansion.run_get_bind, Scene.ofPage, bare, Expansion.expandHosts]
    rfl
  rw [Scene.compile, still]

/-- The hosts of a loaded page, and its HTML if it has none. -/
def preview (s : Site) (path : String) : Option (List (NodeId × String) × String) :=
  (s.pages.get? path).map fun item =>
    (Expansion.hosts (Expansion.ofPage item.result).arena Arena.root path,
      ((Expansion.ofPage item.result).addBundle s.clientSettings).html)

theorem compileAll_of_preview {pages : List CompiledPage}
    (inert : ∀ page ∈ pages, s.preview page.path = some ([], page.html)) :
    (s.compileAll t (pages.map (·.path))).1 = .ok pages := by
  induction pages with
  | nil => rfl
  | cons page pages ih =>
    obtain ⟨own, others⟩ := List.forall_mem_cons.mp inert
    obtain ⟨item, found, same⟩ := Option.map_eq_some_iff.mp own
    obtain ⟨bare, html⟩ := Prod.mk.inj same
    have compiled : (s.compilePage t page.path item.result).1 = .ok page.html := by
      rw [compilePage, compile_of_no_hosts bare, html]
    rw [List.map_cons, compileAll, found]
    dsimp only
    split
    · next failed =>
      rw [failed] at compiled
      cases compiled
    · next html' logs done =>
      rw [done] at compiled
      rw [ih others, Except.ok.inj compiled]
      rfl

/-- A site that only has pages loads these. -/
theorem initialise_of_records {rs : List Record} (plain : s.registered = [])
    (bare : t.isDirectory s.templatesRoot = false)
    (listed : t.enumerate s.pagesRoot pageExtensions s.config.exclude = .ok rs) :
    s.initialise t = Site.loadPages { s with plugins := [], templates := {}, pages := {} } rs := by
  obtain ⟨config, pagesRoot, templatesRoot, registered, plugins, templates, pages⟩ := s
  obtain rfl : registered = [] := plain
  have nothing : ∀ s : Site, s.loadTemplates [] = (.ok (), s) := fun _ => rfl
  rw [initialise, List.flatMap_nil, nothing]
  dsimp only
  rw [templateRecords, if_neg (by simp [bare]), loadRead, nothing]
  dsimp only
  rw [pageRecords, listed]
  rfl

theorem build_of_preview {pages : List CompiledPage} {s' : Site}
    (loaded : s.initialise t = (.ok (), s')) (ids : s'.pages.ids = pages.map (·.path))
    (inert : ∀ page ∈ pages, s'.preview page.path = some ([], page.html))
    (saved : (save s'.config.outputDir pages t).1.toOption.isSome) :
    (s.build t).site = s' ∧ (s.build t).files = (save s'.config.outputDir pages t).2 ∧
      ∃ r, (s.build t).result = .ok r := by
  have compiled : (s'.compile t none).1 = .ok pages := by
    rw [compile, queue, ids]
    exact compileAll_of_preview inert
  obtain ⟨written, stored⟩ := Option.isSome_iff_exists.mp saved
  rw [build, loaded]
  dsimp only
  split
  · next failed =>
    rw [failed] at compiled
    cases compiled
  · next pages' logs done =>
    rw [done] at compiled
    rw [Except.ok.inj compiled]
    rw [ok_of_toOption stored]
    exact ⟨rfl, rfl, _, rfl⟩

end

/-- Pages of these names, each with its name as its text. -/
def leaflet (names : List String) : FileTree where
  directories := [["pages"]]
  files := names.map fun n => (["pages", n], .text n)

def press : Site where
  config := { outputDir := "/dist" }
  pagesRoot := "/pages"
  templatesRoot := "/templates"

theorem press_builds {names : List String} {rs : List Record} {pages : List CompiledPage}
    (bare : (leaflet names).isDirectory "/templates" = false)
    (listed : (leaflet names).enumerate "/pages" pageExtensions [] = .ok rs)
    (loaded : (press.loadPages rs).1.toOption = some ())
    (ids : (press.loadPages rs).2.pages.ids = pages.map (·.path))
    (inert : ∀ page ∈ pages, (press.loadPages rs).2.preview page.path = some ([], page.html))
    (saved : (save "/dist" pages (leaflet names)).1.toOption.isSome) :
    (press.build (leaflet names)).site = (press.loadPages rs).2 ∧
      (press.build (leaflet names)).files = (save "/dist" pages (leaflet names)).2 ∧
      ∃ r, (press.build (leaflet names)).result = .ok r := by
  have first : press.initialise (leaflet names) = (.ok (), (press.loadPages rs).2) :=
    (initialise_of_records rfl bare listed).trans (Prod.ext (ok_of_toOption loaded) rfl)
  exact build_of_preview first ids inert saved

/-- Pages of different names have files of their own. -/
theorem leaflet_outputs_kept : ∃ r,
    (press.build (leaflet ["a.html", "b.md"])).result = .ok r ∧
    (press.build (leaflet ["a.html", "b.md"])).site.pages.ids = ["a.html", "b.md"] ∧
    (press.build (leaflet ["a.html", "b.md"])).site.OutputsKept (leaflet ["a.html", "b.md"])
      (press.build (leaflet ["a.html", "b.md"])).files := by
  have listed : (leaflet ["a.html", "b.md"]).enumerate "/pages" pageExtensions [] =
      .ok [.ofText "a.html" "a.html", .ofText "b.md" "b.md"] :=
    FileTree.enumerate_of_ordered (by decide +kernel : _ = FileTree.Way.at ["pages"])
      (by decide +kernel) (by decide +kernel) (by decide +kernel) (by decide +kernel)
  have saved : (save "/dist" [⟨"a.html", "a.html"⟩, ⟨"b.md", "<p>b.md</p>\n"⟩]
      (leaflet ["a.html", "b.md"])).1.toOption.isSome := by decide +kernel
  obtain ⟨site, -, r, built⟩ := press_builds (by decide +kernel) listed (by decide +kernel)
    (by decide +kernel) (by decide +kernel) saved
  have ids : (press.build (leaflet ["a.html", "b.md"])).site.pages.ids = ["a.html", "b.md"] := by
    rw [site]
    decide +kernel
  refine ⟨r, built, ids, (outputs_kept_iff built).1.mpr ?_⟩
  rw [OutputsApart, ids, site]
  decide +kernel

/-- Of pages that differ in their extensions the last one takes the file of all, and discarding it
removes the file. -/
theorem twin_outputs_lost : ∃ r,
    (press.build (leaflet ["a.html", "a.md"])).result = .ok r ∧
    (press.build (leaflet ["a.html", "a.md"])).site.pages.ids = ["a.html", "a.md"] ∧
    (press.build (leaflet ["a.html", "a.md"])).files.readText? (outputFile "/dist" "a.html") =
      some "<p>a.md</p>\n" ∧
    (discard "/dist" ["a.md"] (press.build (leaflet ["a.html", "a.md"])).files).2.readText?
      (outputFile "/dist" "a.html") = none ∧
    ¬ (press.build (leaflet ["a.html", "a.md"])).site.OutputsKept (leaflet ["a.html", "a.md"])
      (press.build (leaflet ["a.html", "a.md"])).files := by
  have listed : (leaflet ["a.html", "a.md"]).enumerate "/pages" pageExtensions [] =
      .ok [.ofText "a.html" "a.html", .ofText "a.md" "a.md"] :=
    FileTree.enumerate_of_ordered (by decide +kernel : _ = FileTree.Way.at ["pages"])
      (by decide +kernel) (by decide +kernel) (by decide +kernel) (by decide +kernel)
  have saved : (save "/dist" [⟨"a.html", "a.html"⟩, ⟨"a.md", "<p>a.md</p>\n"⟩]
      (leaflet ["a.html", "a.md"])).1.toOption.isSome := by decide +kernel
  obtain ⟨site, files, r, built⟩ := press_builds (by decide +kernel) listed (by decide +kernel)
    (by decide +kernel) (by decide +kernel) saved
  have ids : (press.build (leaflet ["a.html", "a.md"])).site.pages.ids = ["a.html", "a.md"] := by
    rw [site]
    decide +kernel
  have shared : ¬ (press.build (leaflet ["a.html", "a.md"])).site.OutputsApart
      (leaflet ["a.html", "a.md"]) := by
    rw [OutputsApart, ids, site]
    decide +kernel
  refine ⟨r, built, ids, ?_, ?_, mt (outputsKept_iff built).mp shared⟩
  · rw [files]
    decide +kernel
  · rw [files]
    decide +kernel

end Stencil.Site
