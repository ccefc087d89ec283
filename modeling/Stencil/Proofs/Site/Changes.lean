import Stencil.Proofs.Files.Listing
import Stencil.Proofs.Site.Loading
/-!
Files of a site that have changed, and what each of them asks of the collection of its kind. Between
the site that was loaded before the changes and the one that a new loading would give, these edits
are all that is pending.
-/
namespace Stencil.Site
open Markup

section
variable {α : Type} {schema : Schema α Markup.Error} {idOf : Item α → Option String}
  {t t' : FileTree} {dir p : String} {extensions exclude names : List String}
  {places : List (List String)} {c fresh : Collection α}

/-- A file that nothing reads has no document, unless it shares its path with one that is read. -/
theorem listed_of_held (once : (t.files.map Prod.fst).Nodup)
    (own : t.OwnPath (t.placeOf dir) extensions exclude names)
    (loads : Loads schema idOf t dir extensions exclude c) {a : String}
    (held : c.Held (recordPath names) a) : isListed extensions exclude names := by
  obtain ⟨-, r, last, -⟩ := (loads.held_iff _ a).mp held
  obtain ⟨⟨others, d⟩, mem, -⟩ := List.mem_filterMap.mp (List.mem_of_getLast? last)
  obtain ⟨there, read, same⟩ := (FileTree.mem_sources once).mp mem
  rw [← own others read (by rw [there]; rfl) same]
  exact read

/-- A file below a directory that is read, and has changed. -/
structure Touched (t t' : FileTree) (dir : String) (extensions exclude : List String) (p : String)
    (names : List String) : Prop where
  below : Path.below? dir (t'.cleanPath p) = some (names.map .normal)
  changed : t.isFile p ∨ t'.isFile p
  listed : isListed extensions exclude names
  own : t.OwnPath (t.placeOf dir) extensions exclude names
  own' : t'.OwnPath (t.placeOf dir) extensions exclude names

/-- What a file asks of the collection of its kind. -/
def editOf (t : FileTree) (p : String) (names : List String) : Collection.Edit :=
  match t.readText? p with
  | some content => .store (.ofText (recordPath names) content)
  | none => .drop (recordPath names)

namespace Touched
variable (h : Touched t t' dir extensions exclude p names)
include h

theorem way' (edited : t.Edited t' places) : t'.way p = .at (t'.placeOf p) := by
  rcases h.changed with file | file
  · have leads := FileTree.way_mono edited.directories edited.current
      (FileTree.isFile_iff.mp file).1
    rw [leads, edited.placeOf_eq]
  · exact (FileTree.isFile_iff.mp file).1

theorem placeOf_eq (edited : t.Edited t' places) : t'.placeOf p = t.placeOf dir ++ names := by
  have nonempty := (FileTree.way_eq_at.mp (h.way' edited)).1
  rw [FileTree.placeOf_below edited.absolute' nonempty h.below, edited.placeOf_eq]

theorem plain (edited : t.Edited t' places) : ∀ n ∈ names, Path.IsName n :=
  FileTree.isName_of_below edited.absolute' (FileTree.way_eq_at.mp (h.way' edited)).1 h.below

theorem isDirectory' (edited : t.Edited t' places) : t'.isDirectory dir := by
  obtain ⟨leads, there⟩ := FileTree.way_root edited.absolute' (proper_of_listed h.listed) h.below
    (h.way' edited)
  rw [FileTree.isDirectory, leads]
  exact there

theorem isDirectory (edited : t.Edited t' places) (file : t.isFile p) : t.isDirectory dir := by
  have below := h.below
  rw [edited.cleanPath_eq] at below
  obtain ⟨leads, there⟩ := FileTree.way_root edited.absolute (proper_of_listed h.listed) below
    (FileTree.isFile_iff.mp file).1
  rw [FileTree.isDirectory, leads]
  exact there

theorem recordPath_eq (edited : t.Edited t' places) :
    (FilePath.ofText (recordPath names)).pathname = recordPath names := by
  have slashed := recordPath_of_listed (h.plain edited) h.listed
  rw [slashed, FilePath.ofText_slashed, ← slashed]
  rfl

theorem path_editOf (edited : t.Edited t' places) :
    (editOf t' p names).path = recordPath names := by
  rw [editOf]
  split
  · exact h.recordPath_eq edited
  · rfl

/-- Its text can be read when a new loading can read it. -/
theorem readText? (edited : t.Edited t' places)
    (loads' : Loads schema idOf t' dir extensions exclude fresh) (file : t'.isFile p) :
    ∃ content, t'.readText? p = some content := by
  obtain ⟨leads, there⟩ := FileTree.isFile_iff.mp file
  obtain ⟨d, content⟩ := Option.isSome_iff_exists.mp there
  rw [h.placeOf_eq edited] at content
  have own := h.own'
  rw [← edited.placeOf_eq] at own content
  have text := loads'.texts (h.isDirectory' edited) (recordPath names) (names, d)
    (by rw [FileTree.sources_own edited.once' own h.listed content]
        exact List.mem_singleton_self _)
  cases d with
  | bytes bs => cases text
  | text s =>
    refine ⟨s, FileTree.readText?_eq_some.mpr ⟨leads, ?_⟩⟩
    rw [h.placeOf_eq edited, ← edited.placeOf_eq]
    exact content

/-- The site holds the document of a file that it has loaded. -/
theorem isSome_at? (edited : t.Edited t' places)
    (loads : Loads schema idOf t dir extensions exclude c) (file : t.isFile p) :
    (c.at? (recordPath names)).isSome := by
  obtain ⟨d, content⟩ := Option.isSome_iff_exists.mp (FileTree.isFile_iff.mp file).2
  rw [← edited.placeOf_eq, h.placeOf_eq edited] at content
  have sources := FileTree.sources_own edited.once h.own h.listed content
  have there := h.isDirectory edited file
  have text := loads.texts there (recordPath names) (names, d)
    (by rw [sources]; exact List.mem_singleton_self _)
  obtain ⟨r, record⟩ := Option.isSome_iff_exists.mp text
  have records : ([(names, d)] : List (List String × FileContent)).filterMap recordOf? = [r] := by
    rw [List.filterMap_cons_some record]
    rfl
  obtain ⟨result, parsed⟩ := loads.parses there (recordPath names) r
    (by rw [sources, records]; exact List.mem_singleton_self _)
  have held : c.Held (recordPath names) r.path.pathname := by
    refine (loads.held_iff _ _).mpr ⟨there, r, by rw [sources, records]; rfl, ?_⟩
    rw [Collection.Edit.aliases, parsed]
    exact Collection.path_mem_aliasesOf _ _
  obtain ⟨e, found, -⟩ := held
  rw [found]
  rfl

/-- A file that stands becomes the document that a new loading has of it. -/
theorem fits_of_text (edited : t.Edited t' places)
    (loads' : Loads schema idOf t' dir extensions exclude fresh) {content : String}
    (read : t'.readText? p = some content) :
    Collection.Fits schema idOf c fresh (editOf t' p names) := by
  have own := h.own'
  rw [← edited.placeOf_eq] at own
  have there := h.isDirectory' edited
  have made : editOf t' p names = .store (.ofText (Path.ofSegments names) content) := by
    rw [editOf, read, recordPath_of_listed (h.plain edited) h.listed]
    dsimp only
    rw [Record.ofText, FilePath.ofText_slashed]
    rfl
  have stands := (FileTree.readText?_eq_some.mp read).2
  rw [h.placeOf_eq edited, ← edited.placeOf_eq] at stands
  have sources := FileTree.sources_own edited.once' own h.listed stands
  rw [made]
  refine ⟨fun r same => ?_, nofun, fun a => ?_⟩
  · obtain rfl := Collection.Edit.store.inj same
    refine loads'.parses there (recordPath names) _ ?_
    rw [sources]
    exact List.mem_singleton_self _
  · show _ ↔ fresh.Held (recordPath names) a
    rw [loads'.held_iff, sources]
    constructor
    · intro mem
      exact ⟨there, _, rfl, mem⟩
    · rintro ⟨-, r, same, mem⟩
      obtain rfl := Option.some.inj same
      exact mem

/-- A file that is gone leaves no document, and the site still has one of it. -/
theorem fits_of_missing (edited : t.Edited t' places)
    (loads : Loads schema idOf t dir extensions exclude c)
    (loads' : Loads schema idOf t' dir extensions exclude fresh)
    (missing : t'.readText? p = none) :
    Collection.Fits schema idOf c fresh (editOf t' p names) := by
  have own := h.own'
  rw [← edited.placeOf_eq] at own
  have made : editOf t' p names = .drop (recordPath names) := by rw [editOf, missing]
  have notFile : ¬ t'.isFile p := by
    intro file
    obtain ⟨content, found⟩ := h.readText? edited loads' file
    rw [missing] at found
    cases found
  have gone : t'.content? (t'.placeOf dir ++ names) = none := by
    rw [edited.placeOf_eq, ← h.placeOf_eq edited]
    by_contra some
    exact notFile (FileTree.isFile_iff.mpr
      ⟨h.way' edited, Option.isSome_iff_ne_none.mpr some⟩)
  rw [made]
  refine ⟨nofun, fun path same => ?_, fun a => ?_⟩
  · obtain rfl := Collection.Edit.drop.inj same
    exact h.isSome_at? edited loads (h.changed.resolve_right notFile)
  · show a ∈ [] ↔ fresh.Held (recordPath names) a
    rw [loads'.held_iff, FileTree.sources_gone edited.once' own gone]
    constructor
    · intro mem
      cases mem
    · rintro ⟨-, r, last, -⟩
      cases last

theorem fits_editOf (edited : t.Edited t' places)
    (loads : Loads schema idOf t dir extensions exclude c)
    (loads' : Loads schema idOf t' dir extensions exclude fresh) :
    Collection.Fits schema idOf c fresh (editOf t' p names) := by
  cases read : t'.readText? p with
  | some content => exact h.fits_of_text edited loads' read
  | none => exact h.fits_of_missing edited loads loads' read

end Touched

/-- The files of a directory that have changed are pending, and nothing else is. -/
theorem pending_edits {files : List (String × List String)} (edited : t.Edited t' places)
    (loads : Loads schema idOf t dir extensions exclude c)
    (loads' : Loads schema idOf t' dir extensions exclude fresh)
    (touched : ∀ f ∈ files, Touched t t' dir extensions exclude f.1 f.2)
    (differ : files.Pairwise (·.2 ≠ ·.2))
    (all : ∀ names, isListed extensions exclude names → t.placeOf dir ++ names ∈ places →
      ∃ f ∈ files, f.2 = names) :
    Collection.Pending schema idOf c fresh (files.map fun f => editOf t' f.1 f.2) where
  sound := loads.sound
  freshSound := loads'.sound
  fits e mem := by
    obtain ⟨f, inside, rfl⟩ := List.mem_map.mp mem
    exact (touched f inside).fits_editOf edited loads loads'
  apart := by
    refine List.pairwise_map.mpr (differ.imp_of_mem fun {f g} inF inG other same => other ?_)
    have F := touched f inF
    have G := touched g inG
    rw [F.path_editOf edited, G.path_editOf edited] at same
    rcases F.changed with file | file
    · refine G.own f.2 F.listed ?_ same
      rw [← F.placeOf_eq edited, edited.placeOf_eq]
      exact (FileTree.isFile_iff.mp file).2
    · refine G.own' f.2 F.listed ?_ same
      rw [← F.placeOf_eq edited]
      exact (FileTree.isFile_iff.mp file).2
  settled path a other held := by
    obtain ⟨there, r, last, mem⟩ := (loads.held_iff path a).mp held
    refine (loads'.held_iff path a).mpr ⟨edited.isDirectory there, r, ?_, mem⟩
    rw [edited.placeOf_eq, FileTree.sources_eq edited.once edited.once', last]
    intro names listed same
    refine edited.files _ fun changed => ?_
    obtain ⟨f, inside, rfl⟩ := all names listed changed
    exact other _ (List.mem_map_of_mem inside) (by rw [(touched f inside).path_editOf edited, same])

end

end Stencil.Site
