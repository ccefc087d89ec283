import Stencil.Proofs.Site.Changes
/-!
Changes of several files in any order. A change is refused exactly when its document takes a name
that the document of a file still to be handed over has; orders that are not refused lead to the
same documents.
-/
namespace Stencil
open Markup

/-- A file of a site: what it is, and the names that lead to it from the directory of its kind. -/
@[ext]
structure SiteFile where
  kind : Kind
  names : List String
  deriving DecidableEq

namespace Site

def root (s : Site) : Kind → String
  | .template => s.templatesRoot
  | .page => s.pagesRoot

def extensionsOf : Kind → List String
  | .template => templateExtensions
  | .page => pageExtensions

/-- The file that a path stands for. -/
inductive StandsFor (s : Site) (t : FileTree) (p : String) : SiteFile → Prop where
  | template {names}
      (below : Path.below? s.templatesRoot (t.cleanPath p) = some (names.map .normal)) :
      StandsFor s t p ⟨.template, names⟩
  | page {names} (other : Path.below? s.templatesRoot (t.cleanPath p) = none)
      (below : Path.below? s.pagesRoot (t.cleanPath p) = some (names.map .normal)) :
      StandsFor s t p ⟨.page, names⟩

/-- The site makes a document of the file. -/
def isRead (s : Site) (f : SiteFile) : Bool :=
  isListed (extensionsOf f.kind) s.config.exclude f.names

def OwnPath (s : Site) (t : FileTree) (f : SiteFile) : Prop :=
  t.OwnPath (t.placeOf (s.root f.kind)) (extensionsOf f.kind) s.config.exclude f.names

/-- A file of the site has changed, and no other file makes a document of its path. -/
structure Changed (s : Site) (t t' : FileTree) (p : String) (f : SiteFile) : Prop where
  file : s.StandsFor t' p f
  changed : t.isFile p ∨ t'.isFile p
  own : s.OwnPath t f
  own' : s.OwnPath t' f

/-- Neither of the directories is inside the other. -/
def DirectoriesApart (s : Site) (t : FileTree) : Prop :=
  ¬ t.placeOf s.templatesRoot <+: t.placeOf s.pagesRoot ∧
    ¬ t.placeOf s.pagesRoot <+: t.placeOf s.templatesRoot

/-- The document of a file has an alias. -/
def Holds (s : Site) (f : SiteFile) (a : String) : Prop :=
  match f.kind with
  | .template => s.templates.Held (recordPath f.names) a
  | .page => s.pages.Held (recordPath f.names) a

/-- An alias that a file has in one site belongs to another file in another site. -/
def Takes (s' : Site) (f : SiteFile) (s : Site) (g : SiteFile) : Prop :=
  f.kind = g.kind ∧ ∃ a, s'.Holds f a ∧ s.Holds g a

/-- Files are handed over one after another. -/
def applyAll (t : FileTree) (s : Site) : List String → Except SiteError Site
  | [] => .ok s
  | p :: ps => s.applyChange t p >>= fun done => applyAll t done.2.2 ps

/-- What files ask of the collection of a kind. -/
def edits (s : Site) (t : FileTree) (kind : Kind) (files : List (String × SiteFile)) :
    List Collection.Edit :=
  (files.filter fun f => decide (f.2.kind = kind) && s.isRead f.2).map fun f =>
    editOf t f.1 f.2.names

/-! ### One change -/

section
variable {s s' : Site} {t : FileTree} {p path content : String} {names : List String}

theorem isRead_template : s.isRead ⟨.template, names⟩ ↔
    names.any (isSkipped s.config.exclude) = false ∧
      Path.hasExtension (Path.ofSegments names) templateExtensions := by
  simp [isRead, isListed, extensionsOf]

theorem isRead_page : s.isRead ⟨.page, names⟩ ↔
    names.any (isSkipped s.config.exclude) = false ∧
      Path.hasExtension (Path.ofSegments names) pageExtensions := by
  simp [isRead, isListed, extensionsOf]

theorem templateSource?_of_read (plain : ∀ n ∈ names, Path.IsName n)
    (read : s.isRead ⟨.template, names⟩) :
    s.templateSource? (Path.ofSegments names) = some (.template (recordPath names)) := by
  obtain ⟨included, extension⟩ := isRead_template.mp read
  rw [templateSource?, isExcluded, isExcluded_ofSegments plain, if_neg (by simp [included]),
    if_pos extension, recordPath_of_listed plain read]

theorem templateSource?_of_unread (plain : ∀ n ∈ names, Path.IsName n)
    (unread : ¬ s.isRead ⟨.template, names⟩) :
    s.templateSource? (Path.ofSegments names) = none ∨
      s.templateSource? (Path.ofSegments names) = some .script := by
  rw [templateSource?, isExcluded, isExcluded_ofSegments plain]
  split
  · exact .inl rfl
  · next included =>
    split
    · next extension =>
      exact absurd (isRead_template.mpr ⟨Bool.eq_false_iff.mpr included, extension⟩) unread
    · split
      · exact .inr rfl
      · exact .inl rfl

theorem pageSource?_eq (plain : ∀ n ∈ names, Path.IsName n) :
    s.pageSource? (Path.ofSegments names) =
      if s.isRead ⟨.page, names⟩ then some (.page (recordPath names)) else none := by
  rw [pageSource?, isExcluded, isExcluded_ofSegments plain]
  by_cases read : s.isRead ⟨.page, names⟩
  · obtain ⟨included, extension⟩ := isRead_page.mp read
    rw [if_pos read, if_neg (by simp [included, extension]), recordPath_of_listed plain read]
  · rw [if_neg read, if_pos]
    by_contra kept
    simp only [Bool.or_eq_true, not_or, Bool.not_eq_true', Bool.not_eq_true, Bool.not_eq_false]
      at kept
    exact read (isRead_page.mpr kept)

theorem storeTemplate_iff : (∃ change, s.storeTemplate path content = .ok (change, s')) ↔
    ∃ templates, s.templates.edit s.templateSchema (.store (.ofText path content)) = .ok templates ∧
      s' = { s with templates } := by
  constructor
  · rintro ⟨change, done⟩
    obtain ⟨out, templates, set, same, -⟩ := storeTemplate_ok done
    exact ⟨templates, by rw [Collection.edit, set]; rfl, same⟩
  · rintro ⟨templates, done, rfl⟩
    rw [Collection.edit] at done
    cases set : s.templates.set s.templateSchema (.ofText path content) with
    | error e =>
      rw [set] at done
      cases done
    | ok stored =>
      rw [set] at done
      cases done
      obtain ⟨out, templates⟩ := stored
      rw [storeTemplate, set]
      by_cases skipped : out = .skipped
      · exact ⟨_, by simp [bind, Except.bind, Except.mapError, skipped]; rfl⟩
      · exact ⟨_, by simp [bind, Except.bind, Except.mapError, skipped]; rfl⟩

theorem storePage_iff : (∃ change, s.storePage path content = .ok (change, s')) ↔
    ∃ pages, s.pages.edit s.pageSchema (.store (.ofText path content)) = .ok pages ∧
      s' = { s with pages } := by
  constructor
  · rintro ⟨change, done⟩
    obtain ⟨out, pages, set, same⟩ := storePage_ok done
    exact ⟨pages, by rw [Collection.edit, set]; rfl, same⟩
  · rintro ⟨pages, done, rfl⟩
    rw [Collection.edit] at done
    cases set : s.pages.set s.pageSchema (.ofText path content) with
    | error e =>
      rw [set] at done
      cases done
    | ok stored =>
      rw [set] at done
      cases done
      rw [storePage, set]
      exact ⟨_, rfl⟩

theorem readText?_none (missing : ¬ t.isFile p) : t.readText? p = none := by
  by_contra some
  obtain ⟨content, read⟩ := Option.ne_none_iff_exists'.mp some
  obtain ⟨leads, stands⟩ := FileTree.readText?_eq_some.mp read
  exact missing (FileTree.isFile_iff.mpr ⟨leads, by rw [stands]; rfl⟩)

theorem exists_done {change : Change} {gone : List Deletion} {s₁ : Site} :
    (∃ c g, (.ok (change, gone, s₁) : Except SiteError (Change × List Deletion × Site)) =
      .ok (c, g, s')) ↔ s' = s₁ := by
  constructor
  · rintro ⟨c, g, done⟩
    cases done
    rfl
  · rintro rfl
    exact ⟨change, gone, rfl⟩

theorem applyChange_ignored
    (source : s.locate t p = .ok none ∨ s.locate t p = .ok (some .script)) :
    (∃ change gone, s.applyChange t p = .ok (change, gone, s')) ↔ s' = s := by
  have kept : ∃ change, s.applyChange t p = .ok (change, [], s) := by
    by_cases file : t.isFile p
    · rw [applyChange, if_neg (by simpa using file)]
      rcases source with source | source
      · rw [source]
        exact ⟨_, rfl⟩
      · rw [source]
        exact ⟨_, rfl⟩
    · rw [applyChange_of_missing file, remove]
      rcases source with source | source
      · rw [source]
        exact ⟨_, rfl⟩
      · rw [source]
        exact ⟨_, rfl⟩
  obtain ⟨change, done⟩ := kept
  rw [done, exists_done]

theorem exists_map {x : Except SiteError (Change × Site)} :
    (∃ change gone, x.map (fun done => (done.1, ([] : List Deletion), done.2)) =
      .ok (change, gone, s')) ↔ ∃ change, x = .ok (change, s') := by
  cases x with
  | error e => simp [Except.map]
  | ok made =>
    obtain ⟨change, s₁⟩ := made
    constructor
    · rintro ⟨c, g, done⟩
      cases done
      exact ⟨change, rfl⟩
    · rintro ⟨c, done⟩
      cases done
      exact ⟨change, [], rfl⟩

theorem applyChange_template (sound : Sound s)
    (source : s.locate t p = .ok (some (.template (recordPath names))))
    (text : t.isFile p → ∃ content, t.readText? p = some content) :
    (∃ change gone, s.applyChange t p = .ok (change, gone, s')) ↔
      ∃ templates, s.templates.edit s.templateSchema (editOf t p names) = .ok templates ∧
        s' = { s with templates } := by
  by_cases file : t.isFile p
  · obtain ⟨content, read⟩ := text file
    rw [editOf, read, ← storeTemplate_iff, applyChange_of_template source file read, exists_map]
  · rw [applyChange_of_missing file, editOf, readText?_none file, Collection.edit]
    cases own : s.templateId? (recordPath names) with
    | none =>
      have absent : s.templates.get? (recordPath names) = none := Option.map_eq_none_iff.mp own
      rw [remove_unheld source own, exists_done,
        Collection.delete_none absent sound.templates.sound.toKeyed]
      simp
    | some id =>
      rw [remove_held source own, exists_done]
      simp

theorem applyChange_page (sound : Sound s)
    (source : s.locate t p = .ok (some (.page (recordPath names))))
    (text : t.isFile p → ∃ content, t.readText? p = some content) :
    (∃ change gone, s.applyChange t p = .ok (change, gone, s')) ↔
      ∃ pages, s.pages.edit s.pageSchema (editOf t p names) = .ok pages ∧
        s' = { s with pages } := by
  by_cases file : t.isFile p
  · obtain ⟨content, read⟩ := text file
    rw [editOf, read, ← storePage_iff, applyChange_of_page source file read, exists_map]
  · rw [applyChange_of_missing file, editOf, readText?_none file, remove, source]
    cases deleted : s.pages.delete (recordPath names) with
    | mk item pages =>
      cases item with
      | none =>
        have kept : pages = s.pages := by
          cases found : s.pages.get? (recordPath names) with
          | none =>
            rw [Collection.delete_none found sound.pages.toKeyed] at deleted
            exact (Prod.mk.inj deleted).2.symm
          | some item =>
            obtain ⟨e, c', gone, -⟩ := Collection.delete_some sound.pages found
            rw [gone] at deleted
            cases deleted
        simp only [bind, Except.bind, deleted, Collection.edit, kept]
        exact exists_done.trans (by simp)
      | some item =>
        simp only [bind, Except.bind, deleted, Collection.edit]
        exact exists_done.trans (by simp)

end

/-! ### A run of changes -/

section
variable {s s' : Site} {t : FileTree} {p : String} {f : SiteFile}

theorem edits_append (s : Site) (t : FileTree) (kind : Kind) (fs gs : List (String × SiteFile)) :
    s.edits t kind (fs ++ gs) = s.edits t kind fs ++ s.edits t kind gs := by
  rw [edits, List.filter_append, List.map_append]
  rfl

theorem edits_read {names : List String} {kind : Kind} (read : s.isRead ⟨kind, names⟩) :
    s.edits t kind [(p, ⟨kind, names⟩)] = [editOf t p names] := by
  simp [edits, read]

theorem edits_unread {kind : Kind} (unread : ¬ s.isRead f) : s.edits t kind [(p, f)] = [] := by
  simp [edits, unread]

theorem edits_other {kind : Kind} (other : f.kind ≠ kind) : s.edits t kind [(p, f)] = [] := by
  simp [edits, other]

theorem editAll_singleton {α ε : Type} (schema : Schema α ε) (c : Collection α)
    (e : Collection.Edit) : c.editAll schema [e] = c.edit schema e := by
  rw [Collection.editAll]
  cases c.edit schema e with
  | error err => rfl
  | ok c' => rfl

/-- One change edits the collection of its kind, and no other. -/
theorem applyChange_iff (sound : Sound s) (file : s.StandsFor t p f)
    (plain : ∀ n ∈ f.names, Path.IsName n)
    (text : s.isRead f → t.isFile p → ∃ content, t.readText? p = some content) :
    (∃ change gone, s.applyChange t p = .ok (change, gone, s')) ↔ ∃ templates pages,
      s.templates.editAll s.templateSchema (s.edits t .template [(p, f)]) = .ok templates ∧
      s.pages.editAll s.pageSchema (s.edits t .page [(p, f)]) = .ok pages ∧
      s' = { s with templates, pages } := by
  cases file with
  | @template names below =>
    have source : s.locate t p = .ok (s.templateSource? (Path.ofSegments names)) := by
      rw [locate, below, ← ofComponents_names]
    by_cases read : s.isRead ⟨.template, names⟩
    · rw [templateSource?_of_read plain read] at source
      rw [applyChange_template sound source (text read), edits_read read,
        edits_other (by simp), editAll_singleton]
      simp [Collection.editAll]
    · rw [edits_unread read, edits_unread read, applyChange_ignored]
      · simp [Collection.editAll]
      · rw [source]
        rcases templateSource?_of_unread plain read with none | script
        · exact .inl (by rw [none])
        · exact .inr (by rw [script])
  | @page names other below =>
    have source : s.locate t p = .ok (s.pageSource? (Path.ofSegments names)) := by
      rw [locate, other, below, ← ofComponents_names]
    rw [pageSource?_eq plain] at source
    by_cases read : s.isRead ⟨.page, names⟩
    · rw [if_pos read] at source
      rw [applyChange_page sound source (text read), edits_read read,
        edits_other (by simp), editAll_singleton]
      simp [Collection.editAll]
    · rw [if_neg read] at source
      rw [edits_unread read, edits_unread read, applyChange_ignored (.inl source)]
      simp [Collection.editAll]

theorem StandsFor.of_roots (h : s.StandsFor t p f) (templates : s'.templatesRoot = s.templatesRoot)
    (pages : s'.pagesRoot = s.pagesRoot) : s'.StandsFor t p f := by
  cases h with
  | template below => exact .template (by rw [templates]; exact below)
  | page other below =>
    exact .page (by rw [templates]; exact other) (by rw [pages]; exact below)

theorem applyAll_iff {files : List (String × SiteFile)} (sound : Sound s)
    (file : ∀ f ∈ files, s.StandsFor t f.1 f.2)
    (plain : ∀ f ∈ files, ∀ n ∈ f.2.names, Path.IsName n)
    (text : ∀ f ∈ files, s.isRead f.2 → t.isFile f.1 → ∃ content, t.readText? f.1 = some content) :
    s.applyAll t (files.map (·.1)) = .ok s' ↔ ∃ templates pages,
      s.templates.editAll s.templateSchema (s.edits t .template files) = .ok templates ∧
      s.pages.editAll s.pageSchema (s.edits t .page files) = .ok pages ∧
      s' = { s with templates, pages } := by
  induction files generalizing s with
  | nil =>
    constructor
    · intro done
      cases done
      exact ⟨_, _, rfl, rfl, rfl⟩
    · rintro ⟨templates, pages, doneT, doneP, rfl⟩
      cases doneT
      cases doneP
      rfl
  | cons f files ih =>
    have split : ∀ kind, s.edits t kind (f :: files) =
        s.edits t kind [f] ++ s.edits t kind files := fun kind => s.edits_append t kind [f] files
    have first_iff : ∀ s₁, (∃ change gone, s.applyChange t f.1 = .ok (change, gone, s₁)) ↔ _ :=
      fun s₁ => applyChange_iff sound (file f List.mem_cons_self) (plain f List.mem_cons_self)
        (text f List.mem_cons_self)
    have rest_iff : ∀ templates pages, Sound { s with templates, pages } → _ :=
      fun templates pages sound₁ => ih (s := { s with templates, pages }) sound₁
        (fun g mem => (file g (List.mem_cons_of_mem _ mem)).of_roots rfl rfl)
        (fun g mem => plain g (List.mem_cons_of_mem _ mem))
        (fun g mem => text g (List.mem_cons_of_mem _ mem))
    rw [split, split, Collection.editAll_append, Collection.editAll_append]
    constructor
    · intro done
      obtain ⟨⟨change, gone, s₁⟩, first, rest⟩ := ok_of_bind done
      obtain ⟨templates, pages, doneT, doneP, rfl⟩ := (first_iff s₁).mp ⟨change, gone, first⟩
      rw [doneT, doneP]
      exact (rest_iff templates pages (sound_applyChange sound first)).mp rest
    · rintro ⟨templates', pages', doneT, doneP, rfl⟩
      obtain ⟨templates, doneT, restT⟩ := ok_of_bind doneT
      obtain ⟨pages, doneP, restP⟩ := ok_of_bind doneP
      obtain ⟨change, gone, first⟩ :=
        (first_iff { s with templates, pages }).mpr ⟨templates, pages, doneT, doneP, rfl⟩
      rw [List.map_cons, applyAll, first]
      exact (rest_iff templates pages (sound_applyChange sound first)).mpr
        ⟨templates', pages', restT, restP, rfl⟩

end

/-! ### Any order -/

/-- Files of a site without plugins have changed since it was loaded. -/
structure Outdated (s₀ : Site) (t t' : FileTree) (files : List (String × SiteFile)) : Prop where
  plain : s₀.registered = []
  apart : s₀.DirectoriesApart t
  edited : t.Edited t' (files.map fun f => t.placeOf (s₀.root f.2.kind) ++ f.2.names)
  changed : ∀ f ∈ files, s₀.Changed t t' f.1 f.2
  differ : files.Pairwise (·.2 ≠ ·.2)

section
variable {s₀ s fresh : Site} {t t' : FileTree} {p : String} {f g : SiteFile}
  {files files' : List (String × SiteFile)}

theorem Changed.touched {places : List (List String)} (h : s₀.Changed t t' p f)
    (edited : t.Edited t' places) (read : s₀.isRead f) :
    Touched t t' (s₀.root f.kind) (extensionsOf f.kind) s₀.config.exclude p f.names where
  below := by
    cases h.file with
    | template below => exact below
    | page _ below => exact below
  changed := h.changed
  listed := read
  own := h.own
  own' := by
    rw [← edited.placeOf_eq]
    exact h.own'

theorem Changed.plain {places : List (List String)} (h : s₀.Changed t t' p f)
    (edited : t.Edited t' places) : ∀ n ∈ f.names, Path.IsName n := by
  have nonempty : p ≠ "" := by
    rcases h.changed with file | file
    · exact (FileTree.way_eq_at.mp (FileTree.isFile_iff.mp file).1).1
    · exact (FileTree.way_eq_at.mp (FileTree.isFile_iff.mp file).1).1
  cases h.file with
  | template below => exact FileTree.isName_of_below edited.absolute' nonempty below
  | page _ below => exact FileTree.isName_of_below edited.absolute' nonempty below

/-- Places below different directories are different. -/
theorem DirectoriesApart.kind_eq (apart : s₀.DirectoriesApart t) {kind kind' : Kind}
    {names names' : List String}
    (same : t.placeOf (s₀.root kind) ++ names = t.placeOf (s₀.root kind') ++ names') :
    kind = kind' := by
  have one : t.placeOf (s₀.root kind) <+: t.placeOf (s₀.root kind') ++ names' :=
    same ▸ List.prefix_append _ _
  have nested := List.prefix_or_prefix_of_prefix one (List.prefix_append _ _)
  cases kind with
  | page =>
    cases kind' with
    | page => rfl
    | template => exact absurd nested (not_or.mpr ⟨apart.2, apart.1⟩)
  | template =>
    cases kind' with
    | page => exact absurd nested (not_or.mpr ⟨apart.1, apart.2⟩)
    | template => rfl

section
variable {α : Type} {schema : Schema α Markup.Error} {idOf : Item α → Option String}
  {c c' : Collection α} {kind : Kind}

theorem Outdated.pending (out : Outdated s₀ t t' files)
    (loads : Loads schema idOf t (s₀.root kind) (extensionsOf kind) s₀.config.exclude c)
    (loads' : Loads schema idOf t' (s₀.root kind) (extensionsOf kind) s₀.config.exclude c') :
    Collection.Pending schema idOf c c' (s₀.edits t' kind files) := by
  have asked : s₀.edits t' kind files =
      ((files.filter fun f => decide (f.2.kind = kind) && s₀.isRead f.2).map
        fun f => (f.1, f.2.names)).map fun f => editOf t' f.1 f.2 := by
    rw [List.map_map]
    rfl
  rw [asked]
  refine pending_edits out.edited loads loads' ?_ ?_ ?_
  · intro x mem
    obtain ⟨f, inside, rfl⟩ := List.mem_map.mp mem
    obtain ⟨inside, kept⟩ := List.mem_filter.mp inside
    obtain ⟨own, read⟩ := Bool.and_eq_true_iff.mp kept
    rw [← of_decide_eq_true own]
    exact (out.changed f inside).touched out.edited read
  · refine List.pairwise_map.mpr (List.pairwise_filter.mpr (out.differ.imp fun {f g} other => ?_))
    intro keptF keptG same
    have kindF := of_decide_eq_true (Bool.and_eq_true_iff.mp keptF).1
    have kindG := of_decide_eq_true (Bool.and_eq_true_iff.mp keptG).1
    exact other (SiteFile.ext (kindF.trans kindG.symm) same)
  · intro names listed changed
    obtain ⟨f, inside, same⟩ := List.mem_map.mp changed
    have own := out.apart.kind_eq same
    subst own
    have equal := List.append_cancel_left same
    refine ⟨(f.1, f.2.names), List.mem_map.mpr ⟨f, List.mem_filter.mpr ⟨inside, ?_⟩, rfl⟩, equal⟩
    rw [isRead, equal, listed]
    simp

/-- Which of the edits get in the way of later ones, told by the files. -/
theorem Outdated.pairwise_edits (out : Outdated s₀ t t' files)
    (loads : Loads schema idOf t (s₀.root kind) (extensionsOf kind) s₀.config.exclude c)
    (loads' : Loads schema idOf t' (s₀.root kind) (extensionsOf kind) s₀.config.exclude c') :
    ((s₀.edits t' kind files).Pairwise fun e e' => ∀ a, c'.Held e.path a → ¬ c.Held e'.path a) ↔
      files.Pairwise fun f g => f.2.kind = kind → g.2.kind = kind →
        ∀ a, c'.Held (recordPath f.2.names) a → ¬ c.Held (recordPath g.2.names) a := by
  have path : ∀ f ∈ files, s₀.isRead f.2 →
      (editOf t' f.1 f.2.names).path = recordPath f.2.names := fun f mem read =>
    ((out.changed f mem).touched out.edited read).path_editOf out.edited
  rw [edits, List.pairwise_map, List.pairwise_filter]
  constructor
  · intro clear
    refine clear.imp_of_mem fun {f g} inF inG free kindF kindG a new old => ?_
    -- a document at the path of a file shows that the file is read, so there is an edit for it
    have F := out.changed f inF
    have G := out.changed g inG
    have readF : s₀.isRead f.2 := by
      rw [isRead]
      subst kindF
      exact listed_of_held out.edited.once' F.own' loads' new
    have readG : s₀.isRead g.2 := by
      rw [isRead]
      subst kindG
      exact listed_of_held out.edited.once G.own loads old
    refine free (by simp [kindF, readF]) (by simp [kindG, readG]) a ?_ ?_
    · rw [path f inF readF]
      exact new
    · rw [path g inG readG]
      exact old
  · intro clear
    refine clear.imp_of_mem fun {f g} inF inG free keptF keptG a new old => ?_
    obtain ⟨kindF, readF⟩ := Bool.and_eq_true_iff.mp keptF
    obtain ⟨kindG, readG⟩ := Bool.and_eq_true_iff.mp keptG
    rw [path f inF readF] at new
    rw [path g inG readG] at old
    exact free (of_decide_eq_true kindF) (of_decide_eq_true kindG) a new old

end

theorem not_takes_iff : ¬ Takes fresh f s g ↔
    (f.kind = .template → g.kind = .template → ∀ a,
      fresh.templates.Held (recordPath f.names) a → ¬ s.templates.Held (recordPath g.names) a) ∧
    (f.kind = .page → g.kind = .page → ∀ a,
      fresh.pages.Held (recordPath f.names) a → ¬ s.pages.Held (recordPath g.names) a) := by
  obtain ⟨kind, names⟩ := f
  obtain ⟨kind', names'⟩ := g
  cases kind <;> cases kind' <;> simp [Takes, Holds]

theorem Outdated.perm (out : Outdated s₀ t t' files) (perm : files.Perm files') :
    Outdated s₀ t t' files' where
  plain := out.plain
  apart := out.apart
  edited := { out.edited with
    files := fun place other =>
      out.edited.files place fun mem => other ((perm.map _).mem_iff.mp mem) }
  changed f mem := out.changed f (perm.mem_iff.mpr mem)
  differ := (perm.pairwise_iff Ne.symm).mp out.differ

/-- What the changed files ask of the two collections is pending, and handing the files over is
doing it. -/
theorem Outdated.run (out : Outdated s₀ t t' files) (loaded : s₀.initialise t = (.ok (), s))
    (rebuilt : s₀.initialise t' = (.ok (), fresh)) :
    Collection.Pending s.templateSchema templateKey s.templates fresh.templates
        (s.edits t' .template files) ∧
      Collection.Pending s.pageSchema pageKey s.pages fresh.pages (s.edits t' .page files) ∧
      (∀ s', s.applyAll t' (files.map (·.1)) = .ok s' ↔ ∃ templates pages,
        s.templates.editAll s.templateSchema (s.edits t' .template files) = .ok templates ∧
        s.pages.editAll s.pageSchema (s.edits t' .page files) = .ok pages ∧
        s' = { s with templates, pages }) ∧
      ((∃ s', s.applyAll t' (files.map (·.1)) = .ok s') ↔
        files.Pairwise fun f g => ¬ Takes fresh f.2 s g.2) := by
  obtain ⟨same, -⟩ := initialise_ok out.plain loaded
  obtain ⟨same', -⟩ := initialise_ok out.plain rebuilt
  obtain ⟨loadsT, loadsP⟩ := loads_of_initialise out.plain loaded
  obtain ⟨loadsT', loadsP'⟩ := loads_of_initialise out.plain rebuilt
  have sound : Sound s := by
    have h := sound_initialise s₀ t
    rw [loaded] at h
    exact h
  -- from here on only the collections of the two sites matter, not how they were loaded
  have shape : ∃ templates pages, s = { s₀ with plugins := [], templates, pages } := ⟨_, _, same⟩
  have shape' : ∃ templates pages, fresh = { s₀ with plugins := [], templates, pages } :=
    ⟨_, _, same'⟩
  clear same same' loaded rebuilt
  obtain ⟨templates, pages, rfl⟩ := shape
  obtain ⟨templates', pages', rfl⟩ := shape'
  have pendingT : Collection.Pending (templateSchema { s₀ with plugins := [], templates, pages })
      templateKey templates templates' (s₀.edits t' .template files) := out.pending loadsT loadsT'
  have pendingP : Collection.Pending (pageSchema { s₀ with plugins := [], templates, pages })
      pageKey pages pages' (s₀.edits t' .page files) := out.pending loadsP loadsP'
  have text : ∀ f ∈ files, s₀.isRead f.2 → t'.isFile f.1 →
      ∃ content, t'.readText? f.1 = some content := by
    intro f mem read file
    have touched := (out.changed f mem).touched out.edited read
    cases kind : f.2.kind with
    | template =>
      rw [kind] at touched
      exact touched.readText? out.edited loadsT' file
    | page =>
      rw [kind] at touched
      exact touched.readText? out.edited loadsP' file
  have handed : ∀ s', applyAll t' { s₀ with plugins := [], templates, pages }
      (files.map (·.1)) = .ok s' ↔ _ := fun s' => applyAll_iff sound
    (fun f mem => (out.changed f mem).file.of_roots rfl rfl)
    (fun f mem => (out.changed f mem).plain out.edited) text
  have clearT := (pendingT.run_iff (templateSchema_open rfl)).trans
    (out.pairwise_edits loadsT loadsT')
  have clearP := (pendingP.run_iff (pageSchema_open rfl)).trans
    (out.pairwise_edits loadsP loadsP')
  refine ⟨pendingT, pendingP, handed, ?_⟩
  simp only [not_takes_iff, List.pairwise_and_iff]
  constructor
  · rintro ⟨s', done⟩
    obtain ⟨T, P, doneT, doneP, -⟩ := (handed s').mp done
    exact ⟨clearT.mp ⟨T, doneT⟩, clearP.mp ⟨P, doneP⟩⟩
  · rintro ⟨freeT, freeP⟩
    obtain ⟨T, doneT⟩ := clearT.mpr freeT
    obtain ⟨P, doneP⟩ := clearP.mpr freeP
    exact ⟨_, (handed _).mpr ⟨T, P, doneT, doneP, rfl⟩⟩

/-- Orders that are not refused lead to the same documents. -/
theorem Outdated.alike (out : Outdated s₀ t t' files) (loaded : s₀.initialise t = (.ok (), s))
    (rebuilt : s₀.initialise t' = (.ok (), fresh)) (perm : files.Perm files') {s₁ s₂ : Site}
    (done : s.applyAll t' (files.map (·.1)) = .ok s₁)
    (done' : s.applyAll t' (files'.map (·.1)) = .ok s₂) :
    s₁.templates.Alike s₂.templates ∧ s₁.pages.Alike s₂.pages := by
  have unplugged : s.plugins = [] := by rw [(initialise_ok out.plain loaded).1]
  obtain ⟨pendingT, pendingP, handed, -⟩ := out.run loaded rebuilt
  obtain ⟨T, P, doneT, doneP, rfl⟩ := (handed s₁).mp done
  obtain ⟨T', P', doneT', doneP', rfl⟩ := (((out.perm perm).run loaded rebuilt).2.2.1 s₂).mp done'
  have permT : (s.edits t' .template files).Perm (s.edits t' .template files') :=
    (perm.filter _).map _
  have permP : (s.edits t' .page files).Perm (s.edits t' .page files') := (perm.filter _).map _
  exact ⟨pendingT.alike (templateSchema_open unplugged) permT doneT doneT',
    pendingP.alike (pageSchema_open unplugged) permP doneP doneP'⟩

end

/-- Two files that have changed can be handed over in both orders exactly when neither takes a name
that the site still has for the other; both orders then lead to the same documents. -/
theorem two_changes_in_any_order {s₀ s fresh : Site} {t t' : FileTree} {p q : String}
    {f g : SiteFile} (out : Outdated s₀ t t' [(p, f), (q, g)])
    (loaded : s₀.initialise t = (.ok (), s)) (rebuilt : s₀.initialise t' = (.ok (), fresh)) :
    ((∃ s', s.applyAll t' [p, q] = .ok s') ↔ ¬ Takes fresh f s g) ∧
    ((∃ s', s.applyAll t' [q, p] = .ok s') ↔ ¬ Takes fresh g s f) ∧
    ∀ s₁ s₂, s.applyAll t' [p, q] = .ok s₁ → s.applyAll t' [q, p] = .ok s₂ →
      s₁.templates.Alike s₂.templates ∧ s₁.pages.Alike s₂.pages := by
  have swap : [(p, f), (q, g)].Perm [(q, g), (p, f)] := .swap _ _ _
  have first := (out.run loaded rebuilt).2.2.2
  have second := ((out.perm swap).run loaded rebuilt).2.2.2
  rw [List.pairwise_pair] at first second
  exact ⟨first, second, fun s₁ s₂ done done' => out.alike loaded rebuilt swap done done'⟩

/-! ### A template that moves -/

/-- A template with an id, in a file of these names below the directory of templates. -/
def shelf (names : List String) (id : String) : FileTree where
  directories := [["pages"], ["templates"], ["templates", "d"]]
  files := [("templates" :: names, .text ("<template id=\"" ++ id ++ "\">a</template>"))]

def shop : Site where
  config := {}
  pagesRoot := "/pages"
  templatesRoot := "/templates"

theorem placeOf_templates (names : List String) (id : String) :
    (shelf names id).placeOf "/templates" = ["templates"] :=
  (by decide +kernel : FileTree.placeOf {} "/templates" = ["templates"])

theorem placeOf_pages (names : List String) (id : String) :
    (shelf names id).placeOf "/pages" = ["pages"] :=
  (by decide +kernel : FileTree.placeOf {} "/pages" = ["pages"])

theorem content?_shelf {names : List String} {id : String} {place : List String}
    (other : place ≠ "templates" :: names) : (shelf names id).content? place = none := by
  have first : (place == "templates" :: names) = false := beq_eq_false_iff_ne.mpr other
  simp only [FileTree.content?, shelf, List.lookup_cons, first, List.lookup_nil]

theorem ownPath_shelf {names own : List String} {id : String}
    (same : recordPath names = recordPath own → names = own) :
    shop.OwnPath (shelf names id) ⟨.template, own⟩ := by
  rintro others - there equal
  rw [root, shop, placeOf_templates] at there
  have alone : others = names := by
    by_contra other
    rw [content?_shelf (by simpa using other)] at there
    cases there
  rw [alone] at equal ⊢
  exact same equal

theorem outdated_shelf {id id' : String}
    (stood : (shelf ["old.html"] id).isFile "templates/old.html")
    (stands : (shelf ["new.html"] id').isFile "templates/new.html") :
    Outdated shop (shelf ["old.html"] id) (shelf ["new.html"] id')
      [("templates/new.html", ⟨.template, ["new.html"]⟩),
        ("templates/old.html", ⟨.template, ["old.html"]⟩)] where
  plain := rfl
  apart := by
    rw [DirectoriesApart, shop, placeOf_templates, placeOf_pages]
    decide +kernel
  edited := {
    current := rfl
    absolute := (by decide +kernel : Path.isAbsolute "/")
    once := List.nodup_singleton _
    once' := List.nodup_singleton _
    directories := fun d there => there
    files := by
      intro place other
      simp only [root, shop, placeOf_templates, List.map_cons, List.map_nil, List.cons_append,
        List.nil_append, List.mem_cons, List.not_mem_nil, not_or] at other
      rw [content?_shelf other.1, content?_shelf other.2.1] }
  changed := by
    intro f mem
    simp only [List.mem_cons, List.not_mem_nil, or_false] at mem
    rcases mem with rfl | rfl
    · refine ⟨.template ?_, .inr stands, ownPath_shelf ?_, ownPath_shelf ?_⟩
      · exact (by decide +kernel : Path.below? "/templates"
          (FileTree.cleanPath {} "templates/new.html") = some [.normal "new.html"])
      · decide +kernel
      · decide +kernel
    · refine ⟨.template ?_, .inl stood, ownPath_shelf ?_, ownPath_shelf ?_⟩
      · exact (by decide +kernel : Path.below? "/templates"
          (FileTree.cleanPath {} "templates/old.html") = some [.normal "old.html"])
      · decide +kernel
      · decide +kernel
  differ := by decide +kernel

theorem initialise_eq_ok {s : Site} {t : FileTree} (done : (s.initialise t).1.toOption = some ()) :
    s.initialise t = (.ok (), (s.initialise t).2) := Prod.ext (ok_of_toOption done) rfl

/-- A template that moves with a new id can be handed over in both orders. -/
theorem renamed_template_in_any_order : ∃ s s₁ s₂,
    shop.initialise (shelf ["old.html"] "x-card") = (.ok (), s) ∧
    s.applyAll (shelf ["new.html"] "x-tile") ["templates/new.html", "templates/old.html"] =
      .ok s₁ ∧
    s.applyAll (shelf ["new.html"] "x-tile") ["templates/old.html", "templates/new.html"] =
      .ok s₂ ∧
    s₁.templates.ids = ["x-tile"] ∧ s₁.templates.Alike s₂.templates ∧ s₁.pages.Alike s₂.pages := by
  have out : Outdated shop (shelf ["old.html"] "x-card") (shelf ["new.html"] "x-tile") _ :=
    outdated_shelf (by decide +kernel) (by decide +kernel)
  have loaded : shop.initialise (shelf ["old.html"] "x-card") = (.ok (), _) :=
    initialise_eq_ok (by decide +kernel)
  have rebuilt : shop.initialise (shelf ["new.html"] "x-tile") = (.ok (), _) :=
    initialise_eq_ok (by decide +kernel)
  obtain ⟨-, -, alike⟩ := two_changes_in_any_order out loaded rebuilt
  have first : ((shop.initialise (shelf ["old.html"] "x-card")).2.applyAll
      (shelf ["new.html"] "x-tile") ["templates/new.html", "templates/old.html"]).toOption.map
      (·.templates.ids) = some ["x-tile"] := by decide +kernel
  have second : ((shop.initialise (shelf ["old.html"] "x-card")).2.applyAll
      (shelf ["new.html"] "x-tile") ["templates/old.html", "templates/new.html"]).toOption.isSome :=
    by decide +kernel
  obtain ⟨s₁, done, ids⟩ := Option.map_eq_some_iff.mp first
  obtain ⟨s₂, done'⟩ := Option.isSome_iff_exists.mp second
  exact ⟨_, s₁, s₂, loaded, ok_of_toOption done, ok_of_toOption done', ids,
    alike s₁ s₂ (ok_of_toOption done) (ok_of_toOption done')⟩

/-- A template that moves with its id is refused when its new file is handed over first. Of two
files whose names differ in a slash one is lost when the one that is gone is handed over last. -/
theorem moved_template_refused : (∃ s fresh,
    Outdated shop (shelf ["old.html"] "x-card") (shelf ["new.html"] "x-card")
      [("templates/new.html", ⟨.template, ["new.html"]⟩),
        ("templates/old.html", ⟨.template, ["old.html"]⟩)] ∧
    shop.initialise (shelf ["old.html"] "x-card") = (.ok (), s) ∧
    shop.initialise (shelf ["new.html"] "x-card") = (.ok (), fresh) ∧
    ¬ ∃ s', s.applyAll (shelf ["new.html"] "x-card")
      ["templates/new.html", "templates/old.html"] = .ok s') ∧
    ∃ s fresh s₁ s₂, shop.initialise (shelf ["d\\b.html"] "x-card") = (.ok (), s) ∧
      shop.initialise (shelf ["d", "b.html"] "x-card") = (.ok (), fresh) ∧
      s.applyAll (shelf ["d", "b.html"] "x-card")
        ["templates/d\\b.html", "templates/d/b.html"] = .ok s₁ ∧
      s.applyAll (shelf ["d", "b.html"] "x-card")
        ["templates/d/b.html", "templates/d\\b.html"] = .ok s₂ ∧
      s₁.templates.ids = ["x-card"] ∧ s₂.templates.ids = [] := by
  constructor
  · have refused : ((shop.initialise (shelf ["old.html"] "x-card")).2.applyAll
        (shelf ["new.html"] "x-card")
        ["templates/new.html", "templates/old.html"]).toOption.isNone := by decide +kernel
    refine ⟨_, _, outdated_shelf (by decide +kernel) (by decide +kernel),
      initialise_eq_ok (by decide +kernel), initialise_eq_ok (by decide +kernel), ?_⟩
    rintro ⟨s', done⟩
    rw [done] at refused
    cases refused
  · have first : ((shop.initialise (shelf ["d\\b.html"] "x-card")).2.applyAll
        (shelf ["d", "b.html"] "x-card")
        ["templates/d\\b.html", "templates/d/b.html"]).toOption.map (·.templates.ids) =
        some ["x-card"] := by decide +kernel
    have second : ((shop.initialise (shelf ["d\\b.html"] "x-card")).2.applyAll
        (shelf ["d", "b.html"] "x-card")
        ["templates/d/b.html", "templates/d\\b.html"]).toOption.map (·.templates.ids) =
        some [] := by decide +kernel
    obtain ⟨s₁, done, ids⟩ := Option.map_eq_some_iff.mp first
    obtain ⟨s₂, done', ids'⟩ := Option.map_eq_some_iff.mp second
    exact ⟨_, _, s₁, s₂, initialise_eq_ok (by decide +kernel), initialise_eq_ok (by decide +kernel),
      ok_of_toOption done, ok_of_toOption done', ids, ids'⟩

end Site
end Stencil
