import Stencil.Proofs.Site.Mirror
/-!
Histories of a site: files are altered one after another, and each is handed over when it has been.
The documents are those that a new loading of the files would give, as long as a path that leads to
a file of the site is spelled below the directory of its kind. A path that steps up behind the
directory of templates counts as hidden there, so the change of a page whose directory is written
that way is lost.
-/
namespace Stencil.Site
open Markup

/-- The site after a file has been handed over; one that is refused leaves the site as it was. -/
def handOver (s : Site) (t : FileTree) (p : String) : Site :=
  match s.applyChange t p with
  | .ok (_, _, s') => s'
  | .error _ => s

/-- A path that leads to a file that is read stands for it. -/
def Addressed (s : Site) (t : FileTree) (p : String) : Prop :=
  ∀ f, s.isRead f → t.placeOf p = t.placeOf (s.root f.kind) ++ f.names → s.StandsFor t p f

/-- Files are altered one after another, and each is handed over and accepted. -/
inductive History (s : Site) (t : FileTree) : Site → FileTree → Prop where
  | start : History s t s t
  | step {s₁ t₁ p t₂} (before : History s t s₁ t₁) (altered : t₁.Altered p t₂)
      (plain : ∀ n ∈ t₁.placeOf p, '\\' ∉ n.toList) (addressed : s₁.Addressed t₂ p)
      (accepted : (s₁.applyChange t₂ p).toOption.isSome) : History s t (s₁.handOver t₂ p) t₂

/-- The site has no plugins, and its documents are those of the files of a tree. -/
structure UpToDate (s : Site) (t : FileTree) : Prop where
  unregistered : s.registered = []
  unplugged : s.plugins = []
  sound : Sound s
  templatesThere : t.isDirectory s.templatesRoot
  pagesThere : t.isDirectory s.pagesRoot
  templates : Mirrors s.templateSchema templateKey t s.templatesRoot templateExtensions
    s.config.exclude s.templates
  pages : Mirrors s.pageSchema pageKey t s.pagesRoot pageExtensions s.config.exclude s.pages

/-! ### Loading -/

section
variable {s₀ s fresh : Site} {t : FileTree}

theorem upToDate_of_initialise (plain : s₀.registered = []) (regular : t.Regular)
    (there : t.isDirectory s₀.templatesRoot) (loaded : s₀.initialise t = (.ok (), s)) :
    UpToDate s t := by
  have sound : Sound s := by
    have h := sound_initialise s₀ t
    rw [loaded] at h
    exact h
  obtain ⟨same, ⟨rs, listed, done⟩, rs', listed', done'⟩ := initialise_ok plain loaded
  have unplugged : s.plugins = [] := by rw [same]
  have there : t.isDirectory s.templatesRoot := by
    rw [same]
    exact there
  rw [templateRecords, if_pos there] at listed
  have listed' := ok_of_mapError listed'
  obtain ⟨leads, directory, -⟩ := FileTree.enumerate_ok listed'
  refine ⟨by rw [same]; exact plain, unplugged, sound, there, ?_, ?_, ?_⟩
  · rw [FileTree.isDirectory, leads]
    exact directory
  · exact mirrors_of_loadAll regular (templateSchema_open unplugged) (ok_of_mapError listed) done
  · exact mirrors_of_loadAll regular (pageSchema_open unplugged) listed' done'

theorem loadTemplates_of_loadAll {rs : List Record} {templates : Collection Component}
    (done : loadAll s.templateSchema s.templates rs = (.ok (), templates)) :
    s.loadTemplates rs = (.ok (), { s with templates }) := by
  rw [loadTemplates, done]

theorem loadPages_of_loadAll {rs : List Record} {pages : Collection Page}
    (done : loadAll s.pageSchema s.pages rs = (.ok (), pages)) :
    s.loadPages rs = (.ok (), { s with pages }) := by
  rw [loadPages, done]

theorem initialise_of_loads {rs rs' : List Record} {templates : Collection Component}
    {pages : Collection Page} (plain : s.registered = [])
    (listed : s.templateRecords t = .ok rs) (listed' : s.pageRecords t = .ok rs')
    (done : loadAll { s with plugins := [] }.templateSchema {} rs = (.ok (), templates))
    (done' : loadAll { s with plugins := [] }.pageSchema {} rs' = (.ok (), pages)) :
    s.initialise t = (.ok (), { s with plugins := [], templates, pages }) := by
  obtain ⟨config, pagesRoot, templatesRoot, registered, plugins, templates₀, pages₀⟩ := s
  obtain rfl : registered = [] := plain
  have read : templateRecords { config, pagesRoot, templatesRoot } t = .ok rs := listed
  have first : loadTemplates { config, pagesRoot, templatesRoot } rs =
      (.ok (), { config, pagesRoot, templatesRoot, templates }) := loadTemplates_of_loadAll done
  have read' : pageRecords { config, pagesRoot, templatesRoot, templates } t = .ok rs' := listed'
  have second : loadPages { config, pagesRoot, templatesRoot, templates } rs' =
      (.ok (), { config, pagesRoot, templatesRoot, templates, pages }) :=
    loadPages_of_loadAll done'
  have start : loadTemplates { config, pagesRoot, templatesRoot } [] =
      (.ok (), { config, pagesRoot, templatesRoot }) := rfl
  rw [initialise]
  simp only [List.flatMap_nil, start, read, loadRead, first, read', second]

/-- What a site has is what a new loading gives. -/
theorem UpToDate.alike (h : UpToDate s t) (regular : t.Regular) : ∃ fresh,
    s.initialise t = (.ok (), fresh) ∧ s.templates.Alike fresh.templates ∧
      s.pages.Alike fresh.pages := by
  have same : { s with plugins := [] } = s := by
    obtain ⟨config, pagesRoot, templatesRoot, registered, plugins, templates, pages⟩ := s
    obtain rfl : plugins = [] := h.unplugged
    rfl
  obtain ⟨rs, templates, listed, done⟩ :=
    h.templates.load regular (templateSchema_open h.unplugged) h.templatesThere
  obtain ⟨rs', pages, listed', done'⟩ :=
    h.pages.load regular (pageSchema_open h.unplugged) h.pagesThere
  refine ⟨_, initialise_of_loads h.unregistered ?_ ?_ (same ▸ done) (same ▸ done'), ?_, ?_⟩
  · rw [templateRecords, if_pos h.templatesThere, listed]
    rfl
  · rw [pageRecords, listed']
    rfl
  · exact h.templates.alike
      (mirrors_of_loadAll regular (templateSchema_open h.unplugged) listed done)
  · exact h.pages.alike (mirrors_of_loadAll regular (pageSchema_open h.unplugged) listed' done')

end

/-! ### Paths -/

section
variable {s : Site} {t : FileTree} {p path : String} {names : List String}

theorem root_ne_empty {dir : String} (there : t.isDirectory dir) : dir ≠ "" := by
  rintro rfl
  cases there

/-- A path is located as a template when it stands for one that is read. -/
theorem standsFor_of_template (absolute : Path.isAbsolute t.current) (nonempty : p ≠ "")
    (there : t.isDirectory s.templatesRoot)
    (source : s.locate t p = .ok (some (.template path))) :
    ∃ names, s.StandsFor t p ⟨.template, names⟩ ∧ s.isRead ⟨.template, names⟩ ∧
      path = recordPath names := by
  rw [locate] at source
  split at source
  · next cs below =>
    rw [templateSource?] at source
    split at source
    · cases source
    · next visible =>
      obtain ⟨names, plain, rfl⟩ := FileTree.names_below absolute nonempty (root_ne_empty there)
        below (by simpa [isExcluded] using visible)
      rw [ofComponents_names] at source visible
      rw [isExcluded, isExcluded_ofSegments plain] at visible
      split at source
      · next extension =>
        have read : s.isRead ⟨.template, names⟩ :=
          isRead_template.mpr ⟨by simpa using visible, extension⟩
        refine ⟨names, .template below, read, ?_⟩
        rw [recordPath_of_listed plain read]
        cases source
        rfl
      · split at source
        · cases source
        · cases source
  · split at source
    · next cs below =>
      rw [pageSource?] at source
      split at source
      · cases source
      · cases source
    · cases source

theorem standsFor_of_page (absolute : Path.isAbsolute t.current) (nonempty : p ≠ "")
    (there : t.isDirectory s.pagesRoot) (source : s.locate t p = .ok (some (.page path))) :
    ∃ names, s.StandsFor t p ⟨.page, names⟩ ∧ s.isRead ⟨.page, names⟩ ∧
      path = recordPath names := by
  rw [locate] at source
  split at source
  · rw [templateSource?] at source
    split at source
    · cases source
    · split at source
      · cases source
      · split at source
        · cases source
        · cases source
  · next other =>
    split at source
    · next cs below =>
      rw [pageSource?] at source
      split at source
      · cases source
      · next kept =>
        simp only [Bool.or_eq_true, not_or, Bool.not_eq_true, Bool.not_eq_true'] at kept
        obtain ⟨visible, extension⟩ := kept
        obtain ⟨names, plain, rfl⟩ := FileTree.names_below absolute nonempty (root_ne_empty there)
          below visible
        rw [ofComponents_names] at source visible extension
        rw [isExcluded, isExcluded_ofSegments plain] at visible
        have read : s.isRead ⟨.page, names⟩ :=
          isRead_page.mpr ⟨visible, by simpa using extension⟩
        refine ⟨names, .page other below, read, ?_⟩
        rw [recordPath_of_listed plain read]
        cases source
        rfl
    · cases source

/-- A file that is read is located. -/
theorem locate_of_standsFor {f : SiteFile} (file : s.StandsFor t p f) (read : s.isRead f)
    (plain : ∀ n ∈ f.names, Path.IsName n) : ∃ path,
      s.locate t p = .ok (some (.template path)) ∨ s.locate t p = .ok (some (.page path)) := by
  cases file with
  | @template names below =>
    refine ⟨recordPath names, .inl ?_⟩
    rw [locate, below, ← templateSource?_of_read plain read, ← ofComponents_names]
  | @page names other below =>
    refine ⟨recordPath names, .inr ?_⟩
    rw [locate, other, below]
    dsimp only
    rw [ofComponents_names, pageSource?_eq plain, if_pos read]

theorem Addressed.locate (h : s.Addressed t p) (regular : t.Regular) {f : SiteFile}
    (read : s.isRead f) (place : t.placeOf p = t.placeOf (s.root f.kind) ++ f.names) : ∃ path,
      s.locate t p = .ok (some (.template path)) ∨ s.locate t p = .ok (some (.page path)) := by
  refine locate_of_standsFor (h f read place) read fun n mem => ?_
  refine FileTree.isName_placeOf regular.absolute p n ?_
  rw [place]
  exact List.mem_append_right _ mem

/-- Paths that do not step up are addressed. -/
theorem addressed_of_straight (absolute : Path.isAbsolute t.current) (nonempty : p ≠ "")
    (apart : s.DirectoriesApart t) (straight : Path.Straight (t.absolute p))
    (roots : ∀ kind, Path.isAbsolute (s.root kind) ∧ Path.Straight (s.root kind)) :
    s.Addressed t p := by
  rintro ⟨kind, names⟩ - place
  have below : Path.below? (s.root kind) (t.cleanPath p) = some (names.map .normal) := by
    rw [FileTree.below?_iff_of_straight absolute nonempty straight (roots kind).1 (roots kind).2,
      place, List.map_append]
  cases kind with
  | template => exact .template below
  | page =>
    refine .page ?_ below
    by_contra some
    -- the directory of templates would be above that of pages, or below it
    obtain ⟨cs, above⟩ := Option.ne_none_iff_exists'.mp some
    have inside := FileTree.placeOf_prefix absolute nonempty straight (roots .template).1
      (roots .template).2 above
    rw [place] at inside
    exact absurd (List.prefix_or_prefix_of_prefix inside (List.prefix_append _ _))
      (not_or.mpr apart)

end

/-! ### One step -/

section
variable {s s' : Site} {t t' : FileTree} {p path : String} {names : List String}
  {change : Change} {gone : List Deletion}

theorem locate_of_applyChange (done : s.applyChange t p = .ok (change, gone, s')) :
    ∃ source, s.locate t p = .ok source := by
  rw [applyChange] at done
  split at done
  · rw [remove] at done
    obtain ⟨source, located, -⟩ := ok_of_bind done
    exact ⟨source, located⟩
  · obtain ⟨source, located, -⟩ := ok_of_bind done
    exact ⟨source, located⟩

/-- The file of a document that has been stored could be read. -/
theorem readable_of_applyChange (done : s.applyChange t p = .ok (change, gone, s'))
    (source : s.locate t p = .ok (some (.template path)) ∨
      s.locate t p = .ok (some (.page path)))
    (file : t.isFile p) : ∃ content, t.readText? p = some content := by
  have found : ∃ content, readChanged t p = .ok content := by
    rw [applyChange, if_neg (by simpa using file)] at done
    rcases source with source | source
    · rw [source] at done
      obtain ⟨_, located, rest⟩ := ok_of_bind done
      obtain rfl := Except.ok.inj located
      obtain ⟨content, found, -⟩ := ok_of_bind rest
      exact ⟨content, found⟩
    · rw [source] at done
      obtain ⟨_, located, rest⟩ := ok_of_bind done
      obtain rfl := Except.ok.inj located
      obtain ⟨content, found, -⟩ := ok_of_bind rest
      exact ⟨content, found⟩
  obtain ⟨content, found⟩ := found
  rw [readChanged] at found
  split at found
  · next content read => exact ⟨content, read⟩
  · cases found

theorem StandsFor.placeOf_eq {f : SiteFile} (file : s.StandsFor t p f)
    (absolute : Path.isAbsolute t.current) (nonempty : p ≠ "") :
    t.placeOf p = t.placeOf (s.root f.kind) ++ f.names := by
  cases file with
  | template below => exact FileTree.placeOf_below absolute nonempty below
  | page _ below => exact FileTree.placeOf_below absolute nonempty below

/-- A file that the site has nothing to do with. -/
theorem UpToDate.of_ignored (h : UpToDate s t) (regular : t.Regular) (altered : t.Altered p t')
    (other : ∀ f, s.isRead f → t.placeOf p ≠ t.placeOf (s.root f.kind) ++ f.names) :
    UpToDate s t' := by
  have edited := altered.edited regular
  refine ⟨h.unregistered, h.unplugged, h.sound, edited.isDirectory h.templatesThere,
    edited.isDirectory h.pagesThere, ?_, ?_⟩
  · exact h.templates.unaffected edited fun names read => other ⟨.template, names⟩ read.listed
  · exact h.pages.unaffected edited fun names read => other ⟨.page, names⟩ read.listed

theorem UpToDate.of_template {templates : Collection Component} (h : UpToDate s t)
    (regular : t.Regular) (apart : s.DirectoriesApart t) (altered : t.Altered p t')
    (sound : Sound { s with templates })
    (read : ReadNames templateExtensions s.config.exclude names)
    (place : t.placeOf p = t.placeOf s.templatesRoot ++ names)
    (text : t'.isFile p → ∃ content, t'.readText? p = some content)
    (stored : s.templates.edit s.templateSchema (editOf t' p names) = .ok templates) :
    UpToDate { s with templates } t' := by
  have edited := altered.edited regular
  refine ⟨h.unregistered, h.unplugged, sound, edited.isDirectory h.templatesThere,
    edited.isDirectory h.pagesThere, ?_, ?_⟩
  · exact h.templates.edit (templateSchema_open h.unplugged) read place altered regular text stored
  · refine h.pages.unaffected edited fun others _ same => ?_
    rw [place] at same
    have one : Kind.template = Kind.page := apart.kind_eq same
    cases one

theorem UpToDate.of_page {pages : Collection Page} (h : UpToDate s t)
    (regular : t.Regular) (apart : s.DirectoriesApart t) (altered : t.Altered p t')
    (sound : Sound { s with pages })
    (read : ReadNames pageExtensions s.config.exclude names)
    (place : t.placeOf p = t.placeOf s.pagesRoot ++ names)
    (text : t'.isFile p → ∃ content, t'.readText? p = some content)
    (stored : s.pages.edit s.pageSchema (editOf t' p names) = .ok pages) :
    UpToDate { s with pages } t' := by
  have edited := altered.edited regular
  refine ⟨h.unregistered, h.unplugged, sound, edited.isDirectory h.templatesThere,
    edited.isDirectory h.pagesThere, ?_, ?_⟩
  · refine h.templates.unaffected edited fun others _ same => ?_
    rw [place] at same
    have one : Kind.page = Kind.template := apart.kind_eq same
    cases one
  · exact h.pages.edit (pageSchema_open h.unplugged) read place altered regular text stored

/-- A file that is altered and handed over leaves the site up to date. -/
theorem UpToDate.step (h : UpToDate s t) (regular : t.Regular) (apart : s.DirectoriesApart t)
    (altered : t.Altered p t') (plain : ∀ n ∈ t.placeOf p, '\\' ∉ n.toList)
    (addressed : s.Addressed t' p) (done : s.applyChange t' p = .ok (change, gone, s')) :
    UpToDate s' t' ∧ ∃ templates pages, s' = { s with templates, pages } := by
  have edited := altered.edited regular
  have regular' := altered.regular regular plain
  have placed : ∀ {f}, s.StandsFor t' p f →
      t.placeOf p = t.placeOf (s.root f.kind) ++ f.names := by
    intro f file
    rw [← edited.placeOf_eq, ← edited.placeOf_eq]
    exact file.placeOf_eq regular'.absolute altered.nonempty
  have named : ∀ {dir names}, t.placeOf p = dir ++ names → ∀ n ∈ names, PlainName n := by
    intro dir names place n mem
    have inside : n ∈ t.placeOf p := place ▸ List.mem_append_right _ mem
    exact ⟨FileTree.isName_placeOf regular.absolute p n inside, plain n inside⟩
  have ignored : (s.locate t' p = .ok none ∨ s.locate t' p = .ok (some .script)) →
      UpToDate s' t' ∧ ∃ templates pages, s' = { s with templates, pages } := by
    intro source
    obtain rfl := (applyChange_ignored source).mp ⟨change, gone, done⟩
    refine ⟨h.of_ignored regular altered fun f read place => ?_, _, _, rfl⟩
    rw [← edited.placeOf_eq, ← edited.placeOf_eq (s'.root f.kind)] at place
    obtain ⟨path, here | here⟩ := addressed.locate regular' read place
    · rw [here] at source
      simp at source
    · rw [here] at source
      simp at source
  have sound' := sound_applyChange h.sound done
  obtain ⟨source, located⟩ := locate_of_applyChange done
  match source with
  | none => exact ignored (.inl located)
  | some .script => exact ignored (.inr located)
  | some (.template path) =>
    have text := readable_of_applyChange done (.inl located)
    obtain ⟨names, file, read, rfl⟩ := standsFor_of_template regular'.absolute altered.nonempty
      (edited.isDirectory h.templatesThere) located
    have place := placed file
    obtain ⟨templates, stored, rfl⟩ :=
      (applyChange_template h.sound located text).mp ⟨change, gone, done⟩
    exact ⟨h.of_template regular apart altered sound' ⟨named place, read⟩ place text stored,
      _, _, rfl⟩
  | some (.page path) =>
    have text := readable_of_applyChange done (.inr located)
    obtain ⟨names, file, read, rfl⟩ := standsFor_of_page regular'.absolute altered.nonempty
      (edited.isDirectory h.pagesThere) located
    have place := placed file
    obtain ⟨pages, stored, rfl⟩ := (applyChange_page h.sound located text).mp ⟨change, gone, done⟩
    exact ⟨h.of_page regular apart altered sound' ⟨named place, read⟩ place text stored,
      _, _, rfl⟩

end

/-! ### Histories -/

section
variable {s₀ s s' : Site} {t t' : FileTree}

theorem DirectoriesApart.of_roots (apart : s.DirectoriesApart t)
    (templates : s'.templatesRoot = s.templatesRoot) (pages : s'.pagesRoot = s.pagesRoot)
    (current : t'.current = t.current) : s'.DirectoriesApart t' := by
  rw [DirectoriesApart, templates, pages, FileTree.placeOf_congr current,
    FileTree.placeOf_congr current]
  exact apart

theorem History.upToDate (history : History s t s' t') (h : UpToDate s t) (regular : t.Regular)
    (apart : s.DirectoriesApart t) : UpToDate s' t' ∧ t'.Regular ∧ t'.current = t.current ∧
      ∃ templates pages, s' = { s with templates, pages } := by
  induction history with
  | start => exact ⟨h, regular, rfl, _, _, rfl⟩
  | @step s₁ t₁ p t₂ before altered plain addressed accepted ih =>
    obtain ⟨h₁, regular₁, current, templates, pages, same⟩ := ih
    obtain ⟨⟨change, gone, s₂⟩, done⟩ := Option.isSome_iff_exists.mp accepted
    have done := ok_of_toOption done
    have apart₁ : s₁.DirectoriesApart t₁ := apart.of_roots (by rw [same]) (by rw [same]) current
    obtain ⟨h₂, templates', pages', same'⟩ := h₁.step regular₁ apart₁ altered plain addressed done
    rw [handOver, done]
    exact ⟨h₂, altered.regular regular₁ plain, altered.grows.current.trans current, templates',
      pages', by rw [same', same]⟩

/-- After a history in which every path that leads to a file of the site is spelled below the
directory of its kind, the documents are those of a new loading, and a change that is refused keeps
them. -/
theorem history_keeps (plain : s₀.registered = []) (regular : t.Regular)
    (there : t.isDirectory s₀.templatesRoot) (apart : s₀.DirectoriesApart t)
    (loaded : s₀.initialise t = (.ok (), s)) (history : History s t s' t') :
    (∃ fresh, s₀.initialise t' = (.ok (), fresh) ∧ s'.templates.Alike fresh.templates ∧
      s'.pages.Alike fresh.pages) ∧
    ∀ t'' p e, s'.applyChange t'' p = .error e → s'.handOver t'' p = s' := by
  have same := (initialise_ok plain loaded).1
  have apart' : s.DirectoriesApart t := apart.of_roots (by rw [same]) (by rw [same]) rfl
  obtain ⟨h, regular', -, templates, pages, same'⟩ :=
    history.upToDate (upToDate_of_initialise plain regular there loaded) regular apart'
  obtain ⟨fresh, done, alike⟩ := h.alike regular'
  refine ⟨⟨fresh, ?_, alike⟩, fun t'' p e refused => ?_⟩
  · have anew : s'.initialise t' = s₀.initialise t' := by
      rw [same', same]
      rfl
    rw [← anew, done]
  · rw [handOver, refused]

end

/-! ### A card that is taken down -/

section
variable {t : FileTree} {p : String}

theorem write?_of_way (place : List String) (c : FileContent) (leads : t.way p = .at place)
    (free : t.hasDirectory place = false) (inside : t.hasDirectory place.dropLast) :
    t.write? p c = some { t with files := FileTree.putFile place c t.files } := by
  rw [FileTree.write?, leads]
  dsimp only
  rw [free, inside]
  rfl

theorem remove_of_way (place : List String) (leads : t.way p = .at place)
    (free : t.hasDirectory place = false) (stands : (t.content? place).isSome) :
    t.remove p = .removed { t with files := t.files.filter (·.1 != place) } := by
  rw [FileTree.remove, leads]
  dsimp only
  rw [free, stands]
  rfl

end

/-- The shop with a card and a page, and with the page alone. -/
def opened : FileTree :=
  { shelf [] "" with
    files := [(["templates", "card.html"], .text "<template id=\"x-card\">a</template>"),
      (["pages", "index.html"], .text "one")] }

def cleared : FileTree :=
  { shelf [] "" with files := [(["pages", "index.html"], .text "one")] }

theorem addressed_of_shop {s : Site} {t : FileTree} {p : String}
    (templates : s.templatesRoot = "/templates") (pages : s.pagesRoot = "/pages")
    (current : t.current = "/") (nonempty : p ≠ "")
    (straight : Path.Straight (Path.join "/" p)) : s.Addressed t p := by
  have apart : shop.DirectoriesApart {} := by
    rw [DirectoriesApart]
    decide +kernel
  refine addressed_of_straight ?_ nonempty (apart.of_roots templates pages current) ?_
    fun kind => ?_
  · rw [current]
    decide +kernel
  · rw [FileTree.absolute, current]
    exact straight
  · cases kind with
    | template =>
      rw [root, templates]
      decide +kernel
    | page =>
      rw [root, pages]
      decide +kernel

/-- A page comes, and the card goes. -/
theorem card_taken_down : ∃ s s' fresh,
    shop.initialise (shelf ["card.html"] "x-card") = (.ok (), s) ∧
    History s (shelf ["card.html"] "x-card") s' cleared ∧
    shop.initialise cleared = (.ok (), fresh) ∧ s'.pages.ids = ["index.html"] ∧
    s'.templates.Alike fresh.templates ∧ s'.pages.Alike fresh.pages := by
  have loaded : shop.initialise (shelf ["card.html"] "x-card") = (.ok (), _) :=
    initialise_eq_ok (by decide +kernel)
  have written : ((shelf ["card.html"] "x-card").makeDirectories "").2.write? "pages/index.html"
      (.text "one") = some opened :=
    write?_of_way ["pages", "index.html"] _ (by decide +kernel) (by decide +kernel)
      (by decide +kernel)
  have deleted : opened.remove "templates/card.html" = .removed cleared :=
    remove_of_way ["templates", "card.html"] (by decide +kernel) (by decide +kernel)
      (by decide +kernel)
  have addressed : ∀ {s : Site} {t : FileTree}, s.templatesRoot = "/templates" →
      s.pagesRoot = "/pages" → t.current = "/" →
      s.Addressed t "pages/index.html" ∧ s.Addressed t "templates/card.html" :=
    fun templates pages current =>
      ⟨addressed_of_shop templates pages current (by decide) (by decide +kernel),
        addressed_of_shop templates pages current (by decide) (by decide +kernel)⟩
  have first := History.start.step (s := (shop.initialise (shelf ["card.html"] "x-card")).2)
    (.written written) (by decide +kernel)
    (addressed (by decide +kernel) (by decide +kernel) rfl).1 (by decide +kernel)
  have history := first.step (.deleted deleted) (by decide +kernel)
    (addressed (by decide +kernel) (by decide +kernel) rfl).2 (by decide +kernel)
  have apart : shop.DirectoriesApart (shelf ["card.html"] "x-card") := by
    rw [DirectoriesApart]
    decide +kernel
  obtain ⟨⟨fresh, rebuilt, alike⟩, -⟩ := history_keeps rfl
    ⟨by decide +kernel, by decide +kernel, by decide +kernel⟩ (by decide +kernel) apart loaded
    history
  exact ⟨_, _, fresh, loaded, history, rebuilt, by decide +kernel, alike⟩

/-! ### A detour -/

/-- The pages are found by way of the directory of templates. -/
def workshop : Site := .ofConfig { pagesDir := "templates/../pages" } {}

/-- The only page of the workshop. -/
def bench (content : String) : FileTree where
  directories := [["pages"], ["templates"]]
  files := [(["templates", "card.html"], .text "<template id=\"x-card\">c</template>"),
      (["pages", "index.html"], .text content)]

/-- A page whose directory is reached by a step up behind the directory of templates is written
again, and its change is accepted and lost. -/
theorem detour_change_lost : ∃ s s' fresh change gone,
    workshop.registered = [] ∧ (bench "one").Regular ∧
    (bench "one").isDirectory workshop.templatesRoot ∧
    (bench "one").isDirectory workshop.pagesRoot ∧ workshop.DirectoriesApart (bench "one") ∧
    workshop.initialise (bench "one") = (.ok (), s) ∧
    (bench "one").write? "/templates/../pages/index.html" (.text "two") = some (bench "two") ∧
    s.applyChange (bench "two") "/templates/../pages/index.html" = .ok (change, gone, s') ∧
    workshop.initialise (bench "two") = (.ok (), fresh) ∧ ¬ s'.pages.Alike fresh.pages := by
  have kept : ((workshop.initialise (bench "one")).2.applyChange (bench "two")
      "/templates/../pages/index.html").toOption.map
      (fun r => r.2.2.pages.items.map (·.content)) = some ["one"] := by decide +kernel
  obtain ⟨⟨change, gone, s'⟩, done, old⟩ := Option.map_eq_some_iff.mp kept
  have new : (workshop.initialise (bench "two")).2.pages.items.map (·.content) = ["two"] := by
    decide +kernel
  refine ⟨_, s', _, change, gone, rfl, ⟨by decide +kernel, by decide +kernel, by decide +kernel⟩,
    by decide +kernel, by decide +kernel, ?_, initialise_eq_ok (by decide +kernel),
    write?_of_way ["pages", "index.html"] _ (by decide +kernel) (by decide +kernel)
      (by decide +kernel), ok_of_toOption done, initialise_eq_ok (by decide +kernel), ?_⟩
  · rw [DirectoriesApart]
    decide +kernel
  · intro alike
    have same := alike.items.map (·.content)
    rw [new] at same
    dsimp only at old
    rw [old] at same
    exact absurd same (by decide)

end Stencil.Site
