import Stencil.Proofs.Collection.Edit
import Stencil.Proofs.Files.Listing
import Stencil.Proofs.Site.Reached
/-!
What loading comes to. Of several records with one path the last one counts, so a loaded collection
can be told from the files that make records of each path.
-/
namespace Stencil.Site
open Markup

section
variable {α : Type} {schema : Schema α Markup.Error} {idOf : Item α → Option String}
  {c c' : Collection α}

/-- A document has the aliases of the last record of its path. -/
theorem loadAll_ok (lets : Collection.Open schema idOf) {rs : List Record}
    (sound : Collection.Sound schema.uses c) (done : loadAll schema c rs = (.ok (), c')) :
    Collection.Sound schema.uses c' ∧ (∀ r ∈ rs, ∃ result, schema.parse r = .ok result) ∧
      ∀ path a, c'.Held path a ↔
        match (rs.filter (·.path.pathname = path)).getLast? with
        | some r => a ∈ (Collection.Edit.store r).aliases schema idOf
        | none => c.Held path a := by
  induction rs generalizing c with
  | nil =>
    cases done
    exact ⟨sound, fun r mem => absurd mem List.not_mem_nil, fun path a => Iff.rfl⟩
  | cons r rs ih =>
    rw [loadAll] at done
    split at done
    · cases done
    · next out c₁ stored =>
      cases parsed : schema.parse r with
      | error e =>
        rw [Collection.set_of_parse_error parsed] at stored
        cases stored
      | ok result =>
        have edit : c.edit schema (.store r) = .ok c₁ := by
          rw [Collection.edit, stored]
          rfl
        have reads : ∀ r', Collection.Edit.store r = .store r' →
            ∃ result, schema.parse r' = .ok result := by
          rintro _ ⟨⟩
          exact ⟨result, parsed⟩
        obtain ⟨sound₁, at?_eq⟩ :=
          Collection.edit_ok sound lets reads (fun path same => by cases same) edit
        obtain ⟨sound', parses, held⟩ := ih sound₁ done
        refine ⟨sound', fun r' mem => ?_, fun path a => ?_⟩
        · rcases List.mem_cons.mp mem with rfl | mem
          · exact ⟨result, parsed⟩
          · exact parses r' mem
        · -- the record counts unless one that follows has its path
          rw [held]
          by_cases own : r.path.pathname = path
          · rw [List.filter_cons_of_pos (by simpa using own), List.getLast?_cons]
            cases (rs.filter (·.path.pathname = path)).getLast? with
            | some r' => rfl
            | none =>
              show c₁.Held path a ↔ a ∈ (Collection.Edit.store r).aliases schema idOf
              have own : path = (Collection.Edit.store r).path := own.symm
              rw [Collection.Held, at?_eq, if_pos own]
              exact Collection.held_edited parsed
          · rw [List.filter_cons_of_neg (by simpa using own)]
            cases (rs.filter (·.path.pathname = path)).getLast? with
            | some r' => rfl
            | none =>
              show c₁.Held path a ↔ c.Held path a
              have other : path ≠ (Collection.Edit.store r).path := Ne.symm own
              rw [Collection.Held, at?_eq, if_neg other, Collection.Held]

/-- A collection is what the files of a directory come to. -/
structure Loads (schema : Schema α Markup.Error) (idOf : Item α → Option String) (t : FileTree)
    (dir : String) (extensions exclude : List String) (c : Collection α) : Prop where
  sound : Collection.Sound schema.uses c
  texts : t.isDirectory dir → ∀ path,
    ∀ f ∈ t.sources (t.placeOf dir) extensions exclude path, (recordOf? f).isSome
  parses : t.isDirectory dir → ∀ path,
    ∀ r ∈ (t.sources (t.placeOf dir) extensions exclude path).filterMap recordOf?,
      ∃ result, schema.parse r = .ok result
  held_iff : ∀ path a, c.Held path a ↔ t.isDirectory dir ∧ ∃ r,
    ((t.sources (t.placeOf dir) extensions exclude path).filterMap recordOf?).getLast? = some r ∧
      a ∈ (Collection.Edit.store r).aliases schema idOf

variable {t : FileTree} {dir : String} {extensions exclude : List String} {rs : List Record}

theorem loads_of_enumerate (lets : Collection.Open schema idOf)
    (listed : t.enumerate dir extensions exclude = .ok rs)
    (done : loadAll schema {} rs = (.ok (), c)) : Loads schema idOf t dir extensions exclude c := by
  obtain ⟨leads, directory, records⟩ := FileTree.enumerate_ok listed
  obtain ⟨sound, parses, held⟩ := loadAll_ok lets (Collection.sound_empty _) done
  have there : t.isDirectory dir := by
    rw [FileTree.isDirectory, leads]
    exact directory
  refine ⟨sound, fun _ path => (records path).2, fun _ path r mem => ?_, fun path a => ?_⟩
  · rw [← (records path).1] at mem
    exact parses r (List.mem_filter.mp mem).1
  · rw [held, (records path).1]
    cases last : ((t.sources (t.placeOf dir) extensions exclude path).filterMap
        recordOf?).getLast? with
    | none =>
      constructor
      · rintro ⟨e, found, -⟩
        cases found
      · rintro ⟨-, r, found, -⟩
        cases found
    | some r =>
      constructor
      · intro mem
        exact ⟨there, r, rfl, mem⟩
      · rintro ⟨-, r', same, mem⟩
        cases same
        exact mem

/-- Nothing is loaded from a directory that is missing. -/
theorem loads_of_missing (missing : ¬ t.isDirectory dir) :
    Loads schema idOf t dir extensions exclude {} where
  sound := Collection.sound_empty _
  texts there := absurd there missing
  parses there := absurd there missing
  held_iff path a := by
    constructor
    · rintro ⟨e, found, -⟩
      cases found
    · rintro ⟨there, -⟩
      exact absurd there missing

end

/-! ### Loading a site -/

section
variable {s₀ s s' : Site} {t : FileTree} {rs : List Record}

theorem loadTemplates_ok (done : s.loadTemplates rs = (.ok (), s')) :
    loadAll s.templateSchema s.templates rs = (.ok (), s'.templates) ∧
      s' = { s with templates := s'.templates } := by
  obtain ⟨result, after⟩ := Prod.mk.inj done
  subst after
  exact ⟨Prod.ext result rfl, rfl⟩

theorem loadPages_ok (done : s.loadPages rs = (.ok (), s')) :
    loadAll s.pageSchema s.pages rs = (.ok (), s'.pages) ∧ s' = { s with pages := s'.pages } := by
  obtain ⟨result, after⟩ := Prod.mk.inj done
  subst after
  exact ⟨Prod.ext result rfl, rfl⟩

theorem loadRead_ok {records : Except SiteError (List Record)}
    {load : Site → List Record → Except SiteError Unit × Site}
    (done : s.loadRead records load = (.ok (), s')) :
    ∃ rs, records = .ok rs ∧ load s rs = (.ok (), s') := by
  cases records with
  | error e => cases done
  | ok rs => exact ⟨rs, rfl, done⟩

/-- What loading has done when it has not failed. -/
theorem initialise_ok (plain : s₀.registered = []) (done : s₀.initialise t = (.ok (), s)) :
    s = { s₀ with plugins := [], templates := s.templates, pages := s.pages } ∧
      (∃ rs, s.templateRecords t = .ok rs ∧
        loadAll s.templateSchema {} rs = (.ok (), s.templates)) ∧
      ∃ rs, s.pageRecords t = .ok rs ∧ loadAll s.pageSchema {} rs = (.ok (), s.pages) := by
  obtain ⟨config, pagesRoot, templatesRoot, registered, plugins, templates, pages⟩ := s₀
  obtain rfl : registered = [] := plain
  rw [initialise] at done
  split at done
  · cases done
  · next s₁ first =>
    obtain ⟨-, start⟩ := loadTemplates_ok first
    have empty : s₁.templates = {} := (Prod.mk.inj first).2 ▸ rfl
    rw [empty] at start
    subst start
    split at done
    · cases done
    · next s₂ second =>
      obtain ⟨rs, listed, second⟩ := loadRead_ok second
      obtain ⟨rs', listed', third⟩ := loadRead_ok done
      obtain ⟨loaded, after⟩ := loadTemplates_ok second
      obtain ⟨loaded', after'⟩ := loadPages_ok third
      rw [after] at after' listed' loaded'
      rw [after']
      exact ⟨rfl, ⟨rs, listed, loaded⟩, rs', listed', loaded'⟩

end

theorem loads_of_initialise {s₀ s : Site} {t : FileTree} (plain : s₀.registered = [])
    (done : s₀.initialise t = (.ok (), s)) :
    Loads s.templateSchema templateKey t s.templatesRoot templateExtensions s.config.exclude
      s.templates ∧
    Loads s.pageSchema pageKey t s.pagesRoot pageExtensions s.config.exclude s.pages := by
  obtain ⟨same, ⟨rs, listed, loaded⟩, rs', listed', loaded'⟩ := initialise_ok plain done
  have unplugged : s.plugins = [] := by rw [same]
  constructor
  · rw [templateRecords] at listed
    split at listed
    · exact loads_of_enumerate (templateSchema_open unplugged) (ok_of_mapError listed) loaded
    · next missing =>
      cases listed
      rw [← (Prod.mk.inj loaded).2]
      exact loads_of_missing missing
  · exact loads_of_enumerate (pageSchema_open unplugged) (ok_of_mapError listed') loaded'

end Stencil.Site
