import Stencil.Proofs.Collection.Sound
import Stencil.Proofs.Collection.Tables
import Stencil.Proofs.Result
import Stencil.Site.Change
/-!
The sites that calls lead to, in any order and with any files, failures of loading included. Their
collections are sound. A collection has one table for the ids that its templates declare and for the
paths of their files, and the library looks names up in that table: a name finds the template that
declares it, and the template whose file has it as its path as well.
-/
namespace Stencil.Site
open Markup

inductive Reached : Site → Prop where
  | ofConfig (config : SiteConfig) (t : FileTree) : Reached (ofConfig config t)
  | register {s p s'} (before : Reached s) (done : s.register p = .ok s') : Reached s'
  | initialise {s} (before : Reached s) (t : FileTree) : Reached (s.initialise t).2
  | applyChange {s t p change gone s'} (before : Reached s)
      (done : s.applyChange t p = .ok (change, gone, s')) : Reached s'
  | remove {s t p change gone s'} (before : Reached s)
      (done : s.remove t p = .ok (change, gone, s')) : Reached s'

def templateKey (item : Item Component) : Option String := some item.result.id

def pageKey (_ : Item Page) : Option String := none

theorem templateSchema_keys (s : Site) : Collection.Keys s.templateSchema templateKey where
  set item := by
    simp only [templateSchema, Schema.guarded]
    split
    · exact .inr rfl
    · exact .inl rfl
  update old next := by
    simp only [templateSchema, Schema.guarded]
    split
    · exact .inr rfl
    · exact .inl rfl

theorem pageSchema_keys (s : Site) : Collection.Keys s.pageSchema pageKey where
  set item := by
    simp only [pageSchema, Schema.guarded]
    split
    · exact .inr rfl
    · exact .inl rfl
  update old next := by
    simp only [pageSchema, Schema.guarded]
    split
    · exact .inr rfl
    · exact .inl rfl

theorem templateSchema_open {s : Site} (plain : s.plugins = []) :
    Collection.Open s.templateSchema templateKey where
  set item := by simp only [templateSchema, Schema.guarded, plain]; rfl
  update old next := by simp only [templateSchema, Schema.guarded, plain]; rfl

theorem pageSchema_open {s : Site} (plain : s.plugins = []) :
    Collection.Open s.pageSchema pageKey where
  set item := by simp only [pageSchema, Schema.guarded, plain]; rfl
  update old next := by simp only [pageSchema, Schema.guarded, plain]; rfl

theorem mem_aliasesOf {path : FilePath} {id a : String} :
    a ∈ Collection.aliasesOf path (some id) ↔ a = id ∨ a = path.pathname := by
  rw [Collection.aliasesOf]
  split
  · next same => simp [same]
  · simp

/-! ### Collections of templates -/

/-- Templates that are found by their ids and paths. -/
structure Templates (c : Collection Component) : Prop where
  sound : Collection.Sound (fun c => c.document.uses) c
  aliases : ∀ {path e}, c.at? path = some e → ∀ a, a ∈ e.aliases ↔ a = e.item.result.id ∨ a = path

theorem templates_empty : Templates {} where
  sound := Collection.sound_empty _
  aliases h := by cases h

theorem Templates.of_stores {s : Site} {c c' : Collection Component} {item : Item Component}
    (h : Templates c) (stores : Collection.Stores s.templateSchema c item
      (Collection.aliasesOf item.path (templateKey item)) c') : Templates c' where
  sound := stores.sound
  aliases := by
    intro path e found a
    rw [stores.at?_eq] at found
    split at found
    · next same =>
      cases found
      rw [same, Collection.stored]
      split
      · exact mem_aliasesOf
      · exact mem_aliasesOf
    · exact h.aliases found a

theorem Templates.of_set {s : Site} {c c' : Collection Component} {r : Record} {out : Outcome}
    (h : Templates c) (done : c.set s.templateSchema r = .ok (out, c')) : Templates c' := by
  rcases Collection.set_ok h.sound s.templateSchema_keys done with ⟨-, rfl⟩ |
    ⟨-, result, -, -, stores⟩
  · exact h
  · exact h.of_stores stores

theorem Templates.of_delete {c c' : Collection Component} {a : String}
    {item : Option (Item Component)} (h : Templates c) (done : c.delete a = (item, c')) :
    Templates c' := by
  cases found : c.get? a with
  | none =>
    rw [Collection.delete_none found h.sound.toKeyed] at done
    cases done
    exact h
  | some i =>
    obtain ⟨e, c'', gone, rfl, -, -, sound, at?_eq⟩ := Collection.delete_some h.sound found
    rw [gone] at done
    cases done
    refine ⟨sound, fun {path e'} found' => ?_⟩
    rw [at?_eq] at found'
    split at found'
    · cases found'
    · exact h.aliases found'

theorem templates_loadAll {s : Site} (rs : List Record) {c : Collection Component}
    (h : Templates c) : Templates (loadAll s.templateSchema c rs).2 := by
  induction rs generalizing c with
  | nil => exact h
  | cons r rest ih =>
    rw [loadAll]
    split
    · exact h
    · next out c' done => exact ih (h.of_set done)

/-! ### Collections of pages -/

theorem pages_of_set {s : Site} {c c' : Collection Page} {r : Record} {out : Outcome}
    (h : Collection.Sound s.pageSchema.uses c) (done : c.set s.pageSchema r = .ok (out, c')) :
    Collection.Sound s.pageSchema.uses c' := by
  rcases Collection.set_ok h s.pageSchema_keys done with ⟨-, rfl⟩ | ⟨-, result, -, -, stores⟩
  · exact h
  · exact stores.sound

theorem pages_loadAll {s : Site} (rs : List Record) {c : Collection Page}
    (h : Collection.Sound s.pageSchema.uses c) :
    Collection.Sound s.pageSchema.uses (loadAll s.pageSchema c rs).2 := by
  induction rs generalizing c with
  | nil => exact h
  | cons r rest ih =>
    rw [loadAll]
    split
    · exact h
    · next out c' done => exact ih (pages_of_set h done)

theorem pages_of_delete {uses : Page → List String} {c c' : Collection Page} {a : String}
    {item : Option (Item Page)} (h : Collection.Sound uses c) (done : c.delete a = (item, c')) :
    Collection.Sound uses c' := by
  cases found : c.get? a with
  | none =>
    rw [Collection.delete_none found h.toKeyed] at done
    cases done
    exact h
  | some i =>
    obtain ⟨e, c'', gone, -, -, -, sound, -⟩ := Collection.delete_some h found
    rw [gone] at done
    cases done
    exact sound

/-- Pages that are found by their paths alone. -/
structure Pages (c : Collection Page) : Prop where
  sound : Collection.Sound (fun p => p.document.uses) c
  aliases : ∀ {path e}, c.at? path = some e → e.aliases = [path]

theorem pages_empty : Pages {} where
  sound := Collection.sound_empty _
  aliases h := by cases h

theorem Pages.of_set {s : Site} {c c' : Collection Page} {r : Record} {out : Outcome}
    (h : Pages c) (done : c.set s.pageSchema r = .ok (out, c')) : Pages c' := by
  rcases Collection.set_ok h.sound s.pageSchema_keys done with ⟨-, rfl⟩ |
    ⟨-, result, -, -, stores⟩
  · exact h
  · refine ⟨stores.sound, fun {path e} found => ?_⟩
    rw [stores.at?_eq] at found
    split at found
    · next same =>
      cases found
      rw [same, Collection.stored]
      split
      · rfl
      · rfl
    · exact h.aliases found

theorem Pages.of_delete {c c' : Collection Page} {a : String} {item : Option (Item Page)}
    (h : Pages c) (done : c.delete a = (item, c')) : Pages c' := by
  cases found : c.get? a with
  | none =>
    rw [Collection.delete_none found h.sound.toKeyed] at done
    cases done
    exact h
  | some i =>
    obtain ⟨e, c'', gone, -, -, -, sound, at?_eq⟩ := Collection.delete_some h.sound found
    rw [gone] at done
    cases done
    refine ⟨sound, fun {path e'} found' => ?_⟩
    rw [at?_eq] at found'
    split at found'
    · cases found'
    · exact h.aliases found'

theorem Pages.of_loadAll {s : Site} (rs : List Record) {c : Collection Page} (h : Pages c) :
    Pages (loadAll s.pageSchema c rs).2 := by
  induction rs generalizing c with
  | nil => exact h
  | cons r rest ih =>
    rw [loadAll]
    split
    · exact h
    · next out c' done => exact ih (h.of_set done)

/-! ### Calls -/

structure Sound (s : Site) : Prop where
  templates : Templates s.templates
  pages : Collection.Sound (fun p => p.document.uses) s.pages

theorem sound_loadTemplates {s : Site} (h : Sound s) (rs : List Record) :
    Sound (s.loadTemplates rs).2 :=
  ⟨templates_loadAll rs h.templates, h.pages⟩

theorem sound_loadPages {s : Site} (h : Sound s) (rs : List Record) : Sound (s.loadPages rs).2 :=
  ⟨h.templates, pages_loadAll rs h.pages⟩

theorem sound_loadRead {s : Site} (h : Sound s) (records : Except SiteError (List Record))
    {load : Site → List Record → Except SiteError Unit × Site}
    (step : ∀ rs, Sound (load s rs).2) : Sound (s.loadRead records load).2 := by
  cases records with
  | error e => exact h
  | ok rs => exact step rs

theorem sound_initialise (s : Site) (t : FileTree) : Sound (s.initialise t).2 := by
  have start : Sound { s with plugins := s.registered, templates := {}, pages := {} } :=
    ⟨templates_empty, Collection.sound_empty _⟩
  rw [initialise]
  have first := sound_loadTemplates start
    (s.registered.flatMap fun p => p.templates.map (pluginRecord p))
  split
  · next e s' loaded =>
    rw [loaded] at first
    exact first
  · next s' loaded =>
    rw [loaded] at first
    have second := sound_loadRead first (s'.templateRecords t) (sound_loadTemplates first)
    split
    · next e s'' read =>
      rw [read] at second
      exact second
    · next s'' read =>
      rw [read] at second
      exact sound_loadRead second _ (sound_loadPages second)

/-- What storing a template file has done, and which pages it names. -/
theorem storeTemplate_ok {s s' : Site} {path content : String} {change : Change}
    (done : s.storeTemplate path content = .ok (change, s')) :
    ∃ out templates, s.templates.set s.templateSchema (.ofText path content) =
        .ok (out, templates) ∧ s' = { s with templates } ∧
      change = if out = .skipped then {} else
        { recompile := distinct (((s.templateId? path).toList ++
            (s'.templateId? path).toList).flatMap s'.dependents) } := by
  obtain ⟨⟨out, templates⟩, set, rest⟩ := ok_of_bind done
  have set := ok_of_mapError set
  dsimp only at rest
  split at rest
  · next skipped =>
    cases rest
    exact ⟨out, templates, set, rfl, (if_pos skipped).symm⟩
  · next stored =>
    cases rest
    exact ⟨out, templates, set, rfl, (if_neg stored).symm⟩

theorem storePage_ok {s s' : Site} {path content : String} {change : Change}
    (done : s.storePage path content = .ok (change, s')) :
    ∃ out pages, s.pages.set s.pageSchema (.ofText path content) = .ok (out, pages) ∧
      s' = { s with pages } := by
  obtain ⟨⟨out, pages⟩, set, rest⟩ := ok_of_bind done
  cases rest
  exact ⟨out, pages, ok_of_mapError set, rfl⟩

section
variable {s : Site} {t : FileTree} {p path content : String}

theorem remove_unheld (source : s.locate t p = .ok (some (.template path)))
    (unheld : s.templateId? path = none) : s.remove t p = .ok ({}, [], s) := by
  rw [remove, source]
  simp only [bind, Except.bind, unheld]
  rfl

theorem remove_held {id : String} (source : s.locate t p = .ok (some (.template path)))
    (held : s.templateId? path = some id) :
    s.remove t p = .ok ({ recompile := s.dependents id },
      (s.templates.delete path).1.toList.map .template,
      { s with templates := (s.templates.delete path).2 }) := by
  rw [remove, source]
  simp only [bind, Except.bind, held]
  rfl

theorem applyChange_of_missing (missing : ¬ t.isFile p) : s.applyChange t p = s.remove t p := by
  rw [applyChange, if_pos (by simpa using missing)]

theorem readChanged_ok (read : t.readText? p = some content) : readChanged t p = .ok content := by
  rw [readChanged, read]

theorem applyChange_of_template (source : s.locate t p = .ok (some (.template path)))
    (stands : t.isFile p) (read : t.readText? p = some content) :
    s.applyChange t p =
      (s.storeTemplate path content).map fun done => (done.1, [], done.2) := by
  rw [applyChange, if_neg (by simpa using stands), source]
  simp only [bind, Except.bind, readChanged_ok read]
  cases s.storeTemplate path content with
  | error e => rfl
  | ok done => rfl

theorem applyChange_of_page (source : s.locate t p = .ok (some (.page path)))
    (stands : t.isFile p) (read : t.readText? p = some content) :
    s.applyChange t p =
      (s.storePage path content).map fun done => (done.1, [], done.2) := by
  rw [applyChange, if_neg (by simpa using stands), source]
  simp only [bind, Except.bind, readChanged_ok read]
  cases s.storePage path content with
  | error e => rfl
  | ok done => rfl

end

/-- What the change of a file does to the collections: it stores or deletes one document at most. -/
inductive Stepped (s : Site) : Site → Prop where
  | same : Stepped s s
  | pageStored {r out pages} (done : s.pages.set s.pageSchema r = .ok (out, pages)) :
      Stepped s { s with pages }
  | pageDeleted (path : String) : Stepped s { s with pages := (s.pages.delete path).2 }
  | templateStored {r out templates}
      (done : s.templates.set s.templateSchema r = .ok (out, templates)) :
      Stepped s { s with templates }
  | templateDeleted (path : String) :
      Stepped s { s with templates := (s.templates.delete path).2 }

section
variable {s s' : Site} {t : FileTree} {p : String} {change : Change} {gone : List Deletion}

theorem stepped_remove (done : s.remove t p = .ok (change, gone, s')) : Stepped s s' := by
  obtain ⟨source, -, rest⟩ := ok_of_bind done
  split at rest
  · cases rest
    exact .same
  · cases rest
    exact .same
  · split at rest
    · cases rest
      exact .same
    · next item pages deleted =>
      cases rest
      obtain rfl : _ = pages := congrArg Prod.snd deleted
      exact .pageDeleted _
  · split at rest
    · cases rest
      exact .same
    · cases rest
      exact .templateDeleted _

theorem stepped_applyChange (done : s.applyChange t p = .ok (change, gone, s')) :
    Stepped s s' := by
  rw [applyChange] at done
  split at done
  · exact stepped_remove done
  · obtain ⟨source, -, rest⟩ := ok_of_bind done
    split at rest
    · cases rest
      exact .same
    · cases rest
      exact .same
    · obtain ⟨content, -, rest⟩ := ok_of_bind rest
      obtain ⟨⟨change, s''⟩, stored, rest⟩ := ok_of_bind rest
      cases rest
      obtain ⟨out, pages, set, rfl⟩ := storePage_ok stored
      exact .pageStored set
    · obtain ⟨content, -, rest⟩ := ok_of_bind rest
      obtain ⟨⟨change, s''⟩, stored, rest⟩ := ok_of_bind rest
      cases rest
      obtain ⟨out, templates, set, rfl, -⟩ := storeTemplate_ok stored
      exact .templateStored set

theorem Sound.stepped (h : Sound s) (step : Stepped s s') : Sound s' := by
  cases step with
  | same => exact h
  | pageStored done => exact ⟨h.templates, pages_of_set h.pages done⟩
  | pageDeleted path => exact ⟨h.templates, pages_of_delete h.pages rfl⟩
  | templateStored done => exact ⟨h.templates.of_set done, h.pages⟩
  | templateDeleted path => exact ⟨h.templates.of_delete rfl, h.pages⟩

theorem sound_remove (h : Sound s) (done : s.remove t p = .ok (change, gone, s')) : Sound s' :=
  h.stepped (stepped_remove done)

theorem sound_applyChange (h : Sound s) (done : s.applyChange t p = .ok (change, gone, s')) :
    Sound s' :=
  h.stepped (stepped_applyChange done)

theorem Pages.stepped (h : Pages s.pages) (step : Stepped s s') : Pages s'.pages := by
  cases step with
  | same => exact h
  | pageStored done => exact h.of_set done
  | pageDeleted path => exact h.of_delete rfl
  | templateStored done => exact h
  | templateDeleted path => exact h

end

theorem Reached.sound {s : Site} (h : Reached s) : Sound s := by
  induction h with
  | ofConfig config t => exact ⟨templates_empty, Collection.sound_empty _⟩
  | register before done ih =>
    rw [Site.register] at done
    split at done
    · cases done
    · cases done
      exact ⟨ih.templates, ih.pages⟩
  | initialise before t ih => exact sound_initialise _ t
  | applyChange before done ih => exact sound_applyChange ih done
  | remove before done ih => exact sound_remove ih done

/-! ### The names of pages -/

theorem pages_loadRead_templates (s : Site) (records : Except SiteError (List Record)) :
    (s.loadRead records loadTemplates).2.pages = s.pages := by
  cases records <;> rfl

theorem pages_initialise (s : Site) (t : FileTree) : Pages (s.initialise t).2.pages := by
  rw [initialise]
  dsimp only
  split
  · next e s' loaded =>
    have pages := congrArg (·.2.pages) loaded
    exact pages ▸ pages_empty
  · next s' loaded =>
    have pages : s'.pages = {} := (congrArg (·.2.pages) loaded).symm
    have second := pages_loadRead_templates s' (s'.templateRecords t)
    split
    · next e s'' read =>
      rw [read] at second
      exact (second.trans pages).symm ▸ pages_empty
    · next s'' read =>
      rw [read] at second
      have start : Pages s''.pages := (second.trans pages).symm ▸ pages_empty
      cases s''.pageRecords t with
      | error e => exact start
      | ok rs => exact Pages.of_loadAll rs start

theorem Reached.pages {s : Site} (h : Reached s) : Pages s.pages := by
  induction h with
  | ofConfig config t => exact pages_empty
  | register before done ih =>
    rw [Site.register] at done
    split at done
    · cases done
    · cases done
      exact ih
  | initialise before t ih => exact pages_initialise _ t
  | applyChange before done ih => exact ih.stepped (stepped_applyChange done)
  | remove before done ih => exact ih.stepped (stepped_remove done)

end Stencil.Site

namespace Stencil.Site
open Markup

/-- The templates after calls, each of them made with the schema that a site then has: its
directory, its rules and its plugins. -/
def templatesAfter (calls : List (Site × Collection.Call)) : Collection Component :=
  Collection.afterAll {} (calls.map fun made => (made.1.templateSchema, made.2))

theorem templates_after {s : Site} {c : Collection Component} (h : Templates c)
    (call : Collection.Call) : Templates (c.after s.templateSchema call) := by
  have store : ∀ r, Templates (c.afterStore (c.set s.templateSchema r)) := by
    intro r
    cases done : c.set s.templateSchema r with
    | ok made => exact h.of_set done
    | error e => exact h
  cases call with
  | set r => exact store r
  | update r =>
    rw [Collection.after, Collection.update_eq_set]
    exact store r
  | delete name => exact h.of_delete rfl

theorem templates_afterAll (calls : List (Site × Collection.Call)) {c : Collection Component}
    (h : Templates c) :
    Templates (c.afterAll (calls.map fun made => (made.1.templateSchema, made.2))) := by
  induction calls generalizing c with
  | nil => exact h
  | cons made calls ih => exact ih (templates_after h made.2)

theorem Templates.get?_iff {c : Collection Component} (h : Templates c) {name : String}
    {item : Item Component} :
    c.get? name = some item ↔
      item ∈ c.items ∧ (item.result.id = name ∨ item.path.pathname = name) := by
  rw [Collection.get?_eq_some h.sound.toKeyed, Collection.mem_items h.sound.toKeyed]
  constructor
  · rintro ⟨e, stands, mem, rfl⟩
    exact ⟨⟨e, stands, rfl⟩, ((h.aliases stands name).mp mem).imp Eq.symm Eq.symm⟩
  · rintro ⟨⟨e, stands, rfl⟩, named⟩
    exact ⟨e, stands, (h.aliases stands name).mpr (named.imp Eq.symm Eq.symm), rfl⟩

/-- A name finds a component exactly if a template declares it, and finds one of that id. -/
structure FindsById (library : Library) (templates : Collection Component) (name : String) :
    Prop where
  found_iff : (∃ c, library.component? name = some c) ↔
    ∃ item ∈ templates.items, item.result.id = name
  id_eq : ∀ c, library.component? name = some c → c.id = name

/-- A name finds the templates that declare it and the template of the file that has it as its path.
So it is looked up among the ids alone exactly if no template of another id stands in that file. -/
theorem component?_by_id_iff (calls : List (Site × Collection.Call)) (pages : Collection Page)
    (name : String) :
    (∀ c, (Library.ofCollections (templatesAfter calls) pages).component? name = some c ↔
      ∃ item ∈ (templatesAfter calls).items, item.result = c ∧
        (c.id = name ∨ item.path.pathname = name)) ∧
    (FindsById (.ofCollections (templatesAfter calls) pages) (templatesAfter calls) name ↔
      ∀ item ∈ (templatesAfter calls).items, item.path.pathname = name →
        item.result.id = name) := by
  have table : Templates (templatesAfter calls) := templates_afterAll calls templates_empty
  have found_iff : ∀ c, (Library.ofCollections (templatesAfter calls) pages).component? name =
      some c ↔ ∃ item ∈ (templatesAfter calls).items, item.result = c ∧
        (c.id = name ∨ item.path.pathname = name) := by
    intro c
    rw [Library.ofCollections, Option.map_eq_some_iff]
    constructor
    · rintro ⟨item, found, rfl⟩
      obtain ⟨stands, named⟩ := table.get?_iff.mp found
      exact ⟨item, stands, rfl, named⟩
    · rintro ⟨item, stands, rfl, named⟩
      exact ⟨item, table.get?_iff.mpr ⟨stands, named⟩, rfl⟩
  refine ⟨found_iff, fun byId item stands path => ?_, fun declared => ⟨?_, ?_⟩⟩
  · exact byId.id_eq _ ((found_iff _).mpr ⟨item, stands, rfl, .inr path⟩)
  · constructor
    · rintro ⟨c, found⟩
      obtain ⟨item, stands, rfl, own | path⟩ := (found_iff c).mp found
      · exact ⟨item, stands, own⟩
      · exact ⟨item, stands, declared item stands path⟩
    · rintro ⟨item, stands, own⟩
      exact ⟨_, (found_iff _).mpr ⟨item, stands, rfl, .inl own⟩⟩
  · intro c found
    obtain ⟨item, stands, rfl, own | path⟩ := (found_iff c).mp found
    · exact own
    · exact declared item stands path

/-- A template of another id in the file that is named like an element. -/
def misnamed : List (Site × Collection.Call) :=
  [({ config := {}, pagesRoot := "pages", templatesRoot := "templates" },
    .set (.ofText "x-card.html" "<template id=\"x-other\">a</template>"))]

/-- An element may be named like a file, and then it gets the template of the file, which has
another id. -/
theorem misnamed_found_by_path :
    Name.isCustom "x-card.html" ∧
    (templatesAfter misnamed).items.map (·.result.id) = ["x-other"] ∧
    ((Library.ofCollections (templatesAfter misnamed) {}).component? "x-card.html").map (·.id) =
      some "x-other" ∧
    ¬ FindsById (.ofCollections (templatesAfter misnamed) {}) (templatesAfter misnamed)
      "x-card.html" := by
  have found : ((Library.ofCollections (templatesAfter misnamed) {}).component? "x-card.html").map
      (·.id) = some "x-other" := by decide +kernel
  refine ⟨by decide +kernel, by decide +kernel, found, fun byId => ?_⟩
  obtain ⟨c, known, other⟩ := Option.map_eq_some_iff.mp found
  have own := byId.id_eq c known
  rw [other] at own
  exact absurd own (by decide)

end Stencil.Site
