import Stencil.Proofs.Expansion.Reach
import Stencil.Proofs.Files.Path
import Stencil.Proofs.Site.Reached
/-!
Which pages a change of a template file has to do with. The walk that looks for them goes backwards
through the uses of names; expansion goes forwards. A page that the walk does not come to looks up
nothing that the change has touched.
-/
namespace Stencil.Site
open Markup Expansion

/-! ### The walk -/

theorem subset_closure (users : String → List String) (left pending : List String) :
    ∀ n ∈ pending, n ∈ closure users left pending := by
  induction left, pending using closure.induct users with
  | case1 left => exact fun n mem => by cases mem
  | case2 left name rest ih =>
    intro n mem
    rw [closure]
    rcases List.mem_cons.mp mem with rfl | mem
    · exact List.mem_cons_self
    · exact List.mem_cons_of_mem _ (ih n (List.mem_append_right _ mem))

/-- Users of a name that has been found are found, unless the walk does not look for them. -/
theorem closure_closed (users : String → List String) (left pending : List String) :
    ∀ n ∈ closure users left pending, ∀ m ∈ users n, m ∈ left → m ∈ closure users left pending := by
  induction left, pending using closure.induct users with
  | case1 left => exact fun n mem => by rw [closure] at mem; cases mem
  | case2 left name rest ih =>
    intro n found m user wanted
    rw [closure] at found ⊢
    refine List.mem_cons_of_mem _ ?_
    by_cases direct : m ∈ users name
    · refine subset_closure users _ _ m (List.mem_append_left _ ?_)
      exact List.mem_filter.mpr ⟨wanted, List.contains_iff_mem.mpr direct⟩
    · have still : m ∈ (divide (users name) left).2 := by
        refine List.mem_filter.mpr ⟨wanted, ?_⟩
        simpa using direct
      rcases List.mem_cons.mp found with rfl | found
      · exact absurd user direct
      · exact ih n found m user still

/-- The names that lead to a template, its own included. -/
def leading (s : Site) (id : String) : List String :=
  closure s.usersOf ((s.templates.items.map (·.result.id)).filter (· != id)) [id]

theorem self_mem_leading (s : Site) (id : String) : id ∈ s.leading id :=
  subset_closure _ _ _ id (List.mem_singleton_self id)

theorem mem_usersOf {s : Site} (sound : Sound s) {id name : String} :
    id ∈ s.usersOf name ↔ ∃ path e, s.templates.at? path = some e ∧
      name ∈ e.item.result.document.uses ∧ e.item.result.id = id := by
  rw [usersOf, List.mem_filterMap]
  constructor
  · rintro ⟨path, user, found⟩
    obtain ⟨e, here, uses⟩ := (Collection.mem_usersOf sound.templates.sound).mp user
    obtain ⟨item, leads, rfl⟩ := Option.map_eq_some_iff.mp found
    have own : s.templates.get? path = some e.item :=
      (Collection.get?_eq_some sound.templates.sound.toKeyed).mpr
        ⟨e, by rw [Collection.path_of_at? sound.templates.sound.toKeyed here, here],
          (sound.templates.aliases here path).mpr (.inr rfl), rfl⟩
    rw [own] at leads
    cases leads
    exact ⟨path, e, here, uses, rfl⟩
  · rintro ⟨path, e, here, uses, rfl⟩
    refine ⟨path, (Collection.mem_usersOf sound.templates.sound).mpr ⟨e, here, uses⟩, ?_⟩
    have own : s.templates.get? path = some e.item :=
      (Collection.get?_eq_some sound.templates.sound.toKeyed).mpr
        ⟨e, by rw [Collection.path_of_at? sound.templates.sound.toKeyed here, here],
          (sound.templates.aliases here path).mpr (.inr rfl), rfl⟩
    rw [own]
    rfl

theorem leading_closed {s : Site} (sound : Sound s) {id n m : String} (found : n ∈ s.leading id)
    (user : m ∈ s.usersOf n) : m ∈ s.leading id := by
  by_cases own : m = id
  · rw [own]
    exact s.self_mem_leading id
  · refine closure_closed _ _ _ n found m user (List.mem_filter.mpr ⟨?_, by simpa using own⟩)
    obtain ⟨path, e, here, -, rfl⟩ := (mem_usersOf sound).mp user
    refine List.mem_map.mpr ⟨e.item, ?_, rfl⟩
    refine (Collection.mem_items sound.templates.sound.toKeyed).mpr ⟨e, ?_, rfl⟩
    rw [Collection.path_of_at? sound.templates.sound.toKeyed here, here]

theorem mem_dependents {s : Site} (sound : Sound s) {id path : String} :
    path ∈ s.dependents id ↔ ∃ n ∈ s.leading id, ∃ e, s.pages.at? path = some e ∧
      n ∈ e.item.result.document.uses := by
  rw [dependents, SortedSet.mem_ofList, List.mem_flatMap]
  refine exists_congr fun n => and_congr_right fun _ => ?_
  exact Collection.mem_usersOf sound.pages

/-! ### What a change of a template leaves alone -/

/-- Names of custom elements in templates and pages. -/
def elementNames (s : Site) : List String :=
  s.templates.items.flatMap (·.result.document.uses) ++
    s.pages.items.flatMap (·.result.document.uses)

/-- Lookups change at the path of a template that changes, and at its ids before and after. -/
theorem get?_eq_of_at?_eq {c c' : Collection Component} (h : Templates c) (h' : Templates c')
    {path n : String} (elsewhere : ∀ other, other ≠ path → c'.at? other = c.at? other)
    (notPath : n ≠ path) (notBefore : ∀ e, c.at? path = some e → n ≠ e.item.result.id)
    (notAfter : ∀ e, c'.at? path = some e → n ≠ e.item.result.id) : c'.get? n = c.get? n := by
  ext item
  rw [Collection.get?_eq_some h.sound.toKeyed, Collection.get?_eq_some h'.sound.toKeyed]
  refine exists_congr fun e => ?_
  by_cases here : e.item.path.pathname = path
  · rw [here]
    constructor
    · rintro ⟨found, mem, -⟩
      rcases (h'.aliases found n).mp mem with own | own
      · exact absurd own (notAfter e found)
      · exact absurd own notPath
    · rintro ⟨found, mem, -⟩
      rcases (h.aliases found n).mp mem with own | own
      · exact absurd own (notBefore e found)
      · exact absurd own notPath
  · rw [elsewhere _ here]

section
variable {s : Site}

theorem get?_path {path : String} {e : Entry Component} (sound : Sound s)
    (found : s.templates.at? path = some e) : s.templates.get? path = some e.item :=
  (Collection.get?_eq_some sound.templates.sound.toKeyed).mpr
    ⟨e, by rw [Collection.path_of_at? sound.templates.sound.toKeyed found, found],
      (sound.templates.aliases found path).mpr (.inr rfl), rfl⟩

theorem mem_templateItems (sound : Sound s) {path : String} {e : Entry Component}
    (found : s.templates.at? path = some e) : e.item ∈ s.templates.items :=
  (Collection.mem_items sound.templates.sound.toKeyed).mpr
    ⟨e, by rw [Collection.path_of_at? sound.templates.sound.toKeyed found, found], rfl⟩

/-- No element has the name of a template file, be it one of the site or the one that changes. -/
def NamesApart (s : Site) (path : String) : Prop :=
  ∀ n ∈ s.elementNames, n ≠ path ∧ ∀ item ∈ s.templates.items, n ≠ item.path.pathname

/-- A name that elements have is looked up as an id. -/
theorem component?_eq_some (sound : Sound s) {path n : String} (apart : s.NamesApart path)
    (name : n ∈ s.elementNames) {c : Component} (known : s.library.component? n = some c) :
    ∃ e : Entry Component, s.templates.get? n = some e.item ∧ e.item ∈ s.templates.items ∧
      e.item.result = c ∧ c.id = n := by
  obtain ⟨item, found, rfl⟩ := Option.map_eq_some_iff.mp known
  obtain ⟨e, here, mem, rfl⟩ := (Collection.get?_eq_some sound.templates.sound.toKeyed).mp found
  refine ⟨e, found, mem_templateItems sound here, rfl, ?_⟩
  rcases (sound.templates.aliases here n).mp mem with own | own
  · exact own.symm
  · exact absurd own ((apart n name).2 e.item (mem_templateItems sound here))

/-- A name that a page reaches is one of an element, and if it leads to an id that the walk starts
from, the walk comes to the page. The walk is one over another site, in which only those ids are
looked up differently. -/
theorem reached_name {walked : Site} (sound : Sound s) (walkedSound : Sound walked)
    {path : String} (apart : s.NamesApart path) (pages : walked.pages = s.pages) {ids : List String}
    (same : ∀ n ∈ s.elementNames, n ∉ ids → walked.templates.get? n = s.templates.get? n)
    {page : Item Page} (stored : page ∈ s.pages.items) {scene : Scene}
    (library : scene.library = s.library) {n : String}
    (reached : InUsageGraph scene page.result n) :
    n ∈ s.elementNames ∧ ∀ id ∈ ids, n ∈ walked.leading id →
      page.path.pathname ∈ ids.flatMap walked.dependents := by
  induction reached with
  | page used =>
    refine ⟨List.mem_append_right _ (List.mem_flatMap.mpr ⟨page, stored, used⟩), ?_⟩
    intro id mem leads
    refine List.mem_flatMap.mpr ⟨id, mem, (mem_dependents walkedSound).mpr ⟨_, leads, ?_⟩⟩
    obtain ⟨e, here, rfl⟩ := (Collection.mem_items sound.pages.toKeyed).mp stored
    rw [pages]
    exact ⟨e, here, used⟩
  | @component n c m reached known used ih =>
    rw [library] at known
    obtain ⟨name, leadsOn⟩ := ih
    obtain ⟨e, found, mem, rfl, own⟩ := component?_eq_some sound apart name known
    refine ⟨List.mem_append_left _ (List.mem_flatMap.mpr ⟨e.item, mem, used⟩), ?_⟩
    intro id start leads
    by_cases changed : n ∈ ids
    · exact leadsOn n changed (walked.self_mem_leading n)
    · refine leadsOn id start (leading_closed walkedSound leads ?_)
      rw [← same n name changed] at found
      obtain ⟨e', here, -, item⟩ :=
        (Collection.get?_eq_some walkedSound.templates.sound.toKeyed).mp found
      refine (mem_usersOf walkedSound).mpr ⟨_, e', here, ?_⟩
      rw [item]
      exact ⟨used, own⟩
  | value made => cases made

/-- A page that the walk does not come to compiles alike wherever lookups change only at the ids
that the walk starts from. -/
theorem compilePage_eq (s' walked : Site) (ids : List String) (sound : Sound s)
    (walkedSound : Sound walked) (config : s'.config = s.config) (plugins : s'.plugins = s.plugins)
    (unscripted : ∀ item ∈ s.templates.items, item.result.script = none)
    {path : String} (apart : s.NamesApart path) (pages : walked.pages = s.pages)
    (walkedSame : ∀ n ∈ s.elementNames, n ∉ ids →
      walked.templates.get? n = s.templates.get? n)
    (same : ∀ n ∈ s.elementNames, n ∉ ids → s'.templates.get? n = s.templates.get? n)
    {page : Item Page} (stored : page ∈ s.pages.items)
    (unlisted : page.path.pathname ∉ ids.flatMap walked.dependents) (t₀ t₁ : FileTree) :
    s'.compilePage t₁ page.path.pathname page.result =
      s.compilePage t₀ page.path.pathname page.result := by
  have settings : s'.clientSettings = s.clientSettings := by
    rw [clientSettings, clientSettings, config, plugins]
  have expanded : (expandPage (.ofPage s'.library (s'.sandbox t₁) page.path.pathname
        page.result)).run (ofPage page.result) =
      (expandPage (.ofPage s.library (s.sandbox t₀) page.path.pathname page.result)).run
        (ofPage page.result) := by
    refine expandPage_ofPage_congr (s.sandbox t₀) (s'.sandbox t₁) page.path.pathname ?_ ?_
    · intro n c reached known
      have name := (reached_name sound walkedSound apart pages walkedSame stored rfl reached).1
      obtain ⟨e, -, mem, rfl, -⟩ := component?_eq_some sound apart name known
      exact unscripted e.item mem
    · intro n reached
      obtain ⟨name, leadsOn⟩ :=
        reached_name sound walkedSound apart pages walkedSame stored rfl reached
      have unchanged : n ∉ ids := fun mem => unlisted (leadsOn n mem (walked.self_mem_leading n))
      show (s'.templates.get? n).map _ = (s.templates.get? n).map _
      rw [same n name unchanged]
  rw [compilePage, compilePage, Scene.compile, Scene.compile, expanded, settings]

theorem pathname_of_locate {t : FileTree} {p path : String}
    (file : s.locate t p = .ok (some (.template path))) :
    (FilePath.ofText path).pathname = path := by
  rw [locate] at file
  split at file
  · next cs below =>
    have source := Except.ok.inj file
    rw [templateSource?] at source
    split at source
    · cases source
    · next included =>
      split at source
      · rw [← Source.template.inj (Option.some.inj source)]
        refine FilePath.pathname_ofText_slashed fun dot => included ?_
        rw [isExcluded, Path.isExcluded_of_dot dot]
      · split at source
        · cases source
        · cases source
  · split at file
    · have source := Except.ok.inj file
      rw [pageSource?] at source
      split at source
      · cases source
      · cases source
    · cases file

theorem templateId?_of_at? (sound : Sound s) {path : String} {e : Entry Component}
    (found : s.templates.at? path = some e) : s.templateId? path = some e.item.result.id := by
  rw [templateId?, get?_path sound found]
  rfl

end

theorem mem_distinct {n : String} {names : List String} : n ∈ distinct names ↔ n ∈ names := by
  rw [distinct, mem_foldl_distinct]
  simp

theorem store_compiles_alike {s s' : Site} {path content : String} {change : Change}
    (sound : Sound s) (unscripted : ∀ item ∈ s.templates.items, item.result.script = none)
    (name : (FilePath.ofText path).pathname = path) (apart : s.NamesApart path)
    (done : s.storeTemplate path content = .ok (change, s')) {page : Item Page}
    (stored : page ∈ s.pages.items) (unlisted : page.path.pathname ∉ change.recompile)
    (t₀ t₁ : FileTree) :
    s'.compilePage t₁ page.path.pathname page.result =
      s.compilePage t₀ page.path.pathname page.result := by
  obtain ⟨out, templates, set, rfl, recompile⟩ := storeTemplate_ok done
  have after : Sound { s with templates } := ⟨sound.templates.of_set set, sound.pages⟩
  rcases Collection.set_ok sound.templates.sound s.templateSchema_keys set with ⟨-, rfl⟩ |
    ⟨other, result, -, -, stores⟩
  · exact compilePage_eq s s [] sound sound rfl rfl unscripted apart rfl (fun _ _ _ => rfl)
      (fun _ _ _ => rfl) stored (by simp) t₀ t₁
  · rw [recompile, if_neg other] at unlisted
    have same : ∀ n ∈ s.elementNames, n ∉ (s.templateId? path).toList ++
        (templateId? { s with templates } path).toList →
        templates.get? n = s.templates.get? n := by
      intro n mem fresh
      rw [List.mem_append, not_or, Option.mem_toList, Option.mem_toList] at fresh
      refine get?_eq_of_at?_eq sound.templates after.templates (fun other ne => ?_) (apart n mem).1
        ?_ ?_
      · rw [stores.at?_eq, if_neg]
        intro own
        exact ne (own.trans name)
      · rintro e found rfl
        exact fresh.1 (templateId?_of_at? sound found)
      · rintro e found rfl
        exact fresh.2 (templateId?_of_at? after found)
    refine compilePage_eq { s with templates } { s with templates } _ sound after rfl rfl unscripted
      apart rfl same same stored ?_ t₀ t₁
    rwa [mem_distinct] at unlisted

theorem remove_compiles_alike {s s' : Site} {t : FileTree} {p path : String} {change : Change}
    {gone : List Deletion} (sound : Sound s)
    (unscripted : ∀ item ∈ s.templates.items, item.result.script = none)
    (file : s.locate t p = .ok (some (.template path))) (apart : s.NamesApart path)
    (done : s.remove t p = .ok (change, gone, s')) :
    s'.pages = s.pages ∧ ∀ page ∈ s.pages.items, page.path.pathname ∉ change.recompile →
      ∀ t₀ t₁, s'.compilePage t₁ page.path.pathname page.result =
        s.compilePage t₀ page.path.pathname page.result := by
  cases own : s.templateId? path with
  | none =>
    rw [remove_unheld file own] at done
    cases done
    exact ⟨rfl, fun page stored _ => compilePage_eq s s [] sound sound rfl rfl unscripted apart rfl
      (fun _ _ _ => rfl) (fun _ _ _ => rfl) stored (by simp)⟩
  | some id =>
    rw [remove_held file own] at done
    cases done
    obtain ⟨item, found, rfl⟩ := Option.map_eq_some_iff.mp own
    obtain ⟨e, c', deleted, rfl, -, here, -, elsewhere⟩ :=
      Collection.delete_some sound.templates.sound found
    have after := sound.templates.of_delete deleted
    rw [deleted]
    refine ⟨rfl, fun page stored unlisted => compilePage_eq { s with templates := c' } s
      [e.item.result.id] sound sound rfl rfl unscripted apart rfl (fun _ _ _ => rfl)
      (fun n mem fresh => ?_) stored (by simpa using unlisted)⟩
    have mine := mem_templateItems sound here
    refine get?_eq_of_at?_eq sound.templates after (fun other ne => by rw [elsewhere, if_neg ne])
      ((apart n mem).2 e.item mine) ?_ ?_
    · intro e' found' own
      rw [here] at found'
      cases found'
      exact fresh (by rw [own]; exact List.mem_singleton_self _)
    · intro e' found'
      rw [elsewhere, if_pos rfl] at found'
      cases found'

theorem storeTemplate_of_applyChange {s s' : Site} {t : FileTree} {p path : String}
    {change : Change} {gone : List Deletion} (file : s.locate t p = .ok (some (.template path)))
    (stands : t.isFile p) (done : s.applyChange t p = .ok (change, gone, s')) :
    ∃ content, s.storeTemplate path content = .ok (change, s') := by
  rw [applyChange, if_neg (by simp [stands])] at done
  obtain ⟨source, found, rest⟩ := ok_of_bind done
  rw [file] at found
  cases found
  obtain ⟨content, -, rest⟩ := ok_of_bind rest
  obtain ⟨⟨change, s''⟩, stored, rest⟩ := ok_of_bind rest
  cases rest
  exact ⟨content, stored⟩

/-- A page that the change of a template file does not name has the HTML, or the failure, that it
had before. -/
theorem unlisted_page_compiles_alike {s s' : Site} {t : FileTree} {p path : String}
    {change : Change} {gone : List Deletion} (reached : Reached s)
    (unscripted : ∀ item ∈ s.templates.items, item.result.script = none)
    (file : s.locate t p = .ok (some (.template path))) (apart : s.NamesApart path)
    (done : s.applyChange t p = .ok (change, gone, s') ∨ s.remove t p = .ok (change, gone, s')) :
    s'.pages = s.pages ∧ ∀ page ∈ s.pages.items, page.path.pathname ∉ change.recompile →
      ∀ t₀ t₁, s'.compilePage t₁ page.path.pathname page.result =
        s.compilePage t₀ page.path.pathname page.result := by
  have sound := reached.sound
  rcases done with done | done
  · by_cases stands : t.isFile p
    · obtain ⟨content, stored⟩ := storeTemplate_of_applyChange file stands done
      obtain ⟨out, templates, set, rfl, recompile⟩ := storeTemplate_ok stored
      refine ⟨rfl, fun page mem unlisted => ?_⟩
      exact store_compiles_alike sound unscripted (pathname_of_locate file) apart stored mem
        unlisted
    · rw [applyChange_of_missing stands] at done
      exact remove_compiles_alike sound unscripted file apart done
  · exact remove_compiles_alike sound unscripted file apart done

/-- A page with a card, and the template of the card. -/
def cardTree : FileTree where
  directories := [["pages"], ["templates"]]
  files := [(["templates", "card.html"], .text "<template id=\"x-card\">a</template>"),
    (["pages", "index.html"], .text "<x-card></x-card>")]

/-- The files after one has come that uses the card too. -/
def noteTree : FileTree :=
  { cardTree with files := cardTree.files ++
      [(["templates", "note.html"], .text "<template id=\"x-note\"><x-card></x-card></template>")] }

def cardSite : Site := ((ofConfig {} cardTree).initialise cardTree).2

/-- The page of the card compiles alike when the note has come. -/
theorem card_page_compiles_alike :
    cardSite.pages.ids = ["index.html"] ∧ ∃ change gone s',
      cardSite.applyChange noteTree "templates/note.html" = .ok (change, gone, s') ∧
      change.recompile = [] ∧ s'.pages = cardSite.pages ∧ ∀ page ∈ cardSite.pages.items, ∀ t₀ t₁,
        s'.compilePage t₁ page.path.pathname page.result =
          cardSite.compilePage t₀ page.path.pathname page.result := by
  have reached : Reached cardSite := .initialise (.ofConfig {} cardTree) cardTree
  have unscripted : ∀ item ∈ cardSite.templates.items, item.result.script = none := by
    decide +kernel
  have file : cardSite.locate noteTree "templates/note.html" = .ok (some (.template "note.html")) :=
    ok_of_toOption (by decide +kernel)
  have apart : cardSite.NamesApart "note.html" := by
    unfold NamesApart
    decide +kernel
  have listed : ((cardSite.applyChange noteTree "templates/note.html").toOption.map (·.1)) =
      some {} := by decide +kernel
  obtain ⟨⟨change, gone, s'⟩, done, none⟩ := Option.map_eq_some_iff.mp listed
  replace done := ok_of_toOption done
  obtain ⟨pages, alike⟩ :=
    unlisted_page_compiles_alike reached unscripted file apart (.inl done)
  replace none : change = {} := none
  subst none
  exact ⟨by decide +kernel, {}, gone, s', done, rfl, pages, fun page mem =>
    alike page mem List.not_mem_nil⟩

end Stencil.Site
