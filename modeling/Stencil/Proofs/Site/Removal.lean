import Stencil.Proofs.Site.Dependents
/-!
What the removal of a file leaves alone. The collections look the path of the file up in the table
that holds the ids of templates as well, so a removal takes out the template of another file when
that one declares the path as its id, and nothing of another file otherwise.
-/
namespace Stencil

/-- The file that a document has come from, by the path of the document. -/
def Deletion.source : Deletion → Site.Source
  | .page item => .page item.path.pathname
  | .template item => .template item.path.pathname

namespace Collection
variable {α : Type} {uses : α → List String} {c c' : Collection α} {key : ItemKey} {e : Entry α}
  {path : String} {own : Option String}

/-- Both collections hold the same documents besides those of one path: under the same keys and
names, and with the same uses. -/
structure Spares (own : Option String) (c c' : Collection α) : Prop where
  entryOf?_iff : ∀ {key e}, own ≠ some e.item.path.pathname →
    (c'.entryOf? key = some e ↔ c.entryOf? key = some e)
  key?_iff : ∀ {key e}, c.entryOf? key = some e → own ≠ some e.item.path.pathname →
    ∀ name, c'.key? name = some key ↔ c.key? name = some key
  usesOf_eq : ∀ {path}, own ≠ some path → c'.usage.usesOf path = c.usage.usesOf path
  mem_usersOf : ∀ {path}, own ≠ some path →
    ∀ name, path ∈ c'.usage.usersOf name ↔ path ∈ c.usage.usersOf name

theorem Spares.refl (own : Option String) (c : Collection α) : Spares own c c where
  entryOf?_iff _ := Iff.rfl
  key?_iff _ _ _ := Iff.rfl
  usesOf_eq _ := rfl
  mem_usersOf _ _ := Iff.rfl

theorem spares_without (sound : Sound uses c) (stands : c.entryOf? key = some e) :
    Spares (some e.item.path.pathname) c (c.without key e) := by
  have left := sound_without sound stands
  have apart : ∀ {k e'}, c.entryOf? k = some e' →
      some e.item.path.pathname ≠ some e'.item.path.pathname → k ≠ key := by
    rintro k e' here other rfl
    rw [stands] at here
    cases here
    exact other rfl
  have usesOf_eq : ∀ {path}, some e.item.path.pathname ≠ some path →
      (c.without key e).usage.usesOf path = c.usage.usesOf path := by
    intro path other
    rw [left.usesOf_eq, sound.usesOf_eq, at?_without sound.toKeyed stands,
      if_neg fun same => other (congrArg some same.symm)]
  refine ⟨fun {k e'} other => ?_, fun here other name => ?_, usesOf_eq, fun other name => ?_⟩
  · rw [entryOf?_without]
    constructor
    · intro here
      split at here
      · cases here
      · exact here
    · intro here
      rw [if_neg (apart here other), here]
  · rw [left.key?_iff, sound.key?_iff, entryOf?_without, if_neg (apart here other)]
  · rw [← left.inverse, ← sound.inverse, usesOf_eq other]

/-- Nothing stands at a path that has been deleted, whatever the path has led to. -/
theorem at?_delete (sound : Sound uses c) (path : String) : (c.delete path).2.at? path = none := by
  cases found : c.at? path with
  | none =>
    cases leads : c.get? path with
    | none =>
      rw [delete_none leads sound.toKeyed]
      exact found
    | some item =>
      obtain ⟨e, c', done, -, -, -, -, at?_eq⟩ := delete_some sound leads
      rw [done, at?_eq]
      split
      · rfl
      · exact found
  | some e =>
    obtain ⟨key, stands, rfl⟩ := (at?_eq_some sound.toKeyed).mp found
    have leads := sound.key?_iff.mpr ⟨e, stands, sound.path_mem stands⟩
    rw [delete_eq, leads, Option.bind_some, stands]
    exact (at?_without sound.toKeyed stands _).trans (if_pos rfl)

/-- Deleting a path spares the documents of all other paths if none of them has it as a name. -/
theorem delete_spares_iff (sound : Sound uses c) (path : String) :
    (Spares (some path) c (c.delete path).2 ∧
      ∀ item, (c.delete path).1 = some item → item.path.pathname = path) ↔
    ∀ key e, c.entryOf? key = some e → path ∈ e.aliases → e.item.path.pathname = path := by
  cases leads : c.key? path with
  | none =>
    have unnamed : ∀ key e, c.entryOf? key = some e → path ∉ e.aliases := by
      intro key e stands mem
      rw [sound.key?_iff.mpr ⟨e, stands, mem⟩] at leads
      cases leads
    have kept : c.delete path = (none, c) := by
      rw [delete_eq, leads]
      rfl
    rw [kept]
    exact ⟨fun _ key e stands mem => absurd mem (unnamed key e stands),
      fun _ => ⟨.refl _ c, fun _ none => by cases none⟩⟩
  | some key =>
    obtain ⟨e, stands, mem⟩ := sound.key?_iff.mp leads
    have done : c.delete path = (some e.item, c.without key e) := by
      rw [delete_eq, leads, Option.bind_some, stands]
      rfl
    rw [done]
    constructor
    · rintro ⟨-, own⟩ key' e' stands' mem'
      obtain rfl := sound.alias_unique stands mem stands' mem'
      rw [stands] at stands'
      cases stands'
      exact own e.item rfl
    · intro own
      have same := own key e stands mem
      refine ⟨?_, fun item taken => ?_⟩
      · rw [← same]
        exact spares_without sound stands
      · cases taken
        exact same

end Collection

namespace Site
open Markup Collection

/-! ### Removals -/

def Source.pagePath? : Source → Option String
  | .page path => some path
  | _ => none

def Source.templatePath? : Source → Option String
  | .template path => some path
  | _ => none

section
variable {s : Site} {t : FileTree} {p path : String}

theorem remove_of_page (sound : Sound s) (file : s.locate t p = .ok (some (.page path))) :
    ∃ change, s.remove t p = .ok (change, (s.pages.delete path).1.toList.map .page,
      { s with pages := (s.pages.delete path).2 }) := by
  rw [remove, file]
  dsimp only [bind, Except.bind]
  cases found : s.pages.get? path with
  | none =>
    rw [delete_none found sound.pages.toKeyed]
    exact ⟨_, rfl⟩
  | some item =>
    obtain ⟨e, pages, done, -⟩ := delete_some sound.pages found
    rw [done]
    exact ⟨_, rfl⟩

theorem remove_of_template (sound : Sound s) (file : s.locate t p = .ok (some (.template path))) :
    ∃ change, s.remove t p = .ok (change, (s.templates.delete path).1.toList.map .template,
      { s with templates := (s.templates.delete path).2 }) := by
  cases held : s.templateId? path with
  | some id => exact ⟨_, remove_held file held⟩
  | none =>
    rw [delete_none (Option.map_eq_none_iff.mp held) sound.templates.sound.toKeyed]
    exact ⟨_, remove_unheld file held⟩

end

/-- What a removal may do: it takes out one document at most, which is that of the file, and all
other documents stay. -/
structure SparesOthers (s s' : Site) (source : Option Source) (gone : List Deletion) : Prop where
  pages : Spares (source.bind Source.pagePath?) s.pages s'.pages
  templates : Spares (source.bind Source.templatePath?) s.templates s'.templates
  gone_own : ∀ d ∈ gone, source = some d.source
  gone_once : gone.length ≤ 1

section
variable {s : Site} {path : String}

theorem sparesOthers_page (pages : Pages s.pages) (path : String) :
    SparesOthers s { s with pages := (s.pages.delete path).2 } (some (.page path))
      ((s.pages.delete path).1.toList.map .page) := by
  obtain ⟨spares, own⟩ := (delete_spares_iff pages.sound path).mpr fun key e stands mem => by
    have aliases := pages.aliases ((at?_eq_some pages.sound.toKeyed).mpr ⟨key, stands, rfl⟩)
    rw [aliases, List.mem_singleton] at mem
    exact mem.symm
  refine ⟨spares, .refl _ _, fun d mem => ?_, ?_⟩
  · obtain ⟨item, taken, rfl⟩ := List.mem_map.mp mem
    rw [Deletion.source, own item (Option.mem_toList.mp taken)]
  · rw [List.length_map]
    exact Option.length_toList_le

theorem sparesOthers_template_iff (templates : Templates s.templates) (path : String) :
    SparesOthers s { s with templates := (s.templates.delete path).2 } (some (.template path))
        ((s.templates.delete path).1.toList.map .template) ↔
      ∀ item ∈ s.templates.items, item.result.id = path → item.path.pathname = path := by
  have named : ∀ {key e}, s.templates.entryOf? key = some e →
      (path ∈ e.aliases ↔ path = e.item.result.id ∨ path = e.item.path.pathname) := by
    intro key e stands
    exact templates.aliases
      ((at?_eq_some templates.sound.toKeyed).mpr ⟨key, stands, rfl⟩) path
  have owned : (∀ key e, s.templates.entryOf? key = some e → path ∈ e.aliases →
      e.item.path.pathname = path) ↔
      ∀ item ∈ s.templates.items, item.result.id = path → item.path.pathname = path := by
    constructor
    · intro own item mem id
      obtain ⟨e, found, rfl⟩ := (mem_items templates.sound.toKeyed).mp mem
      obtain ⟨key, stands, -⟩ := (at?_eq_some templates.sound.toKeyed).mp found
      exact own key e stands ((named stands).mpr (.inl id.symm))
    · intro own key e stands mem
      rcases (named stands).mp mem with id | same
      · refine own e.item ((mem_items templates.sound.toKeyed).mpr ⟨e, ?_, rfl⟩) id.symm
        exact (at?_eq_some templates.sound.toKeyed).mpr ⟨key, stands, rfl⟩
      · exact same.symm
  rw [← owned, ← delete_spares_iff templates.sound path]
  constructor
  · intro others
    refine ⟨others.templates, fun item taken => ?_⟩
    have source := others.gone_own (.template item)
      (List.mem_map.mpr ⟨item, Option.mem_toList.mpr taken, rfl⟩)
    exact (Source.template.inj (Option.some.inj source)).symm
  · rintro ⟨spares, own⟩
    refine ⟨.refl _ _, spares, fun d mem => ?_, ?_⟩
    · obtain ⟨item, taken, rfl⟩ := List.mem_map.mp mem
      rw [Deletion.source, own item (Option.mem_toList.mp taken)]
    · rw [List.length_map]
      exact Option.length_toList_le

end

/-- Removing a file, and handing over a path where no file stands any more, fails exactly if the
path belongs to no directory of the site. Otherwise nothing is left at the path of the file, and all
that has come from other files stays exactly if no template of another file has declared that path
as its id. -/
theorem remove_spares_others_iff {s : Site} (reached : Reached s) (t : FileTree) (p : String) :
    (¬ t.isFile p → s.applyChange t p = s.remove t p) ∧
    match s.locate t p with
    | .error e => s.remove t p = .error e
    | .ok source => ∃ change gone s', s.remove t p = .ok (change, gone, s') ∧
        (SparesOthers s s' source gone ↔ ∀ path, source = some (.template path) →
          ∀ item ∈ s.templates.items, item.result.id = path → item.path.pathname = path) ∧
        (∀ path, source = some (.page path) → s'.pages.at? path = none) ∧
        ∀ path, source = some (.template path) → s'.templates.at? path = none := by
  have sound := reached.sound
  refine ⟨applyChange_of_missing, ?_⟩
  -- files that are no documents change nothing
  have nothing : ∀ {source}, source = none ∨ source = some Source.script →
      (SparesOthers s s source [] ↔ ∀ path, source = some (.template path) →
        ∀ item ∈ s.templates.items, item.result.id = path → item.path.pathname = path) ∧
      (∀ path, source = some (.page path) → s.pages.at? path = none) ∧
      ∀ path, source = some (.template path) → s.templates.at? path = none := by
    rintro source plain
    have page : ∀ {path}, source ≠ some (.page path) := by
      rintro path rfl
      simp at plain
    have template : ∀ {path}, source ≠ some (.template path) := by
      rintro path rfl
      simp at plain
    refine ⟨⟨fun _ path own => absurd own template, fun _ => ?_⟩,
      fun path own => absurd own page, fun path own => absurd own template⟩
    exact ⟨.refl _ _, .refl _ _, by simp, by simp⟩
  cases file : s.locate t p with
  | error e =>
    dsimp only
    rw [remove, file]
    rfl
  | ok source =>
    rcases source with - | path | path | -
    · refine ⟨{}, [], s, ?_, nothing (.inl rfl)⟩
      rw [remove, file]
      rfl
    · obtain ⟨change, done⟩ := remove_of_page sound file
      refine ⟨change, _, _, done, ⟨fun _ path' other => ?_, fun _ =>
        sparesOthers_page reached.pages path⟩, fun path' own => ?_, fun path' other => ?_⟩
      · cases other
      · cases own
        exact at?_delete sound.pages path
      · cases other
    · obtain ⟨change, done⟩ := remove_of_template sound file
      refine ⟨change, _, _, done, ?_, fun path' other => ?_, fun path' own => ?_⟩
      · rw [sparesOthers_template_iff sound.templates path]
        refine ⟨fun own path' same => ?_, fun own => own path rfl⟩
        cases same
        exact own
      · cases other
      · cases own
        exact at?_delete sound.templates.sound path
    · refine ⟨{ recompile := s.pages.ids }, [], s, ?_, nothing (.inr rfl)⟩
      rw [remove, file]
      rfl

/-- The card is removed, and the note that uses it stays. -/
theorem card_removed_alone : ∃ change gone s,
    cardSite.applyChange noteTree "templates/note.html" = .ok (change, gone, s) ∧ Reached s ∧
    ∃ change gone s', s.remove cardTree "templates/card.html" = .ok (change, gone, s') ∧
      SparesOthers s s' (some (.template "card.html")) gone ∧
      s'.templates.items.map (·.result.id) = ["x-note"] := by
  have evaluated : (cardSite.applyChange noteTree "templates/note.html").toOption.map (fun r =>
      (r.2.2.templates.items.map (·.result.id),
        (r.2.2.locate cardTree "templates/card.html").toOption,
        (r.2.2.remove cardTree "templates/card.html").toOption.map
          fun r => r.2.2.templates.items.map (·.result.id))) =
      some (["x-card", "x-note"], some (some (.template "card.html")), some ["x-note"]) := by
    decide +kernel
  obtain ⟨⟨change, gone, s⟩, done, found⟩ := Option.map_eq_some_iff.mp evaluated
  replace done := ok_of_toOption done
  obtain ⟨ids, rest⟩ := Prod.mk.inj found
  obtain ⟨file, left⟩ := Prod.mk.inj rest
  have reached : Reached s :=
    .applyChange (.initialise (.ofConfig {} cardTree) cardTree) done
  obtain ⟨-, spares⟩ := remove_spares_others_iff reached cardTree "templates/card.html"
  rw [ok_of_toOption file] at spares
  obtain ⟨change', gone', s', removed, others, -⟩ := spares
  rw [removed] at left
  refine ⟨change, gone, s, done, reached, change', gone', s', removed,
    others.mpr fun path same item mem id => ?_, Option.some.inj left⟩
  -- no template has declared a path
  have declared := List.mem_map_of_mem (f := (·.result.id)) mem
  rw [ids, id] at declared
  cases same
  exact absurd declared (by decide)

/-- A template that declares as its id the path of a file that there is not. -/
def posterTree : FileTree where
  directories := [["pages"], ["templates"]]
  files := [(["templates", "poster.html"], .text "<template id=\"x-card.html\">a</template>"),
    (["pages", "index.html"], .text "<x-card.html></x-card.html>")]

/-- Removing a file that has never been loaded takes out the template of another one. -/
theorem poster_removed_by_id : ∃ s : Site,
    s = ((ofConfig {} posterTree).initialise posterTree).2 ∧ Reached s ∧
    ¬ posterTree.isFile "templates/x-card.html" ∧
    s.locate posterTree "templates/x-card.html" = .ok (some (.template "x-card.html")) ∧
    s.templates.items.map (·.path.pathname) = ["poster.html"] ∧
    ∃ change gone s', s.remove posterTree "templates/x-card.html" = .ok (change, gone, s') ∧
      s.applyChange posterTree "templates/x-card.html" = .ok (change, gone, s') ∧
      s'.templates.items = [] ∧
      ¬ SparesOthers s s' (some (.template "x-card.html")) gone := by
  refine ⟨_, rfl, .initialise (.ofConfig {} posterTree) posterTree, ?_⟩
  have missing : ¬ posterTree.isFile "templates/x-card.html" := by decide +kernel
  have left : ((((ofConfig {} posterTree).initialise posterTree).2.remove posterTree
      "templates/x-card.html").toOption.map fun r =>
        (r.2.1.map (·.source), r.2.2.templates.items.map (·.path.pathname))) =
      some ([.template "poster.html"], []) := by decide +kernel
  obtain ⟨⟨change, gone, s'⟩, done, taken⟩ := Option.map_eq_some_iff.mp left
  replace done := ok_of_toOption done
  obtain ⟨source, rest⟩ := Prod.mk.inj taken
  refine ⟨missing, ok_of_toOption (by decide +kernel), by decide +kernel, change, gone, s', done,
    (applyChange_of_missing missing).trans done, List.map_eq_nil_iff.mp rest, fun others => ?_⟩
  obtain ⟨d, mem, other⟩ := List.mem_map.mp (source ▸ List.mem_singleton_self
    (Source.template "poster.html"))
  have own := others.gone_own d mem
  rw [other] at own
  exact absurd own (by decide)

end Site
end Stencil
