import Stencil.Proofs.Expansion.Reach
import Stencil.Proofs.Expansion.Simulation
import Stencil.Proofs.Result
/-!
Expansion of a page without scripts is the rewriting of its tree. Nothing of the order in which nodes
are moved is left in the result, and neither is the limit of nesting: a page that is expanded at all
is rewritten alike with any depth from the limit on.
-/
namespace Stencil
open Markup

/-- The components are read from files, under whatever names they are found. -/
def Library.FromFiles (library : Library) : Prop :=
  ∀ id c, library.component? id = some c →
    ∃ root rules r, Component.ofRecord root rules r = .ok c

theorem Library.FromFiles.sound {library : Library} (files : library.FromFiles) (id : String)
    (c : Component) (known : library.component? id = some c) : c.Sound := by
  obtain ⟨root, rules, r, read⟩ := files id c known
  exact Component.sound_ofRecord read

namespace Sketch

mutual

theorem map_ofTree {η θ : Type} (f : η → θ) (t : Tree) : (ofTree t).map f = ofTree t := by
  cases t with
  | node c ts => rw [ofTree, map, mapAll_ofTrees f ts, ofTree]; rfl

theorem mapAll_ofTrees {η θ : Type} (f : η → θ) (ts : List Tree) :
    mapAll f (ofTrees ts) = ofTrees ts := by
  cases ts with
  | nil => rfl
  | cons t ts => rw [ofTrees, mapAll, map_ofTree f t, mapAll_ofTrees f ts, ofTrees]

end

end Sketch

namespace Expansion
open Branch

/-- A tree has no slots to fill, so no assignment matters. -/
theorem rewriteAll_ofTrees {make : Sketch.Maker} (fill : NodeId → Option (List Tree))
    (ts : List Tree) :
    Sketch.rewriteAll make fill (Sketch.ofTrees ts) =
      Sketch.rewriteAll make Empty.elim (Sketch.ofTrees ts) := by
  have same : fill ∘ Empty.elim = Empty.elim := funext fun x => x.elim
  rw [← Sketch.mapAll_ofTrees (Empty.elim : Empty → NodeId) ts, Sketch.rewriteAll_mapAll, same]

theorem given_none_of_no_scripts {scene : Scene} {call : Call} {s : Expansion} {trace : List Instance}
    {r : Outcome call.Out} {P : Value → Prop}
    (silent : ∀ id c, scene.library.component? id = some c → c.script = none)
    (run : Run scene call s trace r) : GivenAll P trace := by
  intro i mem computed given
  have looked := lookedUp_of_run run i mem
  rw [looked.given (silent _ _ looked.known)] at given
  cases given

/-- The tree and the HTML of an expanded page are those of the page with its instances made. -/
theorem expanded_page_is_rewritten {library : Library} {sandbox : Sandbox} {path : String} {page : Page}
    {s : Expansion} (files : library.FromFiles)
    (silent : ∀ id c, library.component? id = some c → c.script = none)
    (done : (expandPage (.ofPage library sandbox path page)).run (ofPage page) = .ok () s)
    (depth : Nat) (deep : maxDepth ≤ depth) :
    s.arena.tree Arena.root = page.rewritten richValue? library depth ∧
      s.html = (page.rewritten richValue? library depth).html := by
  suffices tree : s.arena.tree Arena.root = page.rewritten richValue? library depth from
    ⟨tree, congrArg Tree.html tree⟩
  obtain ⟨trace, run⟩ := (expandPage_eq_iff _ _ _).mp done
  obtain ⟨cs, grows, settled⟩ := expands_grows True Value.tame_plain
    (Values.plain_ofDocument page.values) files.sound (fun _ => silent) (fun _ _ plain => plain) run
    (given_none_of_no_scripts silent run)
  cases tree : page.document.tree with
  | node content ts =>
    rw [tree] at grows
    have foreign : ∀ slot ∈ slots cs, slot.2.1 = false := by
      intro slot mem
      rcases grows.slots slot mem with mem | bare
      · obtain ⟨sub, here, -, rfl⟩ := mem_slots.mp mem
        exact (own_of_mem_ofTrees _ ts here).1
      · exact bare.1
    have clear : Open (Sketch.make richValue? library (Values.ofDocument page.values) depth)
        (·.isPending library) := open_of_isPending fun _ pending => pending
    -- slots that no instance owns are left, so the assignment does not matter
    have inner : Sketch.trees (sketches cs) =
        Sketch.rewriteAll (Sketch.make richValue? library (Values.ofDocument page.values) depth)
          Empty.elim (Sketch.ofTrees ts) := by
      calc Sketch.trees (sketches cs)
          = mean (.ofPage library sandbox path page) depth (fun _ => []) cs :=
            (rewriteAll_eq_trees clear cs settled foreign).symm
        _ = mean (.ofPage library sandbox path page) depth (fun _ => [])
              (ofTrees false (Arena.root + 1) ts) := grows.means trivial depth deep _
        _ = _ := by
            rw [mean, sketches_ofTrees_false]
            exact rewriteAll_ofTrees _ ts
    have whole := grows.stands.tree grows.once
    rw [Page.rewritten, tree]
    exact whole.trans (congrArg (Markup.Tree.node content) inner)

/-! ### A list in an attribute -/

deriving instance DecidableEq for Document, Component

/-- Shows what it is given. -/
def tags : Component where
  id := "x-tags"
  path := "tags.html"
  dir := ""
  document := ⟨.node .root [.node (.element ⟨"p", []⟩) [.node (.text "{{items}}") []]],
    { texts := [⟨2, [⟨"items", "{{items}}"⟩]⟩] }⟩
  script := none

/-- Hands a value of the page on. -/
def tagged : Component where
  id := "x-tagged"
  path := "tagged.html"
  dir := ""
  document := ⟨.node .root [.node (.element ⟨"x-tags", [⟨"items", some " {{tags}} "⟩]⟩) []],
    { attributes := [⟨1, "items", [⟨"tags", "{{tags}}"⟩]⟩], customs := [1] }⟩
  script := none

def tagsLibrary : Library where
  component? id :=
    if id = "x-tags" then some tags else if id = "x-tagged" then some tagged else none
  templates := ["x-tags", "x-tagged"]
  pages := []

def tagsPage : Page where
  values := [("tags", .sequence [.string "a", .string "b"])]
  document := ⟨.node .root [.node (.element ⟨"x-tagged", []⟩) []], { customs := [1] }⟩

/-- No script ends well. -/
def failingSandbox : Sandbox := fun _ => (.error .missingDefaultExport, [])

def tagsScene : Scene := .ofPage tagsLibrary failingSandbox "" tagsPage

theorem tags_read : (Component.ofRecord "" [] (.ofText "tags.html"
    "<template id=\"x-tags\"><p>{{items}}</p></template>")).toOption = some tags := by
  decide +kernel

theorem tagged_read : (Component.ofRecord "" [] (.ofText "tagged.html"
    "<template id=\"x-tagged\"><x-tags items=\" {{tags}} \"></x-tags></template>")).toOption =
      some tagged := by
  decide +kernel

theorem known_tagsLibrary {id : String} {c : Component} (known : tagsLibrary.component? id = some c) :
    c = tags ∨ c = tagged := by
  simp only [tagsLibrary] at known
  split at known
  · exact .inl (Option.some.inj known).symm
  · split at known
    · exact .inr (Option.some.inj known).symm
    · cases known

theorem fromFiles_tagsLibrary : tagsLibrary.FromFiles := by
  intro id c known
  rcases known_tagsLibrary known with rfl | rfl
  · exact ⟨_, _, _, ok_of_toOption tags_read⟩
  · exact ⟨_, _, _, ok_of_toOption tagged_read⟩

theorem no_scripts_tagsLibrary (id : String) (c : Component)
    (known : tagsLibrary.component? id = some c) : c.script = none := by
  rcases known_tagsLibrary known with rfl | rfl
  · rfl
  · rfl

theorem within_of {scene : Scene} {room height : Nat} {scope : NodeId} {context : String}
    {s : Expansion} {trace : List Instance} {r : Outcome Unit} (listed : List (NodeId × String))
    (found : hosts s.arena scope context = listed)
    (all : Run scene (.hosts room height listed) s trace r) :
    Run scene (.within room height scope context) s trace r := by
  subst found
  exact .within all

/-- The items stand side by side: the list has come to the inner instance as a list, without the
blanks of the attribute. -/
theorem expands_tagsPage :
    ∃ trace s, Expands tagsScene tagsPage trace (.ok () s) ∧ s.html = "<p>ab</p>" := by
  apply Exists.intro
  apply Exists.intro
  apply And.intro
  · apply within_of [(1, "/0:x-tagged")]
    · decide +kernel
    apply Run.hostsCons
    · apply Run.hostReplaced
      · rfl
      · apply Run.created (r := .ok () _)
        · rfl
        · rfl
        · exact .textsNil
        · rfl
        · apply within_of [(3, "/0:x-tagged/0:x-tags")]
          · decide +kernel
          apply Run.hostsCons
          · apply Run.hostReplaced
            · rfl
            · apply Run.created (r := .ok () _)
              · rfl
              · rfl
              · apply Run.textsCons
                · apply Run.richText
                  · rfl
                  · rfl
                  · apply Run.piecesEmpty
                    · rfl
                    · apply Run.piecesValue (r := .ok _ _)
                      · apply Run.valueList
                        apply Run.valuesCons (r := .ok _ _)
                        · exact .valueText rfl
                        · apply Run.valuesCons (r := .ok _ _)
                          · exact .valueText rfl
                          · exact .valuesNil
                      · exact .piecesEmpty rfl .piecesNil
                  · rfl
                · exact .textsNil
              · rfl
              · apply within_of []
                · decide +kernel
                · exact .hostsNil
              · exact .slotsNil
            · rfl
            · rfl
          · exact .hostsNil
        · exact .slotsNil
      · rfl
      · rfl
    · exact .hostsNil
  · decide +kernel

/-- With attributes as texts alone, the blanks of the attribute would be there. -/
theorem attributes_are_not_texts_alone :
    ¬ ∀ (library : Library) (sandbox : Sandbox) (path : String) (page : Page) (s : Expansion),
      library.FromFiles → (∀ id c, library.component? id = some c → c.script = none) →
      (expandPage (.ofPage library sandbox path page)).run (ofPage page) = .ok () s →
      ∀ depth, maxDepth ≤ depth →
        s.html = (page.rewritten (fun _ _ _ => none) library depth).html := by
  intro all
  obtain ⟨trace, s, run, html⟩ := expands_tagsPage
  have done := exec_of_run run
  have rewritten := all tagsLibrary failingSandbox "" tagsPage s fromFiles_tagsLibrary
    no_scripts_tagsLibrary done maxDepth (Nat.le_refl _)
  have texts : (tagsPage.rewritten (fun _ _ _ => none) tagsLibrary maxDepth).html = "<p> ab </p>" := by
    decide +kernel
  rw [html, texts] at rewritten
  simp at rewritten

theorem tagsPage_is_rewritten :
    tagsLibrary.FromFiles ∧ (∀ id c, tagsLibrary.component? id = some c → c.script = none) ∧
      ∃ s, (expandPage tagsScene).run (ofPage tagsPage) = .ok () s ∧ maxDepth ≤ maxDepth ∧
        s.arena.tree Arena.root = tagsPage.rewritten richValue? tagsLibrary maxDepth ∧
        s.html = (tagsPage.rewritten richValue? tagsLibrary maxDepth).html := by
  obtain ⟨trace, s, run, -⟩ := expands_tagsPage
  have done := exec_of_run run
  exact ⟨fromFiles_tagsLibrary, no_scripts_tagsLibrary, s, done, Nat.le_refl _,
    expanded_page_is_rewritten fromFiles_tagsLibrary no_scripts_tagsLibrary done maxDepth
      (Nat.le_refl _)⟩

end Expansion
end Stencil
