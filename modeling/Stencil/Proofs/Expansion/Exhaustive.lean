import Stencil.Proofs.Expansion.Rewritten
/-!
Expansion leaves no custom element that a component has the name of, wherever it has come from. Only a
slot that no instance fills keeps what stands in it, so there is to be none in the page and in markup.
-/
namespace Stencil
open Markup

namespace Value

mutual

/-- The markup in a value, at any depth. -/
def markups : Value → List String
  | text _ => []
  | markup s => [s]
  | component _ values => markupsOfEntries values
  | list items => markupsOfItems items

def markupsOfEntries : List (String × Value) → List String
  | [] => []
  | (_, v) :: rest => v.markups ++ markupsOfEntries rest

def markupsOfItems : List Value → List String
  | [] => []
  | v :: rest => v.markups ++ markupsOfItems rest

end

theorem mem_markupsOfEntries {values : List (String × Value)} {s : String} :
    s ∈ markupsOfEntries values ↔ ∃ e ∈ values, s ∈ e.2.markups := by
  induction values with
  | nil => simp [markupsOfEntries]
  | cons e rest ih =>
    obtain ⟨key, v⟩ := e
    rw [markupsOfEntries, List.mem_append, ih]
    simp

theorem mem_markupsOfItems {items : List Value} {s : String} :
    s ∈ markupsOfItems items ↔ ∃ v ∈ items, s ∈ v.markups := by
  induction items with
  | nil => simp [markupsOfItems]
  | cons v rest ih => rw [markupsOfItems, List.mem_append, ih]; simp

/-- No markup in the value has a slot. -/
def Slotless (v : Value) : Prop :=
  ∀ s ∈ v.markups, ∀ d, Document.ofSource .page [] s = .ok d → ∀ c ∈ d.tree.contents, c.isSlot = false

/-- What is asked of all markup in a value is asked of the markup in its parts. -/
theorem inherits_markups (P : String → Prop) : Inherits fun v => ∀ s ∈ v.markups, P s where
  text s := fun _ mem => by rw [markups] at mem; cases mem
  item := by
    intro items v all mem s inside
    exact all s (by rw [markups]; exact mem_markupsOfItems.mpr ⟨v, mem, inside⟩)
  nested := by
    intro id values e all mem s inside
    exact all s (by rw [markups]; exact mem_markupsOfEntries.mpr ⟨e, mem, inside⟩)

theorem tame_slotless : Tame Slotless where
  toInherits := inherits_markups _
  markup := by
    intro s d c all read mem e found named
    have slotless := all s (by rw [markups]; exact List.mem_singleton_self s) d read c mem
    rw [Content.isSlot, found, Option.any_some, named] at slotless
    cases slotless

mutual

theorem markups_of_plain {v : Value} (plain : v.Plain) : v.markups = [] := by
  cases v with
  | text _ => rw [markups]
  | markup _ | component _ _ => exact plain.elim
  | list items => rw [markups, markupsOfItems_of_plain plain]

theorem markupsOfItems_of_plain {items : List Value} (plain : PlainAll items) :
    markupsOfItems items = [] := by
  match items with
  | [] => rw [markupsOfItems]
  | v :: rest =>
    rw [markupsOfItems, markups_of_plain plain.1, markupsOfItems_of_plain plain.2]
    rfl

end

theorem slotless_of_plain {v : Value} (plain : v.Plain) : v.Slotless := by
  intro s mem
  rw [markups_of_plain plain] at mem
  cases mem

end Value

namespace Expansion
open Branch

/-- After the expansion of a page, no custom element below the root has the name of a component. -/
theorem no_known_component_left {library : Library} {sandbox : Sandbox} {path : String} {page : Page}
    {trace : List Instance} {s : Expansion} (files : library.FromFiles)
    (slotless : ∀ c ∈ page.document.tree.contents, c.isSlot = false)
    (run : Expands (.ofPage library sandbox path page) page trace (.ok () s))
    (given : GivenAll Value.Slotless trace) (id : NodeId) (e : Element)
    (below : s.arena.isBelow id Arena.root) (found : s.arena.element? id = some e)
    (custom : e.isCustom) : library.component? e.name = none := by
  obtain ⟨cs, grows, settled⟩ := expands_grows False Value.tame_slotless
    (fun e mem => Value.slotless_of_plain (Values.plain_ofDocument page.values e mem)) files.sound
    (fun h => h.elim) (fun h => h.elim) run given
  have tidy := tidy_of_run run (tidy_ofPage page)
  -- all slots that are left are bare
  have bare : ∀ slot ∈ slots cs, BareSlot slot := by
    intro slot mem
    refine (grows.slots slot mem).resolve_left fun mem => ?_
    obtain ⟨sub, here, is_slot, rfl⟩ := mem_slots.mp mem
    have part : sub ∈ (ofTree false Arena.root page.document.tree).subs := by
      rw [subs_eq]
      exact List.mem_cons_of_mem _ here
    rw [slotless _ (content_of_mem_ofTree part)] at is_slot
    cases is_slot
  have inside : id ∈ idsAll cs := grows.stands.mem_of_isBelow tidy (by
    rw [Branch.id, id_ofTree]
    exact below)
  obtain ⟨sub, part, rfl⟩ := mem_idsAll_iff_subs.mp inside
  have content : sub.stem.content = .element e := by
    rw [← (grows.stands.children.sub_parent part).content]
    exact content_of_element? found
  by_contra known
  have is_custom : sub.stem.content.isCustom := by
    rw [content, Content.isCustom, Content.element?, Option.any_some, custom]
  have is_known : sub.stem.content.isKnown library := by
    rw [content, Content.isKnown, Content.element?, Option.any_some, custom, Bool.true_and]
    exact Option.isSome_iff_ne_none.mpr known
  -- it would stand in a slot that something is left in
  have pending : sub.stem.content.isPending library = true := by
    rw [Content.isPending, is_known, Bool.or_true]
  obtain ⟨top, front, deep⟩ := exists_frontAll cs part pending
  have top_slot := settled top front
  have top_bare := bare _ (mem_slots.mpr ⟨top, (mem_subsAll_of_front cs front).1, top_slot, rfl⟩)
  rw [subs_eq, List.mem_cons] at deep
  rcases deep with rfl | deep
  · rw [Content.isSlot_of_isCustom is_custom] at top_slot
    cases top_slot
  · rw [show top.children = [] from top_bare.2] at deep
    cases deep

/-! ### Markup that a script gives -/

/-- Shows what its script gives. -/
def feed : Component where
  id := "x-feed"
  path := "feed.html"
  dir := ""
  document := ⟨.node .root [.node (.text "{{more}}") []],
    { texts := [⟨1, [⟨"more", "{{more}}"⟩]⟩] }⟩
  script := some "export default {}"

def item : Component where
  id := "x-item"
  path := "item.html"
  dir := ""
  document := ⟨.node .root [.node (.element ⟨"b", []⟩) [.node (.text "item") []]], {}⟩
  script := none

def feedLibrary : Library where
  component? id := if id = "x-feed" then some feed else if id = "x-item" then some item else none
  templates := ["x-feed", "x-item"]
  pages := []

/-- The script of the feed gives the markup of an item. -/
def feedSandbox : Sandbox := fun _ =>
  (.ok ⟨[("more", .object [(Value.markupMark, .string "<x-item></x-item>")])], none⟩, [])

/-- Has an element of an unknown name besides. -/
def feedPage : Page where
  values := []
  document := ⟨.node .root
    [.node (.element ⟨"x-other", []⟩) [], .node (.element ⟨"x-feed", []⟩) []],
    { customs := [1, 2] }⟩

def feedScene : Scene := .ofPage feedLibrary feedSandbox "" feedPage

def itemMarkup : Document :=
  ⟨.node .root [.node (.element ⟨"x-item", []⟩) []], { customs := [1] }⟩

theorem feed_read : (Component.ofRecord "" [] (.ofText "feed.html"
    ("<template id=\"x-feed\">{{more}}</template>" ++
      "<script type=\"module\">export default {}</script>"))).toOption = some feed := by
  decide +kernel

theorem item_read : (Component.ofRecord "" [] (.ofText "item.html"
    "<template id=\"x-item\"><b>item</b></template>")).toOption = some item := by
  decide +kernel

theorem itemMarkup_read :
    (Document.ofSource .page [] "<x-item></x-item>").toOption = some itemMarkup := by
  decide +kernel

theorem fromFiles_feedLibrary : feedLibrary.FromFiles := by
  intro id c known
  simp only [feedLibrary] at known
  split at known
  · obtain rfl := Option.some.inj known
    exact ⟨_, _, _, ok_of_toOption feed_read⟩
  · split at known
    · obtain rfl := Option.some.inj known
      exact ⟨_, _, _, ok_of_toOption item_read⟩
    · cases known

/-- The item in the markup is expanded. -/
theorem expands_feedPage :
    ∃ trace s, Expands feedScene feedPage trace (.ok () s) ∧
      trace.map (·.given) = [some ⟨[("more", .markup "<x-item></x-item>")], none⟩, none] ∧
      s.arena.isBelow 1 Arena.root = true ∧
      s.arena.element? 1 = some { name := "x-other" } := by
  apply Exists.intro
  apply Exists.intro
  apply And.intro
  · apply within_of [(1, "/0:x-other"), (2, "/1:x-feed")]
    · decide +kernel
    apply Run.hostsCons
    · apply Run.hostKept (r := .ok () _)
      · rfl
      · exact .unknown rfl rfl
      · apply within_of []
        · decide +kernel
        · exact .hostsNil
    apply Run.hostsCons
    · apply Run.hostReplaced
      · rfl
      · apply Run.created (r := .ok () _)
        · rfl
        · rfl
        · apply Run.textsCons
          · apply Run.richText
            · rfl
            · rfl
            · apply Run.piecesEmpty
              · rfl
              · apply Run.piecesValue (r := .ok _ _)
                · exact .valueMarkup (ok_of_toOption itemMarkup_read) rfl
                · exact .piecesEmpty rfl .piecesNil
            · rfl
          · exact .textsNil
        · rfl
        · apply within_of [(5, "/1:x-feed/0:x-item")]
          · decide +kernel
          apply Run.hostsCons
          · apply Run.hostReplaced
            · rfl
            · apply Run.created (r := .ok () _)
              · rfl
              · rfl
              · exact .textsNil
              · rfl
              · apply within_of []
                · decide +kernel
                · exact .hostsNil
              · exact .slotsNil
            · rfl
            · rfl
          · exact .hostsNil
        · exact .slotsNil
      · rfl
      · rfl
    · exact .hostsNil
  · exact ⟨rfl, by decide +kernel, by decide +kernel⟩

theorem slotless_itemMarkup : (Value.markup "<x-item></x-item>").Slotless := by
  intro source mem d read c inside
  rw [Value.markups, List.mem_singleton] at mem
  subst mem
  obtain rfl := Except.ok.inj ((ok_of_toOption itemMarkup_read).symm.trans read)
  have all : ∀ c ∈ itemMarkup.tree.contents, c.isSlot = false := by decide +kernel
  exact all c inside

theorem feedPage_leaves_unknown_alone :
    feedLibrary.FromFiles ∧ (∀ c ∈ feedPage.document.tree.contents, c.isSlot = false) ∧
      ∃ trace s, Expands feedScene feedPage trace (.ok () s) ∧ GivenAll Value.Slotless trace ∧
        s.arena.isBelow 1 Arena.root ∧ s.arena.element? 1 = some { name := "x-other" } ∧
        Element.isCustom { name := "x-other" } ∧ feedLibrary.component? "x-other" = none := by
  obtain ⟨trace, s, run, givens, below, found⟩ := expands_feedPage
  have slotless : ∀ c ∈ feedPage.document.tree.contents, c.isSlot = false := by decide +kernel
  have given : GivenAll Value.Slotless trace := by
    intro i mem computed given e inside
    have listed : some computed ∈ trace.map (·.given) := given ▸ List.mem_map_of_mem mem
    rw [givens] at listed
    simp only [List.mem_cons, Option.some.injEq, reduceCtorEq, List.not_mem_nil, or_false] at listed
    subst listed
    obtain rfl := List.mem_singleton.mp inside
    exact slotless_itemMarkup
  have custom : Element.isCustom { name := "x-other" } := by decide +kernel
  exact ⟨fromFiles_feedLibrary, slotless, trace, s, run, given, below, found, custom,
    no_known_component_left fromFiles_feedLibrary slotless run given 1 _ below found custom⟩

end Expansion
end Stencil
