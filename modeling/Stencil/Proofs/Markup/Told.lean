import Mathlib.Data.List.Basic
import Stencil.Markup.Sites
import Stencil.Proofs.Markup.Custom
import Stencil.Proofs.Markup.Leaves
/-!
What the sites of a tree tell about each of its nodes. Each site of a component names a node by its
place in document order, and a copy in a store has the same contents in the same order.
-/
namespace Stencil.Markup.Sites

/-- The sites have everything about a node that they should have, and nothing else about it. -/
structure Tells (sites : Sites) (p : NodeId × Content) : Prop where
  attributes : sites.attributes.filter (·.node = p.1) = attributesOf p
  texts : sites.texts.filter (·.node = p.1) = (textOf p).toList
  refs : sites.refs.filter (· = p.1) = (elementOf (·.hasAttr "ref") p).toList
  slots : sites.slots.filter (·.2 = p.1) = (slotOf p).toList

section
variable {α : Type} {nodes : List (NodeId × Content)} {p : NodeId × Content} {sites : Sites}

/-- What is collected for numbered nodes is found again by their numbers. -/
theorem filter_flatMap {f : NodeId × Content → List α} {key : α → NodeId}
    (own : ∀ q, ∀ a ∈ f q, key a = q.1) (once : (nodes.map (·.1)).Nodup) (mem : p ∈ nodes) :
    (nodes.flatMap f).filter (key · = p.1) = f p := by
  have all : ∀ q, q.1 = p.1 → (f q).filter (key · = p.1) = f q := fun q same =>
    List.filter_eq_self.mpr fun a mem => by simpa using (own q a mem).trans same
  have none : ∀ q, q.1 ≠ p.1 → (f q).filter (key · = p.1) = [] := fun q other =>
    List.filter_eq_nil_iff.mpr fun a mem => by simpa [own q a mem] using other
  induction nodes with
  | nil => cases mem
  | cons q rest ih =>
    rw [List.map_cons, List.nodup_cons] at once
    rw [List.flatMap_cons, List.filter_append]
    rcases List.mem_cons.mp mem with rfl | mem
    · rw [all p rfl, List.filter_eq_nil_iff.mpr fun a mem => ?_, List.append_nil]
      obtain ⟨q, here, mem⟩ := List.mem_flatMap.mp mem
      have other : q.1 ≠ p.1 := fun same => once.1 (same ▸ List.mem_map_of_mem here)
      simpa [own q a mem] using other
    · have other : q.1 ≠ p.1 := fun same => once.1 (same ▸ List.mem_map_of_mem mem)
      rw [none q other, ih once.2 mem, List.nil_append]

theorem filter_filterMap {f : NodeId × Content → Option α} {key : α → NodeId}
    (own : ∀ q a, f q = some a → key a = q.1) (once : (nodes.map (·.1)).Nodup) (mem : p ∈ nodes) :
    (nodes.filterMap f).filter (key · = p.1) = (f p).toList := by
  rw [List.filterMap_eq_flatMap_toList]
  exact filter_flatMap (f := fun q => (f q).toList)
    (fun q a mem => own q a (Option.mem_toList.mp mem)) once mem

theorem sublist_filterMap {f : NodeId × Content → Option α} {key : α → NodeId}
    (own : ∀ q a, f q = some a → key a = q.1) (nodes : List (NodeId × Content)) :
    ((nodes.filterMap f).map key).Sublist (nodes.map (·.1)) := by
  induction nodes with
  | nil => exact List.Sublist.refl _
  | cons q rest ih =>
    rw [List.filterMap_cons, List.map_cons]
    split
    · exact ih.cons _
    · next a found =>
      rw [List.map_cons, own q a found]
      exact ih.cons_cons _

theorem node_of_mem_attributesOf {q : NodeId × Content} {site : AttributeSite}
    (mem : site ∈ attributesOf q) : site.node = q.1 := by
  obtain ⟨id, c⟩ := q
  cases c with
  | element e =>
    obtain ⟨a, -, found⟩ := List.mem_filterMap.mp mem
    split at found
    · cases found
    · cases found
      rfl
  | root | text _ | comment _ | directive _ => cases mem

theorem eq_of_textOf {q : NodeId × Content} {site : TextSite} (found : textOf q = some site) :
    ∃ s, q = (site.node, .text s) ∧ site.tokens = Token.ofText s := by
  obtain ⟨id, c⟩ := q
  cases c with
  | text s =>
    rw [textOf] at found
    split at found
    · cases found
    · next tokens _ =>
      cases found
      exact ⟨s, rfl, rfl⟩
  | element _ | root | comment _ | directive _ => cases found

theorem eq_of_elementOf {P : Element → Bool} {q : NodeId × Content} {x : NodeId}
    (found : elementOf P q = some x) : ∃ e, q = (x, .element e) := by
  obtain ⟨id, c⟩ := q
  cases c with
  | element e =>
    rw [elementOf] at found
    split at found
    · cases found
      exact ⟨e, rfl⟩
    · cases found
  | text _ | root | comment _ | directive _ => cases found

theorem eq_of_slotOf {q : NodeId × Content} {slot : String × NodeId}
    (found : slotOf q = some slot) : ∃ e : Element, q = (slot.2, .element e) ∧ e.name = "slot" := by
  obtain ⟨id, c⟩ := q
  cases c with
  | element e =>
    rw [slotOf] at found
    split at found
    · next named =>
      cases found
      exact ⟨e, rfl, named⟩
    · cases found
  | text _ | root | comment _ | directive _ => cases found

theorem node_of_textOf {q : NodeId × Content} {site : TextSite} (found : textOf q = some site) :
    site.node = q.1 := by
  obtain ⟨s, rfl, -⟩ := eq_of_textOf found
  rfl

theorem node_of_slotOf {q : NodeId × Content} {slot : String × NodeId}
    (found : slotOf q = some slot) : slot.2 = q.1 := by
  obtain ⟨e, rfl, -⟩ := eq_of_slotOf found
  rfl

theorem ofNumbered_ok {mode : Mode} (read : ofNumbered mode nodes = .ok sites) :
    firstRepeated? [] (nodes.filterMap slotOf) = none ∧ sites = {
      attributes := if mode = .template then nodes.flatMap attributesOf else []
      texts := if mode = .template then nodes.filterMap textOf else []
      refs := nodes.filterMap (elementOf (·.hasAttr "ref"))
      customs := nodes.filterMap (elementOf (·.isCustom))
      slots := nodes.filterMap slotOf } := by
  rw [ofNumbered] at read
  split at read
  · cases read
  · next none =>
    injection read with same
    exact ⟨none, same.symm⟩

theorem tells_of_numbered (read : ofNumbered .template nodes = .ok sites)
    (once : (nodes.map (·.1)).Nodup) (mem : p ∈ nodes) : sites.Tells p := by
  obtain ⟨-, rfl⟩ := ofNumbered_ok read
  refine ⟨filter_flatMap (fun q a => node_of_mem_attributesOf) once mem,
    filter_filterMap (fun q a => node_of_textOf) once mem,
    filter_filterMap (fun q a found => ?_) once mem,
    filter_filterMap (fun q a => node_of_slotOf) once mem⟩
  obtain ⟨e, rfl⟩ := eq_of_elementOf found
  rfl

/-! ### Sites of a tree that is laid out later -/

theorem numbered_add (n : Nat) (t : Tree) :
    numbered n t = (numbered 0 t).map fun p => (n + p.1, p.2) := by
  rw [numbered, numbered, List.map_map, List.zipIdx_eq_map_add, List.map_map]
  exact List.map_congr_left fun p _ => rfl

theorem ofAttributes_node (n : NodeId) (e : Element) :
    ofAttributes n e = (ofAttributes 0 e).map fun s => { s with node := n } := by
  rw [ofAttributes, ofAttributes, List.map_filterMap]
  refine List.filterMap_congr fun a _ => ?_
  split
  · rfl
  · rfl

theorem attributesOf_add (n : Nat) (p : NodeId × Content) :
    attributesOf (n + p.1, p.2) =
      (attributesOf p).map fun s => { s with node := n + s.node } := by
  obtain ⟨id, c⟩ := p
  cases c with
  | element e =>
    rw [attributesOf, attributesOf, ofAttributes_node, ofAttributes_node id, List.map_map]
    rfl
  | text _ | root | comment _ | directive _ => rfl

theorem textOf_add (n : Nat) (p : NodeId × Content) :
    textOf (n + p.1, p.2) = (textOf p).map fun s => { s with node := n + s.node } := by
  obtain ⟨id, c⟩ := p
  cases c with
  | text s =>
    rw [textOf, textOf]
    split
    · rfl
    · rfl
  | element _ | root | comment _ | directive _ => rfl

theorem elementOf_add (P : Element → Bool) (n : Nat) (p : NodeId × Content) :
    elementOf P (n + p.1, p.2) = (elementOf P p).map (n + ·) := by
  obtain ⟨id, c⟩ := p
  cases c with
  | element e =>
    rw [elementOf, elementOf]
    split
    · rfl
    · rfl
  | text _ | root | comment _ | directive _ => rfl

theorem slotOf_add (n : Nat) (p : NodeId × Content) :
    slotOf (n + p.1, p.2) = (slotOf p).map fun (name, node) => (name, n + node) := by
  obtain ⟨id, c⟩ := p
  cases c with
  | element e =>
    rw [slotOf, slotOf]
    split
    · rfl
    · rfl
  | text _ | root | comment _ | directive _ => rfl

theorem firstRepeated?_shift (n : Nat) (slots : List (String × NodeId)) (seen : List String) :
    firstRepeated? seen (slots.map fun (name, node) => (name, n + node)) =
      firstRepeated? seen slots := by
  induction slots generalizing seen with
  | nil => rfl
  | cons e rest ih =>
    obtain ⟨name, x⟩ := e
    rw [List.map_cons, firstRepeated?, firstRepeated?, ih]

/-- Sites that are shifted are the sites of the tree that is laid out later. -/
theorem ofNumbered_shift {t : Tree} (read : ofTree .template t = .ok sites) (n : Nat) :
    ofNumbered .template (numbered n t) = .ok (sites.shift n) := by
  obtain ⟨none, rfl⟩ := ofNumbered_ok read
  have slots : (numbered n t).filterMap slotOf =
      ((numbered 0 t).filterMap slotOf).map fun (name, node) => (name, n + node) := by
    rw [numbered_add, List.filterMap_map, List.map_filterMap]
    exact List.filterMap_congr fun p _ => slotOf_add n p
  rw [ofNumbered, slots, firstRepeated?_shift, none]
  simp only [shift, if_true, Except.ok.injEq, Sites.mk.injEq, and_true]
  rw [numbered_add, List.flatMap_map, List.map_flatMap, List.filterMap_map, List.map_filterMap,
    List.filterMap_map, List.map_filterMap, List.filterMap_map, List.map_filterMap]
  refine ⟨List.flatMap_congr fun p _ => attributesOf_add n p,
    List.filterMap_congr fun p _ => textOf_add n p,
    List.filterMap_congr fun p _ => elementOf_add _ n p,
    List.filterMap_congr fun p _ => elementOf_add _ n p⟩

theorem nodup_of_firstRepeated? {slots : List (String × NodeId)} {seen : List String}
    (none : firstRepeated? seen slots = none) :
    (slots.map (·.1)).Nodup ∧ ∀ e ∈ slots, e.1 ∉ seen := by
  induction slots generalizing seen with
  | nil => exact ⟨List.nodup_nil, fun _ mem => nomatch mem⟩
  | cons e rest ih =>
    obtain ⟨name, x⟩ := e
    rw [firstRepeated?] at none
    split at none
    · cases none
    · next fresh =>
      rw [List.contains_iff_mem] at fresh
      obtain ⟨once, out⟩ := ih none
      refine ⟨?_, List.forall_mem_cons.mpr ⟨fresh, fun e mem seen => ?_⟩⟩
      · rw [List.map_cons, List.nodup_cons]
        refine ⟨fun mem => ?_, once⟩
        obtain ⟨e, mem, same⟩ := List.mem_map.mp mem
        exact out e mem (same ▸ List.mem_cons_self)
      · exact out e mem (List.mem_cons_of_mem _ seen)

theorem nodup_names_of_numbered (read : ofNumbered .template nodes = .ok sites) :
    (sites.slots.map (·.1)).Nodup := by
  obtain ⟨none, rfl⟩ := ofNumbered_ok read
  exact (nodup_of_firstRepeated? none).1

end
end Stencil.Markup.Sites

namespace Stencil
open Markup

theorem Markup.Sites.mem_numbered {t : Tree} {k : NodeId} {c : Content} :
    (k, c) ∈ Sites.numbered 0 t ↔ t.contents[k]? = some c := by
  rw [Sites.numbered, List.mem_map]
  constructor
  · rintro ⟨⟨d, j⟩, mem, same⟩
    cases same
    exact List.mem_zipIdx_iff_getElem?.mp mem
  · intro found
    exact ⟨(c, k), List.mem_zipIdx_iff_getElem?.mpr found, rfl⟩

theorem Markup.Sites.mem_numbered_add {t : Tree} {k : NodeId} {c : Content} (n : NodeId)
    (found : t.contents[k]? = some c) : (n + k, c) ∈ Sites.numbered n t := by
  rw [Sites.numbered_add]
  exact List.mem_map.mpr ⟨(k, c), Sites.mem_numbered.mpr found, rfl⟩

/-- A copy has the contents of the tree. -/
theorem Markup.Arena.content_graft (a : Arena) {t : Tree} {k : NodeId} {c : Content}
    (found : t.contents[k]? = some c) : (a.graft t).2.content (a.size + k) = c := by
  have layout : (t.layout none a.size).map (·.content) = t.contents := t.content_layout none a.size
  rw [Arena.graft]
  dsimp only
  rw [Arena.content_grow, if_neg (Nat.not_lt_of_le (Nat.le_add_right _ _)), layout,
    Nat.add_sub_cancel_left, found, Option.getD_some]

namespace Component.Sound
variable {c : Component} (sound : c.Sound)
include sound

theorem exists_text {site : TextSite} (mem : site ∈ c.document.sites.texts) :
    ∃ text, c.document.tree.contents[site.node]? = some (.text text) ∧
      site.tokens = Token.ofText text := by
  obtain ⟨-, same⟩ := Sites.ofNumbered_ok sound.sites
  rw [same] at mem
  obtain ⟨p, here, found⟩ := List.mem_filterMap.mp mem
  obtain ⟨text, rfl, tokens⟩ := Sites.eq_of_textOf found
  exact ⟨text, Sites.mem_numbered.mp here, tokens⟩

theorem exists_attribute {site : AttributeSite} (mem : site ∈ c.document.sites.attributes) :
    ∃ e, c.document.tree.contents[site.node]? = some (.element e) ∧
      ∃ a ∈ e.attributes, site.name = a.name ∧ site.tokens = Token.ofText (a.value.getD "") := by
  obtain ⟨-, same⟩ := Sites.ofNumbered_ok sound.sites
  rw [same] at mem
  obtain ⟨⟨k, content⟩, here, found⟩ := List.mem_flatMap.mp mem
  have own := Sites.node_of_mem_attributesOf found
  cases content with
  | element e =>
    obtain ⟨a, listed, found⟩ := List.mem_filterMap.mp found
    split at found
    · cases found
    · next tokens _ =>
      cases found
      exact ⟨e, Sites.mem_numbered.mp here, a, listed, rfl, rfl⟩
  | root | text _ | comment _ | directive _ => cases found

/-- An attribute with tokens in its value is a site. -/
theorem mem_attributes {k : NodeId} {e : Element} {a : Attribute}
    (found : c.document.tree.contents[k]? = some (.element e)) (listed : a ∈ e.attributes)
    (tokens : Token.ofText (a.value.getD "") ≠ []) :
    ⟨k, a.name, Token.ofText (a.value.getD "")⟩ ∈ c.document.sites.attributes := by
  obtain ⟨-, same⟩ := Sites.ofNumbered_ok sound.sites
  rw [same]
  refine List.mem_flatMap.mpr ⟨(k, .element e), Sites.mem_numbered.mpr found, ?_⟩
  refine List.mem_filterMap.mpr ⟨a, listed, ?_⟩
  split
  · next none => exact absurd none tokens
  · rfl

theorem mem_refs {k : NodeId} : k ∈ c.document.sites.refs ↔
    ∃ e, c.document.tree.contents[k]? = some (.element e) ∧ e.hasAttr "ref" := by
  obtain ⟨-, same⟩ := Sites.ofNumbered_ok sound.sites
  rw [same]
  constructor
  · intro mem
    obtain ⟨⟨j, content⟩, here, found⟩ := List.mem_filterMap.mp mem
    cases content with
    | element e =>
      rw [Sites.elementOf] at found
      split at found
      · next marked =>
        cases found
        exact ⟨e, Sites.mem_numbered.mp here, marked⟩
      · cases found
    | root | text _ | comment _ | directive _ => cases found
  · rintro ⟨e, found, marked⟩
    refine List.mem_filterMap.mpr ⟨(k, .element e), Sites.mem_numbered.mpr found, ?_⟩
    rw [Sites.elementOf, if_pos marked]

theorem nodup_refs : c.document.sites.refs.Nodup := by
  obtain ⟨-, same⟩ := Sites.ofNumbered_ok sound.sites
  have numbers : (Sites.numbered 0 c.document.tree).map (·.1) =
      List.range' 0 c.document.tree.contents.length := by
    rw [Sites.numbered, List.map_map, ← List.zipIdx_map_snd]
    rfl
  have sublist : (((Sites.numbered 0 c.document.tree).filterMap
      (Sites.elementOf (·.hasAttr "ref"))).map fun x => x).Sublist
        ((Sites.numbered 0 c.document.tree).map (·.1)) :=
    Sites.sublist_filterMap
      (fun q a found => (Sites.eq_of_elementOf found).elim fun e own => own ▸ rfl) _
  rw [numbers, List.map_id'] at sublist
  rw [same]
  exact sublist.nodup List.nodup_range'

end Component.Sound
end Stencil
