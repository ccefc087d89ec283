import Mathlib.Data.List.Nodup
import Stencil.Proofs.Markup.Built
import Stencil.Proofs.Markup.Custom
import Stencil.Proofs.Markup.Leaves
/-!
Attributes of an element by their names. Setting or removing one leaves the others as they are. In a
component no name of an attribute stands twice in an element.
-/
namespace Stencil
open Markup

namespace Markup.Element

variable {e : Element} {name other value : String}

theorem find?_assign_of_ne (apart : name ≠ other) (as : List Attribute) :
    (assign name value as).find? (·.name == other) = as.find? (·.name == other) := by
  induction as with
  | nil => simp [assign, apart]
  | cons a as ih =>
    rw [assign]
    split
    · next same => simp [same, apart]
    · rw [List.find?_cons, List.find?_cons, ih]

theorem attribute?_setAttr_of_ne (apart : name ≠ other) :
    (e.setAttr name value).attribute? other = e.attribute? other :=
  find?_assign_of_ne apart e.attributes

theorem attribute?_setAttr : (e.setAttr name value).attribute? name = some ⟨name, some value⟩ := by
  rw [setAttr, attribute?]
  dsimp only
  induction e.attributes with
  | nil => simp [assign]
  | cons a as ih =>
    rw [assign]
    split
    · simp
    · next apart => rw [List.find?_cons_of_neg (by simpa using apart), ih]

theorem attribute?_eraseAttr_of_ne (apart : name ≠ other) :
    (e.eraseAttr name).attribute? other = e.attribute? other := by
  rw [eraseAttr, attribute?, attribute?]
  dsimp only
  induction e.attributes with
  | nil => rfl
  | cons a as ih =>
    by_cases own : a.name = name
    · rw [List.eraseP_cons_of_pos (by simpa using own),
        List.find?_cons_of_neg (by simpa [own] using apart)]
    · rw [List.eraseP_cons_of_neg (by simpa using own), List.find?_cons, List.find?_cons, ih]

theorem attr?_setAttr_of_ne (apart : name ≠ other) :
    (e.setAttr name value).attr? other = e.attr? other := by
  rw [attr?, attr?, attribute?_setAttr_of_ne apart]

theorem attr?_setAttr : (e.setAttr name value).attr? name = some value := by
  rw [attr?, attribute?_setAttr]
  rfl

theorem attr?_eraseAttr_of_ne (apart : name ≠ other) :
    (e.eraseAttr name).attr? other = e.attr? other := by
  rw [attr?, attr?, attribute?_eraseAttr_of_ne apart]

/-- Where no name stands twice, an attribute that is removed is gone. -/
theorem attribute?_eraseAttr (once : (e.attributes.map (·.name)).Nodup) :
    (e.eraseAttr name).attribute? name = none := by
  obtain ⟨_, attributes⟩ := e
  refine List.find?_eq_none.mpr fun a mem same => ?_
  rw [eraseAttr] at mem
  dsimp only at once mem
  induction attributes with
  | nil => cases mem
  | cons b as ih =>
    rw [List.map_cons, List.nodup_cons] at once
    by_cases own : b.name = name
    · rw [List.eraseP_cons_of_pos (by simpa using own)] at mem
      exact once.1 (own ▸ beq_iff_eq.mp same ▸ List.mem_map_of_mem mem)
    · rw [List.eraseP_cons_of_neg (by simpa using own)] at mem
      rcases List.mem_cons.mp mem with rfl | mem
      · exact own (beq_iff_eq.mp same)
      · exact ih once.2 mem

theorem eq_or_mem_of_mem_assign {as : List Attribute}
    (mem : other ∈ (assign name value as).map (·.name)) :
    other = name ∨ other ∈ as.map (·.name) := by
  induction as with
  | nil => exact .inl (List.mem_singleton.mp mem)
  | cons a as ih =>
    rw [assign] at mem
    split at mem
    · exact (List.mem_cons.mp mem).imp_right (List.mem_cons_of_mem _)
    · rcases List.mem_cons.mp mem with rfl | mem
      · exact .inr List.mem_cons_self
      · exact (ih mem).imp_right (List.mem_cons_of_mem _)

theorem nodup_assign {as : List Attribute} (once : (as.map (·.name)).Nodup) :
    ((assign name value as).map (·.name)).Nodup := by
  induction as with
  | nil => exact List.nodup_singleton name
  | cons a as ih =>
    rw [List.map_cons, List.nodup_cons] at once
    rw [assign]
    split
    · next own =>
      rw [List.map_cons, List.nodup_cons, ← own]
      exact once
    · next other =>
      rw [List.map_cons, List.nodup_cons]
      exact ⟨fun mem => (eq_or_mem_of_mem_assign mem).elim other once.1, ih once.2⟩

theorem nodup_eraseAttr (once : (e.attributes.map (·.name)).Nodup) :
    ((e.eraseAttr name).attributes.map (·.name)).Nodup :=
  (List.eraseP_sublist.map _).nodup once

theorem isSome_attribute? : (e.attribute? name).isSome = e.hasAttr name := by
  rw [attribute?, hasAttr, List.isSome_find?]

end Markup.Element

/-- The elements of a component are as reading makes them. -/
theorem Component.legible_ofRecord {root : String} {rules : List IgnoreRule} {r : Record}
    {c : Component} (read : Component.ofRecord root rules r = .ok c) {e : Element}
    (mem : .element e ∈ c.document.tree.contents) : e.Legible := by
  obtain ⟨t, parsed, read⟩ := ok_of_bind read
  cases read
  obtain ⟨template, inside, tree, -⟩ := Template.exists_declared parsed
  obtain ⟨ts, file, shaped, -⟩ := Tree.ofSource_built rules r.content
  dsimp only at mem
  rw [tree, Tree.contents, List.mem_cons] at mem
  have below : Content.element e ∈ Tree.contentsAll template.children := mem.resolve_left nofun
  obtain ⟨u, child, here⟩ := Tree.mem_contentsAll.mp below
  rw [file] at inside
  have there : Content.element e ∈ Tree.contentsAll ts :=
    Tree.mem_contentsAll.mpr ⟨template, inside, Tree.mem_contents_of_mem_children child here⟩
  exact (shaped.elements e (List.mem_filterMap.mpr ⟨_, there, rfl⟩)).legible

end Stencil
