import Stencil.Markup.Sites
/-!
Custom elements in a store. No operation on a store takes one away or gives it another name; new
ones come with the trees that are put into it.
-/
namespace Stencil.Markup

/-- The name, if the node is a custom element. -/
def Content.customName? (c : Content) : Option String :=
  (c.element?.filter (·.isCustom)).map (·.name)

theorem Content.customName?_element (e : Element) :
    (Content.element e).customName? = if e.isCustom then some e.name else none := by
  cases custom : e.isCustom <;> simp [customName?, element?, Option.filter, custom]

/-! ### Uses of a document -/

theorem mem_foldl_distinct (names seen : List String) (n : String) :
    n ∈ names.foldl (fun names n => if names.contains n then names else names ++ [n]) seen ↔
      n ∈ seen ∨ n ∈ names := by
  induction names generalizing seen with
  | nil => simp
  | cons name names ih =>
    rw [List.foldl_cons, ih, List.mem_cons]
    split
    · next known =>
      rw [List.contains_iff_mem] at known
      constructor
      · rintro (old | new)
        · exact .inl old
        · exact .inr (.inr new)
      · rintro (old | rfl | new)
        · exact .inl old
        · exact .inl known
        · exact .inr new
    · rw [List.mem_append, List.mem_singleton, or_assoc]

theorem Document.mem_uses {d : Document} {n : String} :
    n ∈ d.uses ↔ ∃ c ∈ d.tree.contents, c.customName? = some n := by
  rw [uses, mem_foldl_distinct, List.mem_filterMap]
  simp [Content.customName?]

/-! ### The nodes of a tree -/

mutual

theorem Tree.content_layout (parent : Option NodeId) (id : NodeId) (t : Tree) :
    (t.layout parent id).map (·.content) = t.contents := by
  cases t with
  | node c ts =>
    rw [layout, contents, List.map_cons, Tree.content_layoutAll (some id) (id + 1) ts]

theorem Tree.content_layoutAll (parent : Option NodeId) (id : NodeId) (ts : List Tree) :
    (Tree.layoutAll parent id ts).map (·.content) = contentsAll ts := by
  cases ts with
  | nil => rfl
  | cons t ts =>
    rw [layoutAll, contentsAll, List.map_append, t.content_layout,
      Tree.content_layoutAll parent (id + t.size) ts]

end

theorem Tree.mem_contentsAll {c : Content} {ts : List Tree} :
    c ∈ contentsAll ts ↔ ∃ t ∈ ts, c ∈ t.contents := by
  induction ts with
  | nil => simp [contentsAll]
  | cons t ts ih => simp [contentsAll, ih]

theorem Tree.mem_contents_of_mem_children {c : Content} {t file : Tree} (mem : t ∈ file.children)
    (inside : c ∈ t.contents) : c ∈ file.contents := by
  cases file with
  | node content ts => exact List.mem_cons_of_mem _ (mem_contentsAll.mpr ⟨t, mem, inside⟩)

namespace Arena
variable (a : Arena)

/-- The name of a node that is a custom element. -/
def customName? (id : NodeId) : Option String := (a.content id).customName?

theorem customName?_eq_some {id : NodeId} {n : String} :
    a.customName? id = some n ↔ ∃ e, a.element? id = some e ∧ e.isCustom ∧ e.name = n := by
  simp [customName?, Content.customName?, element?, Option.filter_eq_some_iff, and_assoc]

theorem customName?_of_text? {id : NodeId} {s : String} (text : a.text? id = some s) :
    a.customName? id = none := by
  rw [text?] at text
  rw [customName?]
  revert text
  cases a.content id <;> simp [Content.text?, Content.customName?, Content.element?]

theorem node_modify (id : NodeId) (f : Node → Node) (j : NodeId) :
    (a.modify id f).node j = if j = id ∧ j < a.size then f (a.node j) else a.node j := by
  simp only [node, modify, size, Array.getD_eq_getD_getElem?, Array.getElem?_modify]
  by_cases same : id = j
  · subst same
    by_cases inside : id < a.nodes.size
    · simp [inside]
    · simp [inside]
  · simp [same, Ne.symm same]

/-! ### What changes of a store leave of the contents -/

theorem content_modify {f : Node → Node} (same : ∀ n, (f n).content = n.content) (id j : NodeId) :
    (a.modify id f).content j = a.content j := by
  rw [content, node_modify]
  split
  · exact same _
  · rfl

@[simp] theorem content_setParent (id : NodeId) (p : Option NodeId) (j : NodeId) :
    (a.setParent id p).content j = a.content j :=
  a.content_modify (f := ({ · with parent := p })) (fun _ => rfl) id j

@[simp] theorem content_setChildren (id : NodeId) (ids : List NodeId) (j : NodeId) :
    (a.setChildren id ids).content j = a.content j :=
  a.content_modify (f := ({ · with children := ids })) (fun _ => rfl) id j

@[simp] theorem content_detach (id j : NodeId) : (a.detach id).content j = a.content j := by
  rw [detach]
  split
  · rfl
  · simp

theorem content_foldl {α : Type} {f : Arena → α → Arena}
    (same : ∀ a x j, (f a x).content j = a.content j) (xs : List α) (j : NodeId) :
    (xs.foldl f a).content j = a.content j := by
  induction xs generalizing a with
  | nil => rfl
  | cons x xs ih => rw [List.foldl_cons, ih, same]

@[simp] theorem content_append (parent child j : NodeId) :
    (a.append parent child).content j = a.content j := by
  simp [append]

@[simp] theorem content_insertBefore (anchor : NodeId) (ids : List NodeId) (j : NodeId) :
    (a.insertBefore anchor ids).content j = a.content j := by
  have detached : (a.detachAll ids).content j = a.content j :=
    a.content_foldl (fun a x j => a.content_detach x j) ids j
  rw [insertBefore]
  split
  · rfl
  · dsimp only
    split
    · exact detached
    · rw [placeAt, content_foldl _ (fun a x j => a.content_setParent x _ j), content_setChildren,
        detached]

@[simp] theorem content_replaceWith (target : NodeId) (ids : List NodeId) (j : NodeId) :
    (a.replaceWith target ids).content j = a.content j := by
  simp [replaceWith]

@[simp] theorem content_takeChildren (id j : NodeId) :
    (a.takeChildren id).2.content j = a.content j := by
  rw [takeChildren, content_foldl _ (fun a x j => a.content_setParent x none j),
    content_setChildren]

theorem content_setContent (id : NodeId) (c : Content) (j : NodeId) :
    (a.setContent id c).content j = if j = id ∧ j < a.size then c else a.content j := by
  rw [content, setContent, node_modify]
  split
  · rfl
  · rfl

theorem customName?_setContent {id : NodeId} {c : Content}
    (same : c.customName? = a.customName? id) (j : NodeId) :
    (a.setContent id c).customName? j = a.customName? j := by
  rw [customName?, content_setContent]
  split
  · next here =>
    rw [here.1]
    exact same
  · rfl

theorem customName?_modifyElement {f : Element → Element} (same : ∀ e, (f e).name = e.name)
    (id j : NodeId) : (a.modifyElement id f).customName? j = a.customName? j := by
  rw [modifyElement]
  split
  · next e found =>
    refine a.customName?_setContent ?_ j
    have here : a.content id = .element e := by
      rw [element?] at found
      revert found
      cases a.content id <;> simp [Content.element?]
    rw [customName?, here, Content.customName?_element, Content.customName?_element,
      Element.isCustom, Element.isCustom, same e]
  · rfl

theorem content_eq_root {j : NodeId} (out : a.size ≤ j) : a.content j = .root := by
  rw [content, node, Array.getD_eq_getD_getElem?, Array.getElem?_eq_none out]
  rfl

/-- A store that has grown by nodes at its end. -/
theorem content_grow (ns : List Node) (j : NodeId) :
    content ⟨a.nodes ++ ns.toArray⟩ j =
      if j < a.size then a.content j else ((ns.map (·.content))[j - a.size]?).getD .root := by
  simp only [content, node, size, Array.getD_eq_getD_getElem?]
  by_cases inside : j < a.nodes.size
  · rw [if_pos inside, Array.getElem?_append_left inside]
  · rw [if_neg inside, Array.getElem?_append_right (Nat.le_of_not_lt inside), List.getElem?_toArray,
      List.getElem?_map]
    cases ns[j - a.nodes.size]? <;> rfl

theorem customName?_grow {ns : List Node} {j : NodeId} {n : String}
    (found : customName? ⟨a.nodes ++ ns.toArray⟩ j = some n) :
    a.customName? j = some n ∨ ∃ c ∈ ns.map (·.content), c.customName? = some n := by
  rw [customName?, content_grow] at found
  split at found
  · exact .inl found
  · cases new : (ns.map (·.content))[j - a.size]? with
    | none =>
      rw [new] at found
      cases found
    | some c =>
      rw [new] at found
      exact .inr ⟨c, List.mem_of_getElem? new, found⟩

theorem customName?_grow_of_some {ns : List Node} {j : NodeId} {n : String}
    (found : a.customName? j = some n) : customName? ⟨a.nodes ++ ns.toArray⟩ j = some n := by
  have inside : j < a.size := by
    rcases Nat.lt_or_ge j a.size with inside | out
    · exact inside
    · rw [customName?, a.content_eq_root out] at found
      cases found
  rw [customName?, content_grow, if_pos inside]
  exact found

theorem alloc_eq_grow (c : Content) : (a.alloc c).2 = ⟨a.nodes ++ [⟨c, none, []⟩].toArray⟩ := by
  rw [alloc, Array.push_eq_append]

end Arena
end Stencil.Markup
