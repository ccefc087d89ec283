import Stencil.Proofs.Markup.Custom
/-!
What moving nodes does to each node of a store. An operation is described by the node that stands at
every number afterwards.
-/
namespace Stencil.Markup.Arena
variable (a : Arena)

theorem parent?_eq_none {j : NodeId} (out : a.size ≤ j) : a.parent? j = none := by
  rw [parent?, node, Array.getD_eq_getD_getElem?, Array.getElem?_eq_none out]
  rfl

theorem children_eq_nil {j : NodeId} (out : a.size ≤ j) : a.children j = [] := by
  rw [children, node, Array.getD_eq_getD_getElem?, Array.getElem?_eq_none out]
  rfl

theorem lt_size_of_parent? {j p : NodeId} (parent : a.parent? j = some p) : j < a.size := by
  refine Nat.lt_of_not_le fun out => ?_
  rw [a.parent?_eq_none out] at parent
  cases parent

theorem lt_size_of_mem_children {j p : NodeId} (mem : j ∈ a.children p) : p < a.size := by
  refine Nat.lt_of_not_le fun out => ?_
  rw [a.children_eq_nil out] at mem
  cases mem

theorem lt_size_of_element? {j : NodeId} {e : Element} (found : a.element? j = some e) :
    j < a.size := by
  refine Nat.lt_of_not_le fun out => ?_
  rw [element?, a.content_eq_root out] at found
  cases found

/-! ### How many nodes there are -/

@[simp] theorem size_modify (id : NodeId) (f : Node → Node) : (a.modify id f).size = a.size := by
  simp [modify, size]

@[simp] theorem size_setContent (id : NodeId) (c : Content) : (a.setContent id c).size = a.size :=
  a.size_modify id _

@[simp] theorem size_setParent (id : NodeId) (p : Option NodeId) :
    (a.setParent id p).size = a.size :=
  a.size_modify id _

@[simp] theorem size_setChildren (id : NodeId) (ids : List NodeId) :
    (a.setChildren id ids).size = a.size :=
  a.size_modify id _

@[simp] theorem size_modifyElement (id : NodeId) (f : Element → Element) :
    (a.modifyElement id f).size = a.size := by
  rw [modifyElement]
  split
  · exact a.size_setContent id _
  · rfl

@[simp] theorem size_detach (id : NodeId) : (a.detach id).size = a.size := by
  rw [detach]
  split
  · rfl
  · simp

theorem size_foldl {α : Type} {f : Arena → α → Arena} (same : ∀ a x, (f a x).size = a.size)
    (xs : List α) : (xs.foldl f a).size = a.size := by
  induction xs generalizing a with
  | nil => rfl
  | cons x xs ih => rw [List.foldl_cons, ih, same]

@[simp] theorem size_append (parent child : NodeId) : (a.append parent child).size = a.size := by
  simp [append]

@[simp] theorem size_detachAll (ids : List NodeId) : (a.detachAll ids).size = a.size :=
  a.size_foldl (fun b x => b.size_detach x) ids

@[simp] theorem size_placeAt (parent index : NodeId) (ids : List NodeId) :
    (a.placeAt parent index ids).size = a.size := by
  rw [placeAt, size_foldl _ fun b x => b.size_setParent x _, size_setChildren]

@[simp] theorem size_insertBefore (anchor : NodeId) (ids : List NodeId) :
    (a.insertBefore anchor ids).size = a.size := by
  rw [insertBefore]
  split
  · rfl
  · dsimp only
    split
    · exact a.size_detachAll ids
    · rw [size_placeAt, size_detachAll]

@[simp] theorem size_replaceWith (target : NodeId) (ids : List NodeId) :
    (a.replaceWith target ids).size = a.size := by
  rw [replaceWith, size_detach, size_insertBefore]

@[simp] theorem size_takeChildren (id : NodeId) : (a.takeChildren id).2.size = a.size := by
  rw [takeChildren, size_foldl _ fun b x => b.size_setParent x none, size_setChildren]

@[simp] theorem size_alloc (c : Content) : (a.alloc c).2.size = a.size + 1 := by
  simp [alloc, size]

theorem length_layout (parent : Option NodeId) (id : NodeId) (t : Tree) :
    (t.layout parent id).length = t.size := by
  rw [← t.length_contents, ← t.content_layout parent id, List.length_map]

@[simp] theorem size_graft (t : Tree) : (a.graft t).2.size = a.size + t.size := by
  simp [graft, size, length_layout]

/-! ### Changes of one node -/

theorem node_setContent (id : NodeId) (c : Content) (j : NodeId) :
    (a.setContent id c).node j =
      if j = id ∧ j < a.size then { a.node j with content := c } else a.node j :=
  a.node_modify id _ j

theorem node_setParent (id : NodeId) (p : Option NodeId) (j : NodeId) :
    (a.setParent id p).node j =
      if j = id ∧ j < a.size then { a.node j with parent := p } else a.node j :=
  a.node_modify id _ j

theorem node_setChildren (id : NodeId) (ids : List NodeId) (j : NodeId) :
    (a.setChildren id ids).node j =
      if j = id ∧ j < a.size then { a.node j with children := ids } else a.node j :=
  a.node_modify id _ j

theorem node_modifyElement (id : NodeId) (f : Element → Element) (j : NodeId) :
    (a.modifyElement id f).node j =
      match a.element? j with
      | some e => if j = id then { a.node j with content := .element (f e) } else a.node j
      | none => a.node j := by
  rw [modifyElement]
  cases here : a.element? id with
  | none =>
    cases there : a.element? j with
    | none => rfl
    | some e =>
      have apart : j ≠ id := by
        rintro rfl
        rw [here] at there
        cases there
      simp [apart]
  | some e =>
    dsimp only
    rw [node_setContent]
    by_cases same : j = id
    · subst same
      simp [here, a.lt_size_of_element? here]
    · simp [same]
      split <;> rfl

theorem node_grow (ns : List Node) (j : NodeId) :
    node ⟨a.nodes ++ ns.toArray⟩ j =
      if j < a.size then a.node j else ns.getD (j - a.size) ⟨.root, none, []⟩ := by
  simp only [node, size, Array.getD_eq_getD_getElem?, List.getD_eq_getElem?_getD]
  by_cases inside : j < a.nodes.size
  · rw [if_pos inside, Array.getElem?_append_left inside]
  · rw [if_neg inside, Array.getElem?_append_right (Nat.le_of_not_lt inside), List.getElem?_toArray]

theorem node_alloc (c : Content) (j : NodeId) :
    (a.alloc c).2.node j = if j = a.size then ⟨c, none, []⟩ else a.node j := by
  rw [alloc_eq_grow, node_grow]
  rcases Nat.lt_trichotomy j a.size with inside | rfl | out
  · rw [if_pos inside, if_neg (Nat.ne_of_lt inside)]
  · simp
  · rw [if_neg (Nat.not_lt_of_gt out), if_neg (Nat.ne_of_gt out), node, Array.getD_eq_getD_getElem?,
      Array.getElem?_eq_none (Nat.le_of_lt out), List.getD_eq_getElem?_getD,
      List.getElem?_eq_none (by simp; omega)]

theorem node_graft (t : Tree) (j : NodeId) :
    (a.graft t).2.node j =
      if j < a.size then a.node j
      else (t.layout none a.size).getD (j - a.size) ⟨.root, none, []⟩ :=
  a.node_grow _ j

/-! ### Changes of places -/

theorem node_detach (id j : NodeId) :
    (a.detach id).node j =
      match a.parent? id with
      | none => a.node j
      | some p =>
        let n := if j = id then { a.node j with parent := none } else a.node j
        if j = p then { n with children := (a.children p).filter (· != id) } else n := by
  rw [detach]
  cases parent : a.parent? id with
  | none => rfl
  | some p =>
    dsimp only
    rw [node_setChildren, node_setParent, size_setParent]
    have inside := a.lt_size_of_parent? parent
    by_cases child : j = id
    · subst child
      by_cases own : j = p
      · simp [own, own ▸ inside]
      · simp [own, inside]
    · by_cases own : j = p
      · subst own
        by_cases range : j < a.size
        · simp [child, range]
        · -- a parent that is no node has no children to lose
          have out := Nat.le_of_not_lt range
          have nil := a.children_eq_nil out
          simp only [child, range, and_false, if_false, if_true, nil, List.filter_nil]
          rw [← nil, children]
      · simp [child, own]

theorem detach_of_free {id : NodeId} (free : a.parent? id = none) : a.detach id = a := by
  rw [detach, free]

theorem detachAll_of_free {ids : List NodeId} (free : ∀ i ∈ ids, a.parent? i = none) :
    a.detachAll ids = a := by
  induction ids with
  | nil => rfl
  | cons i ids ih =>
    rw [detachAll, List.foldl_cons, a.detach_of_free (free i List.mem_cons_self)]
    exact ih fun j mem => free j (List.mem_cons_of_mem _ mem)

theorem node_setParents (p : Option NodeId) (ids : List NodeId) (j : NodeId) :
    (ids.foldl (fun a i => a.setParent i p) a).node j =
      if j ∈ ids ∧ j < a.size then { a.node j with parent := p } else a.node j := by
  induction ids generalizing a with
  | nil => simp
  | cons i ids ih =>
    rw [List.foldl_cons, ih, size_setParent, node_setParent]
    by_cases range : j < a.size
    · by_cases own : j = i
      · subst own
        simp [range]
      · simp [own]
    · simp [range]

theorem node_takeChildren (id j : NodeId) :
    (a.takeChildren id).2.node j =
      let n := if j = id then { a.node j with children := [] } else a.node j
      if j ∈ a.children id ∧ j < a.size then { n with parent := none } else n := by
  rw [takeChildren, node_setParents, size_setChildren, node_setChildren]
  by_cases own : j = id
  · subst own
    by_cases range : j < a.size
    · simp [range]
    · have nil := a.children_eq_nil (Nat.le_of_not_lt range)
      simp only [range, and_false, if_false, if_true, nil]
      rw [← nil, children]
  · simp [own]

theorem node_append {parent child : NodeId} (free : a.parent? child = none)
    (inside : parent < a.size) (apart : parent ≠ child) (j : NodeId) :
    (a.append parent child).node j =
      if j = parent then { a.node j with children := a.children parent ++ [child] }
      else if j = child ∧ j < a.size then { a.node j with parent := some parent } else a.node j := by
  rw [append]
  simp only [a.detach_of_free free]
  rw [node_setChildren, size_setParent, node_setParent]
  by_cases own : j = parent
  · subst own
    rw [if_pos ⟨rfl, inside⟩, if_pos rfl]
    simp [apart]
  · rw [if_neg (by simp [own]), if_neg own]

theorem node_appendAll {parent : NodeId} {ids : List NodeId} (once : ids.Nodup)
    (free : ∀ i ∈ ids, a.parent? i = none) (inside : parent < a.size) (apart : parent ∉ ids)
    (j : NodeId) :
    (ids.foldl (·.append parent ·) a).node j =
      if j = parent then { a.node j with children := a.children parent ++ ids }
      else if j ∈ ids ∧ j < a.size then { a.node j with parent := some parent } else a.node j := by
  induction ids generalizing a with
  | nil =>
    simp only [List.foldl_nil, List.append_nil, List.not_mem_nil, false_and, if_false]
    split
    · next own => rw [own, children]
    · rfl
  | cons i ids ih =>
    rw [List.nodup_cons] at once
    rw [List.mem_cons, not_or] at apart
    obtain ⟨free_i, free⟩ := List.forall_mem_cons.mp free
    have step := fun j => a.node_append free_i inside apart.1 j
    have still : ∀ k ∈ ids, (a.append parent i).parent? k = none := by
      intro k mem
      have other : k ≠ parent := fun same => apart.2 (same ▸ mem)
      have other' : k ≠ i := fun same => once.1 (same ▸ mem)
      rw [parent?, step, if_neg other, if_neg fun both => other' both.1]
      exact free k mem
    rw [List.foldl_cons, ih _ once.2 still (by simpa using inside) apart.2, children, step, step,
      if_pos rfl, size_append]
    by_cases own : j = parent
    · simp [own]
    · by_cases here : j = i
      · simp [here, once.1, Ne.symm apart.1]
      · simp [own, here]

/-- A node in a list gives way to others. -/
def swap (x : NodeId) (ids : List NodeId) (l : List NodeId) : List NodeId :=
  l.flatMap fun k => if k = x then ids else [k]

theorem swap_of_not_mem {x : NodeId} {ids l : List NodeId} (absent : x ∉ l) :
    swap x ids l = l := by
  induction l with
  | nil => rfl
  | cons k l ih =>
    rw [List.mem_cons, not_or] at absent
    rw [swap, List.flatMap_cons, if_neg (Ne.symm absent.1), List.singleton_append]
    exact congrArg (k :: ·) (ih absent.2)

theorem swap_self (x : NodeId) (l : List NodeId) : swap x [x] l = l := by
  induction l with
  | nil => rfl
  | cons k l ih =>
    have same : (if k = x then [x] else [k]) = [k] := by
      split
      · next own => rw [own]
      · rfl
    rw [swap, List.flatMap_cons, same]
    exact congrArg (k :: ·) ih

theorem filter_around {x i : NodeId} {ids l : List NodeId} (once : l.Nodup) (apart : x ∉ ids)
    (at_index : l.findIdx? (· == x) = some i) :
    (l.take i ++ ids ++ l.drop i).filter (· != x) = swap x ids l := by
  have kept : ids.filter (· != x) = ids :=
    List.filter_eq_self.mpr fun k mem => by
      have other : k ≠ x := fun same => apart (same ▸ mem)
      simpa using other
  induction l generalizing i with
  | nil => cases at_index
  | cons k l ih =>
    rw [List.nodup_cons] at once
    rw [List.findIdx?_cons] at at_index
    by_cases own : k = x
    · subst own
      rw [if_pos (by simp)] at at_index
      cases at_index
      have rest : l.filter (· != k) = l :=
        List.filter_eq_self.mpr fun j mem => by
          have other : j ≠ k := fun same => once.1 (same ▸ mem)
          simpa using other
      simp only [List.take_zero, List.drop_zero, List.nil_append, List.filter_append, kept]
      rw [List.filter_cons_of_neg (by simp), rest, swap, List.flatMap_cons, if_pos rfl]
      exact congrArg (ids ++ ·) (swap_of_not_mem once.1).symm
    · rw [if_neg (by simpa using own)] at at_index
      obtain ⟨n, found, rfl⟩ := Option.map_eq_some_iff.mp at_index
      rw [List.take_succ_cons, List.drop_succ_cons, List.cons_append, List.cons_append,
        List.filter_cons_of_pos (by simpa using own), ih once.2 found, swap, swap,
        List.flatMap_cons, if_neg own]
      rfl

theorem node_placeAt {q : NodeId} (i : Nat) {ids : List NodeId} (range : q < a.size)
    (inside : ∀ i ∈ ids, i < a.size) (apart : q ∉ ids) (k : NodeId) :
    (a.placeAt q i ids).node k =
      if k ∈ ids then { a.node k with parent := some q }
      else if k = q then
        { a.node k with children := (a.children q).take i ++ ids ++ (a.children q).drop i }
      else a.node k := by
  rw [placeAt]
  dsimp only
  rw [node_setParents, size_setChildren, node_setChildren]
  by_cases mem : k ∈ ids
  · have ne : k ≠ q := fun same => apart (same ▸ mem)
    simp [mem, inside k mem, ne]
  · by_cases top : k = q
    · subst top
      simp [mem, range]
    · simp [mem, top]

/-- Free nodes take the place of another. -/
theorem node_replaceWith {x q : NodeId} {ids : List NodeId} (parent : a.parent? x = some q)
    (child : x ∈ a.children q) (once : (a.children q).Nodup) (own : x ≠ q)
    (free : ∀ i ∈ ids, a.parent? i = none) (inside : ∀ i ∈ ids, i < a.size)
    (apart : q ∉ ids) (j : NodeId) :
    (a.replaceWith x ids).node j =
      if j ∈ ids then { a.node j with parent := some q }
      else if j = x then { a.node j with parent := none }
      else if j = q then { a.node j with children := swap x ids (a.children q) }
      else a.node j := by
  have other : x ∉ ids := fun mem => by
    rw [free x mem] at parent
    cases parent
  obtain ⟨i, at_index⟩ : ∃ i, (a.children q).findIdx? (· == x) = some i := by
    rw [← Option.isSome_iff_exists, List.findIdx?_isSome]
    simpa using child
  have placed : a.insertBefore x ids = a.placeAt q i ids := by
    rw [insertBefore, parent]
    dsimp only
    rw [a.detachAll_of_free free, indexInParent?, parent, Option.bind_some, at_index]
  have range : q < a.size := a.lt_size_of_mem_children child
  have node_placed := a.node_placeAt i range inside apart
  have still : (a.placeAt q i ids).parent? x = some q := by
    rw [parent?, node_placed, if_neg other, if_neg own]
    exact parent
  rw [replaceWith, placed, node_detach, still]
  dsimp only
  have listed : ((a.placeAt q i ids).children q).filter (· != x) = swap x ids (a.children q) := by
    rw [children, node_placed, if_neg apart, if_pos rfl]
    exact filter_around once other at_index
  rw [listed, node_placed]
  by_cases mem : j ∈ ids
  · have ne : j ≠ q := fun same => apart (same ▸ mem)
    have ne' : j ≠ x := fun same => other (same ▸ mem)
    simp [mem, ne, ne']
  · by_cases target : j = x
    · simp [target, other, own]
    · by_cases top : j = q
      · subst top
        simp [mem, target]
      · simp [mem, target, top]

end Stencil.Markup.Arena
