import Stencil.Proofs.Expansion.Standing
/-!
What is read off a branch that stands in a page: its tree, its nodes, what stands above a node of it,
and which custom elements of it are the next to be expanded. A copy of a tree is laid out in document
order, so the numbers of its nodes follow one another.
-/
namespace Stencil
open Markup

namespace Markup

def Content.isCustom (c : Content) : Bool := c.element?.any (·.isCustom)

/-- What stands below the node is expanded later. -/
def Content.covers (c : Content) : Bool := c.element?.any fun e => e.isCustom || e.name == "slot"

theorem Content.covers_of_isSlot {c : Content} (slot : c.isSlot) : c.covers := by
  cases c with
  | element e =>
    simp only [isSlot, element?, Option.any_some] at slot
    simp [covers, element?, slot]
  | root | text _ | comment _ | directive _ => cases slot

theorem Content.covers_of_isCustom {c : Content} (custom : c.isCustom) : c.covers := by
  cases c with
  | element e =>
    simp only [isCustom, element?, Option.any_some] at custom
    simp [covers, element?, custom]
  | root | text _ | comment _ | directive _ => cases custom

theorem Content.isSlot_of_covers {c : Content} (covered : c.covers) (plain : c.isCustom = false) :
    c.isSlot := by
  cases c with
  | element e =>
    simp only [isCustom, element?, Option.any_some] at plain
    simpa [covers, isSlot, element?, plain] using covered
  | root | text _ | comment _ | directive _ => cases covered

theorem not_isCustom_slot : Name.isCustom "slot" = false := by decide +kernel

theorem Content.isSlot_of_isCustom {c : Content} (custom : c.isCustom) : c.isSlot = false := by
  cases c with
  | element e =>
    simp only [isCustom, element?, Option.any_some, Element.isCustom] at custom
    have other : e.name ≠ "slot" := by
      intro same
      rw [same, not_isCustom_slot] at custom
      cases custom
    simpa [isSlot, element?] using other
  | root | text _ | comment _ | directive _ => rfl

end Markup

namespace Expansion
open Branch

section
variable {s : Expansion} {p : Option NodeId} {b : Branch} {bs : List Branch} {x y scope : NodeId}
  {up : List NodeId}

theorem Stands.length_le (stands : Stands s p b) (once : b.ids.Nodup) :
    b.ids.length ≤ s.arena.size := by
  have within : b.ids ⊆ List.range s.arena.size := fun x mem =>
    List.mem_range.mpr (stands.lt mem)
  have short := once.length_le_of_subset within
  rwa [List.length_range] at short

/-! ### Downwards -/

mutual

theorem Stands.descendantsTo (b : Branch) {p : Option NodeId} (stands : Stands s p b) (n : Nat)
    (deep : b.ids.length ≤ n + 1) : s.arena.descendantsTo n b.id = b.ids := by
  cases b with
  | node i stem bs =>
    rw [ids, List.length_cons] at deep
    cases n with
    | zero =>
      cases bs with
      | nil => rfl
      | cons c cs =>
        have some : 0 < c.ids.length := length_ids_pos
        rw [idsAll, List.length_append] at deep
        omega
    | succ n =>
      have kids : s.arena.children i = bs.map (·.id) := stands.children_eq
      rw [Arena.descendantsTo, Branch.id, kids, ids,
        StandsAll.descendantsTo bs stands.children n (by omega)]

theorem StandsAll.descendantsTo (bs : List Branch) {p : Option NodeId} (stands : StandsAll s p bs)
    (n : Nat) (deep : (idsAll bs).length ≤ n + 1) :
    (bs.map (·.id)).flatMap (s.arena.descendantsTo n) = idsAll bs := by
  cases bs with
  | nil => rfl
  | cons b bs =>
    obtain ⟨head, tail⟩ := standsAll_cons.mp stands
    rw [idsAll, List.length_append] at deep
    rw [List.map_cons, List.flatMap_cons, idsAll, Stands.descendantsTo b head n (by omega),
      StandsAll.descendantsTo bs tail n (by omega)]

end

theorem Stands.descendants (stands : Stands s p b) (once : b.ids.Nodup) :
    s.arena.descendants b.id = b.ids :=
  stands.descendantsTo b _ (Nat.le_succ_of_le (stands.length_le once))

mutual

theorem Stands.treeTo (b : Branch) {p : Option NodeId} (stands : Stands s p b) (n : Nat)
    (deep : b.ids.length ≤ n + 1) : s.arena.treeTo n b.id = b.sketch.tree := by
  cases b with
  | node i stem bs =>
    rw [ids, List.length_cons] at deep
    have content : s.arena.content i = stem.content := stands.content
    cases n with
    | zero =>
      cases bs with
      | nil =>
        rw [Arena.treeTo, Branch.id, content]
        rfl
      | cons c cs =>
        have some : 0 < c.ids.length := length_ids_pos
        rw [idsAll, List.length_append] at deep
        omega
    | succ n =>
      have kids : s.arena.children i = bs.map (·.id) := stands.children_eq
      rw [Arena.treeTo, Branch.id, content, kids, sketch, Sketch.tree,
        StandsAll.treeTo bs stands.children n (by omega)]

theorem StandsAll.treeTo (bs : List Branch) {p : Option NodeId} (stands : StandsAll s p bs)
    (n : Nat) (deep : (idsAll bs).length ≤ n + 1) :
    (bs.map (·.id)).map (s.arena.treeTo n) = Sketch.trees (sketches bs) := by
  cases bs with
  | nil => rfl
  | cons b bs =>
    obtain ⟨head, tail⟩ := standsAll_cons.mp stands
    rw [idsAll, List.length_append] at deep
    rw [List.map_cons, List.map_cons, sketches, Sketch.trees, Stands.treeTo b head n (by omega),
      StandsAll.treeTo bs tail n (by omega)]

end

theorem Stands.tree (stands : Stands s p b) (once : b.ids.Nodup) :
    s.arena.tree b.id = b.sketch.tree :=
  stands.treeTo b _ (Nat.le_succ_of_le (stands.length_le once))

/-! ### Upwards -/

/-- The way up from a node to another one. -/
def Climbs (a : Arena) (scope : NodeId) (up : List NodeId) (x : NodeId) : Prop :=
  ∀ n, up.length < n → ∃ rest, a.ancestorsTo n x = up ++ scope :: rest

theorem climbs_child {a : Arena} (parent : a.parent? x = some scope) : Climbs a scope [] x := by
  intro n more
  cases n with
  | zero => cases more
  | succ n => exact ⟨_, by rw [Arena.ancestorsTo, parent]; rfl⟩

theorem Climbs.step {a : Arena} (parent : a.parent? x = some y) (climbs : Climbs a scope up y) :
    Climbs a scope (y :: up) x := by
  intro n more
  cases n with
  | zero => cases more
  | succ n =>
    obtain ⟨rest, here⟩ := climbs n (by simpa using more)
    exact ⟨rest, by rw [Arena.ancestorsTo, parent]; exact congrArg (y :: ·) here⟩

mutual

theorem Stands.climbs (b : Branch) {p : Option NodeId} {up : List NodeId} (stands : Stands s p b)
    (top : Climbs s.arena scope up b.id) (mem : x ∈ b.ids) :
    ∃ way, Climbs s.arena scope way x ∧ way.length < up.length + b.ids.length := by
  cases b with
  | node i stem bs =>
    rw [ids, List.mem_cons] at mem
    rcases mem with rfl | mem
    · exact ⟨up, top, by rw [ids, List.length_cons]; omega⟩
    · obtain ⟨way, climbs, short⟩ := StandsAll.climbs bs stands.children
        (fun c mem => top.step (stands.children.parent?_of_mem mem)) mem
      refine ⟨way, climbs, ?_⟩
      rw [ids, List.length_cons]
      rw [List.length_cons] at short
      omega

theorem StandsAll.climbs (bs : List Branch) {p : Option NodeId} {up : List NodeId}
    (stands : StandsAll s p bs) (tops : ∀ b ∈ bs, Climbs s.arena scope up b.id)
    (mem : x ∈ idsAll bs) :
    ∃ way, Climbs s.arena scope way x ∧ way.length < up.length + (idsAll bs).length := by
  cases bs with
  | nil => cases mem
  | cons b bs =>
    obtain ⟨head, tail⟩ := standsAll_cons.mp stands
    rw [idsAll, List.length_append]
    rcases List.mem_append.mp mem with mem | mem
    · obtain ⟨way, climbs, short⟩ := Stands.climbs b head (tops b List.mem_cons_self) mem
      exact ⟨way, climbs, by omega⟩
    · obtain ⟨way, climbs, short⟩ := StandsAll.climbs bs tail
        (fun c mem => tops c (List.mem_cons_of_mem _ mem)) mem
      exact ⟨way, climbs, by omega⟩

end

theorem Stands.isBelow (stands : Stands s p b) (once : b.ids.Nodup) (mem : x ∈ idsAll b.children) :
    s.arena.isBelow x b.id := by
  obtain ⟨way, climbs, short⟩ := StandsAll.climbs b.children stands.children
    (fun c mem => climbs_child (stands.children.parent?_of_mem mem)) mem
  have long := stands.length_le once
  rw [ids_eq, List.length_cons] at long
  rw [List.length_nil] at short
  obtain ⟨rest, here⟩ := climbs s.arena.size (by omega)
  rw [Arena.isBelow, Arena.ancestors, here]
  simp

/-! ### Hosts -/

/-- Whether a custom element is one of the hosts below a node. -/
def host? (a : Arena) (scope : NodeId) (context : String) (id : NodeId) : Option (NodeId × String) :=
  match a.element? id with
  | none => none
  | some e =>
    if id != scope && e.isCustom && !a.hasAncestorBefore scope Content.covers id then
      some (id, context ++ "/" ++ toString ((a.indexInParent? id).getD 0) ++ ":" ++ e.name)
    else none

theorem hosts_eq (a : Arena) (scope : NodeId) (context : String) :
    hosts a scope context = (a.descendants scope).filterMap (host? a scope context) := rfl

theorem hasAncestorBefore_eq {a : Arena} (climbs : Climbs a scope up x) (short : up.length < a.size)
    (out : scope ∉ up) (p : Content → Bool) :
    a.hasAncestorBefore scope p x = up.any (p <| a.content ·) := by
  obtain ⟨rest, here⟩ := climbs a.size short
  have before : (up ++ scope :: rest).takeWhile (· != scope) = up := by
    rw [List.takeWhile_append_of_pos fun y mem => by
      have other : y ≠ scope := fun same => out (same ▸ mem)
      simpa using other]
    simp
  rw [Arena.hasAncestorBefore, Arena.ancestors, here, before]

theorem host?_eq {a : Arena} {context : String} (climbs : Climbs a scope up x)
    (short : up.length < a.size) (out : scope ∉ up) (apart : x ≠ scope) :
    (host? a scope context x).map (·.1) =
      if (a.content x).isCustom && !up.any (a.content · |>.covers) then some x else none := by
  rw [host?, hasAncestorBefore_eq climbs short out, Arena.element?, Content.isCustom]
  cases (a.content x).element? with
  | none => rfl
  | some e =>
    dsimp only
    rw [Option.any_some]
    have other : (x != scope) = true := by simpa using apart
    rw [other, Bool.true_and]
    split
    · rfl
    · rfl

mutual

theorem Stands.hosts (b : Branch) {p : Option NodeId} {up : List NodeId} {context : String}
    (stands : Stands s p b) (top : Climbs s.arena scope up b.id) (out : scope ∉ up)
    (apart : scope ∉ b.ids) (short : up.length + b.ids.length ≤ s.arena.size) :
    (b.ids.filterMap (host? s.arena scope context)).map (·.1) =
      if up.any (s.arena.content · |>.covers) then []
      else ((b.front Content.covers).filter (·.stem.content.isCustom)).map (·.id) := by
  cases b with
  | node i stem bs =>
    rw [ids, List.mem_cons, not_or] at apart
    rw [ids, List.length_cons] at short
    have content : s.arena.content i = stem.content := stands.content
    have here := @host?_eq _ _ _ _ context top (by omega) out (Ne.symm apart.1)
    have below := @StandsAll.hosts bs _ _ context stands.children
      (fun c mem => top.step (stands.children.parent?_of_mem mem))
      (by rw [List.mem_cons, not_or]; exact ⟨apart.1, out⟩) apart.2
      (by rw [List.length_cons]; omega)
    rw [List.any_cons, Branch.id, content] at below
    rw [Branch.id, content] at here
    rw [List.map_filterMap] at below ⊢
    rw [ids, List.filterMap_cons, here, below, front]
    cases above : up.any (s.arena.content · |>.covers) with
    | true => simp
    | false =>
      cases covered : stem.content.covers with
      | true =>
        simp only [Bool.not_false, Bool.and_true, Bool.or_false, if_true, Bool.false_eq_true,
          if_false]
        cases custom : stem.content.isCustom with
        | true => simp [custom, Branch.stem, Branch.id]
        | false => simp [custom, Branch.stem]
      | false =>
        have plain : stem.content.isCustom = false := by
          cases custom : stem.content.isCustom with
          | false => rfl
          | true => rw [Content.covers_of_isCustom custom] at covered; cases covered
        simp [plain]

theorem StandsAll.hosts (bs : List Branch) {p : Option NodeId} {up : List NodeId} {context : String}
    (stands : StandsAll s p bs) (tops : ∀ b ∈ bs, Climbs s.arena scope up b.id) (out : scope ∉ up)
    (apart : scope ∉ idsAll bs) (short : up.length + (idsAll bs).length ≤ s.arena.size) :
    ((idsAll bs).filterMap (host? s.arena scope context)).map (·.1) =
      if up.any (s.arena.content · |>.covers) then []
      else ((frontAll Content.covers bs).filter (·.stem.content.isCustom)).map (·.id) := by
  cases bs with
  | nil => simp [idsAll, frontAll]
  | cons b bs =>
    obtain ⟨head, tail⟩ := standsAll_cons.mp stands
    rw [idsAll, List.mem_append, not_or] at apart
    rw [idsAll, List.length_append] at short
    rw [idsAll, List.filterMap_append, List.map_append,
      Stands.hosts b head (tops b List.mem_cons_self) out apart.1 (by omega),
      StandsAll.hosts bs tail (fun c mem => tops c (List.mem_cons_of_mem _ mem)) out apart.2
        (by omega), frontAll, List.filter_append, List.map_append]
    split
    · rfl
    · rfl

end

/-- The hosts below the top of a branch are its outermost custom elements. -/
theorem Stands.hosts_eq {context : String} (stands : Stands s p b) (once : b.ids.Nodup) :
    (Expansion.hosts s.arena b.id context).map (·.1) =
      ((frontAll Content.covers b.children).filter (·.stem.content.isCustom)).map (·.id) := by
  have long := stands.length_le once
  rw [Expansion.hosts_eq, stands.descendants once, ids_eq, List.filterMap_cons]
  have own : host? s.arena b.id context b.id = none := by
    rw [host?]
    split
    · rfl
    · simp
  rw [own]
  rw [ids_eq, List.nodup_cons] at once
  rw [ids_eq, List.length_cons] at long
  have short : ([] : List NodeId).length + (idsAll b.children).length ≤ s.arena.size := by
    rw [List.length_nil]
    omega
  exact StandsAll.hosts b.children stands.children
    (fun c mem => climbs_child (stands.children.parent?_of_mem mem)) List.not_mem_nil once.1 short

end
end Expansion
end Stencil

namespace Stencil
open Markup

namespace Branch

mutual

/-- The copy of a tree whose nodes are numbered from `first` on. -/
def ofTree (own : Bool) (first : NodeId) : Tree → Branch
  | .node c ts => node first ⟨c, [], own⟩ (ofTrees own (first + 1) ts)

def ofTrees (own : Bool) (first : NodeId) : List Tree → List Branch
  | [] => []
  | t :: ts => ofTree own first t :: ofTrees own (first + t.size) ts

end

section
variable {own : Bool} {first : NodeId}

mutual

theorem ids_ofTree (first : NodeId) (t : Tree) :
    (ofTree own first t).ids = List.range' first t.size := by
  cases t with
  | node c ts =>
    rw [ofTree, ids, idsAll_ofTrees (first + 1) ts, Tree.size, Nat.add_comm 1, List.range'_succ]

theorem idsAll_ofTrees (first : NodeId) (ts : List Tree) :
    idsAll (ofTrees own first ts) = List.range' first (Tree.sizeAll ts) := by
  cases ts with
  | nil => rfl
  | cons t ts =>
    rw [ofTrees, idsAll, ids_ofTree first t, idsAll_ofTrees (first + t.size) ts, Tree.sizeAll,
      List.range'_append_1]

end

theorem id_ofTree (first : NodeId) (t : Tree) : (ofTree own first t).id = first := by
  cases t
  rfl

theorem nodup_ofTree (t : Tree) : (ofTree own first t).ids.Nodup := by
  rw [ids_ofTree]
  exact List.nodup_range'

theorem map_id_ofTrees (first : NodeId) (ts : List Tree) :
    (ofTrees own first ts).map (·.id) = Tree.rootIds first ts := by
  induction ts generalizing first with
  | nil => rfl
  | cons t ts ih => rw [ofTrees, List.map_cons, id_ofTree, ih, Tree.rootIds]

mutual

theorem entries_ofTree (p : Option NodeId) (first : NodeId) (t : Tree) :
    (ofTree own first t).entries p =
      ((t.layout p first).zipIdx first).map fun (n, id) => (id, n, []) := by
  cases t with
  | node c ts =>
    rw [ofTree, entries, Tree.layout, List.zipIdx_cons, List.map_cons, map_id_ofTrees,
      entriesAll_ofTrees (some first) (first + 1) ts]

theorem entriesAll_ofTrees (p : Option NodeId) (first : NodeId) (ts : List Tree) :
    entriesAll p (ofTrees own first ts) =
      ((Tree.layoutAll p first ts).zipIdx first).map fun (n, id) => (id, n, []) := by
  cases ts with
  | nil => rfl
  | cons t ts =>
    rw [ofTrees, entriesAll, Tree.layoutAll, List.zipIdx_append, List.map_append,
      entries_ofTree p first t, entriesAll_ofTrees p (first + t.size) ts, Arena.length_layout]

end

mutual

/-- A copy has the tree that it is a copy of. -/
theorem sketch_ofTree_false (first : NodeId) (t : Tree) :
    (ofTree false first t).sketch = Sketch.ofTree t := by
  cases t with
  | node c ts => rw [ofTree, sketch, Sketch.ofTree, sketches_ofTrees_false (first + 1) ts]; rfl

theorem sketches_ofTrees_false (first : NodeId) (ts : List Tree) :
    sketches (ofTrees false first ts) = Sketch.ofTrees ts := by
  cases ts with
  | nil => rfl
  | cons t ts =>
    rw [ofTrees, sketches, Sketch.ofTrees, sketch_ofTree_false first t,
      sketches_ofTrees_false (first + t.size) ts]

end

mutual

/-- The numbered contents of a tree are those of the nodes of its copy. -/
theorem numbered_ofTree (first : NodeId) (t : Tree) :
    Sites.numbered first t = (ofTree own first t).subs.map fun b => (b.id, b.stem.content) := by
  cases t with
  | node c ts =>
    rw [Sites.numbered, Tree.contents, List.zipIdx_cons, List.map_cons, ofTree, subs,
      List.map_cons, numbered_ofTrees (first + 1) ts]
    rfl

theorem numbered_ofTrees (first : NodeId) (ts : List Tree) :
    (((Tree.contentsAll ts).zipIdx first).map fun (c, id) => (id, c)) =
      (subsAll (ofTrees own first ts)).map fun b => (b.id, b.stem.content) := by
  cases ts with
  | nil => rfl
  | cons t ts =>
    have head := numbered_ofTree first t
    rw [Sites.numbered] at head
    rw [Tree.contentsAll, List.zipIdx_append, List.map_append, head, Tree.length_contents,
      numbered_ofTrees (first + t.size) ts, ofTrees, subsAll, List.map_append]

end

/-- The contents of a copy are those of the tree. -/
theorem content_of_mem_ofTree {sub : Branch} {t : Tree} (mem : sub ∈ (ofTree own first t).subs) :
    sub.stem.content ∈ t.contents := by
  have listed : Sites.numbered first t = (ofTree own first t).subs.map fun b =>
      (b.id, b.stem.content) := numbered_ofTree first t
  have pair : (sub.id, sub.stem.content) ∈ Sites.numbered first t :=
    listed ▸ List.mem_map_of_mem mem
  obtain ⟨⟨c, n⟩, there, same⟩ := List.mem_map.mp pair
  injection same with _ same
  rw [← same]
  exact List.fst_mem_of_mem_zipIdx there

mutual

theorem own_of_mem_ofTree {sub : Branch} (first : NodeId) (t : Tree)
    (mem : sub ∈ (ofTree own first t).subs) : sub.stem.own = own ∧ sub.stem.rich = [] := by
  cases t with
  | node c ts =>
    rw [ofTree, subs, List.mem_cons] at mem
    rcases mem with rfl | mem
    · exact ⟨rfl, rfl⟩
    · exact own_of_mem_ofTrees (first + 1) ts mem

theorem own_of_mem_ofTrees {sub : Branch} (first : NodeId) (ts : List Tree)
    (mem : sub ∈ subsAll (ofTrees own first ts)) : sub.stem.own = own ∧ sub.stem.rich = [] := by
  cases ts with
  | nil => cases mem
  | cons t ts =>
    rcases List.mem_append.mp mem with mem | mem
    · exact own_of_mem_ofTree first t mem
    · exact own_of_mem_ofTrees (first + t.size) ts mem

end
end
end Branch

namespace Expansion
open Branch

theorem stands_copy {s : Expansion} {own : Bool} {first : NodeId} {t : Tree} {before : Array Node}
    (nodes : s.arena.nodes = before ++ (t.layout none first).toArray) (size : before.size = first)
    (fresh : ∀ x, first ≤ x → s.rich.lookup x = none) : Stands s none (ofTree own first t) := by
  intro e mem
  rw [entries_ofTree, List.mem_map] at mem
  obtain ⟨⟨n, x⟩, mem, rfl⟩ := mem
  obtain ⟨low, high, here⟩ := List.mem_zipIdx mem
  have grown : s.arena = ⟨(⟨before⟩ : Arena).nodes ++ (t.layout none first).toArray⟩ := by
    rw [← nodes]
  have total : s.arena.size = first + (t.layout none first).length := by
    rw [Arena.size, nodes, Array.size_append, size, List.size_toArray]
  refine ⟨by rw [total]; exact high, ?_⟩
  have out : ¬ x < Arena.size ⟨before⟩ := by
    rw [Arena.size, size]
    exact Nat.not_lt_of_le low
  rw [look, fresh x low, grown, Arena.node_grow, if_neg out, here, Arena.size, size,
    List.getD_eq_getElem?_getD, List.getElem?_eq_getElem]
  rfl

end Expansion
end Stencil
