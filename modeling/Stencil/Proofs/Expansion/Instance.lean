import Mathlib.Data.List.GetD
import Stencil.Proofs.Expansion.Reading
import Stencil.Proofs.Markup.Leaves
import Stencil.Proofs.Markup.Told
/-!
Instances of templates. A component puts the tree of its template into a store at once, and moves
the sites of the template by as many numbers as the store has nodes. Copying the template node by
node, and following a map from its nodes to their copies, does the same.
-/
namespace Stencil
open Markup

/-! ### A copy, node by node -/

namespace Markup

namespace Arena

/-- Makes a node without a place the last child of another. -/
def adopt (a : Arena) (parent child : NodeId) : Arena :=
  (a.setParent child (some parent)).setChildren parent (a.children parent ++ [child])

/-- Copies a subtree into another store, cut off below `depth` levels. The copies are noted in pairs
with the nodes that they are copies of. -/
def copyTo (src : Arena) : (depth : Nat) → NodeId → Arena × List (NodeId × NodeId) →
    NodeId × Arena × List (NodeId × NodeId)
  | 0, x, (into, pairs) =>
    let (copy, into) := into.alloc (src.content x)
    (copy, into, pairs ++ [(x, copy)])
  | depth + 1, x, (into, pairs) =>
    let (copy, into) := into.alloc (src.content x)
    (copy, (src.children x).foldl (fun made child =>
      let below := src.copyTo depth child made
      (below.2.1.adopt copy below.1, below.2.2)) (into, pairs ++ [(x, copy)]))

/-- Copies a subtree into another store: the number of its copy, the store, and the copy of each
node. -/
def copyInto (src : Arena) (x : NodeId) (into : Arena) : NodeId × Arena × List (NodeId × NodeId) :=
  src.copyTo src.size x (into, [])

/-- Trees laid out behind a store, as the last children of one of its nodes. -/
def plant (a : Arena) (top : NodeId) (ts : List Tree) : Arena :=
  ⟨(a.setChildren top (a.children top ++ Tree.rootIds a.size ts)).nodes ++
    (Tree.layoutAll (some top) a.size ts).toArray⟩

section
variable {a b : Arena} {top : Nat}

theorem ext_node (size : a.size = b.size) (node : ∀ j : Nat, a.node j = b.node j) : a = b := by
  obtain ⟨ns⟩ := a
  obtain ⟨ms⟩ := b
  have same : ns = ms := by
    refine Array.ext size fun j here there => ?_
    have entry := node j
    simp only [Arena.node, Array.getD_eq_getD_getElem?] at entry
    rwa [Array.getElem?_eq_getElem here, Array.getElem?_eq_getElem there] at entry
  rw [same]

@[simp] theorem size_adopt (parent child : NodeId) : (a.adopt parent child).size = a.size := by
  rw [adopt, size_setChildren, size_setParent]

theorem node_plant (ts : List Tree) (j : Nat) :
    (a.plant top ts).node j =
      if j < a.size then
        if j = top then { a.node j with children := a.children top ++ Tree.rootIds a.size ts }
        else a.node j
      else (Tree.layoutAll (some top) a.size ts).getD (j - a.size) ⟨.root, none, []⟩ := by
  rw [plant, node_grow, size_setChildren, node_setChildren]
  split
  · next here => simp [here]
  · rfl

theorem length_layoutAll (parent : Option NodeId) (id : NodeId) (ts : List Tree) :
    (Tree.layoutAll parent id ts).length = Tree.sizeAll ts := by
  rw [← Tree.length_contentsAll, ← Tree.content_layoutAll parent id ts, List.length_map]

@[simp] theorem size_plant (ts : List Tree) : (a.plant top ts).size = a.size + Tree.sizeAll ts := by
  have grown : (a.plant top ts).size =
      (a.setChildren top (a.children top ++ Tree.rootIds a.size ts)).size +
        (Tree.layoutAll (some top) a.size ts).length := by
    simp [plant, Arena.size]
  rw [grown, size_setChildren, length_layoutAll]

theorem plant_nil : a.plant top [] = a := by
  refine ext_node (by simp [Tree.sizeAll]) fun j => ?_
  rw [node_plant, Tree.rootIds, List.append_nil]
  split
  · split
    · next same => rw [same, children]
    · rfl
  · next out =>
    rw [node, Array.getD_eq_getD_getElem?, Array.getElem?_eq_none (Nat.le_of_not_lt out)]
    rfl

/-- A tree without a place is its root with the trees below it planted. -/
theorem graft_node (c : Content) (ts : List Tree) :
    (a.graft (.node c ts)).2 = (a.alloc c).2.plant a.size ts := by
  refine ext_node (by simp [Tree.size, Nat.add_assoc]) fun j => ?_
  have none : (a.alloc c).2.children a.size = [] := by
    rw [children, node_alloc, if_pos rfl]
  rw [node_graft, node_plant, none, List.nil_append, node_alloc, size_alloc, Tree.layout]
  rcases Nat.lt_trichotomy j a.size with low | rfl | high
  · simp [low, Nat.lt_succ_of_lt low, Nat.ne_of_lt low]
  · simp
  · have out : ¬ j < a.size := by omega
    have out' : ¬ j < a.size + 1 := by omega
    have next : j - a.size = j - (a.size + 1) + 1 := by omega
    rw [if_neg out, if_neg out', next, List.getD_cons_succ]

/-- The place of a tree shows in its root alone. -/
theorem exists_layout (t : Tree) (id : NodeId) : ∃ n ns, n.parent = none ∧
    t.layout none id = n :: ns ∧ ∀ p, t.layout (some p) id = { n with parent := some p } :: ns := by
  cases t with
  | node c ts => exact ⟨_, _, rfl, rfl, fun p => rfl⟩

theorem adopt_eq_append {child : NodeId} (free : a.parent? child = none) :
    a.adopt top child = a.append top child := by
  rw [append]
  simp only [a.detach_of_free free]
  rfl

/-- A tree that has been given a place as the last child of a node. -/
theorem node_adopt_graft (inside : top < a.size) {t : Tree} {n : Node} {ns : List Node}
    (free : t.layout none a.size = n :: ns) (place : n.parent = none) (j : Nat) :
    ((a.graft t).2.adopt top a.size).node j =
      if j = top then { a.node j with children := a.children top ++ [a.size] }
      else if j = a.size then { n with parent := some top } else (a.graft t).2.node j := by
  have root : (a.graft t).2.node a.size = n := by
    rw [node_graft, if_neg (Nat.lt_irrefl _), free, Nat.sub_self]
    rfl
  have placeless : (a.graft t).2.parent? a.size = none := by rw [parent?, root, place]
  have kids : (a.graft t).2.children top = a.children top := by
    rw [children, node_graft, if_pos inside]
    rfl
  have total : (a.graft t).2.size = a.size + t.size := a.size_graft t
  have length : t.size = ns.length + 1 := by
    rw [← length_layout none a.size t, free, List.length_cons]
  have inside' : top < (a.graft t).2.size := by omega
  have child : a.size < (a.graft t).2.size := by omega
  rw [adopt_eq_append placeless, node_append _ placeless inside' (Nat.ne_of_lt inside), kids]
  by_cases own : j = top
  · rw [if_pos own, if_pos own, own, node_graft, if_pos inside]
  · rw [if_neg own, if_neg own]
    by_cases first : j = a.size
    · rw [if_pos ⟨first, first ▸ child⟩, if_pos first, first, root]
    · rw [if_neg fun same => first same.1, if_neg first]

/-- Planting trees is putting the first one in without a place, giving it its place, and planting
the others. -/
theorem plant_cons (inside : top < a.size) (t : Tree) (ts : List Tree) :
    a.plant top (t :: ts) = ((a.graft t).2.adopt top a.size).plant top ts := by
  obtain ⟨n, ns, place, free, placed⟩ := exists_layout t a.size
  have length : t.size = ns.length + 1 := by
    rw [← length_layout none a.size t, free, List.length_cons]
  have kids : ((a.graft t).2.adopt top a.size).children top = a.children top ++ [a.size] := by
    rw [children, node_adopt_graft inside free place, if_pos rfl]
  refine ext_node (by simp [Tree.sizeAll, Nat.add_assoc]) fun j => ?_
  rw [node_plant, node_plant, size_adopt, size_graft, kids, node_adopt_graft inside free place,
    node_graft, Tree.layoutAll, Tree.rootIds, placed, free]
  -- a node is an old one, the root of the tree, or stands behind it, in the tree or after it
  rcases Nat.lt_trichotomy j a.size with low | rfl | high
  · have low' : j < a.size + t.size := by omega
    have apart : j ≠ a.size := Nat.ne_of_lt low
    simp only [low, low', apart, if_true, if_false]
    split
    · simp
    · rfl
  · have apart : a.size ≠ top := Nat.ne_of_gt inside
    simp [apart, length]
  · have out : ¬ j < a.size := by omega
    have apart : j ≠ top := by omega
    have apart' : j ≠ a.size := by omega
    have next : j - a.size = j - (a.size + 1) + 1 := by omega
    simp only [out, apart, apart', if_false]
    split
    · next here =>
      rw [List.cons_append, next, List.getD_cons_succ, List.getD_cons_succ,
        List.getD_append _ _ _ _ (by omega)]
    · next there =>
      have past : j - a.size - (ns.length + 1) = j - (a.size + t.size) := by omega
      rw [List.getD_append_right _ _ _ _ (by rw [List.length_cons]; omega), List.length_cons, past]

end
end Arena

/-! ### Sites by way of a map -/

namespace Sites

/-- The sites of the nodes that nodes are mapped to; those of other nodes are dropped. -/
def relink (sites : Sites) (pairs : List (NodeId × NodeId)) : Sites where
  attributes := sites.attributes.filterMap fun s =>
    (pairs.lookup s.node).map fun n => { s with node := n }
  texts := sites.texts.filterMap fun s => (pairs.lookup s.node).map fun n => { s with node := n }
  refs := sites.refs.filterMap fun x => pairs.lookup x
  customs := sites.customs.filterMap fun x => pairs.lookup x
  slots := sites.slots.filterMap fun (name, n) => (pairs.lookup n).map (name, ·)

/-- The sites of a subtree of a store. -/
def ofStore (mode : Mode) (a : Arena) (top : NodeId) : Except Error Sites :=
  ofNumbered mode ((a.descendants top).map fun x => (x, a.content x))

/-- All sites are at the first `n` nodes. -/
structure Within (sites : Sites) (n : Nat) : Prop where
  attributes : ∀ s ∈ sites.attributes, s.node < n
  texts : ∀ s ∈ sites.texts, s.node < n
  refs : ∀ x ∈ sites.refs, x < n
  customs : ∀ x ∈ sites.customs, x < n
  slots : ∀ s ∈ sites.slots, s.2 < n

theorem within_of_ofTree {t : Tree} {sites : Sites} (read : ofTree .template t = .ok sites) :
    sites.Within t.size := by
  have bound : ∀ q ∈ numbered 0 t, q.1 < t.size := by
    intro q mem
    obtain ⟨⟨c, n⟩, here, rfl⟩ := List.mem_map.mp mem
    have high := List.snd_lt_of_mem_zipIdx here
    rwa [Nat.add_zero, Tree.length_contents] at high
  have element : ∀ {P : Element → Bool} {x}, x ∈ (numbered 0 t).filterMap (elementOf P) →
      x < t.size := by
    intro P x mem
    obtain ⟨q, here, found⟩ := List.mem_filterMap.mp mem
    obtain ⟨e, rfl⟩ := eq_of_elementOf found
    exact bound _ here
  obtain ⟨-, rfl⟩ := ofNumbered_ok read
  refine ⟨fun s mem => ?_, fun s mem => ?_, fun x => element, fun x => element, fun s mem => ?_⟩
  · obtain ⟨q, here, found⟩ := List.mem_flatMap.mp mem
    rw [node_of_mem_attributesOf found]
    exact bound q here
  · obtain ⟨q, here, found⟩ := List.mem_filterMap.mp mem
    rw [node_of_textOf found]
    exact bound q here
  · obtain ⟨q, here, found⟩ := List.mem_filterMap.mp mem
    rw [node_of_slotOf found]
    exact bound q here

theorem lookup_zip_range' {n k m x : Nat} (low : k ≤ x) (high : x < k + n) :
    ((List.range' k n).zip (List.range' m n)).lookup x = some (m + (x - k)) := by
  induction n generalizing k m with
  | zero => omega
  | succ n ih =>
    rw [List.range'_succ, List.range'_succ, List.zip_cons_cons, List.lookup_cons]
    by_cases first : x = k
    · simp [first]
    · have skip : (x == k) = false := by simpa using first
      have next : m + 1 + (x - (k + 1)) = m + (x - k) := by omega
      rw [skip, ih (by omega) (by omega), next]

/-- Following the map of a copy that is laid out from `m` on is a shift. -/
theorem relink_eq_shift {sites : Sites} {n : Nat} (within : sites.Within n) (m : Nat) :
    sites.relink ((List.range' 0 n).zip (List.range' m n)) = sites.shift m := by
  have leads : ∀ x : Nat, x < n →
      ((List.range' 0 n).zip (List.range' m n)).lookup x = some (m + x) := by
    intro x high
    rw [lookup_zip_range' (Nat.zero_le x) (by omega), Nat.sub_zero]
  have all : ∀ {α β : Type} {xs : List α} {f : α → Option β} {g : α → β},
      (∀ x ∈ xs, f x = some (g x)) → xs.filterMap f = xs.map g := by
    intro α β xs f g same
    rw [← List.filterMap_eq_map]
    exact List.filterMap_congr same
  rw [relink, shift, Sites.mk.injEq]
  refine ⟨all fun s mem => ?_, all fun s mem => ?_, all fun x mem => leads x (within.refs x mem),
    all fun x mem => leads x (within.customs x mem), all fun s mem => ?_⟩
  · rw [leads _ (within.attributes s mem)]
    rfl
  · rw [leads _ (within.texts s mem)]
    rfl
  · obtain ⟨name, x⟩ := s
    dsimp only
    rw [leads x (within.slots _ mem)]
    rfl

end Sites
end Markup

/-! ### The copy of a tree that stands in a store -/

mutual

theorem Sketch.tree_ofTree {η : Type} (t : Tree) : (Sketch.ofTree t : Sketch η).tree = t := by
  cases t with
  | node c ts => rw [Sketch.ofTree, Sketch.tree, Sketch.trees_ofTrees ts]

theorem Sketch.trees_ofTrees {η : Type} (ts : List Tree) :
    Sketch.trees (Sketch.ofTrees ts : List (Sketch η)) = ts := by
  cases ts with
  | nil => rfl
  | cons t ts => rw [Sketch.ofTrees, Sketch.trees, Sketch.tree_ofTree t, Sketch.trees_ofTrees ts]

end

namespace Expansion
open Branch

section
variable {s : Expansion} {p : Option NodeId} {own : Bool}

mutual

/-- Copying a tree is adding it without a place; its nodes and their copies are noted in document
order. -/
theorem Stands.copyTo (t : Tree) {p : Option NodeId} {first : Nat}
    (stands : Stands s p (ofTree own first t)) (n : Nat) (deep : t.size ≤ n + 1) (into : Arena)
    (pairs : List (NodeId × NodeId)) :
    s.arena.copyTo n first (into, pairs) = (into.size, (into.graft t).2,
      pairs ++ (List.range' first t.size).zip (List.range' into.size t.size)) := by
  cases t with
  | node c ts =>
    rw [ofTree] at stands
    rw [Tree.size] at deep
    have content : s.arena.content first = c := stands.content
    have kids : s.arena.children first = Tree.rootIds (first + 1) ts :=
      stands.children_eq.trans (map_id_ofTrees (first + 1) ts)
    rw [Tree.size, Nat.add_comm 1, List.range'_succ, List.range'_succ, List.zip_cons_cons,
      Arena.graft_node]
    cases n with
    | zero =>
      cases ts with
      | nil =>
        rw [Arena.copyTo, content, Arena.plant_nil]
        rfl
      | cons t ts =>
        have some : 0 < t.size := by
          cases t
          rw [Tree.size]
          omega
        rw [Tree.sizeAll] at deep
        omega
    | succ n =>
      have inside : into.size < (into.alloc c).2.size := by simp
      have below := StandsAll.copyTo ts stands.children n (by omega) (into.alloc c).2 inside
        (pairs ++ [(first, into.size)])
      rw [Arena.size_alloc] at below
      rw [Arena.copyTo, content, kids]
      refine congrArg (Prod.mk into.size) (below.trans ?_)
      rw [List.append_assoc, List.singleton_append]

theorem StandsAll.copyTo (ts : List Tree) {p : Option NodeId} {first : Nat}
    (stands : StandsAll s p (ofTrees own first ts)) (n : Nat) (deep : Tree.sizeAll ts ≤ n + 1)
    (a : Arena) {top : Nat} (inside : top < a.size) (pairs : List (NodeId × NodeId)) :
    (Tree.rootIds first ts).foldl (fun made child =>
        let below := s.arena.copyTo n child made
        (below.2.1.adopt top below.1, below.2.2)) (a, pairs) =
      (a.plant top ts,
        pairs ++ (List.range' first (Tree.sizeAll ts)).zip
          (List.range' a.size (Tree.sizeAll ts))) := by
  cases ts with
  | nil => rw [Tree.rootIds, List.foldl_nil, Arena.plant_nil, Tree.sizeAll]; simp
  | cons t ts =>
    obtain ⟨head, tail⟩ := standsAll_cons.mp stands
    rw [Tree.sizeAll] at deep
    have size : ((a.graft t).2.adopt top a.size).size = a.size + t.size := by simp
    have inside' : top < ((a.graft t).2.adopt top a.size).size := by omega
    have rest := StandsAll.copyTo ts tail n (by omega) ((a.graft t).2.adopt top a.size) inside'
      (pairs ++ (List.range' first t.size).zip (List.range' a.size t.size))
    rw [Tree.rootIds, List.foldl_cons, Stands.copyTo t head n (by omega), rest, size,
      Arena.plant_cons inside, Tree.sizeAll, ← List.range'_append_1, ← List.range'_append_1,
      List.zip_append (by simp), List.append_assoc]

end

variable {t : Tree} {first : Nat}

theorem Stands.descendants_ofTree (stands : Stands s p (ofTree own first t)) :
    s.arena.descendants first = List.range' first t.size := by
  have below := stands.descendants (nodup_ofTree t)
  rwa [id_ofTree, ids_ofTree] at below

theorem Stands.tree_ofTree (stands : Stands s p (ofTree false first t)) :
    s.arena.tree first = t := by
  have shape := stands.tree (nodup_ofTree t)
  rwa [id_ofTree, sketch_ofTree_false, Sketch.tree_ofTree] at shape

/-- The sites of a tree are found again where it stands. -/
theorem Stands.ofStore_ofTree {sites : Sites} (stands : Stands s p (ofTree own first t))
    (read : Sites.ofTree .template t = .ok sites) :
    Sites.ofStore .template s.arena first = .ok (sites.shift first) := by
  have contents : ((s.arena.descendants first).map fun x => (x, s.arena.content x)) =
      Sites.numbered first t := by
    rw [stands.descendants_ofTree, ← @ids_ofTree own, ← map_id_subs, List.map_map,
      @numbered_ofTree own]
    refine List.map_congr_left fun sub mem => ?_
    obtain ⟨q, part⟩ := Stands.sub _ stands mem
    rw [Function.comp_apply, part.content]
  rw [Sites.ofStore, contents]
  exact Sites.ofNumbered_shift read first

end
end Expansion

namespace Markup
open Expansion

theorem Arena.stands_ofTree (t : Tree) :
    Stands { arena := Arena.ofTree t } none (Branch.ofTree false 0 t) := by
  have nodes : (Arena.ofTree t).nodes = #[] ++ (t.layout none 0).toArray := by
    rw [Array.empty_append]
    rfl
  exact stands_copy nodes rfl fun _ _ => rfl

theorem Arena.stands_graft (a : Arena) (t : Tree) :
    Stands { arena := (a.graft t).2 } none (Branch.ofTree false a.size t) :=
  stands_copy rfl rfl fun _ _ => rfl

/-- Copying a whole store of one tree. -/
theorem Arena.copyInto_ofTree (t : Tree) (into : Arena) :
    (Arena.ofTree t).copyInto Arena.root into = (into.size, (into.graft t).2,
      (List.range' 0 t.size).zip (List.range' into.size t.size)) := by
  have size : (Arena.ofTree t).size = t.size := by
    rw [Arena.size, Arena.ofTree, List.size_toArray, Arena.length_layout]
  rw [Arena.copyInto, size]
  exact Stands.copyTo t (Arena.stands_ofTree t) t.size (Nat.le_succ _) into []

end Markup

namespace Component

/-- An instance of a template that has been read is a copy of the template, node by node, with its
sites followed to the copies. It leaves the nodes of the store alone and adds nodes behind them that
have no place among them; their tree is that of the template, and the sites are those that reading
the copy finds. -/
theorem instantiate_eq_copy {root : String} {rules : List IgnoreRule} {r : Record} {c : Component}
    (read : ofRecord root rules r = .ok c) (a : Arena) :
    ∃ top pairs b, (Arena.ofTree c.document.tree).copyInto Arena.root a = (top, b, pairs) ∧
      pairs = ((Arena.ofTree c.document.tree).descendants Arena.root).zip (b.descendants top) ∧
      c.instantiate a = (top, c.document.sites.relink pairs, b) ∧
      b.size = a.size + c.document.tree.size ∧ (∀ x, x < a.size → b.node x = a.node x) ∧
      b.descendants top = List.range' a.size c.document.tree.size ∧ b.parent? top = none ∧
      (Arena.ofTree c.document.tree).tree Arena.root = c.document.tree ∧
      b.tree top = c.document.tree ∧
      Sites.ofStore .template b top = .ok (c.document.sites.relink pairs) := by
  have found := (sound_ofRecord read).sites
  have source := Arena.stands_ofTree c.document.tree
  have copy := a.stands_graft c.document.tree
  have follow := Sites.relink_eq_shift (Sites.within_of_ofTree found) a.size
  refine ⟨_, _, _, Arena.copyInto_ofTree c.document.tree a, ?_, ?_, a.size_graft _, fun x old => ?_,
    copy.descendants_ofTree, ?_, source.tree_ofTree, copy.tree_ofTree, ?_⟩
  · rw [copy.descendants_ofTree]
    exact congrArg (List.zip · _) source.descendants_ofTree.symm
  · rw [follow]
    rfl
  · rw [Arena.node_graft, if_pos old]
  · have place := copy.parent?
    rwa [Branch.id_ofTree] at place
  · rw [follow]
    exact copy.ofStore_ofTree found

/-- A label with sites of all kinds. -/
def labelFile : Record := .ofText "label.html"
  ("<template id=\"x-label\"><p ref=\"top\" title=\"{{title}}\">{{text}}</p>" ++
    "<x-dot></x-dot><slot></slot></template>")

/-- A store of two nodes. -/
def greetingStore : Arena := .ofTree (.node .root [.node (.text "hello") []])

/-- The sites of the label when its root is node 2. -/
def labelSites : Sites where
  attributes := [⟨3, "title", [⟨"title", "{{title}}"⟩]⟩]
  texts := [⟨4, [⟨"text", "{{text}}"⟩]⟩]
  refs := [3]
  customs := [5]
  slots := [("default", 6)]

/-- An instance of the label stands behind the nodes of the store. -/
theorem label_instance : ∃ c b, ofRecord "" [] labelFile = .ok c ∧
    c.instantiate greetingStore = (2, labelSites, b) ∧
    (∀ x, x < greetingStore.size → b.node x = greetingStore.node x) ∧
    b.tree 2 = c.document.tree ∧ Sites.ofStore .template b 2 = .ok labelSites := by
  have evaluated : (ofRecord "" [] labelFile).toOption.map (fun c =>
      ((c.instantiate greetingStore).1, (c.instantiate greetingStore).2.1)) =
      some (2, labelSites) := by decide +kernel
  obtain ⟨c, read, found⟩ := Option.map_eq_some_iff.mp evaluated
  replace read := ok_of_toOption read
  obtain ⟨top, pairs, b, -, -, made, -, old, -, -, -, shape, sites⟩ :=
    instantiate_eq_copy read greetingStore
  rw [made] at found
  obtain ⟨rfl, listed⟩ := Prod.mk.inj found
  dsimp only at listed
  rw [listed] at made sites
  exact ⟨c, b, read, made, old, shape, sites⟩

end Component
end Stencil
