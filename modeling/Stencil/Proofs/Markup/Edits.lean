import Mathlib.Data.List.Perm.Basic
import Stencil.Proofs.Expansion.Lossless
import Stencil.Proofs.Markup.Forest
/-!
Stores that are made by operations on an empty one. Each operation may move nodes that already have a
place: they are taken out of it first, which leaves a forest, and are free when they are put in
somewhere else. So all that has to be asked for is that no node is put below itself. Nodes that are put
before a child of another node, or into its place, may come from among its siblings and from below it:
what matters of the place is which siblings stand on either side of it.
-/
namespace Stencil.Markup.Arena
open Expansion

variable {a b : Arena} {p q x id anchor target c : NodeId} {ids : List NodeId}

theorem forest_empty : empty.Forest := forest_ofTree (.node .root [])

/-! ### Taking nodes out -/

theorem Above.mono (above : b.Above p x) (fewer : ∀ x p, b.parent? x = some p → a.parent? x = some p) :
    a.Above p x := by
  induction above with
  | parent parent => exact .parent (fewer _ _ parent)
  | higher parent _ ih => exact .higher (fewer _ _ parent) ih

theorem parent?_detach (a : Arena) (id j : NodeId) :
    (a.detach id).parent? j = if j = id then none else a.parent? j := by
  cases parent : a.parent? id with
  | none =>
    rw [a.detach_of_free parent]
    split
    · next own => rw [own, parent]
    · rfl
  | some p =>
    rw [parent?, node_detach, parent]
    by_cases own : j = id
    · simp only [own, if_true]
      split
      · rfl
      · rfl
    · simp only [own, if_false]
      split
      · rfl
      · rfl

theorem forest_detach (forest : a.Forest) (id : NodeId) : (a.detach id).Forest := by
  cases parent : a.parent? id with
  | none => rwa [a.detach_of_free parent]
  | some p =>
    have child := forest.linked parent
    refine .moved (q := p) [id] ((a.children p).filter (· != id)) forest loose_nil
      (fun i mem => List.mem_singleton.mp mem ▸ child) (fun j => ?_) (fun j => ?_)
      ((forest.nodup_children p).filter _) fun j => ?_
    · rw [parent?_detach, if_neg List.not_mem_nil]
      simp only [List.mem_singleton]
    · rw [children, node_detach, parent]
      dsimp only
      split
      · rfl
      · split
        · rfl
        · rfl
    · simp

theorem detachAll_cons (a : Arena) (i : NodeId) (ids : List NodeId) :
    a.detachAll (i :: ids) = (a.detach i).detachAll ids := rfl

theorem parent?_detachAll (a : Arena) (ids : List NodeId) (j : NodeId) :
    (a.detachAll ids).parent? j = if j ∈ ids then none else a.parent? j := by
  induction ids generalizing a with
  | nil => rw [if_neg List.not_mem_nil]; rfl
  | cons i ids ih =>
    rw [detachAll_cons, ih, parent?_detach]
    by_cases mem : j ∈ ids
    · simp [mem]
    · simp [mem]

theorem forest_detachAll (forest : a.Forest) (ids : List NodeId) : (a.detachAll ids).Forest := by
  induction ids generalizing a with
  | nil => exact forest
  | cons i ids ih => exact ih (forest_detach forest i)

/-- Once they are taken out, nodes of a forest can be put below any node that is neither one of them
nor below one of them. -/
theorem Forest.loose_detachAll (once : ids.Nodup) (known : ∀ i ∈ ids, i < a.size)
    (apart : ∀ i ∈ ids, i ≠ q ∧ ¬ a.Above i q) : (a.detachAll ids).Loose q ids where
  once := once
  free i mem := ⟨by rw [size_detachAll]; exact known i mem, by rw [parent?_detachAll, if_pos mem]⟩
  apart i mem := by
    refine ⟨(apart i mem).1, fun above => (apart i mem).2 (above.mono fun x p parent => ?_)⟩
    rw [parent?_detachAll] at parent
    split at parent
    · cases parent
    · exact parent

/-! ### Putting nodes in -/

theorem Loose.parent?_placeAt (loose : a.Loose q ids) (range : q < a.size) (i j : Nat) :
    (a.placeAt q i ids).parent? j = if j ∈ ids then some q else a.parent? j := by
  rw [parent?, a.node_placeAt i range (fun i mem => (loose.free i mem).1) loose.not_mem]
  split
  · rfl
  · split
    · rfl
    · rfl

theorem Loose.children_placeAt (loose : a.Loose q ids) (range : q < a.size) (i j : Nat) :
    (a.placeAt q i ids).children j =
      if j = q then (a.children q).take i ++ ids ++ (a.children q).drop i else a.children j := by
  rw [children, a.node_placeAt i range (fun i mem => (loose.free i mem).1) loose.not_mem]
  by_cases top : j = q
  · rw [if_neg (top ▸ loose.not_mem), if_pos top, if_pos top]
  · rw [if_neg top, if_neg top]
    split
    · rfl
    · rfl

theorem forest_placeAt (forest : a.Forest) (loose : a.Loose q ids) (range : q < a.size) (i : Nat) :
    (a.placeAt q i ids).Forest := by
  have new : ∀ j ∈ ids, j ∉ a.children q := by
    intro j mem child
    rw [forest.mem_children_iff, (loose.free j mem).2] at child
    cases child
  -- the arrivals among the children are a rearrangement of the arrivals before them
  have order : ((a.children q).take i ++ ids ++ (a.children q).drop i).Perm (ids ++ a.children q) := by
    have front : ((a.children q).take i ++ ids).Perm (ids ++ (a.children q).take i) :=
      List.perm_append_comm
    have whole := front.append_right ((a.children q).drop i)
    rwa [List.append_assoc ids, List.take_append_drop] at whole
  refine .moved [] _ forest loose (by simp) (fun j => ?_) (loose.children_placeAt range i)
    (order.nodup_iff.mpr ?_) fun j => ?_
  · rw [loose.parent?_placeAt range]
    simp
  · exact List.nodup_append.mpr ⟨loose.once, forest.nodup_children q, fun j mem k old same =>
      new j mem (same ▸ old)⟩
  · rw [order.mem_iff, List.mem_append]
    simp

theorem insertIdx_min (l : List NodeId) (i : Nat) (x : NodeId) :
    l.insertIdx (min i l.length) x = l.take i ++ [x] ++ l.drop i := by
  induction l generalizing i with
  | nil => simp
  | cons k l ih =>
    cases i with
    | zero => simp
    | succ i =>
      rw [List.length_cons, Nat.succ_min_succ, List.insertIdx_succ_cons, ih]
      simp

/-- To insert a node is to take it out and to place it alone. -/
theorem insert_eq (a : Arena) (p index c : NodeId) :
    a.insert p index c = (a.detachAll [c]).placeAt p index [c] := by
  rw [insert, placeAt]
  simp only [insertIdx_min]
  rfl

theorem append_eq (a : Arena) (p c : NodeId) : a.append p c = (a.detachAll [c]).append p c := by
  have free : (a.detach c).parent? c = none := by rw [parent?_detach, if_pos rfl]
  change a.append p c = (a.detach c).append p c
  rw [append, append, (a.detach c).detach_of_free free]

/-- A node that is among those that go before it loses its place with them. -/
theorem insertBefore_of_mem (parent : a.parent? anchor = some q) (mem : anchor ∈ ids) :
    a.insertBefore anchor ids = a.detachAll ids := by
  rw [insertBefore, parent]
  dsimp only
  rw [indexInParent?, parent?_detachAll, if_pos mem]
  rfl

theorem Forest.insertBefore_eq (forest : a.Forest) (parent : a.parent? anchor = some q)
    (out : anchor ∉ ids) :
    ∃ i, a.insertBefore anchor ids = (a.detachAll ids).placeAt q i ids := by
  have parent' : (a.detachAll ids).parent? anchor = some q := by
    rw [parent?_detachAll, if_neg out, parent]
  have child : anchor ∈ (a.detachAll ids).children q :=
    (forest_detachAll forest ids).linked parent'
  obtain ⟨i, found⟩ : ∃ i, ((a.detachAll ids).children q).findIdx? (· == anchor) = some i := by
    rw [← Option.isSome_iff_exists, List.findIdx?_isSome]
    simpa using child
  refine ⟨i, ?_⟩
  rw [insertBefore, parent]
  dsimp only
  rw [indexInParent?, parent', Option.bind_some, found]

/-! ### Operations -/

/-- An operation that changes where nodes stand, or adds one. -/
inductive Edit where
  | alloc (c : Content)
  | detach (id : NodeId)
  | append (parent child : NodeId)
  | insert (parent : NodeId) (index : Nat) (child : NodeId)
  | insertBefore (anchor : NodeId) (ids : List NodeId)
  | replaceWith (target : NodeId) (ids : List NodeId)
  | takeChildren (id : NodeId)

namespace Edit

def apply (a : Arena) : Edit → Arena
  | .alloc c => (a.alloc c).2
  | .detach id => a.detach id
  | .append parent child => a.append parent child
  | .insert parent index child => a.insert parent index child
  | .insertBefore anchor ids => a.insertBefore anchor ids
  | .replaceWith target ids => a.replaceWith target ids
  | .takeChildren id => (a.takeChildren id).2

/-- The nodes that an operation is given. -/
def named : Edit → List NodeId
  | .alloc _ => []
  | .detach id => [id]
  | .append parent child => [parent, child]
  | .insert parent _ child => [parent, child]
  | .insertBefore anchor ids => anchor :: ids
  | .replaceWith target ids => target :: ids
  | .takeChildren id => [id]

/-- The nodes that are put below another one, and that one. Before a node without a parent nothing
is put, nor before a node that is among those to be put there. -/
def moves? (a : Arena) : Edit → Option (NodeId × List NodeId)
  | .alloc _ | .detach _ | .takeChildren _ => none
  | .append parent child => some (parent, [child])
  | .insert parent _ child => some (parent, [child])
  | .insertBefore anchor ids | .replaceWith anchor ids =>
    if anchor ∈ ids then none else (a.parent? anchor).map (·, ids)

def moved (a : Arena) (e : Edit) : List NodeId := (e.moves? a).elim [] (·.2)

/-- The operation names nodes of the store, puts none below itself and none at two places. -/
structure Allowed (a : Arena) (e : Edit) : Prop where
  known : ∀ i ∈ e.named, i < a.size
  once : ∀ {q ids}, e.moves? a = some (q, ids) → ids.Nodup
  apart : ∀ {q ids}, e.moves? a = some (q, ids) → ∀ i ∈ ids, i ≠ q ∧ ¬ a.Above i q

/-- What is put in is loose once it is taken out. -/
theorem Allowed.loose {e : Edit} (allowed : e.Allowed a) (moves : e.moves? a = some (q, ids))
    (known : ∀ i ∈ ids, i < a.size) : (a.detachAll ids).Loose q ids :=
  Forest.loose_detachAll (allowed.once moves) known (allowed.apart moves)

end Edit

/-- Nodes are put before another one, which stays where it is. -/
theorem kept_insertBefore (forest : a.Forest) {e : Edit} (allowed : e.Allowed a)
    (named : e.named = anchor :: ids)
    (moves : e.moves? a = if anchor ∈ ids then none else (a.parent? anchor).map (·, ids)) :
    (a.insertBefore anchor ids).Forest ∧
      ∀ x, x ∉ e.moved a → a.parent? x = none → (a.insertBefore anchor ids).parent? x = none := by
  have known : ∀ i ∈ ids, i < a.size := fun i mem =>
    allowed.known i (named ▸ List.mem_cons_of_mem _ mem)
  cases parent : a.parent? anchor with
  | none =>
    have still : a.insertBefore anchor ids = a := by rw [insertBefore, parent]
    rw [still]
    exact ⟨forest, fun x _ free => free⟩
  | some q =>
    by_cases mem : anchor ∈ ids
    · rw [insertBefore_of_mem parent mem]
      refine ⟨forest_detachAll forest ids, fun x _ free => ?_⟩
      rw [parent?_detachAll, free, ite_self]
    · rw [if_neg mem, parent, Option.map_some] at moves
      have loose := allowed.loose moves known
      have range : q < (a.detachAll ids).size := by
        rw [size_detachAll]
        exact a.lt_size_of_mem_children (forest.linked parent)
      obtain ⟨i, placed⟩ := forest.insertBefore_eq parent mem
      rw [placed]
      refine ⟨forest_placeAt (forest_detachAll forest ids) loose range i, fun x out free => ?_⟩
      rw [Edit.moved, moves] at out
      have out : x ∉ ids := out
      rw [loose.parent?_placeAt range, if_neg out, parent?_detachAll, free, ite_self]

/-- An operation leaves a forest, and gives no parent to a node that it does not move. -/
theorem kept_apply (forest : a.Forest) {e : Edit} (allowed : e.Allowed a) :
    (e.apply a).Forest ∧ ∀ x, x ∉ e.moved a → a.parent? x = none → (e.apply a).parent? x = none := by
  -- one node that is put below another
  have single : ∀ {p c : NodeId}, e.named = [p, c] → e.moves? a = some (p, [c]) →
      p < (a.detachAll [c]).size ∧ (a.detachAll [c]).Loose p [c] := by
    intro p c named moves
    refine ⟨?_, allowed.loose moves fun i mem => allowed.known i (named ▸ List.mem_cons_of_mem _ mem)⟩
    rw [size_detachAll]
    exact allowed.known p (named ▸ List.mem_cons_self)
  cases e with
  | alloc c => exact ⟨forest_alloc forest c, fun x _ free => (a.parent?_alloc c x).trans free⟩
  | detach id =>
    refine ⟨forest_detach forest id, fun x _ free => ?_⟩
    rw [Edit.apply, parent?_detach, free, ite_self]
  | append p c =>
    obtain ⟨range, loose⟩ := single rfl rfl
    rw [Edit.apply, append_eq]
    refine ⟨forest_append (forest_detachAll forest [c]) range loose, fun x out free => ?_⟩
    obtain ⟨range', free'⟩ := loose.free c (List.mem_singleton_self c)
    have apart : p ≠ c := (loose.apart c (List.mem_singleton_self c)).1.symm
    have out : x ≠ c := fun same => out (List.mem_singleton.mpr same)
    rw [parent?_append range range' free' apart, if_neg out, parent?_detachAll, free, ite_self]
  | insert p i c =>
    obtain ⟨range, loose⟩ := single rfl rfl
    rw [Edit.apply, insert_eq]
    refine ⟨forest_placeAt (forest_detachAll forest [c]) loose range i, fun x out free => ?_⟩
    have out : x ∉ [c] := out
    rw [loose.parent?_placeAt range, if_neg out, parent?_detachAll, free, ite_self]
  | insertBefore anchor ids => exact kept_insertBefore forest allowed rfl rfl
  | replaceWith target ids =>
    obtain ⟨still, free⟩ := kept_insertBefore forest allowed rfl rfl
    refine ⟨forest_detach still target, fun x out before => ?_⟩
    rw [Edit.apply, replaceWith, parent?_detach, free x out before, ite_self]
  | takeChildren id =>
    refine ⟨forest_takeChildren forest id, fun x _ free => ?_⟩
    rw [Edit.apply, forest.parent?_takeChildren, free, ite_self]

theorem Edit.size_le_apply (a : Arena) (e : Edit) : a.size ≤ (e.apply a).size := by
  cases e with
  | alloc c => exact (a.size_alloc c).symm ▸ Nat.le_succ _
  | detach id => exact Nat.le_of_eq (a.size_detach id).symm
  | append p c => exact Nat.le_of_eq (a.size_append p c).symm
  | insert p i c =>
    exact Nat.le_of_eq (by rw [apply, insert_eq, size_placeAt, size_detachAll])
  | insertBefore anchor ids => exact Nat.le_of_eq (a.size_insertBefore anchor ids).symm
  | replaceWith target ids => exact Nat.le_of_eq (a.size_replaceWith target ids).symm
  | takeChildren id => exact Nat.le_of_eq (a.size_takeChildren id).symm

/-! ### Made stores -/

/-- The stores that operations make of an empty one, with the nodes moved on the way. Subtrees are
copied from stores that are made in the same way. -/
inductive Made : (moved : List NodeId) → Arena → Prop
  | empty : Made [] empty
  | edit {moved : List NodeId} {a : Arena} (made : Made moved a) (e : Edit) (allowed : e.Allowed a) :
      Made (e.moved a ++ moved) (e.apply a)
  | copy {moved moved' : List NodeId} {a b : Arena} (made : Made moved a) (source : Made moved' b)
      {id : NodeId} (known : id < b.size) : Made moved (a.graft (b.tree id)).2

theorem Made.size_pos {moved : List NodeId} (made : Made moved a) : 0 < a.size := by
  induction made with
  | empty => exact Nat.one_pos
  | edit _ e _ ih => exact Nat.lt_of_lt_of_le ih (e.size_le_apply _)
  | copy _ _ _ ih => exact Nat.lt_of_lt_of_le ih ((size_graft _ _).symm ▸ Nat.le_add_right _ _)

theorem Made.forest {moved : List NodeId} (made : Made moved a) : a.Forest := by
  induction made with
  | empty => exact forest_empty
  | edit _ e allowed ih => exact (kept_apply ih allowed).1
  | copy _ _ _ ih => exact forest_graft ih _

theorem Made.parent?_root {moved : List NodeId} (made : Made moved a) (still : root ∉ moved) :
    a.parent? root = none := by
  induction made with
  | empty => rfl
  | edit made e allowed ih =>
    rw [List.mem_append, not_or] at still
    exact (kept_apply made.forest allowed).2 root still.1 (ih still.2)
  | copy made _ _ ih =>
    exact (parent?_graft made.size_pos).trans (ih still)

/-- A store made by operations that put no node below itself is a forest, with the root on top unless
it was moved. From each of its nodes a walk ends, after it has visited the nodes of the subtree once
each, every node before its children and these in their order. -/
theorem made_store_stays_forest {moved : List NodeId} (made : Made moved a) :
    a.Forest ∧ (root ∉ moved → a.parent? root = none) ∧
      ∀ n, (∀ visited, a.Walk [n] visited ↔ visited = a.descendants n) ∧
        (∀ x, x ∈ a.descendants n ↔ x = n ∨ a.Above n x) ∧ (a.descendants n).Nodup ∧
        ∀ p ∈ a.descendants n, (p :: a.children p).Sublist (a.descendants n) := by
  have forest := made.forest
  refine ⟨forest, made.parent?_root, fun n => ?_⟩
  have walk : a.Walk [n] (a.descendants n) := by
    have ends := forest.walk_descendants n .done
    rwa [List.append_nil] at ends
  refine ⟨fun visited => ⟨fun other => other.unique walk, ?_⟩, fun x => forest.mem_descendants,
    forest.nodup_descendants n, fun p inside => forest.family_sublist inside⟩
  rintro rfl
  exact walk

/-- Two texts, the later one put before the other. -/
def pair : Arena :=
  [.alloc (.text "a"), .append 0 1, .alloc (.text "b"), .insert 0 5 2, .insertBefore 1 [2]].foldl
    Edit.apply empty

theorem pair_with_copy_stays_forest :
    ∃ moved, Made moved ((pair.graft (pair.tree 0)).2.append 0 3) ∧ root ∉ moved ∧
      ((pair.graft (pair.tree 0)).2.append 0 3).Forest ∧
      ∀ visited, ((pair.graft (pair.tree 0)).2.append 0 3).Walk [0] visited ↔
        visited = [0, 2, 1, 3, 4, 5] := by
  -- all moves are below the root, which has nothing above it
  have below_root : ∀ {a : Arena} {e : Edit} {c : NodeId}, (∀ i ∈ e.named, i < a.size) → c ≠ root →
      e.moves? a = some (root, [c]) → a.parent? root = none → e.Allowed a := by
    intro a e c known apart moves free
    have only : ∀ {q ids}, e.moves? a = some (q, ids) → q = root ∧ ids = [c] := by
      intro q ids here
      rw [moves] at here
      cases here
      exact ⟨rfl, rfl⟩
    refine ⟨known, fun here => ?_, fun here i mem => ?_⟩
    · rw [(only here).2]
      exact List.nodup_singleton c
    · obtain ⟨rfl, rfl⟩ := only here
      rw [List.mem_singleton] at mem
      exact ⟨mem ▸ apart, not_above_of_free free⟩
  have adds : ∀ {a : Arena} {c : Content}, (Edit.alloc c).Allowed a :=
    ⟨fun _ mem => (nomatch mem), fun here => (nomatch here), fun here => nomatch here⟩
  have two := ((((Made.empty.edit (.alloc (.text "a")) adds).edit (.append 0 1)
      (below_root (by decide) (by decide) rfl rfl)).edit (.alloc (.text "b")) adds).edit
      (.insert 0 5 2) (below_root (by decide) (by decide) rfl rfl)).edit (.insertBefore 1 [2])
      (below_root (by decide) (by decide) rfl rfl)
  have made := (two.copy two (show 0 < 3 by decide)).edit (.append 0 3)
    (below_root (by decide) (by decide) rfl rfl)
  have settled := made_store_stays_forest made
  refine ⟨_, made, by decide, settled.1, fun visited => ?_⟩
  exact (settled.2.2 0).1 visited

end Stencil.Markup.Arena

namespace Stencil.Markup.Arena
open Expansion

/-- A list of nodes without some of them. -/
def without (ids l : List NodeId) : List NodeId := l.filter (· ∉ ids)

/-- The node `target` stands between the others below `p`, and the nodes of `ids` may come to it:
they are nodes of the store, none twice, and none is the target, `p` or above `p`. -/
structure Spliceable (a : Arena) (p target : NodeId) (before after ids : List NodeId) : Prop where
  family : a.children p = before ++ target :: after
  known : ∀ i ∈ ids, i < a.size
  once : ids.Nodup
  other : target ∉ ids
  apart : ∀ i ∈ ids, i ≠ p ∧ ¬ a.Above i p

/-- From `a` to `b` the nodes of `ids` have come below `p`, which is left with `family`. Other nodes
have lost children to that and are as they were, the parent of `target` apart. -/
structure Spliced (a b : Arena) (p target : NodeId) (ids family : List NodeId) : Prop where
  forest : b.Forest
  size : b.size = a.size
  content : ∀ j, b.content j = a.content j
  family : b.children p = family
  children : ∀ j, j ≠ p → b.children j = without ids (a.children j)
  moved : ∀ i ∈ ids, b.parent? i = some p
  parent? : ∀ j, j ∉ ids → j ≠ target → b.parent? j = a.parent? j

variable {a : Arena} {p target id : NodeId} {before after ids : List NodeId}

theorem without_cons (i : NodeId) (ids l : List NodeId) :
    without (i :: ids) l = without ids (l.filter (· ≠ i)) := by
  rw [without, without, List.filter_filter]
  refine List.filter_congr fun j _ => ?_
  simp [List.mem_cons, Bool.and_comm]

theorem without_around (other : target ∉ ids) :
    without ids (before ++ target :: after) =
      without ids before ++ target :: without ids after := by
  rw [without, List.filter_append, List.filter_cons_of_pos (by simpa using other)]
  rfl

/-! ### Taking nodes out, told by the children of every node -/

theorem Forest.children_detach (forest : a.Forest) (id j : NodeId) :
    (a.detach id).children j = (a.children j).filter (· ≠ id) := by
  have kept : a.parent? id ≠ some j → (a.children j).filter (· ≠ id) = a.children j := by
    intro elsewhere
    refine List.filter_eq_self.mpr fun k child => ?_
    have apart : k ≠ id := by
      rintro rfl
      exact elsewhere (forest.mem_children_iff.mp child)
    simpa using apart
  cases parent : a.parent? id with
  | none => rw [a.detach_of_free parent, kept (by rw [parent]; exact nofun)]
  | some q =>
    rw [children, node_detach, parent]
    dsimp only
    by_cases own : j = q
    · rw [if_pos own, own]
      simp only [ne_eq, decide_not]
      rfl
    · rw [if_neg own, kept (by rw [parent]; exact fun same => own (Option.some.inj same).symm)]
      split
      · rfl
      · rfl

theorem Forest.children_detachAll (forest : a.Forest) (ids : List NodeId) (j : NodeId) :
    (a.detachAll ids).children j = without ids (a.children j) := by
  induction ids generalizing a with
  | nil => exact (List.filter_eq_self.mpr fun k _ => by simp).symm
  | cons i ids ih =>
    rw [detachAll_cons, ih (forest_detach forest i), forest.children_detach, without_cons]

/-! ### Where nodes are put -/

theorem Forest.parent?_of_family (forest : a.Forest)
    (family : a.children p = before ++ target :: after) : a.parent? target = some p := by
  refine forest.mem_children_iff.mp ?_
  rw [family]
  exact List.mem_append_right _ List.mem_cons_self

/-- The index of a child is the number of siblings before it. -/
theorem Forest.indexInParent?_of_family (forest : a.Forest)
    (family : a.children p = before ++ target :: after) :
    a.indexInParent? target = some before.length := by
  have once := forest.nodup_children p
  rw [family] at once
  have apart : ∀ x ∈ before, ¬ (x == target) = true := by
    intro x mem
    have ne := (List.nodup_append.mp once).2.2 x mem target List.mem_cons_self
    simpa using ne
  rw [indexInParent?, forest.parent?_of_family family, Option.bind_some, family,
    List.findIdx?_append, List.findIdx?_eq_none_iff.mpr (by simpa using apart), List.findIdx?_cons]
  simp

/-- Once the nodes are out, they are put behind what is left of the siblings before the target. -/
theorem Spliceable.insertBefore_eq (spliceable : a.Spliceable p target before after ids)
    (forest : a.Forest) :
    a.insertBefore target ids = (a.detachAll ids).placeAt p (without ids before).length ids := by
  have left : (a.detachAll ids).children p =
      without ids before ++ target :: without ids after := by
    rw [forest.children_detachAll, spliceable.family, without_around spliceable.other]
  rw [insertBefore, forest.parent?_of_family spliceable.family]
  dsimp only
  rw [(forest_detachAll forest ids).indexInParent?_of_family left]

theorem Spliceable.spliced_insertBefore (spliceable : a.Spliceable p target before after ids)
    (forest : a.Forest) :
    Spliced a (a.insertBefore target ids) p target ids
        (without ids before ++ ids ++ target :: without ids after) ∧
      (a.insertBefore target ids).parent? target = some p := by
  have out := forest_detachAll forest ids
  have loose : (a.detachAll ids).Loose p ids :=
    Forest.loose_detachAll spliceable.once spliceable.known spliceable.apart
  have range : p < (a.detachAll ids).size := by
    rw [size_detachAll]
    refine a.lt_size_of_mem_children (j := target) ?_
    rw [spliceable.family]
    exact List.mem_append_right _ List.mem_cons_self
  have parents : ∀ j, (a.insertBefore target ids).parent? j =
      if j ∈ ids then some p else a.parent? j := by
    intro j
    rw [spliceable.insertBefore_eq forest, loose.parent?_placeAt range, parent?_detachAll]
    split
    · rfl
    · rfl
  have children : ∀ j, (a.insertBefore target ids).children j =
      if j = p then without ids before ++ ids ++ target :: without ids after
      else without ids (a.children j) := by
    intro j
    rw [spliceable.insertBefore_eq forest, loose.children_placeAt range,
      forest.children_detachAll, forest.children_detachAll, spliceable.family,
      without_around spliceable.other, List.take_left, List.drop_left]
  refine ⟨⟨?_, a.size_insertBefore target ids, a.content_insertBefore target ids, ?_,
    fun j other => ?_, fun i mem => ?_, fun j still _ => ?_⟩, ?_⟩
  · rw [spliceable.insertBefore_eq forest]
    exact forest_placeAt out loose range _
  · rw [children, if_pos rfl]
  · rw [children, if_neg other]
  · rw [parents, if_pos mem]
  · rw [parents, if_neg still]
  · rw [parents, if_neg spliceable.other, forest.parent?_of_family spliceable.family]

theorem Spliceable.spliced_replaceWith (spliceable : a.Spliceable p target before after ids)
    (forest : a.Forest) :
    Spliced a (a.replaceWith target ids) p target ids
        (without ids before ++ ids ++ without ids after) ∧
      (a.replaceWith target ids).parent? target = none ∧
      (a.replaceWith target ids).children target = without ids (a.children target) := by
  obtain ⟨put, placed⟩ := spliceable.spliced_insertBefore forest
  have own : target ≠ p := forest.ne_parent (forest.parent?_of_family spliceable.family)
  have parents : ∀ j, (a.replaceWith target ids).parent? j =
      if j = target then none else (a.insertBefore target ids).parent? j :=
    parent?_detach _ target
  have children : ∀ j, (a.replaceWith target ids).children j =
      ((a.insertBefore target ids).children j).filter (· ≠ target) :=
    put.forest.children_detach target
  -- the target is a child of `p` alone, so no other node loses it
  have others : ∀ j, j ≠ p → (a.replaceWith target ids).children j = without ids (a.children j) := by
    intro j other
    rw [children, ← put.children j other]
    refine List.filter_eq_self.mpr fun k child => ?_
    have apart : k ≠ target := by
      rintro rfl
      rw [put.forest.mem_children_iff, placed] at child
      exact other (Option.some.inj child).symm
    simpa using apart
  have family : (a.replaceWith target ids).children p =
      without ids before ++ ids ++ without ids after := by
    have once := put.forest.nodup_children p
    rw [put.family, List.nodup_append, List.nodup_cons] at once
    have first : (without ids before ++ ids).filter (· ≠ target) = without ids before ++ ids :=
      List.filter_eq_self.mpr fun k mem => by
        have ne := once.2.2 k mem target List.mem_cons_self
        simpa using ne
    have last : (without ids after).filter (· ≠ target) = without ids after :=
      List.filter_eq_self.mpr fun k mem => by
        have ne : k ≠ target := fun same => once.2.1.1 (same ▸ mem)
        simpa using ne
    rw [children, put.family, List.filter_append, first, List.filter_cons_of_neg (by simp), last]
  refine ⟨⟨forest_detach put.forest target, a.size_replaceWith target ids,
    a.content_replaceWith target ids, family, others, fun i mem => ?_, fun j still other => ?_⟩, ?_,
    others target own⟩
  · have ne : i ≠ target := fun same => spliceable.other (same ▸ mem)
    rw [parents, if_neg ne, put.moved i mem]
  · rw [parents, if_neg other, put.parent? j still other]
  · rw [parents, if_pos rfl]

/-- Nodes put before a child of `p` stand there in their order, between what is left of the siblings
on either side. Put into its place, they stand so without it, and it keeps its own children that are
not among them. Nothing else in the store changes, but that the nodes are gone from where they were. -/
theorem spliced_between_siblings (forest : a.Forest)
    (spliceable : a.Spliceable p target before after ids) :
    (Spliced a (a.insertBefore target ids) p target ids
        (without ids before ++ ids ++ target :: without ids after) ∧
      (a.insertBefore target ids).parent? target = some p) ∧
    Spliced a (a.replaceWith target ids) p target ids
        (without ids before ++ ids ++ without ids after) ∧
      (a.replaceWith target ids).parent? target = none ∧
      (a.replaceWith target ids).children target = without ids (a.children target) :=
  ⟨spliceable.spliced_insertBefore forest, spliceable.spliced_replaceWith forest⟩

/-- Two texts, an element with two texts of its own, and a text. -/
def shelf : Tree :=
  .node .root [.node (.text "a") [], .node (.text "b") [],
    .node (.element ⟨"p", []⟩) [.node (.text "c") [], .node (.text "d") []], .node (.text "e") []]

/-- A text from below the element, the one behind it and the first one take its place. -/
theorem shelf_spliced :
    (ofTree shelf).Forest ∧ (ofTree shelf).Spliceable 0 3 [1, 2] [6] [5, 6, 1] ∧
      ((ofTree shelf).insertBefore 3 [5, 6, 1]).children 0 = [2, 5, 6, 1, 3] ∧
      ((ofTree shelf).replaceWith 3 [5, 6, 1]).children 0 = [2, 5, 6, 1] ∧
      ((ofTree shelf).replaceWith 3 [5, 6, 1]).children 3 = [4] := by
  have forest : (ofTree shelf).Forest := forest_ofTree shelf
  have spliceable : (ofTree shelf).Spliceable 0 3 [1, 2] [6] [5, 6, 1] := by
    refine ⟨rfl, by decide, by decide, by decide, fun i mem => ⟨?_, not_above_of_free rfl⟩⟩
    rintro rfl
    exact absurd mem (by decide)
  obtain ⟨⟨inserted, -⟩, replaced, -, own⟩ := spliced_between_siblings forest spliceable
  exact ⟨forest, spliceable, inserted.family, replaced.family, own⟩

end Stencil.Markup.Arena
