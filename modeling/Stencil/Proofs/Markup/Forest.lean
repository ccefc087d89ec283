import Mathlib.Data.List.Nodup
import Stencil.Proofs.Markup.Moves
/-!
Stores that are forests, and the conditions under which they stay so when nodes are moved. All moves
come down to one: below one node some children go away and some nodes without a place arrive. Going
down in a forest ends, so the bound on the depth that the readings carry never cuts anything off, and
a walk with a stack of nodes to visit comes to its end.
-/
namespace Stencil.Markup.Arena

/-- The node `p` is the parent of a node, or stands above the parent. -/
inductive Above (a : Arena) (p : NodeId) : NodeId → Prop
  | parent {x : NodeId} (parent : a.parent? x = some p) : Above a p x
  | higher {x q : NodeId} (parent : a.parent? x = some q) (above : Above a p q) : Above a p x

/-- Children and parents agree, no node is a child twice, and going from parent to parent ends. -/
structure Forest (a : Arena) : Prop where
  mem_children_iff : ∀ {p x}, x ∈ a.children p ↔ a.parent? x = some p
  nodup_children : ∀ p, (a.children p).Nodup
  finite : WellFounded fun p x => a.parent? x = some p

/-- Nodes without a place, none of them twice. None is the node `q` or stands above it. -/
structure Loose (a : Arena) (q : NodeId) (ids : List NodeId) : Prop where
  once : ids.Nodup
  free : ∀ i ∈ ids, i < a.size ∧ a.parent? i = none
  apart : ∀ i ∈ ids, i ≠ q ∧ ¬ a.Above i q

/-- The nodes can take the place of `target`, which has one. -/
structure Replaceable (a : Arena) (target : NodeId) (ids : List NodeId) : Prop
    extends Loose a target ids where
  placed : (a.parent? target).isSome

variable {a a' : Arena} {q x p : NodeId} {ids : List NodeId}

theorem Above.exists_parent (above : a.Above p x) : ∃ q, a.parent? x = some q := by
  cases above with
  | parent parent => exact ⟨p, parent⟩
  | higher parent => exact ⟨_, parent⟩

/-- Above a node without a parent there is nothing. -/
theorem not_above_of_free (free : a.parent? x = none) : ¬ a.Above p x := by
  intro above
  obtain ⟨q, parent⟩ := above.exists_parent
  rw [free] at parent
  cases parent

theorem Loose.parent (loose : a.Loose x ids) (parent : a.parent? x = some q) : a.Loose q ids where
  once := loose.once
  free := loose.free
  apart i mem := by
    refine ⟨?_, fun above => (loose.apart i mem).2 (.higher parent above)⟩
    rintro rfl
    exact (loose.apart i mem).2 (.parent parent)

/-- The node that gets them is none of them. -/
theorem Loose.not_mem (loose : a.Loose q ids) : q ∉ ids := fun mem => (loose.apart q mem).1 rfl

theorem loose_nil : a.Loose q [] :=
  ⟨List.nodup_nil, fun _ mem => (nomatch mem), fun _ mem => nomatch mem⟩

/-! ### Lists in which a node gives way -/

theorem mem_swap {l : List NodeId} {j : NodeId} (listed : x ∈ l) :
    j ∈ swap x ids l ↔ j ∈ ids ∨ j ∈ l ∧ j ∉ [x] := by
  rw [swap, List.mem_flatMap, List.mem_singleton]
  constructor
  · rintro ⟨k, mem, here⟩
    by_cases own : k = x
    · rw [if_pos own] at here
      exact .inl here
    · rw [if_neg own, List.mem_singleton] at here
      exact .inr (here ▸ ⟨mem, own⟩)
  · rintro (mem | ⟨mem, other⟩)
    · exact ⟨x, listed, by rwa [if_pos rfl]⟩
    · exact ⟨j, mem, by rw [if_neg other]; exact List.mem_singleton_self j⟩

theorem nodup_swap {l : List NodeId} (once : l.Nodup) (new : ids.Nodup) (apart : ∀ i ∈ ids, i ∉ l) :
    (swap x ids l).Nodup := by
  induction l with
  | nil => exact List.nodup_nil
  | cons k l ih =>
    rw [List.nodup_cons] at once
    have apart' : ∀ i ∈ ids, i ∉ l := fun i mem here => apart i mem (List.mem_cons_of_mem k here)
    rw [swap, List.flatMap_cons]
    change ((if k = x then ids else [k]) ++ swap x ids l).Nodup
    by_cases own : k = x
    · rw [if_pos own, swap_of_not_mem (own ▸ once.1)]
      exact List.nodup_append.mpr ⟨new, once.2, fun i mem j here same => apart' i mem (same ▸ here)⟩
    · rw [if_neg own, List.singleton_append, List.nodup_cons]
      refine ⟨fun mem => ?_, ih once.2 apart'⟩
      by_cases listed : x ∈ l
      · rcases (mem_swap listed).mp mem with new | ⟨old, -⟩
        · exact apart k new List.mem_cons_self
        · exact once.1 old
      · rw [swap_of_not_mem listed] at mem
        exact once.1 mem

/-! ### Moves -/

theorem Forest.linked (forest : a.Forest) {x p : NodeId} (parent : a.parent? x = some p) :
    x ∈ a.children p :=
  forest.mem_children_iff.mpr parent

theorem Forest.ne_parent (forest : a.Forest) (parent : a.parent? x = some q) : x ≠ q := by
  rintro rfl
  induction x using forest.finite.induction with
  | _ x ih => exact ih x parent parent

theorem Forest.of_same (forest : a.Forest) (parents : ∀ j, a'.parent? j = a.parent? j)
    (children : ∀ j, a'.children j = a.children j) : a'.Forest where
  mem_children_iff := by
    intro p x
    rw [children, parents]
    exact forest.mem_children_iff
  nodup_children p := by
    rw [children]
    exact forest.nodup_children p
  finite := by
    simp only [parents]
    exact forest.finite

/-- Chains of parents stay finite when nodes get a parent that is not below any of them. -/
theorem finite_of_moved (finite : WellFounded fun p x => a.parent? x = some p)
    (apart : ∀ i ∈ ids, i ≠ q ∧ ¬ a.Above i q)
    (parents : ∀ x p, a'.parent? x = some p → x ∈ ids ∧ p = q ∨ a.parent? x = some p) :
    WellFounded fun p x => a'.parent? x = some p := by
  -- the chain from the new parent meets none of the nodes, so it is an old one
  have old : ∀ x, (∀ i ∈ ids, i ≠ x ∧ ¬ a.Above i x) → Acc (fun p x => a'.parent? x = some p) x := by
    intro x
    induction x using finite.induction with
    | _ x ih =>
      intro out
      refine ⟨x, fun p parent => ?_⟩
      rcases parents x p parent with ⟨mem, -⟩ | before
      · exact absurd rfl (out x mem).1
      · refine ih p before fun i mem => ⟨?_, fun above => (out i mem).2 (.higher before above)⟩
        rintro rfl
        exact (out i mem).2 (.parent before)
  refine ⟨fun x => ?_⟩
  induction x using finite.induction with
  | _ x ih =>
    refine ⟨x, fun p parent => ?_⟩
    rcases parents x p parent with ⟨-, rfl⟩ | before
    · exact old p apart
    · exact ih p before

/-- Below the node `q` the nodes `gone` go away, `ids` arrive, and it is left with `now`. -/
theorem Forest.moved (gone now : List NodeId) (forest : a.Forest) (loose : a.Loose q ids)
    (old : ∀ i ∈ gone, i ∈ a.children q)
    (parents : ∀ j, a'.parent? j =
      if j ∈ ids then some q else if j ∈ gone then none else a.parent? j)
    (children : ∀ j, a'.children j = if j = q then now else a.children j) (once : now.Nodup)
    (listed : ∀ j, j ∈ now ↔ j ∈ ids ∨ j ∈ a.children q ∧ j ∉ gone) : a'.Forest where
  mem_children_iff := by
    intro p x
    rw [children, parents]
    by_cases own : p = q
    · subst own
      rw [if_pos rfl, listed]
      by_cases new : x ∈ ids
      · simp [new]
      · by_cases lost : x ∈ gone
        · simp [new, lost]
        · simp [new, lost, forest.mem_children_iff]
    · rw [if_neg own, forest.mem_children_iff]
      by_cases new : x ∈ ids
      · simp [new, (loose.free x new).2, Ne.symm own]
      · by_cases lost : x ∈ gone
        · simp [new, lost, forest.mem_children_iff.mp (old x lost), Ne.symm own]
        · simp [new, lost]
  nodup_children p := by
    rw [children]
    split
    · exact once
    · exact forest.nodup_children p
  finite := by
    refine finite_of_moved forest.finite loose.apart fun x p parent => ?_
    rw [parents] at parent
    split at parent
    · next new => exact .inl ⟨new, (Option.some.inj parent).symm⟩
    · split at parent
      · cases parent
      · exact .inr parent

theorem forest_setContent (forest : a.Forest) (id : NodeId) (c : Content) :
    (a.setContent id c).Forest := by
  refine forest.of_same (fun j => ?_) fun j => ?_
  · rw [parent?, node_setContent]
    split
    · rfl
    · rfl
  · rw [children, node_setContent]
    split
    · rfl
    · rfl

theorem forest_modifyElement (forest : a.Forest) (id : NodeId) (f : Element → Element) :
    (a.modifyElement id f).Forest := by
  rw [modifyElement]
  split
  · exact forest_setContent forest id _
  · exact forest

theorem parent?_alloc (a : Arena) (c : Content) (j : NodeId) :
    (a.alloc c).2.parent? j = a.parent? j := by
  rw [parent?, node_alloc]
  split
  · next new => exact (a.parent?_eq_none (Nat.le_of_eq new.symm)).symm
  · rfl

theorem forest_alloc (forest : a.Forest) (c : Content) : (a.alloc c).2.Forest := by
  refine forest.of_same (a.parent?_alloc c) fun j => ?_
  rw [children, node_alloc]
  split
  · next new => exact (a.children_eq_nil (Nat.le_of_eq new.symm)).symm
  · rfl

theorem Forest.parent?_takeChildren (forest : a.Forest) (id j : NodeId) :
    (a.takeChildren id).2.parent? j = if j ∈ a.children id then none else a.parent? j := by
  rw [parent?, node_takeChildren]
  by_cases lost : j ∈ a.children id
  · have range := a.lt_size_of_parent? (forest.mem_children_iff.mp lost)
    simp [lost, range]
  · simp only [lost, false_and, if_false]
    split
    · rfl
    · rfl

theorem forest_takeChildren (forest : a.Forest) (id : NodeId) : (a.takeChildren id).2.Forest := by
  refine .moved (q := id) (a.children id) [] forest loose_nil (fun i mem => mem)
    (fun j => ?_) (fun j => ?_) List.nodup_nil (by simp)
  · rw [if_neg List.not_mem_nil, forest.parent?_takeChildren]
  · rw [children, node_takeChildren]
    by_cases own : j = id
    · simp only [own, if_true]
      split
      · rfl
      · rfl
    · simp only [own, if_false]
      split
      · rfl
      · rfl

theorem parent?_append (inside : q < a.size) (range : x < a.size) (free : a.parent? x = none)
    (apart : q ≠ x) (j : NodeId) :
    (a.append q x).parent? j = if j = x then some q else a.parent? j := by
  rw [parent?, a.node_append free inside apart]
  by_cases own : j = q
  · simp [own, apart, parent?]
  · by_cases here : j = x
    · simp [here, apart.symm, range]
    · simp [own, here, parent?]

theorem forest_append (forest : a.Forest) (inside : q < a.size) (loose : a.Loose q [x]) :
    (a.append q x).Forest := by
  obtain ⟨range, free⟩ := loose.free x (List.mem_singleton_self x)
  have apart : q ≠ x := (loose.apart x (List.mem_singleton_self x)).1.symm
  have new : x ∉ a.children q := by
    intro child
    rw [forest.mem_children_iff, free] at child
    cases child
  refine .moved [] (a.children q ++ [x]) forest loose (by simp) (fun j => ?_) (fun j => ?_) ?_
    fun j => ?_
  · rw [parent?_append inside range free apart]
    simp
  · rw [children, a.node_append free inside apart]
    split
    · rfl
    · split
      · rfl
      · rfl
  · have single : [x].Nodup := List.nodup_cons.mpr ⟨List.not_mem_nil, .nil⟩
    refine List.nodup_append.mpr ⟨forest.nodup_children q, single, fun i old j here same => ?_⟩
    exact new (List.mem_singleton.mp here ▸ same ▸ old)
  · rw [List.mem_append, List.mem_singleton]
    simp [or_comm]

/-- The nodes stand where the other one stood, in their order. -/
theorem Replaceable.node (replaceable : a.Replaceable x ids) (forest : a.Forest)
    (parent : a.parent? x = some q) (j : NodeId) :
    (a.replaceWith x ids).node j =
      if j ∈ ids then { a.node j with parent := some q }
      else if j = x then { a.node j with parent := none }
      else if j = q then { a.node j with children := swap x ids (a.children q) }
      else a.node j := by
  have loose := replaceable.toLoose.parent parent
  exact a.node_replaceWith parent (forest.linked parent) (forest.nodup_children q)
    (forest.ne_parent parent)
    (fun i mem => (loose.free i mem).2) (fun i mem => (loose.free i mem).1)
    loose.not_mem j

theorem forest_replaceWith (forest : a.Forest) (replaceable : a.Replaceable x ids) :
    (a.replaceWith x ids).Forest := by
  obtain ⟨q, parent⟩ := Option.isSome_iff_exists.mp replaceable.placed
  have loose := replaceable.toLoose.parent parent
  have node := replaceable.node forest parent
  have child := forest.linked parent
  have own : q ∉ ids := loose.not_mem
  have target := forest.ne_parent parent
  refine .moved [x] (swap x ids (a.children q)) forest loose (by simpa using child)
    (fun j => ?_) (fun j => ?_) (nodup_swap (forest.nodup_children q) loose.once fun i mem old => ?_)
    fun j => mem_swap child
  · rw [parent?, node]
    simp only [List.mem_singleton]
    split
    · rfl
    · split
      · rfl
      · split
        · rfl
        · rfl
  · rw [children, node]
    by_cases top : j = q
    · subst top
      simp [own, target.symm]
    · simp only [top, if_false]
      split
      · rfl
      · split
        · rfl
        · rfl
  · rw [forest.mem_children_iff, (loose.free i mem).2] at old
    cases old

/-- Nothing that takes the place of a node is lost. -/
theorem Replaceable.replaced (replaceable : a.Replaceable x ids) (forest : a.Forest) :
    ∃ q, a.parent? x = some q ∧ (a.replaceWith x ids).children q = swap x ids (a.children q) ∧
      ∀ i ∈ ids, (a.replaceWith x ids).parent? i = some q ∧
        (a.replaceWith x ids).children i = a.children i := by
  obtain ⟨q, parent⟩ := Option.isSome_iff_exists.mp replaceable.placed
  have loose := replaceable.toLoose.parent parent
  have node := replaceable.node forest parent
  have own : q ∉ ids := loose.not_mem
  have target := (forest.ne_parent parent).symm
  refine ⟨q, parent, ?_, fun i mem => ⟨?_, ?_⟩⟩
  · rw [children, node, if_neg own, if_neg target, if_pos rfl]
  · rw [parent?, node, if_pos mem]
  · rw [children, node, if_pos mem, children]

end Stencil.Markup.Arena

namespace Stencil.Markup.Arena

/-- A walk that visits the top of a stack and then puts its children on it, the first one on top.
The stack is a list from its top; the walk ends with the visited nodes when nothing is left. -/
inductive Walk (a : Arena) : (stack visited : List NodeId) → Prop
  | done : Walk a [] []
  | visit {n : NodeId} {stack visited : List NodeId}
      (rest : Walk a (a.children n ++ stack) visited) : Walk a (n :: stack) (n :: visited)

/-- Every way down from the node has at most `depth` steps. -/
def Shallow (a : Arena) : (depth : Nat) → NodeId → Prop
  | 0, n => a.children n = []
  | depth + 1, n => ∀ c ∈ a.children n, a.Shallow depth c

variable {a : Arena} {n x y p q c d : NodeId}

/-! ### Above and below -/

theorem Above.trans (low : a.Above p x) (high : a.Above q p) : a.Above q x := by
  induction low with
  | parent parent => exact .higher parent high
  | higher parent _ ih => exact .higher parent ih

theorem Forest.not_above_self (forest : a.Forest) : ¬ a.Above x x := by
  -- the lowest node above itself has a parent that is above itself as well
  induction x using forest.finite.induction with
  | _ x ih =>
    intro above
    cases above with
    | parent parent => exact forest.ne_parent parent rfl
    | higher parent above => exact ih _ parent (above.trans (.parent parent))

/-- What is above a node is its parent or above the parent. -/
theorem above_iff_parent (parent : a.parent? x = some q) : a.Above p x ↔ p = q ∨ a.Above p q := by
  constructor
  · intro above
    cases above with
    | parent here =>
      rw [parent] at here
      exact .inl (Option.some.inj here).symm
    | higher here above =>
      rw [parent] at here
      cases here
      exact .inr above
  · rintro (rfl | above)
    · exact .parent parent
    · exact .higher parent above

/-- What is below a node is a child or below a child. -/
theorem Forest.above_iff_child (forest : a.Forest) :
    a.Above n x ↔ ∃ c ∈ a.children n, x = c ∨ a.Above c x := by
  constructor
  · intro above
    induction above with
    | parent parent => exact ⟨_, forest.linked parent, .inl rfl⟩
    | higher parent _ ih =>
      obtain ⟨c, child, rfl | above⟩ := ih
      · exact ⟨_, child, .inr (.parent parent)⟩
      · exact ⟨c, child, .inr (.higher parent above)⟩
  · rintro ⟨c, child, rfl | above⟩
    · exact .parent (forest.mem_children_iff.mp child)
    · exact above.trans (.parent (forest.mem_children_iff.mp child))

/-- Of two nodes above a third, one is above the other. -/
theorem Above.compare (first : a.Above p x) (second : a.Above q x) :
    p = q ∨ a.Above p q ∨ a.Above q p := by
  induction first with
  | parent parent =>
    rcases (above_iff_parent parent).mp second with rfl | above
    · exact .inl rfl
    · exact .inr (.inr above)
  | higher parent above ih =>
    rcases (above_iff_parent parent).mp second with rfl | above'
    · exact .inr (.inl above)
    · exact ih above'

/-- Below two children of one node there is no common node. -/
theorem Forest.child_unique (forest : a.Forest) (child : c ∈ a.children n)
    (child' : d ∈ a.children n) (below : x = c ∨ a.Above c x) (below' : x = d ∨ a.Above d x) :
    c = d := by
  have apart : ∀ {c d}, c ∈ a.children n → d ∈ a.children n → ¬ a.Above c d := by
    intro c d child child' above
    rw [above_iff_parent (forest.mem_children_iff.mp child')] at above
    have parent := forest.mem_children_iff.mp child
    rcases above with rfl | above
    · exact forest.ne_parent parent rfl
    · exact forest.not_above_self (above.trans (.parent parent))
  rcases below with rfl | below
  · rcases below' with same | below'
    · exact same
    · exact absurd below' (apart child' child)
  · rcases below' with rfl | below'
    · exact absurd below (apart child child')
    · rcases below.compare below' with same | above | above
      · exact same
      · exact absurd above (apart child child')
      · exact absurd above (apart child' child)

/-! ### No way down is longer than there are nodes -/

/-- With the nodes on the way to it, a node has less below it than the store has nodes. -/
theorem Forest.shallow_below (forest : a.Forest) (depth : Nat) (n : NodeId) (way : List NodeId)
    (once : way.Nodup) (above : ∀ u ∈ way, u < a.size ∧ a.Above u n)
    (long : a.size ≤ way.length + depth) : a.Shallow depth n := by
  -- a child makes the way longer by one node, and no way names more nodes than there are
  have fresh : n ∉ way := fun mem => forest.not_above_self (above n mem).2
  have once' : (n :: way).Nodup := List.nodup_cons.mpr ⟨fresh, once⟩
  induction depth generalizing n way with
  | zero =>
    refine List.eq_nil_iff_forall_not_mem.mpr fun c child => ?_
    have range : n < a.size := a.lt_size_of_mem_children child
    have within : n :: way ⊆ List.range a.size := by
      intro u mem
      rw [List.mem_range]
      rcases List.mem_cons.mp mem with rfl | mem
      · exact range
      · exact (above u mem).1
    have short := once'.length_le_of_subset within
    rw [List.length_range, List.length_cons] at short
    omega
  | succ depth ih =>
    intro c child
    have parent := forest.mem_children_iff.mp child
    have above' : ∀ u ∈ n :: way, u < a.size ∧ a.Above u c := by
      intro u mem
      rcases List.mem_cons.mp mem with rfl | mem
      · exact ⟨a.lt_size_of_mem_children child, .parent parent⟩
      · exact ⟨(above u mem).1, .higher parent (above u mem).2⟩
    have fresh' : c ∉ n :: way := fun mem => forest.not_above_self (above' c mem).2
    exact ih c (n :: way) once' above' (by rw [List.length_cons]; omega) fresh'
      (List.nodup_cons.mpr ⟨fresh', once'⟩)

theorem Forest.shallow (forest : a.Forest) (n : NodeId) : a.Shallow a.size n :=
  forest.shallow_below a.size n [] List.nodup_nil (fun _ mem => nomatch mem) (by simp)

/-- What holds of a node when it holds of its children holds of every node. -/
theorem Forest.child_induction (forest : a.Forest) {motive : NodeId → Prop}
    (step : ∀ n, (∀ c ∈ a.children n, motive c) → motive n) (n : NodeId) : motive n := by
  have bounded : ∀ depth n, a.Shallow depth n → motive n := by
    intro depth
    induction depth with
    | zero =>
      intro n none
      refine step n fun c child => ?_
      rw [none] at child
      cases child
    | succ depth ih =>
      intro n below
      exact step n fun c child => ih c (below c child)
  exact bounded a.size n (forest.shallow n)

theorem descendantsTo_succ {depth : Nat} (shallow : a.Shallow depth n) :
    a.descendantsTo (depth + 1) n = a.descendantsTo depth n := by
  induction depth generalizing n with
  | zero =>
    have none : a.children n = [] := shallow
    change n :: (a.children n).flatMap _ = [n]
    rw [none, List.flatMap_nil]
  | succ depth ih =>
    rw [descendantsTo, descendantsTo]
    exact congrArg (n :: ·) (List.flatMap_congr fun c child => ih (shallow c child))

theorem treeTo_succ {depth : Nat} (shallow : a.Shallow depth n) :
    a.treeTo (depth + 1) n = a.treeTo depth n := by
  induction depth generalizing n with
  | zero =>
    have none : a.children n = [] := shallow
    change Tree.node _ ((a.children n).map _) = .node _ []
    rw [none, List.map_nil]
  | succ depth ih =>
    rw [treeTo, treeTo]
    exact congrArg (Tree.node _) (List.map_congr_left fun c child => ih (shallow c child))

/-- A node comes first, then what is listed of its children, one after the other. -/
theorem Forest.descendants_eq (forest : a.Forest) (n : NodeId) :
    a.descendants n = n :: (a.children n).flatMap a.descendants :=
  (descendantsTo_succ (forest.shallow n)).symm

theorem Forest.tree_eq (forest : a.Forest) (n : NodeId) :
    a.tree n = .node (a.content n) ((a.children n).map a.tree) :=
  (treeTo_succ (forest.shallow n)).symm

/-! ### The nodes of a subtree -/

theorem Forest.mem_descendants (forest : a.Forest) :
    x ∈ a.descendants n ↔ x = n ∨ a.Above n x := by
  induction n using forest.child_induction with
  | _ n ih =>
    rw [forest.descendants_eq, List.mem_cons, List.mem_flatMap, forest.above_iff_child]
    refine or_congr_right (exists_congr fun c => and_congr_right fun child => ih c child)

theorem Forest.nodup_descendants (forest : a.Forest) (n : NodeId) : (a.descendants n).Nodup := by
  induction n using forest.child_induction with
  | _ n ih =>
    rw [forest.descendants_eq, List.nodup_cons]
    constructor
    · intro mem
      obtain ⟨c, child, below⟩ := List.mem_flatMap.mp mem
      have above := forest.above_iff_child.mpr ⟨c, child, forest.mem_descendants.mp below⟩
      exact forest.not_above_self above
    · refine List.nodup_flatMap.mpr ⟨ih, ?_⟩
      refine (forest.nodup_children n).imp_of_mem fun child child' apart => ?_
      intro x below below'
      exact apart (forest.child_unique child child' (forest.mem_descendants.mp below)
        (forest.mem_descendants.mp below'))

/-- Each node of a subtree comes before its children, and these in their order. -/
theorem Forest.family_sublist (forest : a.Forest) (inside : p ∈ a.descendants n) :
    (p :: a.children p).Sublist (a.descendants n) := by
  induction n using forest.child_induction with
  | _ n ih =>
    rw [forest.descendants_eq] at inside ⊢
    rcases List.mem_cons.mp inside with rfl | inside
    · have first : ∀ l : List NodeId, l.Sublist (l.flatMap a.descendants) := by
        intro l
        induction l with
        | nil => exact .slnil
        | cons c l ih =>
          rw [List.flatMap_cons, forest.descendants_eq, List.cons_append]
          exact .cons_cons c (ih.trans (List.sublist_append_right _ _))
      exact .cons_cons p (first _)
    · obtain ⟨c, child, below⟩ := List.mem_flatMap.mp inside
      have whole : (a.descendants c).Sublist ((a.children n).flatMap a.descendants) :=
        List.sublist_flatten_of_mem (List.mem_map_of_mem child)
      exact .cons n ((ih c child below).trans whole)

/-! ### The walk -/

/-- A walk is settled by the stack it starts with. -/
theorem Walk.unique {stack visited visited' : List NodeId} (walk : a.Walk stack visited)
    (walk' : a.Walk stack visited') : visited = visited' := by
  induction walk generalizing visited' with
  | done =>
    cases walk'
    rfl
  | visit _ ih =>
    cases walk' with
    | visit rest' => rw [ih rest']

/-- The walk visits a whole subtree before it goes on with the rest of the stack. -/
theorem Forest.walk_descendants (forest : a.Forest) (n : NodeId) {stack visited : List NodeId}
    (rest : a.Walk stack visited) : a.Walk (n :: stack) (a.descendants n ++ visited) := by
  induction n using forest.child_induction generalizing stack visited with
  | _ n ih =>
    rw [forest.descendants_eq, List.cons_append]
    refine .visit ?_
    revert ih
    generalize a.children n = kids
    intro ih
    induction kids with
    | nil => exact rest
    | cons c kids kids_ih =>
      rw [List.flatMap_cons, List.append_assoc, List.cons_append]
      exact ih c List.mem_cons_self (kids_ih fun d mem => ih d (List.mem_cons_of_mem c mem))

end Stencil.Markup.Arena
