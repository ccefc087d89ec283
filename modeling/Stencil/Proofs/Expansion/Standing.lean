import Stencil.Proofs.Expansion.Branch
import Stencil.Proofs.Expansion.Step
/-!
Branches that stand in a page that is being expanded. A branch stands in it when each of its nodes
is there, below the parent and above the children that it has in the branch.
-/
namespace Stencil
open Markup

namespace Branch

mutual

/-- What the nodes of a branch are in a store where the branch has a parent. -/
def entries (parent : Option NodeId) : Branch → List (NodeId × Node × Values)
  | node id stem bs =>
    (id, ⟨stem.content, parent, bs.map (·.id)⟩, stem.rich) :: entriesAll (some id) bs

def entriesAll (parent : Option NodeId) : List Branch → List (NodeId × Node × Values)
  | [] => []
  | b :: bs => b.entries parent ++ entriesAll parent bs

end

mutual

theorem map_fst_entries (parent : Option NodeId) (b : Branch) :
    (b.entries parent).map (·.1) = b.ids := by
  cases b with
  | node i stem bs => rw [entries, ids, List.map_cons, map_fst_entriesAll]

theorem map_fst_entriesAll (parent : Option NodeId) (bs : List Branch) :
    (entriesAll parent bs).map (·.1) = idsAll bs := by
  cases bs with
  | nil => rfl
  | cons b bs =>
    rw [entriesAll, idsAll, List.map_append, map_fst_entries, map_fst_entriesAll]

end

@[simp] theorem entriesAll_append (parent : Option NodeId) (bs cs : List Branch) :
    entriesAll parent (bs ++ cs) = entriesAll parent bs ++ entriesAll parent cs := by
  induction bs with
  | nil => rfl
  | cons b bs ih => rw [List.cons_append, entriesAll, entriesAll, ih, List.append_assoc]

end Branch

namespace Expansion
open Branch

/-- All that is known of a node. -/
def look (s : Expansion) (x : NodeId) : Node × Values :=
  (s.arena.node x, (s.rich.lookup x).getD [])

def Stands (s : Expansion) (parent : Option NodeId) (b : Branch) : Prop :=
  ∀ e ∈ b.entries parent, e.1 < s.arena.size ∧ s.look e.1 = e.2

def StandsAll (s : Expansion) (parent : Option NodeId) (bs : List Branch) : Prop :=
  ∀ e ∈ entriesAll parent bs, e.1 < s.arena.size ∧ s.look e.1 = e.2

section
variable {s s' : Expansion} {p : Option NodeId} {b : Branch} {bs cs new : List Branch}
  {x y i : NodeId} {stem : Stem}

@[simp] theorem standsAll_nil : StandsAll s p [] := fun _ mem => nomatch mem

theorem standsAll_append : StandsAll s p (bs ++ cs) ↔ StandsAll s p bs ∧ StandsAll s p cs := by
  rw [StandsAll, entriesAll_append, List.forall_mem_append]
  rfl

theorem standsAll_cons : StandsAll s p (b :: bs) ↔ Stands s p b ∧ StandsAll s p bs :=
  List.forall_mem_append

@[simp] theorem standsAll_singleton : StandsAll s p [b] ↔ Stands s p b := by
  simp [standsAll_cons]

theorem standsAll_iff : StandsAll s p bs ↔ ∀ b ∈ bs, Stands s p b := by
  induction bs with
  | nil => simp
  | cons b bs ih => rw [standsAll_cons, ih, List.forall_mem_cons]

theorem stands_node : Stands s p (.node i stem bs) ↔
    (i < s.arena.size ∧ s.look i = (⟨stem.content, p, bs.map (·.id)⟩, stem.rich)) ∧
      StandsAll s (some i) bs :=
  List.forall_mem_cons

theorem Stands.lt (stands : Stands s p b) (mem : x ∈ b.ids) : x < s.arena.size := by
  rw [← map_fst_entries p, List.mem_map] at mem
  obtain ⟨e, mem, rfl⟩ := mem
  exact (stands e mem).1

theorem StandsAll.lt (stands : StandsAll s p bs) (mem : x ∈ idsAll bs) : x < s.arena.size := by
  rw [← map_fst_entriesAll p, List.mem_map] at mem
  obtain ⟨e, mem, rfl⟩ := mem
  exact (stands e mem).1

/-- Only the nodes of a branch decide whether it stands. -/
theorem Stands.congr (stands : Stands s p b)
    (same : ∀ x ∈ b.ids, x < s'.arena.size ∧ s'.look x = s.look x) : Stands s' p b := by
  intro e mem
  have inside : e.1 ∈ b.ids := by
    rw [← map_fst_entries p]
    exact List.mem_map_of_mem mem
  obtain ⟨range, looks⟩ := same e.1 inside
  exact ⟨range, looks.trans (stands e mem).2⟩

theorem StandsAll.congr (stands : StandsAll s p bs)
    (same : ∀ x ∈ idsAll bs, x < s'.arena.size ∧ s'.look x = s.look x) : StandsAll s' p bs := by
  intro e mem
  have inside : e.1 ∈ idsAll bs := by
    rw [← map_fst_entriesAll p]
    exact List.mem_map_of_mem mem
  obtain ⟨range, looks⟩ := same e.1 inside
  exact ⟨range, looks.trans (stands e mem).2⟩

theorem Stands.look_eq (stands : Stands s p b) :
    s.look b.id = (⟨b.stem.content, p, b.children.map (·.id)⟩, b.stem.rich) := by
  cases b with
  | node i stem bs => exact (stands_node.mp stands).1.2

theorem Stands.content (stands : Stands s p b) : s.arena.content b.id = b.stem.content :=
  congrArg (·.1.content) stands.look_eq

theorem Stands.parent? (stands : Stands s p b) : s.arena.parent? b.id = p :=
  congrArg (·.1.parent) stands.look_eq

theorem Stands.children_eq (stands : Stands s p b) :
    s.arena.children b.id = b.children.map (·.id) :=
  congrArg (·.1.children) stands.look_eq

theorem Stands.rich (stands : Stands s p b) : (s.rich.lookup b.id).getD [] = b.stem.rich :=
  congrArg (·.2) stands.look_eq

theorem Stands.children (stands : Stands s p b) : StandsAll s (some b.id) b.children := by
  cases b with
  | node i stem bs => exact (stands_node.mp stands).2

mutual

theorem Stands.sub {sub : Branch} (b : Branch) {p : Option NodeId} (stands : Stands s p b)
    (mem : sub ∈ b.subs) : ∃ q, Stands s q sub := by
  cases b with
  | node i stem bs =>
    rw [subs, List.mem_cons] at mem
    rcases mem with rfl | mem
    · exact ⟨p, stands⟩
    · exact StandsAll.sub bs (stands_node.mp stands).2 mem

theorem StandsAll.sub {sub : Branch} (bs : List Branch) {p : Option NodeId}
    (stands : StandsAll s p bs) (mem : sub ∈ subsAll bs) : ∃ q, Stands s q sub := by
  cases bs with
  | nil => cases mem
  | cons b bs =>
    obtain ⟨head, tail⟩ := standsAll_cons.mp stands
    rcases List.mem_append.mp mem with mem | mem
    · exact Stands.sub b head mem
    · exact StandsAll.sub bs tail mem

end

/-- A part of a branch stands below the parent that the store says. -/
theorem StandsAll.sub_parent {sub : Branch} (stands : StandsAll s p bs) (mem : sub ∈ subsAll bs) :
    Stands s (s.arena.parent? sub.id) sub := by
  obtain ⟨q, part⟩ := StandsAll.sub bs stands mem
  rwa [part.parent?]

theorem StandsAll.parent?_of_mem (stands : StandsAll s p bs) (mem : b ∈ bs) :
    s.arena.parent? b.id = p :=
  (standsAll_iff.mp stands b mem).parent?

/-- The children of a node of a branch are nodes of the branch. -/
theorem Stands.child_mem (stands : Stands s p b) (mem : x ∈ b.ids)
    (child : y ∈ s.arena.children x) : y ∈ idsAll b.children ∧ s.arena.parent? y = some x := by
  rw [← map_id_subs, List.mem_map] at mem
  obtain ⟨sub, mem, rfl⟩ := mem
  obtain ⟨q, part⟩ := Stands.sub b stands mem
  rw [part.children_eq, List.mem_map] at child
  obtain ⟨c, here, rfl⟩ := child
  refine ⟨?_, part.children.parent?_of_mem here⟩
  have inside : c ∈ subsAll sub.children := mem_subsAll.mpr ⟨c, here, self_mem_subs⟩
  rw [subs_eq, List.mem_cons] at mem
  rcases mem with rfl | mem
  · exact id_mem_idsAll inside
  · refine id_mem_idsAll (subsAll_trans _ mem ?_)
    rw [subs_eq]
    exact List.mem_cons_of_mem _ inside

/-- The parent of a node that is not the top of a branch. -/
structure Above (s : Expansion) (b : Branch) (x q : NodeId) : Prop where
  mem : q ∈ b.ids
  parent : s.arena.parent? x = some q
  child : x ∈ s.arena.children q
  once : (s.arena.children q).Nodup
  apart : x ≠ q

theorem nodup_map_id (once : (idsAll bs).Nodup) : (bs.map (·.id)).Nodup := by
  induction bs with
  | nil => exact List.nodup_nil
  | cons b bs ih =>
    rw [idsAll, List.nodup_append] at once
    rw [List.map_cons, List.nodup_cons]
    refine ⟨fun mem => ?_, ih once.2.1⟩
    obtain ⟨c, mem, same⟩ := List.mem_map.mp mem
    have inside : c.id ∈ idsAll bs := mem_idsAll.mpr ⟨c, mem, id_mem_ids⟩
    exact once.2.2 _ id_mem_ids _ inside same.symm

mutual

theorem Stands.above (b : Branch) {p : Option NodeId} (stands : Stands s p b) (once : b.ids.Nodup)
    (mem : x ∈ idsAll b.children) : ∃ q, Above s b x q := by
  cases b with
  | node i stem bs =>
    rw [ids, List.nodup_cons] at once
    have kids := stands.children_eq
    rcases StandsAll.above bs stands.children once.2 mem with ⟨c, here, rfl⟩ | ⟨c, here, q, above⟩
    · have listed : c.id ∈ s.arena.children i := by
        rw [show s.arena.children i = _ from kids]
        exact List.mem_map_of_mem here
      refine ⟨i, List.mem_cons_self, stands.children.parent?_of_mem here, listed, ?_, ?_⟩
      · rw [show s.arena.children i = _ from kids]
        exact nodup_map_id once.2
      · rintro same
        exact once.1 (same ▸ mem)
    · refine ⟨q, List.mem_cons_of_mem _ (mem_idsAll.mpr ⟨c, here, above.mem⟩), above.parent,
        above.child, above.once, above.apart⟩

theorem StandsAll.above (bs : List Branch) {p : Option NodeId} (stands : StandsAll s p bs)
    (once : (idsAll bs).Nodup) (mem : x ∈ idsAll bs) :
    (∃ c ∈ bs, c.id = x) ∨ ∃ c ∈ bs, ∃ q, Above s c x q := by
  cases bs with
  | nil => cases mem
  | cons b bs =>
    obtain ⟨head, tail⟩ := standsAll_cons.mp stands
    rw [idsAll, List.nodup_append] at once
    rw [idsAll, ids_eq, List.cons_append, List.mem_cons, List.mem_append] at mem
    rcases mem with rfl | mem | mem
    · exact .inl ⟨b, List.mem_cons_self, rfl⟩
    · obtain ⟨q, above⟩ := Stands.above b head once.1 mem
      exact .inr ⟨b, List.mem_cons_self, q, above⟩
    · rcases StandsAll.above bs tail once.2.1 mem with ⟨c, here, same⟩ | ⟨c, here, above⟩
      · exact .inl ⟨c, List.mem_cons_of_mem _ here, same⟩
      · exact .inr ⟨c, List.mem_cons_of_mem _ here, above⟩

end

theorem takeChildren_ok {ids : List NodeId} (run : (takeChildren x).run s = .ok ids s') :
    ids = s.arena.children x ∧ s'.arena = (s.arena.takeChildren x).2 ∧ s'.rich = s.rich := by
  cases run
  exact ⟨rfl, rfl, rfl⟩

theorem modifyArena_ok {f : Arena → Arena} (run : (modifyArena f).run s = .ok () s') :
    s'.arena = f s.arena ∧ s'.rich = s.rich := by
  cases run
  exact ⟨rfl, rfl⟩

/-! ### Replacing a node -/

/-- What is known of a node when other nodes take the place of one of its children. -/
def swapped (s : Expansion) (x : NodeId) (ids : List NodeId) (y : NodeId) : Node × Values :=
  ({ s.arena.node y with children := Arena.swap x ids (s.arena.children y) }, (s.look y).2)

mutual

theorem stands_splice (b : Branch) {p : Option NodeId} (stands : Stands s p b)
    (kept : ∀ y ∈ b.idsBut x, y < s'.arena.size ∧ s'.look y = s.swapped x (new.map (·.id)) y)
    (new_stands : StandsAll s' (s.arena.parent? x) new) : StandsAll s' p (splice x new b) := by
  cases b with
  | node i stem bs =>
    rw [idsBut] at kept
    rw [splice]
    split
    · next target =>
      have parent : s.arena.parent? i = p := stands.parent?
      rwa [← target, parent] at new_stands
    · next other =>
      rw [if_neg other] at kept
      rw [standsAll_singleton, stands_node]
      obtain ⟨range, looks⟩ := kept i List.mem_cons_self
      refine ⟨⟨range, ?_⟩, stands_spliceAll bs stands.children
        (fun y mem => kept y (List.mem_cons_of_mem _ mem)) new_stands⟩
      obtain ⟨⟨-, here⟩, -⟩ := stands_node.mp stands
      have node : s.arena.node i = ⟨stem.content, p, bs.map (·.id)⟩ := congrArg (·.1) here
      have rich : (s.look i).2 = stem.rich := congrArg (·.2) here
      rw [looks, swapped, Arena.children, node, rich, map_id_spliceAll]

theorem stands_spliceAll (bs : List Branch) {p : Option NodeId} (stands : StandsAll s p bs)
    (kept : ∀ y ∈ idsButAll x bs,
      y < s'.arena.size ∧ s'.look y = s.swapped x (new.map (·.id)) y)
    (new_stands : StandsAll s' (s.arena.parent? x) new) :
    StandsAll s' p (spliceAll x new bs) := by
  cases bs with
  | nil => exact standsAll_nil
  | cons b bs =>
    obtain ⟨head, tail⟩ := standsAll_cons.mp stands
    rw [spliceAll, standsAll_append]
    exact ⟨stands_splice b head (fun y mem => kept y (List.mem_append_left _ mem)) new_stands,
      stands_spliceAll bs tail (fun y mem => kept y (List.mem_append_right _ mem)) new_stands⟩

end

theorem mem_map_id (mem : x ∈ bs.map (·.id)) : x ∈ idsAll bs := by
  obtain ⟨b, here, rfl⟩ := List.mem_map.mp mem
  exact mem_idsAll.mpr ⟨b, here, id_mem_ids⟩

/-- Branches get another parent. -/
theorem standsAll_reparent {q : Option NodeId} (stands : StandsAll s p bs)
    (once : (idsAll bs).Nodup) (grown : s.arena.size ≤ s'.arena.size)
    (tops : ∀ x ∈ bs.map (·.id),
      s'.look x = ({ s.arena.node x with parent := q }, (s.look x).2))
    (rest : ∀ x ∈ idsAll bs, x ∉ bs.map (·.id) → s'.look x = s.look x) : StandsAll s' q bs := by
  induction bs with
  | nil => exact standsAll_nil
  | cons b bs ih =>
    obtain ⟨head, tail⟩ := standsAll_cons.mp stands
    rw [idsAll, List.nodup_append] at once
    obtain ⟨head_once, tail_once, disjoint⟩ := once
    rw [standsAll_cons]
    constructor
    · cases b with
      | node i stem cs =>
        rw [ids, List.nodup_cons] at head_once
        rw [stands_node] at head ⊢
        obtain ⟨⟨range, looks⟩, below⟩ := head
        have node : s.arena.node i = ⟨stem.content, p, cs.map (·.id)⟩ := congrArg (·.1) looks
        have rich : (s.look i).2 = stem.rich := congrArg (·.2) looks
        have top := tops i List.mem_cons_self
        rw [node, rich] at top
        refine ⟨⟨Nat.lt_of_lt_of_le range grown, top⟩, below.congr fun x inside => ?_⟩
        have deep : x ∈ ids (.node i stem cs) := List.mem_cons_of_mem _ inside
        refine ⟨Nat.lt_of_lt_of_le (below.lt inside) grown,
          rest x (List.mem_append_left _ deep) fun listed => ?_⟩
        rcases List.mem_cons.mp listed with same | listed
        · have own : x = i := same
          exact head_once.1 (own ▸ inside)
        · exact disjoint x deep x (mem_map_id listed) rfl
    · refine ih tail tail_once (fun x mem => tops x (List.mem_cons_of_mem _ mem))
        fun x inside free => rest x (List.mem_append_right _ inside) fun listed => ?_
      rcases List.mem_cons.mp listed with rfl | listed
      · exact disjoint _ id_mem_ids _ inside rfl
      · exact free listed

/-- Free branches take the place of a node. -/
theorem stands_replaceWith (stands : Stands s p b) (once : b.ids.Nodup)
    (mem : x ∈ idsAll b.children) (free : StandsAll s none new) (new_once : (idsAll new).Nodup)
    (apart : ∀ y ∈ idsAll new, y ∉ b.ids)
    (arena : s'.arena = s.arena.replaceWith x (new.map (·.id))) (rich : s'.rich = s.rich) :
    Stands s' p (.node b.id b.stem (spliceAll x new b.children)) ∧
      ∀ y, y ∉ b.ids → y ∉ new.map (·.id) → s'.look y = s.look y := by
  obtain ⟨q, above⟩ := Stands.above b stands once mem
  have size : s'.arena.size = s.arena.size := by rw [arena, Arena.size_replaceWith]
  have inside : x ∈ b.ids := by
    rw [ids_eq]
    exact List.mem_cons_of_mem _ mem
  have looks : ∀ y, s'.look y = (if y ∈ new.map (·.id) then { s.arena.node y with parent := some q }
      else if y = x then { s.arena.node y with parent := none }
      else if y = q then
        { s.arena.node q with children := Arena.swap x (new.map (·.id)) (s.arena.children q) }
      else s.arena.node y, (s.look y).2) := by
    intro y
    rw [look, look, rich, arena, s.arena.node_replaceWith above.parent above.child above.once
      above.apart (fun i mem => ?_) (fun i mem => free.lt (mem_map_id mem))
      fun mem => apart q (mem_map_id mem) above.mem]
    · split
      · rfl
      · split
        · rfl
        · split
          · next own => rw [own]
          · rfl
    · obtain ⟨c, here, rfl⟩ := List.mem_map.mp mem
      exact free.parent?_of_mem here
  -- a node of the branch that is not replaced keeps all but the child
  have kept : ∀ y ∈ b.ids, y ≠ x → s'.look y = s.swapped x (new.map (·.id)) y := by
    intro y mem other
    have old : y ∉ new.map (·.id) := fun listed => apart y (mem_map_id listed) mem
    rw [looks, swapped, if_neg old, if_neg other]
    by_cases own : y = q
    · rw [if_pos own, own]
    · rw [if_neg own]
      have childless : x ∉ s.arena.children y := by
        intro child
        have parent := (stands.child_mem mem child).2
        rw [above.parent] at parent
        exact own (Option.some.inj parent).symm
      rw [Arena.swap_of_not_mem childless]
      rfl
  have placed : StandsAll s' (s.arena.parent? x) new := by
    rw [above.parent]
    refine standsAll_reparent free new_once (Nat.le_of_eq size.symm) (fun y listed => ?_)
      fun y deep unlisted => ?_
    · rw [looks, if_pos listed]
    · have out : y ∉ b.ids := apart y deep
      have ne : y ≠ x := fun same => out (same ▸ inside)
      have ne' : y ≠ q := fun same => out (same ▸ above.mem)
      rw [looks, if_neg unlisted, if_neg ne, if_neg ne']
      rfl
  have range : ∀ y ∈ b.ids, y < s'.arena.size := fun y mem => size ▸ stands.lt mem
  constructor
  · cases b with
    | node i stem bs =>
      rw [ids, List.nodup_cons] at once
      have other : i ≠ x := fun same => once.1 (same ▸ mem)
      have spliced : StandsAll s' p (splice x new (.node i stem bs)) :=
        stands_splice _ stands (fun y mem => ?_) placed
      · rwa [splice, if_neg other, standsAll_singleton] at spliced
      · have here := mem_ids_of_idsBut _ mem
        exact ⟨range y here, kept y here fun same => not_mem_idsBut _ (same ▸ mem)⟩
  · intro y out unlisted
    have ne : y ≠ x := fun same => out (same ▸ inside)
    have ne' : y ≠ q := fun same => out (same ▸ above.mem)
    rw [looks, if_neg unlisted, if_neg ne, if_neg ne']
    rfl

/-- A part of a branch changes in its place. -/
theorem stands_update {sub : Branch} (stands : Stands s p b) (once : b.ids.Nodup)
    (mem : sub ∈ subsAll b.children) {stem' : Stem} {cs : List Branch}
    (part : Stands s' (s.arena.parent? sub.id) (.node sub.id stem' cs))
    (rest : ∀ y ∈ b.ids, y ∉ sub.ids → y < s'.arena.size ∧ s'.look y = s.look y) :
    Stands s' p (.node b.id b.stem (spliceAll sub.id [.node sub.id stem' cs] b.children)) := by
  cases b with
  | node i stem bs =>
    have part_of : sub ∈ (Branch.node i stem bs).subs := List.mem_cons_of_mem _ mem
    have other : i ≠ sub.id := fun same => (List.nodup_cons.mp once).1 (same ▸ id_mem_idsAll mem)
    have spliced : StandsAll s' p (splice sub.id [.node sub.id stem' cs] (.node i stem bs)) :=
      stands_splice _ stands (fun y kept => ?_) (standsAll_singleton.mpr part)
    · rwa [splice, if_neg other, standsAll_singleton] at spliced
    · obtain ⟨range, looks⟩ := rest y (mem_ids_of_idsBut _ kept) (idsBut_apart _ once part_of kept)
      refine ⟨range, ?_⟩
      rw [looks, swapped, List.map_singleton, Branch.id, Arena.swap_self]
      rfl

/-- The children of a branch are taken out of their places. -/
theorem stands_takeChildren (stands : Stands s p b) (once : b.ids.Nodup)
    (arena : s'.arena = (s.arena.takeChildren b.id).2) (rich : s'.rich = s.rich) :
    StandsAll s' none b.children ∧ Stands s' p (.node b.id b.stem []) ∧
      ∀ y, y ∉ b.ids → s'.look y = s.look y := by
  have size : s'.arena.size = s.arena.size := by rw [arena, Arena.size_takeChildren]
  have kids : s.arena.children b.id = b.children.map (·.id) := stands.children_eq
  have looks : ∀ y, s'.look y =
      (let n := if y = b.id then { s.arena.node y with children := [] } else s.arena.node y
       if y ∈ b.children.map (·.id) ∧ y < s.arena.size then { n with parent := none } else n,
        (s.look y).2) := by
    intro y
    rw [look, look, rich, arena, Arena.node_takeChildren, kids]
  rw [ids_eq, List.nodup_cons] at once
  have own : b.id ∉ b.children.map (·.id) := fun mem => once.1 (mem_map_id mem)
  refine ⟨standsAll_reparent stands.children once.2 (Nat.le_of_eq size.symm) (fun x mem => ?_)
    fun x mem out => ?_, ?_, fun y out => ?_⟩
  · have other : x ≠ b.id := fun same => own (same ▸ mem)
    rw [looks, if_neg other, if_pos ⟨mem, stands.children.lt (mem_map_id mem)⟩]
  · have other : x ≠ b.id := fun same => once.1 (same ▸ mem)
    rw [looks, if_neg other, if_neg fun both => out both.1]
    rfl
  · rw [stands_node]
    refine ⟨⟨size ▸ stands.lt id_mem_ids, ?_⟩, standsAll_nil⟩
    have here := stands.look_eq
    have node : s.arena.node b.id = ⟨b.stem.content, p, b.children.map (·.id)⟩ := congrArg (·.1) here
    have rich : (s.look b.id).2 = b.stem.rich := congrArg (·.2) here
    rw [looks, if_pos rfl, if_neg fun both => own both.1, node, rich]
    rfl
  · rw [ids_eq, List.mem_cons, not_or] at out
    rw [looks, if_neg out.1, if_neg fun both => out.2 (mem_map_id both.1)]
    rfl

/-- What stands in a branch without a place is put into the place of a node of another branch. -/
theorem stands_exchange {g : Branch} {s₁ : Expansion} {listed : List NodeId}
    (stands : Stands s p b) (once : b.ids.Nodup) (mem : x ∈ idsAll b.children)
    (free : Stands s none g) (free_once : g.ids.Nodup) (apart : ∀ y ∈ g.ids, y ∉ b.ids)
    (taken : (takeChildren g.id).run s = .ok listed s₁)
    (replaced : (modifyArena (·.replaceWith x listed)).run s₁ = .ok () s') :
    Stands s' p (.node b.id b.stem (spliceAll x g.children b.children)) ∧
      s'.arena.size = s.arena.size ∧ ∀ y, y ∉ b.ids → y ∉ g.ids → s'.look y = s.look y := by
  obtain ⟨listed_eq, taken_arena, taken_rich⟩ := takeChildren_ok taken
  obtain ⟨arena, rich⟩ := modifyArena_ok replaced
  rw [free.children_eq] at listed_eq
  subst listed_eq
  have size : s₁.arena.size = s.arena.size := by rw [taken_arena, Arena.size_takeChildren]
  obtain ⟨loose, -, others⟩ := stands_takeChildren free free_once taken_arena taken_rich
  have stands' : Stands s₁ p b := stands.congr fun y mem =>
    ⟨size ▸ stands.lt mem, others y fun inside => apart y inside mem⟩
  obtain ⟨placed, rest⟩ := stands_replaceWith stands' once mem loose (nodup_children free_once)
    (fun y mem => apart y (mem_ids_of_children mem)) arena rich
  refine ⟨placed, by rw [arena, Arena.size_replaceWith, size], fun y out out' => ?_⟩
  rw [rest y out fun listed => out' (mem_ids_of_children (mem_map_id listed)), others y out']

/-- Branches without a place get a new root. -/
theorem stands_gather {root : NodeId} (free : StandsAll s none bs) (once : (idsAll bs).Nodup)
    (apart : root ∉ idsAll bs) (range : root < s.arena.size)
    (bare : s.look root = (⟨.root, none, []⟩, []))
    (arena : s'.arena = (bs.map (·.id)).foldl (·.append root ·) s.arena) (rich : s'.rich = s.rich) :
    Stands s' none (.node root ⟨.root, [], false⟩ bs) ∧ s'.arena.size = s.arena.size ∧
      ∀ y, y ≠ root → y ∉ idsAll bs → s'.look y = s.look y := by
  have size : s'.arena.size = s.arena.size := by
    rw [arena, Arena.size_foldl _ fun a i => a.size_append root i]
  have looks : ∀ y, s'.look y = (if y = root then ⟨.root, none, bs.map (·.id)⟩
      else if y ∈ bs.map (·.id) ∧ y < s.arena.size then
        { s.arena.node y with parent := some root } else s.arena.node y, (s.look y).2) := by
    intro y
    have node : s.arena.node root = ⟨.root, none, []⟩ := congrArg (·.1) bare
    rw [look, look, rich, arena, s.arena.node_appendAll (nodup_map_id once) (fun i mem => ?_) range
      fun mem => apart (mem_map_id mem)]
    · split
      · next own => rw [own, Arena.children, node]; rfl
      · rfl
    · obtain ⟨c, here, rfl⟩ := List.mem_map.mp mem
      exact free.parent?_of_mem here
  refine ⟨stands_node.mpr ⟨⟨size ▸ range, ?_⟩, ?_⟩, size, fun y other out => ?_⟩
  · rw [looks, if_pos rfl, bare]
  · refine standsAll_reparent free once (Nat.le_of_eq size.symm) (fun y mem => ?_)
      fun y mem out => ?_
    · have other : y ≠ root := fun same => apart (same ▸ mem_map_id mem)
      rw [looks, if_neg other, if_pos ⟨mem, free.lt (mem_map_id mem)⟩]
    · have other : y ≠ root := fun same => apart (same ▸ mem)
      rw [looks, if_neg other, if_neg fun both => out both.1]
      rfl
  · rw [looks, if_neg other, if_neg fun both => out (mem_map_id both.1)]
    rfl

end
end Expansion
end Stencil
