import Mathlib.Data.List.Nodup
import Stencil.Proofs.Expansion.Rewriting
import Stencil.Proofs.Markup.Moves
/-!
Trees in a store. A branch is a tree whose nodes know their numbers, and a store holds it when each
of its nodes stands as the branch says. What is proved of branches needs no store; a store only has
to be looked at where it changes.
-/
namespace Stencil
open Markup

structure Stem where
  content : Content
  rich : Values
  /-- The node has come with an instance that is still being made. -/
  own : Bool

inductive Branch where
  | node (id : NodeId) (stem : Stem) (children : List Branch)

namespace Branch

def id : Branch → NodeId
  | node id _ _ => id

def stem : Branch → Stem
  | node _ stem _ => stem

def children : Branch → List Branch
  | node _ _ bs => bs

mutual

/-- The nodes in document order. -/
def ids : Branch → List NodeId
  | node id _ bs => id :: idsAll bs

def idsAll : List Branch → List NodeId
  | [] => []
  | b :: bs => b.ids ++ idsAll bs

end

mutual

/-- The branches of all nodes in document order. -/
def subs : Branch → List Branch
  | node id stem bs => node id stem bs :: subsAll bs

def subsAll : List Branch → List Branch
  | [] => []
  | b :: bs => b.subs ++ subsAll bs

end

mutual

def sketch : Branch → Sketch NodeId
  | node id stem bs =>
    .node stem.content stem.rich (if stem.own && stem.content.isSlot then some id else none)
      (sketches bs)

def sketches : List Branch → List (Sketch NodeId)
  | [] => []
  | b :: bs => b.sketch :: sketches bs

end

section
variable {b : Branch} {bs cs : List Branch} {x y : NodeId}

@[simp] theorem idsAll_append : idsAll (bs ++ cs) = idsAll bs ++ idsAll cs := by
  induction bs with
  | nil => rfl
  | cons b bs ih => rw [List.cons_append, idsAll, idsAll, ih, List.append_assoc]

@[simp] theorem idsAll_singleton : idsAll [b] = b.ids := by simp [idsAll]

@[simp] theorem subsAll_append : subsAll (bs ++ cs) = subsAll bs ++ subsAll cs := by
  induction bs with
  | nil => rfl
  | cons b bs ih => rw [List.cons_append, subsAll, subsAll, ih, List.append_assoc]

@[simp] theorem sketches_append : sketches (bs ++ cs) = sketches bs ++ sketches cs := by
  induction bs with
  | nil => rfl
  | cons b bs ih => rw [List.cons_append, sketches, sketches, ih, List.cons_append]

theorem ids_eq : b.ids = b.id :: idsAll b.children := by
  cases b
  rfl

theorem id_mem_ids : b.id ∈ b.ids := by
  rw [ids_eq]
  exact List.mem_cons_self

theorem mem_idsAll : x ∈ idsAll bs ↔ ∃ b ∈ bs, x ∈ b.ids := by
  induction bs with
  | nil => simp [idsAll]
  | cons b bs ih => simp [idsAll, ih]

theorem mem_subsAll {sub : Branch} : sub ∈ subsAll bs ↔ ∃ b ∈ bs, sub ∈ b.subs := by
  induction bs with
  | nil => simp [subsAll]
  | cons b bs ih => simp [subsAll, ih]

theorem self_mem_subs : b ∈ b.subs := by
  cases b
  exact List.mem_cons_self

mutual

theorem map_id_subs (b : Branch) : b.subs.map (·.id) = b.ids := by
  cases b with
  | node i stem bs => rw [subs, ids, List.map_cons, map_id_subsAll bs, id]

theorem map_id_subsAll (bs : List Branch) : (subsAll bs).map (·.id) = idsAll bs := by
  cases bs with
  | nil => rfl
  | cons b bs => rw [subsAll, idsAll, List.map_append, map_id_subs b, map_id_subsAll bs]

end

theorem mem_idsAll_iff_subs : x ∈ idsAll bs ↔ ∃ sub ∈ subsAll bs, sub.id = x := by
  rw [← map_id_subsAll, List.mem_map]

theorem id_mem_idsAll {sub : Branch} (mem : sub ∈ subsAll bs) : sub.id ∈ idsAll bs :=
  mem_idsAll_iff_subs.mpr ⟨sub, mem, rfl⟩

mutual

theorem subs_trans {sub deep : Branch} (b : Branch) (mem : sub ∈ b.subs) (inside : deep ∈ sub.subs) :
    deep ∈ b.subs := by
  cases b with
  | node i stem bs =>
    rw [subs, List.mem_cons] at mem
    rcases mem with rfl | mem
    · exact inside
    · exact List.mem_cons_of_mem _ (subsAll_trans bs mem inside)

theorem subsAll_trans {sub deep : Branch} (bs : List Branch) (mem : sub ∈ subsAll bs)
    (inside : deep ∈ sub.subs) : deep ∈ subsAll bs := by
  cases bs with
  | nil => cases mem
  | cons b bs =>
    rw [subsAll, List.mem_append] at mem ⊢
    exact mem.imp (subs_trans b · inside) (subsAll_trans bs · inside)

end

theorem subs_eq : b.subs = b :: subsAll b.children := by
  cases b
  rfl

/-- What stands in a part of a branch stands in the branch. -/
theorem ids_subset {sub : Branch} (mem : sub ∈ subsAll bs) (inside : x ∈ sub.ids) :
    x ∈ idsAll bs := by
  rw [← map_id_subs, List.mem_map] at inside
  obtain ⟨deep, inside, rfl⟩ := inside
  exact id_mem_idsAll (subsAll_trans bs mem inside)

/-- In a branch without repetition a number belongs to one node. -/
theorem eq_of_id_eq {sub sub' : Branch} (once : (idsAll bs).Nodup) (mem : sub ∈ subsAll bs)
    (mem' : sub' ∈ subsAll bs) (same : sub.id = sub'.id) : sub = sub' := by
  rw [← map_id_subsAll] at once
  exact List.inj_on_of_nodup_map once mem mem' same

mutual

theorem sublist_of_mem_subs {sub : Branch} (b : Branch) (mem : sub ∈ b.subs) :
    sub.subs.Sublist b.subs := by
  cases b with
  | node i stem bs =>
    rw [subs, List.mem_cons] at mem
    rcases mem with rfl | mem
    · exact List.Sublist.refl _
    · exact (sublist_of_mem_subsAll bs mem).cons _

theorem sublist_of_mem_subsAll {sub : Branch} (bs : List Branch) (mem : sub ∈ subsAll bs) :
    sub.subs.Sublist (subsAll bs) := by
  cases bs with
  | nil => cases mem
  | cons b bs =>
    rcases List.mem_append.mp mem with mem | mem
    · exact (sublist_of_mem_subs b mem).trans (List.sublist_append_left _ _)
    · exact (sublist_of_mem_subsAll bs mem).trans (List.sublist_append_right _ _)

end

theorem nodup_sub {sub : Branch} (once : (idsAll bs).Nodup) (mem : sub ∈ subsAll bs) :
    sub.ids.Nodup := by
  rw [← map_id_subs]
  rw [← map_id_subsAll] at once
  exact once.sublist ((sublist_of_mem_subsAll bs mem).map _)

theorem nodup_children (once : b.ids.Nodup) : (idsAll b.children).Nodup := by
  rw [ids_eq, List.nodup_cons] at once
  exact once.2

theorem mem_ids_of_children (mem : x ∈ idsAll b.children) : x ∈ b.ids := by
  rw [ids_eq]
  exact List.mem_cons_of_mem _ mem

theorem length_ids_pos : 0 < b.ids.length := by
  rw [ids_eq]
  simp

mutual

theorem length_sub_le {sub : Branch} (b : Branch) (mem : sub ∈ b.subs) :
    sub.ids.length ≤ b.ids.length := by
  cases b with
  | node i stem bs =>
    rw [subs, List.mem_cons] at mem
    rcases mem with rfl | mem
    · exact Nat.le_refl _
    · have below := length_subAll_le bs mem
      rw [ids, List.length_cons]
      omega

theorem length_subAll_le {sub : Branch} (bs : List Branch) (mem : sub ∈ subsAll bs) :
    sub.ids.length ≤ (idsAll bs).length := by
  cases bs with
  | nil => cases mem
  | cons b bs =>
    rw [idsAll, List.length_append]
    rcases List.mem_append.mp mem with mem | mem
    · have below := length_sub_le b mem
      omega
    · have below := length_subAll_le bs mem
      omega

end
end

/-! ### Putting branches into the place of a node -/

mutual

/-- The branches `new` take the place of the node `x`. -/
def splice (x : NodeId) (new : List Branch) : Branch → List Branch
  | node id stem bs => if id = x then new else [node id stem (spliceAll x new bs)]

def spliceAll (x : NodeId) (new : List Branch) : List Branch → List Branch
  | [] => []
  | b :: bs => splice x new b ++ spliceAll x new bs

end

mutual

/-- The nodes that neither are `x` nor stand below it. -/
def idsBut (x : NodeId) : Branch → List NodeId
  | node id _ bs => if id = x then [] else id :: idsButAll x bs

def idsButAll (x : NodeId) : List Branch → List NodeId
  | [] => []
  | b :: bs => idsBut x b ++ idsButAll x bs

end

section
variable {x y : NodeId} {new : List Branch}

@[simp] theorem spliceAll_append (bs cs : List Branch) :
    spliceAll x new (bs ++ cs) = spliceAll x new bs ++ spliceAll x new cs := by
  induction bs with
  | nil => rfl
  | cons b bs ih => rw [List.cons_append, spliceAll, spliceAll, ih, List.append_assoc]

mutual

theorem splice_of_not_mem (b : Branch) (absent : x ∉ b.ids) : splice x new b = [b] := by
  cases b with
  | node i stem bs =>
    rw [ids, List.mem_cons, not_or] at absent
    rw [splice, if_neg (Ne.symm absent.1), spliceAll_of_not_mem bs absent.2]

theorem spliceAll_of_not_mem (bs : List Branch) (absent : x ∉ idsAll bs) :
    spliceAll x new bs = bs := by
  cases bs with
  | nil => rfl
  | cons b bs =>
    rw [idsAll, List.mem_append, not_or] at absent
    rw [spliceAll, splice_of_not_mem b absent.1, spliceAll_of_not_mem bs absent.2]
    rfl

end

mutual

theorem mem_ids_of_idsBut (b : Branch) (mem : y ∈ idsBut x b) : y ∈ b.ids := by
  cases b with
  | node i stem bs =>
    rw [idsBut] at mem
    split at mem
    · cases mem
    · rw [List.mem_cons] at mem
      rw [ids, List.mem_cons]
      exact mem.imp_right (mem_idsAll_of_idsButAll bs)

theorem mem_idsAll_of_idsButAll (bs : List Branch) (mem : y ∈ idsButAll x bs) :
    y ∈ idsAll bs := by
  cases bs with
  | nil => exact mem
  | cons b bs =>
    rw [idsButAll, List.mem_append] at mem
    rw [idsAll, List.mem_append]
    exact mem.imp (mem_ids_of_idsBut b) (mem_idsAll_of_idsButAll bs)

end

mutual

theorem not_mem_idsBut (b : Branch) : x ∉ idsBut x b := by
  cases b with
  | node i stem bs =>
    rw [idsBut]
    split
    · exact List.not_mem_nil
    · next other =>
      rw [List.mem_cons, not_or]
      exact ⟨Ne.symm other, not_mem_idsButAll bs⟩

theorem not_mem_idsButAll (bs : List Branch) : x ∉ idsButAll x bs := by
  cases bs with
  | nil => exact List.not_mem_nil
  | cons b bs =>
    rw [idsButAll, List.mem_append, not_or]
    exact ⟨not_mem_idsBut b, not_mem_idsButAll bs⟩

end

mutual

theorem mem_ids_splice (b : Branch) (mem : y ∈ idsAll (splice x new b)) :
    y ∈ idsBut x b ∨ y ∈ idsAll new := by
  cases b with
  | node i stem bs =>
    rw [splice] at mem
    rw [idsBut]
    split at mem
    · exact .inr mem
    · next other =>
      rw [idsAll_singleton, ids, List.mem_cons] at mem
      rw [if_neg other, List.mem_cons, or_assoc]
      exact mem.imp_right (mem_idsAll_splice bs)

theorem mem_idsAll_splice (bs : List Branch) (mem : y ∈ idsAll (spliceAll x new bs)) :
    y ∈ idsButAll x bs ∨ y ∈ idsAll new := by
  cases bs with
  | nil => cases mem
  | cons b bs =>
    rw [spliceAll, idsAll_append, List.mem_append] at mem
    rw [idsButAll, List.mem_append]
    rcases mem with mem | mem
    · rcases mem_ids_splice b mem with mem | mem
      · exact .inl (.inl mem)
      · exact .inr mem
    · rcases mem_idsAll_splice bs mem with mem | mem
      · exact .inl (.inr mem)
      · exact .inr mem

end

mutual

theorem mem_splice_of_idsBut (b : Branch) (mem : y ∈ idsBut x b) :
    y ∈ idsAll (splice x new b) := by
  cases b with
  | node i stem bs =>
    rw [idsBut] at mem
    rw [splice]
    split at mem
    · cases mem
    · next other =>
      rw [if_neg other, idsAll_singleton, ids, List.mem_cons]
      exact (List.mem_cons.mp mem).imp_right (mem_spliceAll_of_idsButAll bs)

theorem mem_spliceAll_of_idsButAll (bs : List Branch) (mem : y ∈ idsButAll x bs) :
    y ∈ idsAll (spliceAll x new bs) := by
  cases bs with
  | nil => cases mem
  | cons b bs =>
    rw [spliceAll, idsAll_append, List.mem_append]
    exact (List.mem_append.mp mem).imp (mem_splice_of_idsBut b) (mem_spliceAll_of_idsButAll bs)

end

mutual

theorem mem_splice_of_new (b : Branch) (here : x ∈ b.ids) (mem : y ∈ idsAll new) :
    y ∈ idsAll (splice x new b) := by
  cases b with
  | node i stem bs =>
    rw [splice]
    split
    · exact mem
    · next other =>
      rw [idsAll_singleton, ids, List.mem_cons]
      rcases List.mem_cons.mp here with same | here
      · exact absurd same.symm other
      · exact .inr (mem_spliceAll_of_new bs here mem)

theorem mem_spliceAll_of_new (bs : List Branch) (here : x ∈ idsAll bs) (mem : y ∈ idsAll new) :
    y ∈ idsAll (spliceAll x new bs) := by
  cases bs with
  | nil => cases here
  | cons b bs =>
    rw [spliceAll, idsAll_append, List.mem_append]
    exact (List.mem_append.mp here).imp (mem_splice_of_new b · mem) (mem_spliceAll_of_new bs · mem)

end

theorem mem_idsBut_of_not_mem (b : Branch) (absent : x ∉ b.ids) (mem : y ∈ b.ids) :
    y ∈ idsBut x b := by
  have kept : y ∈ idsAll (splice x [] b) → y ∈ idsBut x b ∨ y ∈ idsAll [] := mem_ids_splice b
  rw [splice_of_not_mem b absent, idsAll_singleton] at kept
  exact (kept mem).resolve_right List.not_mem_nil

theorem mem_idsButAll_of_not_mem (bs : List Branch) (absent : x ∉ idsAll bs)
    (mem : y ∈ idsAll bs) : y ∈ idsButAll x bs := by
  have kept : y ∈ idsAll (spliceAll x [] bs) → y ∈ idsButAll x bs ∨ y ∈ idsAll [] :=
    mem_idsAll_splice bs
  rw [spliceAll_of_not_mem bs absent] at kept
  exact (kept mem).resolve_right List.not_mem_nil

mutual

theorem idsBut_apart {sub : Branch} (b : Branch) (once : b.ids.Nodup) (part : sub ∈ b.subs)
    (mem : y ∈ idsBut sub.id b) : y ∉ sub.ids := by
  cases b with
  | node i stem bs =>
    rw [ids, List.nodup_cons] at once
    rw [idsBut] at mem
    split at mem
    · cases mem
    · next other =>
      rw [subs, List.mem_cons] at part
      rcases part with rfl | part
      · exact absurd rfl other
      · rcases List.mem_cons.mp mem with rfl | mem
        · exact fun inside => once.1 (ids_subset part inside)
        · exact idsButAll_apart bs once.2 part mem

theorem idsButAll_apart {sub : Branch} (bs : List Branch) (once : (idsAll bs).Nodup)
    (part : sub ∈ subsAll bs) (mem : y ∈ idsButAll sub.id bs) : y ∉ sub.ids := by
  cases bs with
  | nil => cases part
  | cons b bs =>
    rw [idsAll, List.nodup_append] at once
    obtain ⟨head, tail, disjoint⟩ := once
    intro inside
    rcases List.mem_append.mp part with part | part
    · have within : y ∈ b.ids := by
        rw [← idsAll_singleton]
        exact ids_subset (mem_subsAll.mpr ⟨b, List.mem_singleton_self b, part⟩) inside
      rcases List.mem_append.mp mem with mem | mem
      · exact idsBut_apart b head part mem inside
      · exact disjoint y within y (mem_idsAll_of_idsButAll bs mem) rfl
    · rcases List.mem_append.mp mem with mem | mem
      · exact disjoint y (mem_ids_of_idsBut b mem) y (ids_subset part inside) rfl
      · exact idsButAll_apart bs tail part mem inside

end

mutual

theorem nodup_splice (b : Branch) (once : b.ids.Nodup) (new_once : (idsAll new).Nodup)
    (apart : ∀ y ∈ idsAll new, y ∉ idsBut x b) : (idsAll (splice x new b)).Nodup := by
  cases b with
  | node i stem bs =>
    rw [splice]
    rw [idsBut] at apart
    split
    · exact new_once
    · next other =>
      rw [if_neg other] at apart
      rw [ids, List.nodup_cons] at once
      rw [idsAll_singleton, ids, List.nodup_cons]
      refine ⟨fun mem => ?_, nodup_spliceAll bs once.2 new_once fun y mem inside =>
        apart y mem (List.mem_cons_of_mem _ inside)⟩
      rcases mem_idsAll_splice bs mem with mem | mem
      · exact once.1 (mem_idsAll_of_idsButAll bs mem)
      · exact apart i mem List.mem_cons_self

theorem nodup_spliceAll (bs : List Branch) (once : (idsAll bs).Nodup)
    (new_once : (idsAll new).Nodup) (apart : ∀ y ∈ idsAll new, y ∉ idsButAll x bs) :
    (idsAll (spliceAll x new bs)).Nodup := by
  cases bs with
  | nil => exact List.nodup_nil
  | cons b bs =>
    rw [idsAll, List.nodup_append] at once
    obtain ⟨head, tail, disjoint⟩ := once
    rw [idsButAll] at apart
    have apart_head : ∀ y ∈ idsAll new, y ∉ idsBut x b := fun y mem inside =>
      apart y mem (List.mem_append_left _ inside)
    have apart_tail : ∀ y ∈ idsAll new, y ∉ idsButAll x bs := fun y mem inside =>
      apart y mem (List.mem_append_right _ inside)
    rw [spliceAll, idsAll_append, List.nodup_append]
    refine ⟨nodup_splice b head new_once apart_head, nodup_spliceAll bs tail new_once apart_tail,
      fun y mem z mem' same => ?_⟩
    subst same
    -- the node is in one of the two, so only one of them changes
    by_cases here : x ∈ b.ids
    · have absent : x ∉ idsAll bs := fun there => disjoint x here x there rfl
      rw [spliceAll_of_not_mem bs absent] at mem'
      rcases mem_ids_splice b mem with mem | mem
      · exact disjoint y (mem_ids_of_idsBut b mem) y mem' rfl
      · exact apart_tail y mem (mem_idsButAll_of_not_mem bs absent mem')
    · rw [splice_of_not_mem b here, idsAll_singleton] at mem
      rcases mem_idsAll_splice bs mem' with mem' | mem'
      · exact disjoint y mem y (mem_idsAll_of_idsButAll bs mem') rfl
      · exact apart_head y mem' (mem_idsBut_of_not_mem b here mem)

end

mutual

theorem mem_subs_splice {sub : Branch} (b : Branch) (mem : sub ∈ subsAll (splice x new b)) :
    (∃ old ∈ b.subs, old.id = sub.id ∧ old.stem = sub.stem ∧
      sub.children = spliceAll x new old.children) ∨ sub ∈ subsAll new := by
  cases b with
  | node i stem bs =>
    rw [splice] at mem
    split at mem
    · exact .inr mem
    · rw [subsAll, subsAll, List.append_nil, subs, List.mem_cons] at mem
      rcases mem with rfl | mem
      · exact .inl ⟨_, self_mem_subs, rfl, rfl, rfl⟩
      · refine (mem_subsAll_splice bs mem).imp_left fun ⟨old, here, same⟩ => ⟨old, ?_, same⟩
        rw [subs]
        exact List.mem_cons_of_mem _ here

theorem mem_subsAll_splice {sub : Branch} (bs : List Branch)
    (mem : sub ∈ subsAll (spliceAll x new bs)) :
    (∃ old ∈ subsAll bs, old.id = sub.id ∧ old.stem = sub.stem ∧
      sub.children = spliceAll x new old.children) ∨ sub ∈ subsAll new := by
  cases bs with
  | nil => cases mem
  | cons b bs =>
    rw [spliceAll, subsAll_append, List.mem_append] at mem
    rw [subsAll]
    rcases mem with mem | mem
    · exact (mem_subs_splice b mem).imp_left fun ⟨old, here, same⟩ =>
        ⟨old, List.mem_append_left _ here, same⟩
    · exact (mem_subsAll_splice bs mem).imp_left fun ⟨old, here, same⟩ =>
        ⟨old, List.mem_append_right _ here, same⟩

end

mutual

theorem mem_subsAll_splice_of_new {sub : Branch} (b : Branch) (here : x ∈ b.ids)
    (mem : sub ∈ subsAll new) : sub ∈ subsAll (splice x new b) := by
  cases b with
  | node i stem bs =>
    rw [splice]
    split
    · exact mem
    · next other =>
      have inside : x ∈ idsAll bs :=
        (List.mem_cons.mp here).resolve_left fun same => other same.symm
      rw [subsAll, subsAll, List.append_nil, subs]
      exact List.mem_cons_of_mem _ (mem_subsAll_spliceAll_of_new bs inside mem)

theorem mem_subsAll_spliceAll_of_new {sub : Branch} (bs : List Branch) (here : x ∈ idsAll bs)
    (mem : sub ∈ subsAll new) : sub ∈ subsAll (spliceAll x new bs) := by
  cases bs with
  | nil => cases here
  | cons b bs =>
    rw [spliceAll, subsAll_append, List.mem_append]
    exact (List.mem_append.mp here).imp (mem_subsAll_splice_of_new b · mem)
      (mem_subsAll_spliceAll_of_new bs · mem)

end

/-! A node that loses what stands below it. -/

theorem nodup_emptied (stem : Stem) (bs : List Branch) (once : (idsAll bs).Nodup) :
    (idsAll (spliceAll x [node x stem []] bs)).Nodup := by
  refine nodup_spliceAll bs once (by simp [ids, idsAll]) fun y mem => ?_
  rw [idsAll_singleton, ids, idsAll, List.mem_singleton] at mem
  rw [mem]
  exact not_mem_idsButAll bs

theorem mem_ids_emptied {sub : Branch} {stem : Stem} {bs : List Branch} (once : (idsAll bs).Nodup)
    (part : sub ∈ subsAll bs) (mem : y ∈ idsAll (spliceAll sub.id [node sub.id stem []] bs)) :
    y ∈ idsAll bs ∧ y ∉ idsAll sub.children := by
  rcases mem_idsAll_splice bs mem with mem | mem
  · exact ⟨mem_idsAll_of_idsButAll bs mem, fun deep =>
      idsButAll_apart bs once part mem (mem_ids_of_children deep)⟩
  · rw [idsAll_singleton, ids, idsAll, List.mem_singleton] at mem
    subst mem
    refine ⟨id_mem_idsAll part, fun deep => ?_⟩
    have own := nodup_sub once part
    rw [ids_eq, List.nodup_cons] at own
    exact own.1 deep

mutual

/-- Of two splices at a node that the first one leaves in its place, the second one counts. -/
theorem splice_splice (stem : Stem) (cs : List Branch) (b : Branch) :
    spliceAll x new (splice x [node x stem cs] b) = splice x new b := by
  cases b with
  | node i stem' bs =>
    rw [splice, splice]
    split
    · simp [spliceAll, splice]
    · next other => simp [spliceAll, splice, other, spliceAll_spliceAll stem cs bs]

theorem spliceAll_spliceAll (stem : Stem) (cs : List Branch) (bs : List Branch) :
    spliceAll x new (spliceAll x [node x stem cs] bs) = spliceAll x new bs := by
  cases bs with
  | nil => rfl
  | cons b bs =>
    rw [spliceAll, spliceAll, spliceAll_append, splice_splice stem cs b,
      spliceAll_spliceAll stem cs bs]

end

theorem map_id_spliceAll (bs : List Branch) :
    (spliceAll x new bs).map (·.id) = Arena.swap x (new.map (·.id)) (bs.map (·.id)) := by
  induction bs with
  | nil => rfl
  | cons b bs ih =>
    cases b with
    | node i stem cs =>
      rw [spliceAll, List.map_append, ih, splice, List.map_cons, Arena.swap, Arena.swap,
        List.flatMap_cons, id]
      split
      · rfl
      · rfl

end

/-! ### The outermost nodes of a class -/

mutual

/-- The branches of the class that stand in no other one of it. -/
def front (cover : Content → Bool) : Branch → List Branch
  | node id stem bs =>
    if cover stem.content then [node id stem bs] else frontAll cover bs

def frontAll (cover : Content → Bool) : List Branch → List Branch
  | [] => []
  | b :: bs => b.front cover ++ frontAll cover bs

end

section
variable {cover : Content → Bool} {x : NodeId} {new : List Branch}

mutual

theorem mem_subs_of_front {sub : Branch} (b : Branch) (mem : sub ∈ b.front cover) :
    sub ∈ b.subs ∧ cover sub.stem.content := by
  cases b with
  | node i stem bs =>
    rw [front] at mem
    rw [subs]
    split at mem
    · next covered =>
      rw [List.mem_singleton] at mem
      rw [mem]
      exact ⟨List.mem_cons_self, covered⟩
    · obtain ⟨inside, covered⟩ := mem_subsAll_of_front bs mem
      exact ⟨List.mem_cons_of_mem _ inside, covered⟩

theorem mem_subsAll_of_front {sub : Branch} (bs : List Branch) (mem : sub ∈ frontAll cover bs) :
    sub ∈ subsAll bs ∧ cover sub.stem.content := by
  cases bs with
  | nil => cases mem
  | cons b bs =>
    rw [frontAll, List.mem_append] at mem
    rw [subsAll, List.mem_append]
    rcases mem with mem | mem
    · exact (mem_subs_of_front b mem).imp_left .inl
    · exact (mem_subsAll_of_front bs mem).imp_left .inr

end

@[simp] theorem frontAll_append (bs cs : List Branch) :
    frontAll cover (bs ++ cs) = frontAll cover bs ++ frontAll cover cs := by
  induction bs with
  | nil => rfl
  | cons b bs ih => rw [List.cons_append, frontAll, frontAll, ih, List.append_assoc]

@[simp] theorem frontAll_singleton (b : Branch) : frontAll cover [b] = b.front cover := by
  simp [frontAll]

theorem id_mem_of_front {sub : Branch} {bs : List Branch} (mem : sub ∈ frontAll cover bs) :
    sub.id ∈ idsAll bs :=
  id_mem_idsAll (mem_subsAll_of_front bs mem).1

mutual

theorem front_sublist (b : Branch) : (b.front cover).Sublist b.subs := by
  cases b with
  | node i stem bs =>
    rw [front, subs]
    split
    · exact List.Sublist.cons_cons _ (List.nil_sublist _)
    · exact (frontAll_sublist bs).cons _

theorem frontAll_sublist (bs : List Branch) : (frontAll cover bs).Sublist (subsAll bs) := by
  cases bs with
  | nil => exact List.Sublist.refl _
  | cons b bs => exact (front_sublist b).append (frontAll_sublist bs)

end

theorem nodup_front {bs : List Branch} (once : (idsAll bs).Nodup) :
    ((frontAll cover bs).map (·.id)).Nodup := by
  rw [← map_id_subsAll] at once
  exact once.sublist ((frontAll_sublist bs).map _)

mutual

/-- A node of the class stands in an outermost one. -/
theorem exists_front {sub : Branch} (b : Branch) (mem : sub ∈ b.subs)
    (covered : cover sub.stem.content) : ∃ top ∈ b.front cover, sub ∈ top.subs := by
  cases b with
  | node i stem bs =>
    rw [front]
    split
    · exact ⟨_, List.mem_singleton_self _, mem⟩
    · next uncovered =>
      rw [subs, List.mem_cons] at mem
      rcases mem with rfl | mem
      · exact absurd covered uncovered
      · exact exists_frontAll bs mem covered

theorem exists_frontAll {sub : Branch} (bs : List Branch) (mem : sub ∈ subsAll bs)
    (covered : cover sub.stem.content) : ∃ top ∈ frontAll cover bs, sub ∈ top.subs := by
  cases bs with
  | nil => cases mem
  | cons b bs =>
    rw [subsAll, List.mem_append] at mem
    rcases mem with mem | mem
    · obtain ⟨top, here, inside⟩ := exists_front b mem covered
      exact ⟨top, List.mem_append_left _ here, inside⟩
    · obtain ⟨top, here, inside⟩ := exists_frontAll bs mem covered
      exact ⟨top, List.mem_append_right _ here, inside⟩

end

/-- The node stands in nothing of the class but itself. -/
def Exposed (cover : Content → Bool) (x : NodeId) (bs : List Branch) : Prop :=
  ∃ sub ∈ frontAll cover bs, sub.id = x

theorem Exposed.mem {bs : List Branch} (exposed : Exposed cover x bs) : x ∈ idsAll bs := by
  obtain ⟨sub, mem, rfl⟩ := exposed
  exact id_mem_of_front mem

/-- What a splice at an exposed node keeps. A node of the class is left as it is, unless it is the
one that is replaced. -/
structure Splicing (cover : Content → Bool) (x : NodeId) (new : List Branch)
    (P : List Branch → List Branch → Prop) : Prop where
  nil : P [] []
  target : ∀ stem bs, cover stem.content → P [node x stem bs] new
  other : ∀ b, x ∉ b.ids → P [b] [b]
  inner : ∀ i stem bs cs, cover stem.content = false → P bs cs →
    P [node i stem bs] [node i stem cs]
  append : ∀ bs bs' cs cs', P bs bs' → P cs cs' → P (bs ++ cs) (bs' ++ cs')

section
variable {P : List Branch → List Branch → Prop} (step : Splicing cover x new P)
include step

mutual

theorem Splicing.splice (b : Branch) (once : b.ids.Nodup) (exposed : x ∈ b.ids → Exposed cover x [b]) :
    P [b] (splice x new b) := by
  by_cases here : x ∈ b.ids
  · obtain ⟨sub, mem, target⟩ := exposed here
    rw [frontAll_singleton] at mem
    cases b with
    | node i stem bs =>
      rw [front] at mem
      rw [ids, List.nodup_cons] at once
      rw [Branch.splice]
      split at mem
      · next covered =>
        rw [List.mem_singleton] at mem
        have own : i = x := by rw [← target, mem, Branch.id]
        rw [if_pos own, own]
        exact step.target stem bs covered
      · next uncovered =>
        have inside := id_mem_of_front mem
        have apart : i ≠ x := by
          rintro rfl
          exact once.1 (target ▸ inside)
        rw [if_neg apart]
        exact step.inner i stem bs _ (by simpa using uncovered)
          (Splicing.spliceAll bs once.2 fun _ => ⟨sub, mem, target⟩)
  · rw [splice_of_not_mem b here]
    exact step.other b here

theorem Splicing.spliceAll (bs : List Branch) (once : (idsAll bs).Nodup)
    (exposed : x ∈ idsAll bs → Exposed cover x bs) : P bs (spliceAll x new bs) := by
  cases bs with
  | nil => exact step.nil
  | cons b bs =>
    rw [idsAll, List.nodup_append] at once
    obtain ⟨head, tail, disjoint⟩ := once
    rw [idsAll, List.mem_append] at exposed
    rw [Branch.spliceAll]
    refine step.append [b] _ bs _ (Splicing.splice b head fun here => ?_)
      (Splicing.spliceAll bs tail fun there => ?_)
    · obtain ⟨sub, mem, rfl⟩ := exposed (.inl here)
      rw [frontAll, List.mem_append] at mem
      rcases mem with mem | mem
      · exact ⟨sub, by rwa [frontAll_singleton], rfl⟩
      · exact absurd rfl (disjoint _ here _ (id_mem_of_front mem))
    · obtain ⟨sub, mem, rfl⟩ := exposed (.inr there)
      rw [frontAll, List.mem_append] at mem
      rcases mem with mem | mem
      · rw [← frontAll_singleton] at mem
        have inside := id_mem_of_front mem
        rw [idsAll_singleton] at inside
        exact absurd rfl (disjoint _ inside _ there)
      · exact ⟨sub, mem, rfl⟩

end
end

/-- The outermost nodes after a splice. -/
theorem mem_front_splice {bs : List Branch} (once : (idsAll bs).Nodup) (exposed : Exposed cover x bs)
    {sub : Branch} (mem : sub ∈ frontAll cover (spliceAll x new bs)) :
    (sub ∈ frontAll cover bs ∧ sub.id ≠ x) ∨ sub ∈ frontAll cover new := by
  have step : Splicing cover x new fun bs cs => ∀ sub ∈ frontAll cover cs,
      (sub ∈ frontAll cover bs ∧ sub.id ≠ x) ∨ sub ∈ frontAll cover new := by
    refine ⟨fun _ mem => (nomatch mem), fun _ _ _ sub mem => .inr mem, fun b absent sub mem => ?_,
      fun i stem bs cs uncovered ih sub mem => ?_, fun bs bs' cs cs' ih ih' sub mem => ?_⟩
    · refine .inl ⟨mem, fun same => absent ?_⟩
      have inside := id_mem_of_front mem
      rwa [same, idsAll_singleton] at inside
    · simp only [frontAll_singleton, front, uncovered, Bool.false_eq_true, if_false] at mem ⊢
      exact ih sub mem
    · rw [frontAll_append, List.mem_append] at mem
      rw [frontAll_append, List.mem_append]
      rcases mem with mem | mem
      · exact (ih sub mem).imp_left fun ⟨here, apart⟩ => ⟨.inl here, apart⟩
      · exact (ih' sub mem).imp_left fun ⟨here, apart⟩ => ⟨.inr here, apart⟩
  exact step.spliceAll bs once (fun _ => exposed) sub mem

/-- Other outermost nodes stay. -/
theorem mem_front_splice_of_ne {bs : List Branch} (once : (idsAll bs).Nodup)
    (exposed : Exposed cover x bs) {sub : Branch} (mem : sub ∈ frontAll cover bs)
    (apart : sub.id ≠ x) : sub ∈ frontAll cover (spliceAll x new bs) := by
  have step : Splicing cover x new fun bs cs => ∀ sub ∈ frontAll cover bs, sub.id ≠ x →
      sub ∈ frontAll cover cs := by
    refine ⟨fun _ mem => (nomatch mem), fun stem bs covered sub mem apart => ?_,
      fun b absent sub mem _ => mem, fun i stem bs cs uncovered ih sub mem apart => ?_,
      fun bs bs' cs cs' ih ih' sub mem apart => ?_⟩
    · simp only [frontAll_singleton, front, covered, if_true, List.mem_singleton] at mem
      rw [mem] at apart
      exact absurd rfl apart
    · simp only [frontAll_singleton, front, uncovered, Bool.false_eq_true, if_false] at mem ⊢
      exact ih sub mem apart
    · rw [frontAll_append, List.mem_append] at mem ⊢
      exact mem.imp (ih sub · apart) (ih' sub · apart)
  exact step.spliceAll bs once (fun _ => exposed) sub mem apart

mutual

/-- With fewer nodes in the class, the outermost ones are found in the old ones. -/
theorem front_of_le {less : Content → Bool} (le : ∀ c, less c → cover c) (b : Branch) :
    b.front less = (b.front cover).flatMap (front less) := by
  cases b with
  | node i stem bs =>
    rw [front, front]
    split
    · next covered =>
      rw [if_pos (le _ covered)]
      simp [front, covered]
    · next uncovered =>
      split
      · simp [front, uncovered]
      · exact frontAll_of_le le bs

theorem frontAll_of_le {less : Content → Bool} (le : ∀ c, less c → cover c) (bs : List Branch) :
    frontAll less bs = (frontAll cover bs).flatMap (front less) := by
  cases bs with
  | nil => rfl
  | cons b bs =>
    rw [frontAll, frontAll, List.flatMap_append, front_of_le le b, frontAll_of_le le bs]

end

end

/-! ### Slots -/

/-- A slot: its number, whether it belongs to an instance, and what stands in it. -/
abbrev Slot := NodeId × Bool × List Branch

def slots (bs : List Branch) : List Slot :=
  ((subsAll bs).filter (·.stem.content.isSlot)).map fun b => (b.id, b.stem.own, b.children)

theorem mem_slots {bs : List Branch} {slot : Slot} :
    slot ∈ slots bs ↔ ∃ sub ∈ subsAll bs, sub.stem.content.isSlot ∧
      (sub.id, sub.stem.own, sub.children) = slot := by
  simp only [slots, List.mem_map, List.mem_filter, and_assoc]

@[simp] theorem slots_append (bs cs : List Branch) : slots (bs ++ cs) = slots bs ++ slots cs := by
  simp [slots]

theorem id_mem_of_slot {bs : List Branch} {slot : Slot} (mem : slot ∈ slots bs) :
    slot.1 ∈ idsAll bs := by
  obtain ⟨sub, here, -, rfl⟩ := mem_slots.mp mem
  exact id_mem_idsAll here

theorem ids_subset_of_slot {bs : List Branch} {slot : Slot} (mem : slot ∈ slots bs) {x : NodeId}
    (inside : x ∈ idsAll slot.2.2) : x ∈ idsAll bs := by
  obtain ⟨sub, here, -, rfl⟩ := mem_slots.mp mem
  refine ids_subset here ?_
  rw [ids_eq]
  exact List.mem_cons_of_mem _ inside

theorem slots_node {i : NodeId} {stem : Stem} (plain : stem.content.isSlot = false)
    (bs : List Branch) : slots [node i stem bs] = slots bs := by
  simp [slots, subsAll, subs, Branch.stem, plain]

/-- A splice that is exposed among slots changes no slot. -/
theorem slots_splice {cover : Content → Bool} {x : NodeId} {new bs : List Branch}
    (covers : ∀ c : Content, c.isSlot → cover c) (once : (idsAll bs).Nodup)
    (exposed : Exposed cover x bs) {slot : Slot} (mem : slot ∈ slots (spliceAll x new bs)) :
    (slot ∈ slots bs ∧ slot.1 ≠ x) ∨ slot ∈ slots new := by
  have step : Splicing cover x new fun bs cs => ∀ slot ∈ slots cs,
      (slot ∈ slots bs ∧ slot.1 ≠ x) ∨ slot ∈ slots new := by
    refine ⟨fun _ mem => (nomatch mem), fun _ _ _ slot mem => .inr mem, fun b absent slot mem => ?_,
      fun i stem bs cs uncovered ih slot mem => ?_, fun bs bs' cs cs' ih ih' slot mem => ?_⟩
    · refine .inl ⟨mem, fun same => absent ?_⟩
      have inside := id_mem_of_slot mem
      rwa [same, idsAll_singleton] at inside
    · have plain : stem.content.isSlot = false := by
        cases slot : stem.content.isSlot with
        | false => rfl
        | true => rw [covers _ slot] at uncovered; cases uncovered
      rw [slots_node plain] at mem ⊢
      exact ih slot mem
    · rw [slots_append, List.mem_append] at mem
      rw [slots_append, List.mem_append]
      rcases mem with mem | mem
      · exact (ih slot mem).imp_left fun ⟨here, apart⟩ => ⟨.inl here, apart⟩
      · exact (ih' slot mem).imp_left fun ⟨here, apart⟩ => ⟨.inr here, apart⟩
  exact step.spliceAll bs once (fun _ => exposed) slot mem

end Branch
end Stencil
