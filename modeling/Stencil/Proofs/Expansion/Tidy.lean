import Stencil.Proofs.Expansion.Reading
import Stencil.Proofs.Expansion.Run
/-!
What no step of expansion breaks: a node is always among the children of its parent, and rich values
belong to nodes that there are. So whatever stands below a branch is a node of the branch.
-/
namespace Stencil.Markup.Arena

/-- A node is a child of its parent. -/
def Linked (a : Arena) : Prop := ∀ x p, a.parent? x = some p → x ∈ a.children p

variable {a : Arena}

theorem Linked.lt (linked : a.Linked) {x p : NodeId} (parent : a.parent? x = some p) :
    p < a.size :=
  a.lt_size_of_mem_children (linked x p parent)

theorem linked_of_same {a' : Arena} (parents : ∀ j, a'.parent? j = a.parent? j)
    (children : ∀ j, a'.children j = a.children j) (linked : a.Linked) : a'.Linked := by
  intro x p parent
  rw [parents] at parent
  rw [children]
  exact linked x p parent

theorem linked_setContent (linked : a.Linked) (id : NodeId) (c : Content) :
    (a.setContent id c).Linked := by
  refine linked_of_same (fun j => ?_) (fun j => ?_) linked
  · rw [parent?, node_setContent]
    split
    · rfl
    · rfl
  · rw [children, node_setContent]
    split
    · rfl
    · rfl

theorem linked_modifyElement (linked : a.Linked) (id : NodeId) (f : Element → Element) :
    (a.modifyElement id f).Linked := by
  rw [modifyElement]
  split
  · exact linked_setContent linked id _
  · exact linked

theorem linked_detach (linked : a.Linked) (id : NodeId) : (a.detach id).Linked := by
  cases top : a.parent? id with
  | none =>
    rw [a.detach_of_free top]
    exact linked
  | some q =>
    intro x p parent
    have other : x ≠ id := by
      rintro rfl
      rw [parent?, node_detach, top] at parent
      simp only [if_true] at parent
      split at parent
      · cases parent
      · cases parent
    have before : a.parent? x = some p := by
      rw [← parent, parent?, parent?, node_detach, top]
      simp only [other, if_false]
      split
      · rfl
      · rfl
    have child := linked x p before
    rw [children, node_detach, top]
    dsimp only
    by_cases own : p = q
    · subst own
      rw [if_pos rfl]
      exact List.mem_filter.mpr ⟨child, by simpa using other⟩
    · rw [if_neg own]
      split
      · exact child
      · exact child

theorem linked_foldl {α : Type} {f : Arena → α → Arena} (keeps : ∀ a x, Linked a → Linked (f a x))
    (linked : a.Linked) (xs : List α) : (xs.foldl f a).Linked := by
  induction xs generalizing a with
  | nil => exact linked
  | cons x xs ih => exact ih (keeps a x linked)

/-- Nodes are put under a parent, which has them among its children from then on. -/
theorem linked_setParents (linked : a.Linked) {q : NodeId} {ids now : List NodeId} (inside : q < a.size)
    (more : ∀ i ∈ ids, i ∈ now) (old : ∀ i ∈ a.children q, i ∈ now) :
    (ids.foldl (fun a i => a.setParent i (some q)) (a.setChildren q now)).Linked := by
  intro x p parent
  have lists : ∀ j, (ids.foldl (fun a i => a.setParent i (some q)) (a.setChildren q now)).children j =
      if j = q then now else a.children j := by
    intro j
    rw [children, node_setParents, node_setChildren]
    by_cases own : j = q
    · subst own
      simp only [inside, and_self, if_true]
      split
      · rfl
      · rfl
    · simp only [own, false_and, if_false]
      split
      · rfl
      · rfl
  rw [lists]
  rw [parent?, node_setParents, size_setChildren] at parent
  by_cases mem : x ∈ ids ∧ x < a.size
  · rw [if_pos mem] at parent
    cases parent
    rw [if_pos rfl]
    exact more x mem.1
  · rw [if_neg mem, node_setChildren] at parent
    have before : a.parent? x = some p := by
      rw [← parent, parent?]
      split
      · rfl
      · rfl
    have child := linked x p before
    by_cases own : p = q
    · subst own
      rw [if_pos rfl]
      exact old x child
    · rwa [if_neg own]

theorem linked_append (linked : a.Linked) {parent : NodeId} (inside : parent < a.size)
    (child : NodeId) : (a.append parent child).Linked := by
  have range : parent < (a.detach child).size := by rwa [size_detach]
  have new : ∀ i ∈ [child], i ∈ (a.detach child).children parent ++ [child] := by simp
  have placed := linked_setParents (linked_detach linked child) range new
    fun i mem => List.mem_append_left _ mem
  -- both orders of the two changes give the same nodes
  refine linked_of_same (fun j => ?_) (fun j => ?_) placed
  · simp only [append, List.foldl_cons, List.foldl_nil, parent?, node_setChildren, node_setParent,
      size_setParent, size_setChildren]
    split <;> split <;> rfl
  · simp only [append, List.foldl_cons, List.foldl_nil, children, node_setChildren, node_setParent,
      size_setParent, size_setChildren]
    split <;> split <;> rfl

theorem linked_replaceWith (linked : a.Linked) (target : NodeId) (ids : List NodeId) :
    (a.replaceWith target ids).Linked := by
  refine linked_detach ?_ target
  rw [insertBefore]
  split
  · exact linked
  · next p parent =>
    have detached : (a.detachAll ids).Linked :=
      linked_foldl (fun a x h => linked_detach h x) linked ids
    have inside : p < (a.detachAll ids).size := by
      rw [detachAll, size_foldl _ fun b x => b.size_detach x]
      exact linked.lt parent
    dsimp only
    split
    · exact detached
    · refine linked_setParents detached inside (fun i mem => by simp [mem]) fun i mem => ?_
      rw [List.append_assoc, List.mem_append, List.mem_append]
      rw [← List.take_append_drop _ ((a.detachAll ids).children p), List.mem_append] at mem
      exact mem.imp_right .inr

theorem linked_takeChildren (linked : a.Linked) (id : NodeId) :
    (a.takeChildren id).2.Linked := by
  intro x p parent
  have free : x ∉ a.children id := by
    intro mem
    rw [parent?, node_takeChildren] at parent
    dsimp only at parent
    split at parent
    · cases parent
    · next out =>
      have outside : ¬ x < a.size := fun range => out ⟨mem, range⟩
      have range := (a.takeChildren id).2.lt_size_of_parent? (j := x) (p := p) (by
        rw [parent?, node_takeChildren]
        dsimp only
        rw [if_neg out]
        exact parent)
      rw [size_takeChildren] at range
      exact outside range
  have before : a.parent? x = some p := by
    rw [← parent, parent?, parent?, node_takeChildren]
    simp only [free, false_and, if_false]
    split
    · rfl
    · rfl
  have child := linked x p before
  have other : p ≠ id := by
    rintro rfl
    exact free child
  rw [children, node_takeChildren]
  simp only [other, if_false]
  split
  · exact child
  · exact child

theorem linked_alloc (linked : a.Linked) (c : Content) : (a.alloc c).2.Linked := by
  intro x p parent
  rw [parent?, node_alloc] at parent
  split at parent
  · cases parent
  · have child := linked x p parent
    have other : p ≠ a.size := Nat.ne_of_lt (a.lt_size_of_mem_children child)
    rw [children, node_alloc, if_neg other]
    exact child

end Stencil.Markup.Arena

namespace Stencil.Expansion
open Markup Branch

/-- What holds in every state of an expansion. -/
structure Tidy (s : Expansion) : Prop where
  linked : s.arena.Linked
  rich : ∀ e ∈ s.rich, e.1 < s.arena.size

section
variable {s s' : Expansion}

theorem Tidy.fresh (tidy : Tidy s) {x : NodeId} (out : s.arena.size ≤ x) :
    s.rich.lookup x = none := by
  rw [List.lookup_eq_none_iff]
  intro e mem
  have other : x ≠ e.1 := Nat.ne_of_gt (Nat.lt_of_lt_of_le (tidy.rich e mem) out)
  simpa using other

theorem Tidy.arena (tidy : Tidy s) {a : Arena} (linked : a.Linked) (grown : s.arena.size ≤ a.size) :
    Tidy { s with arena := a } :=
  ⟨linked, fun e mem => Nat.lt_of_lt_of_le (tidy.rich e mem) grown⟩

theorem linked_graft {a : Arena} (linked : a.Linked) (t : Tree) : (a.graft t).2.Linked := by
  intro x p parent
  by_cases old : x < a.size
  · have before : a.parent? x = some p := by
      rw [← parent, Arena.parent?, Arena.parent?, Arena.node_graft, if_pos old]
    rw [Arena.children, Arena.node_graft, if_pos (linked.lt before)]
    exact linked x p before
  · -- a new node stands in the copy of the tree, and so does its parent
    have range := (a.graft t).2.lt_size_of_parent? parent
    rw [Arena.size_graft] at range
    have nodes : (a.graft t).2.nodes = a.nodes ++ (t.layout none a.size).toArray := rfl
    have stands : Stands { arena := (a.graft t).2 } none (ofTree false a.size t) :=
      stands_copy nodes rfl fun _ _ => rfl
    have mem : x ∈ (ofTree false a.size t).ids := by
      rw [ids_ofTree, List.mem_range'_1]
      exact ⟨Nat.le_of_not_lt old, range⟩
    rw [ids_eq, List.mem_cons] at mem
    rcases mem with rfl | mem
    · rw [stands.parent?] at parent
      cases parent
    · obtain ⟨q, above⟩ := Stands.above _ stands (nodup_ofTree t) mem
      have same := above.parent
      dsimp only at same
      rw [parent] at same
      cases same
      exact above.child

theorem tidy_modifyArena {f : Arena → Arena} (linked : ∀ a : Arena, a.Linked → (f a).Linked)
    (size : ∀ a : Arena, (f a).size = a.size) : Preserves Tidy (modifyArena f) :=
  preserves_modify fun _ tidy => tidy.arena (linked _ tidy.linked) (Nat.le_of_eq (size _).symm)

theorem tidy_replaceWith (x : NodeId) (ids : List NodeId) :
    Preserves Tidy (modifyArena (·.replaceWith x ids)) :=
  tidy_modifyArena (fun _ linked => Arena.linked_replaceWith linked x ids)
    fun a => a.size_replaceWith x ids

theorem tidy_setContent (x : NodeId) (c : Content) :
    Preserves Tidy (modifyArena (·.setContent x c)) :=
  tidy_modifyArena (fun _ linked => Arena.linked_setContent linked x c)
    fun a => a.size_setContent x c

theorem tidy_modifyElement (x : NodeId) (f : Element → Element) :
    Preserves Tidy (modifyArena (·.modifyElement x f)) :=
  tidy_modifyArena (fun _ linked => Arena.linked_modifyElement linked x f)
    fun a => a.size_modifyElement x f

theorem tidy_alloc (c : Content) : Preserves Tidy (alloc c) := fun s tidy =>
  tidy.arena (Arena.linked_alloc tidy.linked c)
    (Nat.le_trans (Nat.le_succ _) (Nat.le_of_eq (s.arena.size_alloc c).symm))

theorem tidy_takeChildren (x : NodeId) : Preserves Tidy (takeChildren x) := fun s tidy =>
  tidy.arena (Arena.linked_takeChildren tidy.linked x) (Nat.le_of_eq (s.arena.size_takeChildren x).symm)

theorem Tidy.graft (tidy : Tidy s) (t : Tree) : Tidy { s with arena := (s.arena.graft t).2 } :=
  tidy.arena (linked_graft tidy.linked t) (by rw [s.arena.size_graft]; omega)

theorem tidy_graftAll (ts : List Tree) : Preserves Tidy (graftAll ts) :=
  preserves_mapM (fun t _ tidy => tidy.graft t) ts

theorem tidy_logUnknown (scene : Scene) (id : String) : Preserves Tidy (logUnknown scene id) :=
  preserves_modify fun _ tidy => ⟨tidy.linked, tidy.rich⟩

theorem tidy_holdContent (supplied : Assoc (List NodeId)) (name : String) (slot : NodeId) :
    Preserves Tidy (holdContent supplied name slot) := by
  intro s tidy
  have allocated := tidy_alloc .root s tidy
  have appended : ∀ (s : Expansion) (ids : List NodeId) (holder : NodeId), Tidy s →
      holder < s.arena.size →
      Tidy { s with arena := ids.foldl (·.append holder ·) s.arena } := by
    intro s ids holder tidy inside
    have size : ∀ (a : Arena), (ids.foldl (·.append holder ·) a).size = a.size :=
      fun a => a.size_foldl (fun b x => b.size_append holder x) ids
    refine tidy.arena ?_ (Nat.le_of_eq (size _).symm)
    have both : ∀ a : Arena, a.Linked → holder < a.size →
        (ids.foldl (·.append holder ·) a).Linked := by
      clear size
      induction ids with
      | nil => exact fun _ linked _ => linked
      | cons i ids ih =>
        exact fun a linked inside => ih _ (Arena.linked_append linked inside i)
          (by rwa [a.size_append])
    exact both s.arena tidy.linked inside
  have inside : s.arena.size < (s.arena.alloc .root).2.size := by
    rw [s.arena.size_alloc]
    omega
  rw [holdContent, run_get_bind]
  dsimp only
  cases (Assoc.get? supplied name).filter (isContent s.arena) with
  | some ids => exact appended _ ids _ allocated inside
  | none =>
    refine appended _ _ _ (tidy_takeChildren slot _ allocated) ?_
    exact Nat.lt_of_lt_of_le inside (Nat.le_of_eq (Arena.size_takeChildren _ slot).symm)

theorem tidy_mergeHost (host : NodeId) (values : Values) : Preserves Tidy (mergeHost host values) := by
  intro s tidy
  rw [mergeHost, run_get_bind]
  split
  · exact tidy
  · exact ⟨tidy.linked, fun e mem => tidy.rich e (List.mem_filter.mp mem).1⟩

theorem tidy_receive (scene : Scene) (host : Option NodeId) : Preserves Tidy (receive scene host) := by
  cases host with
  | none => exact preserves_pure _
  | some host =>
    refine preserves_bind (tidy_mergeHost host _) fun _ => preserves_bind ?_ fun _ =>
      preserves_pure _
    exact preserves_bind (tidy_takeChildren host) fun ids => preserves_foldlM (fun _ id =>
      preserves_bind preserves_get fun _ => preserves_bind (tidy_modifyElement id _) fun _ =>
        preserves_pure _) ids _

theorem tidy_compute (scene : Scene) (c : Component) (context : String) (values : Values) :
    Preserves Tidy (compute scene c context values) := by
  rw [compute]
  cases c.script with
  | none => exact preserves_pure _
  | some script =>
    refine preserves_map (preserves_bind preserves_get fun s => ?_)
    split
    · exact preserves_pure _
    · refine preserves_bind (preserves_modify fun _ tidy => ⟨tidy.linked, tidy.rich⟩) fun _ => ?_
      split
      · exact preserves_throw _
      · exact preserves_bind (preserves_modify fun _ tidy => ⟨tidy.linked, tidy.rich⟩) fun _ =>
          preserves_pure _

theorem fst_mem_putRich {node : NodeId} {name : String} {v : Value} {rich : List (NodeId × Values)}
    {e : NodeId × Values} (mem : e ∈ putRich node name v rich) :
    e.1 = node ∨ ∃ e' ∈ rich, e'.1 = e.1 := by
  rw [putRich] at mem
  split at mem
  · rw [List.mem_append, List.mem_singleton] at mem
    rcases mem with mem | rfl
    · exact .inr ⟨e, mem, rfl⟩
    · exact .inl rfl
  · obtain ⟨e', here, rfl⟩ := List.mem_map.mp mem
    dsimp only
    split
    · next own => exact .inl own
    · exact .inr ⟨e', here, rfl⟩

theorem tidy_substituteAttribute (values : Values) (site : AttributeSite) :
    Preserves Tidy (substituteAttribute values site) := by
  intro s tidy
  rw [substituteAttribute, run_get_bind]
  dsimp only
  cases found : s.arena.element? site.node with
  | none => exact tidy
  | some e =>
    dsimp only
    cases e.attr? site.name with
    | none => exact tidy
    | some text =>
      dsimp only
      have put : ∀ v, Tidy { s with rich := putRich site.node site.name v s.rich } := by
        refine fun v => ⟨tidy.linked, fun e mem => ?_⟩
        rcases fst_mem_putRich mem with own | ⟨e', mem, same⟩
        · rw [own]
          exact s.arena.lt_size_of_element? found
        · rw [← same]
          exact tidy.rich e' mem
      split
      · split
        · exact tidy_modifyElement site.node _ _ (put _)
        · exact tidy_modifyElement site.node _ s tidy
      · exact tidy_modifyElement site.node _ s tidy

theorem tidy_openInstance (scene : Scene) (c : Component) (context : String) (host : Option NodeId)
    (extra : Values) : Preserves Tidy (openInstance scene c context host extra) := by
  have grafted : ∀ s : Expansion, Tidy s → Tidy { s with arena := (c.instantiate s.arena).2.2 } :=
    fun s tidy => tidy.graft c.document.tree
  intro s tidy
  cases run : (openInstance scene c context host extra).run s with
  | ok o s' =>
    obtain ⟨values, s₁, s₂, received, -, -, -, computed, filled⟩ := openInstance_ok run
    have copied := grafted s₁ ((tidy_receive scene host).of_ok tidy received)
    exact (preserves_forM (fun site => tidy_substituteAttribute _ site) _).of_ok
      ((tidy_compute scene c context _).of_ok copied computed) filled
  | error e s' =>
    obtain ⟨values, supplied, s₁, received, failed⟩ := openInstance_error run
    have copied := grafted s₁ ((tidy_receive scene host).of_ok tidy received)
    exact (tidy_compute scene c context _).of_error copied failed

theorem tidy_captureRefs (sites : Sites) (hasClient : Bool) :
    Preserves Tidy (captureRefs sites hasClient) := by
  refine preserves_foldlM (fun refs node => ?_) _ _
  refine preserves_bind preserves_get fun _ => preserves_bind (tidy_modifyElement node _) fun _ => ?_
  split
  · exact preserves_pure refs
  · split
    · exact preserves_pure refs
    · refine preserves_bind preserves_get fun _ => preserves_bind (preserves_modify fun s tidy => ?_)
        fun _ => preserves_pure _
      refine ⟨Arena.linked_modifyElement tidy.linked node _, fun e mem => ?_⟩
      dsimp only
      rw [Arena.size_modifyElement]
      exact tidy.rich e mem

theorem tidy_bindRefs (c : Component) (context : String) (o : Opened) :
    Preserves Tidy (bindRefs c context o) := by
  refine preserves_bind (tidy_captureRefs _ _) fun refs => ?_
  split
  · exact preserves_bind (preserves_modify fun _ tidy => ⟨tidy.linked, tidy.rich⟩) fun _ =>
      preserves_pure refs
  · exact preserves_pure refs


/-! ### Runs -/

theorem tidy_of_run {scene : Scene} {call : Call} {made : List Instance} {r : Outcome call.Out}
    (run : Run scene call s made r) (tidy : Tidy s) : Tidy r.state := by
  induction run with
  | unknown absent logged => exact (tidy_logUnknown _ _).of_ok tidy logged
  | tooDeep known => exact tidy
  | refused known failed => exact (tidy_openInstance _ _ _ _ _).of_error tidy failed
  | textsStop known opened texts ih => exact ih ((tidy_openInstance _ _ _ _ _).of_ok tidy opened)
  | withinStop known opened texts bound within ih ihw =>
    exact ihw ((tidy_bindRefs _ _ _).of_ok (ih ((tidy_openInstance _ _ _ _ _).of_ok tidy opened))
      bound)
  | created known opened texts bound within slots ih ihw ihs =>
    rw [Outcome.state_map]
    exact ihs (ihw ((tidy_bindRefs _ _ _).of_ok
      (ih ((tidy_openInstance _ _ _ _ _).of_ok tidy opened)) bound))
  | textsNil | noText | piecesNil | valueMarkupStop | valuesNil | hostsNil | noHost | slotsNil =>
    exact tidy
  | textsHeadStop head ih | richTextStop found plain placed ih | piecesEmpty empty tail ih
  | piecesValueStop head ih | valueComponentStop body ih | valueList all ih | valuesHeadStop head ih
  | within all ih | hostsHeadStop head ih | hostStop found body ih | hostBottom found body ih
  | slotsGone outside tail ih => exact ih tidy
  | textsCons head tail ih iht | hostsCons head tail ih iht | hostKept found body inside ih iht =>
    exact iht (ih tidy)
  | plainText found plain written => exact (tidy_setContent _ _).of_ok tidy written
  | richText found plain placed replaced ih => exact (tidy_replaceWith _ _).of_ok (ih tidy) replaced
  | piecesLiteral more added tail ih =>
    rw [Outcome.state_map]
    exact ih ((tidy_alloc _).of_ok tidy added)
  | piecesValue head tail ih iht | valuesCons head tail ih iht =>
    rw [Outcome.state_map]
    exact iht (ih tidy)
  | valueText added => exact (tidy_alloc _).of_ok tidy added
  | valueMarkup read grafted => exact (tidy_graftAll _).of_ok tidy grafted
  | valueComponent body taken ih => exact (tidy_takeChildren _).of_ok (ih tidy) taken
  | valueUnknown body added ih => exact (tidy_alloc _).of_ok (ih tidy) added
  | hostReplaced found body taken replaced ih =>
    exact (tidy_replaceWith _ _).of_ok ((tidy_takeChildren _).of_ok (ih tidy) taken) replaced
  | slotsStop inside held content ih => exact ih ((tidy_holdContent _ _ _).of_ok tidy held)
  | slotsCons inside held content taken replaced tail ih iht =>
    exact iht ((tidy_replaceWith _ _).of_ok ((tidy_takeChildren _).of_ok
      (ih ((tidy_holdContent _ _ _).of_ok tidy held)) taken) replaced)

/-! ### What is below a branch -/

/-- A node whose parent is in a branch is in the branch. -/
theorem Stands.mem_of_parent {p : Option NodeId} {b : Branch} {x q : NodeId} (stands : Stands s p b)
    (tidy : Tidy s) (mem : q ∈ b.ids) (parent : s.arena.parent? x = some q) :
    x ∈ idsAll b.children :=
  (stands.child_mem mem (tidy.linked x q parent)).1

theorem Stands.mem_of_isBelow {p : Option NodeId} {b : Branch} {x : NodeId}
    (stands : Stands s p b) (tidy : Tidy s) (below : s.arena.isBelow x b.id) :
    x ∈ idsAll b.children := by
  rw [Arena.isBelow, List.contains_iff_mem, Arena.ancestors] at below
  generalize s.arena.size = n at below
  induction n generalizing x with
  | zero => cases below
  | succ n ih =>
    rw [Arena.ancestorsTo] at below
    cases parent : s.arena.parent? x with
    | none =>
      rw [parent] at below
      cases below
    | some q =>
      rw [parent] at below
      refine stands.mem_of_parent tidy ?_ parent
      rcases List.mem_cons.mp below with rfl | below
      · exact id_mem_ids
      · rw [ids_eq]
        exact List.mem_cons_of_mem _ (ih below)

end
end Stencil.Expansion
