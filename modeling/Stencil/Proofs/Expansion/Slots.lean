import Stencil.Proofs.Expansion.Growth
/-!
Filling the slots of an instance. Slots are filled in document order, so a slot that stands in another
one is filled after it, or has gone with it.
-/
namespace Stencil.Expansion
open Markup Branch

section
variable {s s₀ s' : Expansion} {f f' : Branch} {x : NodeId} {content bs : List Branch}

theorem look_alloc (tidy : Tidy s) (c : Content) (y : NodeId) :
    look { s with arena := (s.arena.alloc c).2 } y =
      if y = s.arena.size then (⟨c, none, []⟩, []) else s.look y := by
  rw [look, look, Arena.node_alloc]
  split
  · next own => rw [own, tidy.fresh (Nat.le_refl _)]; rfl
  · rfl

theorem framed_alloc (tidy : Tidy s) (c : Content) (own : List NodeId) :
    Framed s { s with arena := (s.arena.alloc c).2 } own where
  grown := by simp
  same y range _ := by rw [look_alloc tidy, if_neg (Nat.ne_of_lt range)]

/-! ### The content of a slot -/

/-- A branch without the content of one of its nodes, which may have stood there or elsewhere. -/
structure Parted (f : Branch) (x : NodeId) (content : List Branch) (f' : Branch) : Prop where
  id : f'.id = f.id
  stem : f'.stem = f.stem
  splice : ∀ new, spliceAll x new f'.children = spliceAll x new f.children
  once : f'.ids.Nodup
  here : x ∈ idsAll f'.children
  ids : ∀ y ∈ f'.ids, y ∈ f.ids ∧ y ∉ idsAll content

theorem parted_self (once : f.ids.Nodup) (here : x ∈ idsAll f.children)
    (apart : ∀ y ∈ idsAll content, y ∉ f.ids) : Parted f x content f where
  id := rfl
  stem := rfl
  splice _ := rfl
  once := once
  here := here
  ids y mem := ⟨mem, fun inside => apart y inside mem⟩

theorem parted_emptied {sub : Branch} (once : f.ids.Nodup) (part : sub ∈ subsAll f.children)
    (stem : Stem) : Parted f sub.id sub.children
      (.node f.id f.stem (spliceAll sub.id [.node sub.id stem []] f.children)) := by
  have once' := nodup_children once
  have top : f.id ∉ idsAll f.children := by
    rw [ids_eq, List.nodup_cons] at once
    exact once.1
  refine ⟨rfl, rfl, fun new => spliceAll_spliceAll stem [] f.children, ?_, ?_, fun y mem => ?_⟩
  · exact List.nodup_cons.mpr ⟨fun mem => top (mem_ids_emptied once' part mem).1,
      nodup_emptied stem f.children once'⟩
  · exact mem_spliceAll_of_new _ (id_mem_idsAll part) (by simp [Branch.ids])
  · rcases List.mem_cons.mp mem with rfl | mem
    · exact ⟨id_mem_ids, fun deep => top (ids_subset part (mem_ids_of_children deep))⟩
    · exact (mem_ids_emptied once' part mem).imp_left mem_ids_of_children

/-- Branches have been put below a new root. -/
structure Held (s s' : Expansion) (f : Branch) (content : List Branch) (f' : Branch) : Prop where
  stands : Stands s' none f'
  held : Stands s' none (.node s.arena.size ⟨.root, [], false⟩ content)
  framed : Framed s s' (f.ids ++ idsAll content)

theorem held_of_gather (parted : Parted f x content f') (old : ∀ y ∈ f.ids, y < s.arena.size)
    (stands : Stands s₀ none f') (free : StandsAll s₀ none content)
    (once : (idsAll content).Nodup) (inside : ∀ y ∈ idsAll content, y < s.arena.size)
    (range : s.arena.size < s₀.arena.size) (bare : s₀.look s.arena.size = (⟨.root, none, []⟩, []))
    (framed : Framed s s₀ (f.ids ++ idsAll content))
    (arena : s'.arena = (content.map (·.id)).foldl (·.append s.arena.size ·) s₀.arena)
    (rich : s'.rich = s₀.rich) : Held s s' f content f' := by
  have out : s.arena.size ∉ idsAll content := fun mem => Nat.lt_irrefl _ (inside _ mem)
  obtain ⟨held, size, others⟩ := stands_gather free once out range bare arena rich
  have moved : Framed s₀ s' (s.arena.size :: idsAll content) := by
    refine ⟨Nat.le_of_eq size.symm, fun y _ out => ?_⟩
    rw [List.mem_cons, not_or] at out
    exact others y out.1 out.2
  refine ⟨stands.congr fun y mem => ?_, held, framed.trans moved fun y mem range => ?_⟩
  · obtain ⟨mem', out⟩ := parted.ids y mem
    exact ⟨size ▸ stands.lt mem, others y (Nat.ne_of_lt (old y mem')) out⟩
  · rcases List.mem_cons.mp mem with rfl | mem
    · exact absurd range (Nat.lt_irrefl _)
    · exact List.mem_append_right _ mem

theorem held_light (tidy : Tidy s) (stands : Stands s none f) (once : f.ids.Nodup)
    (here : x ∈ idsAll f.children) (free : StandsAll s none bs) (bs_once : (idsAll bs).Nodup)
    (apart : ∀ y ∈ idsAll bs, y ∉ f.ids)
    (arena : s'.arena = (bs.map (·.id)).foldl (·.append s.arena.size ·) (s.arena.alloc .root).2)
    (rich : s'.rich = s.rich) : Held s s' f bs f := by
  refine held_of_gather (parted_self once here apart) (fun y mem => stands.lt mem)
    ((framed_alloc tidy .root []).stands stands fun _ _ => List.not_mem_nil)
    ((framed_alloc tidy .root []).standsAll free fun _ _ => List.not_mem_nil) bs_once
    (fun y mem => free.lt mem) (by simp) (by rw [look_alloc tidy, if_pos rfl])
    (framed_alloc tidy .root _) arena rich

theorem held_own {sub : Branch} (tidy : Tidy s) (stands : Stands s none f) (once : f.ids.Nodup)
    (part : sub ∈ subsAll f.children)
    (arena : s'.arena = (s.arena.children sub.id).foldl (·.append s.arena.size ·)
      ((s.arena.alloc .root).2.takeChildren sub.id).2)
    (rich : s'.rich = s.rich) : Held s s' f sub.children
      (.node f.id f.stem (spliceAll sub.id [.node sub.id sub.stem []] f.children)) := by
  have added := framed_alloc tidy .root []
  have sub_stands := stands.children.sub_parent part
  have sub_once := nodup_sub (nodup_children once) part
  have inside : ∀ y ∈ sub.ids, y ∈ f.ids := fun y mem => mem_ids_of_children (ids_subset part mem)
  rw [sub_stands.children_eq] at arena
  have sub_stands' := added.stands sub_stands fun _ _ => List.not_mem_nil
  let taken : Expansion := { s with arena := ((s.arena.alloc .root).2.takeChildren sub.id).2 }
  have arena' : taken.arena = ((s.arena.alloc .root).2.takeChildren sub.id).2 := rfl
  obtain ⟨free, emptied, others⟩ := stands_takeChildren sub_stands' sub_once arena' rfl
  have size : (((s.arena.alloc .root).2.takeChildren sub.id).2).size = s.arena.size + 1 := by simp
  have apart : ∀ y, y < s.arena.size → y ∉ sub.ids →
      look { s with arena := ((s.arena.alloc .root).2.takeChildren sub.id).2 } y = s.look y :=
    fun y range out => (others y out).trans (added.same y range List.not_mem_nil)
  refine held_of_gather (parted_emptied once part sub.stem) (fun y mem => stands.lt mem) ?_ free
    (nodup_children sub_once) (fun y mem => sub_stands.lt (mem_ids_of_children mem)) ?_ ?_
    ⟨?_, fun y range out => ?_⟩ arena rich
  · refine stands_update stands once part emptied fun y mem out => ⟨?_, apart y (stands.lt mem) out⟩
    rw [size]
    exact Nat.lt_succ_of_lt (stands.lt mem)
  · rw [size]
    exact Nat.lt_succ_self _
  · rw [others s.arena.size fun mem => Nat.lt_irrefl _ (sub_stands.lt mem), look_alloc tidy, if_pos rfl]
  · rw [size]
    exact Nat.le_succ _
  · rw [List.mem_append, not_or] at out
    exact apart y range fun mem => out.1 (inside y mem)

end

theorem holdContent_ok {supplied : Assoc (List NodeId)} {name : String} {slot holder : NodeId}
    {s s' : Expansion} (held : (holdContent supplied name slot).run s = .ok holder s') :
    holder = s.arena.size ∧ s'.rich = s.rich ∧
      s'.arena = if isContent s.arena ((Assoc.get? supplied name).getD []) then
        ((Assoc.get? supplied name).getD []).foldl (·.append s.arena.size ·) (s.arena.alloc .root).2
      else ((s.arena.alloc .root).2.children slot).foldl (·.append s.arena.size ·)
        ((s.arena.alloc .root).2.takeChildren slot).2 := by
  rw [holdContent, run_get_bind] at held
  dsimp only at held
  cases given : Assoc.get? supplied name with
  | none =>
    rw [given] at held
    cases held
    exact ⟨rfl, rfl, rfl⟩
  | some ids =>
    rw [given, Option.filter_some] at held
    rw [Option.getD_some]
    cases content : isContent s.arena ids with
    | true =>
      rw [content, if_pos rfl] at held
      cases held
      exact ⟨rfl, rfl, rfl⟩
    | false =>
      rw [content, if_neg Bool.false_ne_true] at held
      cases held
      exact ⟨rfl, rfl, rfl⟩

/-! ### All slots of an instance -/

/-- The branches that are assigned to a slot. -/
def assigned (light : List (String × Branch)) (name : String) : List Branch :=
  (light.filter (·.1 = name)).map (·.2)

/-- The branches hold nothing but blank texts. -/
def Blank (bs : List Branch) : Bool := bs.all (·.stem.content.isBlank)

/-- An instance whose slots are filled with what stands in `light`; `pending` lists the slots that are
left to fill. -/
structure Filling (scene : Scene) (s : Expansion) (f : Branch) (light : List (String × Branch))
    (pending : List (String × NodeId)) : Prop where
  stands : Stands s none f
  free : StandsAll s none (light.map (·.2))
  once : (f.ids ++ idsAll (light.map (·.2))).Nodup
  settled : Settled scene.library f.children
  names : (pending.map (·.1)).Nodup
  order : (pending.map (·.2)).Pairwise (· < ·)
  own : ∀ sub ∈ subsAll f.children, sub.id ∈ pending.map (·.2) →
    sub.stem.content.isSlot ∧ sub.stem.own
  nested : ∀ slot ∈ slots f.children, ∀ x ∈ pending.map (·.2), x ∈ idsAll slot.2.2 →
    slot.1 ∈ pending.map (·.2) ∧ slot.1 < x
  apart : ∀ x ∈ pending.map (·.2), x ∉ idsAll (light.map (·.2))
  known : ∀ x ∈ pending.map (·.2), x < s.arena.size

/-- Slots are supplied with the numbers of what is assigned to them. -/
def Supplies (supplied : Assoc (List NodeId)) (light : List (String × Branch))
    (names : List String) : Prop :=
  ∀ name ∈ names, (Assoc.get? supplied name).getD [] = (assigned light name).map (·.id)

/-- What is put into a slot that holds `kids`. -/
def stuffing (light : List (String × Branch)) (name : String) (kids : List Branch) : List Branch :=
  if Blank (assigned light name) then kids else assigned light name

/-- The children of a host that are not assigned to a slot. -/
def others (light : List (String × Branch)) (name : String) : List (String × Branch) :=
  light.filter (·.1 ≠ name)

/-- A slot stands for what is assigned to it, or for its own content, each rewritten with the depth
of the place where it was written. -/
def Stuffed (scene : Scene) (depth above : Nat) (ρ : NodeId → List Tree) (f : Branch)
    (light : List (String × Branch)) (pending : List (String × NodeId)) : Prop :=
  ∀ e ∈ pending, ∀ kids, (e.2, true, kids) ∈ slots f.children →
    ρ e.2 = if Blank (assigned light e.1) then mean scene depth ρ kids
      else mean scene above ρ (assigned light e.1)

/-- The instance with its slots filled. -/
structure Filled (scene : Scene) (simple : Prop) (room : Nat) (s s' : Expansion) (f : Branch)
    (light : List (String × Branch)) (pending : List (String × NodeId)) (cs : List Branch) :
    Prop where
  stands : Stands s' none (.node f.id f.stem cs)
  once : (ids (.node f.id f.stem cs)).Nodup
  comes : ∀ sub ∈ subsAll cs, ComesFrom (f.children ++ light.map (·.2)) s.arena.size sub
  slots : ∀ slot ∈ slots cs, (slot ∈ Branch.slots f.children ∧ slot.1 ∉ pending.map (·.2)) ∨
    slot ∈ Branch.slots (light.map (·.2)) ∨ BareSlot slot
  settled : Settled scene.library cs
  framed : Framed s s' (f.ids ++ idsAll (light.map (·.2)))
  means : simple → ∀ depth above, room ≤ depth → room ≤ above → ∀ ρ,
    Stuffed scene depth above ρ f light pending → mean scene depth ρ cs = mean scene depth ρ f.children

/-- Filling slots of an instance fills them and settles what they hold. -/
def SlotsSpec (scene : Scene) (simple : Prop) (room : Nat) (fragment : NodeId)
    (supplied : Assoc (List NodeId)) (pending : List (String × NodeId)) (s s' : Expansion) : Prop :=
  ∀ f light, f.id = fragment → Filling scene s f light pending →
    Supplies supplied light (pending.map (·.1)) →
    ∃ cs, Filled scene simple room s s' f light pending cs

section
variable {scene : Scene} {simple : Prop} {room : Nat} {s s₁ s₂ s₃ s₄ s' : Expansion} {f : Branch}
  {light : List (String × Branch)} {pending rest : List (String × NodeId)} {name : String}
  {x fragment holder : NodeId} {supplied : Assoc (List NodeId)}

theorem isContent_eq {p : Option NodeId} {bs : List Branch} (stands : StandsAll s p bs) :
    isContent s.arena (bs.map (·.id)) = !Blank bs := by
  induction bs with
  | nil => rfl
  | cons b bs ih =>
    obtain ⟨head, tail⟩ := standsAll_cons.mp stands
    have here : s.arena.isBlankText b.id = b.stem.content.isBlank := by
      rw [Arena.isBlankText, Arena.text?, head.content]
      rfl
    have rest := ih tail
    rw [isContent, Blank] at rest ⊢
    rw [List.map_cons, List.any_cons, List.all_cons, rest, here, Bool.not_and]

theorem slots_nil : SlotsSpec scene simple room fragment supplied [] s s := by
  rintro f light rfl filling -
  refine ⟨f.children, ?_, ?_, fun sub mem => .of_mem ?_, fun slot mem => .inl ⟨mem, by simp⟩,
    filling.settled, .refl s _, fun _ _ _ _ _ _ _ => rfl⟩
  · rw [node_eta]
    exact filling.stands
  · rw [node_eta]
    exact (List.nodup_append.mp filling.once).1
  · rw [subsAll_append]
    exact List.mem_append_left _ mem

/-- A slot that is not below the instance has gone. -/
theorem slots_gone (outside : s.arena.isBelow x fragment = false)
    (tail : SlotsSpec scene simple room fragment supplied rest s s') :
    SlotsSpec scene simple room fragment supplied ((name, x) :: rest) s s' := by
  rintro f light rfl filling supplies
  have once := (List.nodup_append.mp filling.once).1
  have gone : x ∉ idsAll f.children := by
    intro mem
    rw [filling.stands.isBelow once mem] at outside
    cases outside
  have left : ∀ slot ∈ slots f.children, slot.1 ≠ x := by
    rintro slot mem rfl
    exact gone (id_mem_of_slot mem)
  have names := List.nodup_cons.mp filling.names
  have order := List.pairwise_cons.mp filling.order
  have filling' : Filling scene s f light rest := by
    refine ⟨filling.stands, filling.free, filling.once, filling.settled, names.2, order.2,
      fun sub mem listed => filling.own sub mem (List.mem_cons_of_mem _ listed),
      fun slot mem y listed inside => ?_,
      fun y listed => filling.apart y (List.mem_cons_of_mem _ listed),
      fun y listed => filling.known y (List.mem_cons_of_mem _ listed)⟩
    obtain ⟨pending, before⟩ :=
      filling.nested slot mem y (List.mem_cons_of_mem _ listed) inside
    rcases List.mem_cons.mp pending with same | pending
    · exact absurd (show slot.1 = x from same) (left slot mem)
    · exact ⟨pending, before⟩
  obtain ⟨cs, filled⟩ := tail f light rfl filling' fun name mem =>
    supplies name (List.mem_cons_of_mem _ mem)
  refine ⟨cs, { filled with
    slots := fun slot mem => (filled.slots slot mem).imp_left fun ⟨mem, out⟩ => ⟨mem, ?_⟩
    means := fun h depth above deep deep' ρ stuffed => filled.means h depth above deep deep' ρ
      fun e mem => stuffed e (List.mem_cons_of_mem _ mem) }⟩
  intro listed
  rcases List.mem_cons.mp listed with same | listed
  · exact left slot mem same
  · exact out listed

/-- One slot has been filled. -/
structure SlotFilled (scene : Scene) (simple : Prop) (room : Nat) (s s' : Expansion) (f : Branch)
    (content : List Branch) (sub : Branch) (cs : List Branch) : Prop where
  part : sub ∈ subsAll f.children
  isSlot : sub.stem.content.isSlot
  own : sub.stem.own
  exposed : Exposed (·.isPending scene.library) sub.id f.children
  stands : Stands s' none (.node f.id f.stem (spliceAll sub.id cs f.children))
  once : (ids (.node f.id f.stem (spliceAll sub.id cs f.children))).Nodup
  comes : ∀ deep ∈ subsAll cs, ComesFrom content s.arena.size deep
  slots : ∀ slot ∈ slots cs, slot ∈ Branch.slots content ∨ BareSlot slot
  settled : Settled scene.library cs
  framed : Framed s s' (f.ids ++ idsAll content)
  means : simple → ∀ depth, room ≤ depth → ∀ ρ, mean scene depth ρ cs = mean scene depth ρ content

theorem idsAll_perm {bs cs : List Branch} (perm : bs.Perm cs) : (idsAll bs).Perm (idsAll cs) := by
  induction perm with
  | nil => exact .nil
  | cons b _ ih => exact ih.append_left b.ids
  | swap b c bs =>
    simp only [idsAll, ← List.append_assoc]
    exact List.perm_append_comm.append_right _
  | trans _ _ ih ih' => exact ih.trans ih'

theorem light_perm (light : List (String × Branch)) (name : String) :
    (idsAll (assigned light name) ++ idsAll ((others light name).map (·.2))).Perm
      (idsAll (light.map (·.2))) := by
  rw [← idsAll_append, assigned, others, ← List.map_append]
  refine idsAll_perm (List.Perm.map _ ?_)
  have parts := List.filter_append_perm (fun e : String × Branch => decide (e.1 = name)) light
  simpa using parts

theorem mem_idsAll_assigned {light : List (String × Branch)} {y : NodeId}
    (mem : y ∈ idsAll (assigned light name)) : y ∈ idsAll (light.map (·.2)) :=
  (light_perm light name).subset (List.mem_append_left _ mem)

theorem mem_idsAll_others {light : List (String × Branch)} {y : NodeId}
    (mem : y ∈ idsAll ((others light name).map (·.2))) : y ∈ idsAll (light.map (·.2)) :=
  (light_perm light name).subset (List.mem_append_right _ mem)

/-- The first slot that is left to fill stands in no other one. -/
theorem Filling.exposed (filling : Filling scene s f light ((name, x) :: rest))
    (mem : x ∈ idsAll f.children) : ∃ sub ∈ subsAll f.children, sub.id = x ∧
      sub.stem.content.isSlot ∧ sub.stem.own ∧
      Exposed (·.isPending scene.library) x f.children := by
  obtain ⟨sub, part, rfl⟩ := mem_idsAll_iff_subs.mp mem
  obtain ⟨slot, own⟩ := filling.own sub part List.mem_cons_self
  refine ⟨sub, part, rfl, slot, own, ?_⟩
  have pending : sub.stem.content.isPending scene.library := by
    rw [Content.isPending, slot, Bool.true_or]
  obtain ⟨top, front, inside⟩ := exists_frontAll f.children part pending
  have top_slot := filling.settled top front
  have top_part := (mem_subsAll_of_front f.children front).1
  rw [subs_eq, List.mem_cons] at inside
  rcases inside with rfl | deep
  · exact ⟨sub, front, rfl⟩
  · obtain ⟨listed, before⟩ := filling.nested (top.id, top.stem.own, top.children)
      (mem_slots.mpr ⟨top, top_part, top_slot, rfl⟩) sub.id List.mem_cons_self (id_mem_idsAll deep)
    rcases List.mem_cons.mp listed with same | listed
    · exact absurd (show top.id = sub.id from same) (Nat.ne_of_lt before)
    · have after := (List.pairwise_cons.mp filling.order).1 top.id listed
      exact absurd before (Nat.lt_asymm after)

/-- An instance and the children of its host, which stand apart from each other. -/
structure Stocked (s : Expansion) (f : Branch) (light : List (String × Branch)) : Prop where
  stands : Stands s none f
  free : StandsAll s none (light.map (·.2))
  once : (f.ids ++ idsAll (light.map (·.2))).Nodup

theorem Filling.stocked (filling : Filling scene s f light pending) : Stocked s f light :=
  ⟨filling.stands, filling.free, filling.once⟩

theorem Stocked.free_assigned (stocked : Stocked s f light) (name : String) :
    StandsAll s none (assigned light name) ∧ (idsAll (assigned light name)).Nodup := by
  refine ⟨standsAll_iff.mpr fun b mem => ?_, ?_⟩
  · obtain ⟨e, here, rfl⟩ := List.mem_map.mp mem
    exact standsAll_iff.mp stocked.free e.2 (List.mem_map_of_mem (List.mem_filter.mp here).1)
  · have both :=
      (light_perm light name).nodup_iff.mpr (List.nodup_append.mp stocked.once).2.1
    exact (List.nodup_append.mp both).1

/-- What a slot is filled with stands below a new root, apart from the rest of the instance. -/
theorem Stocked.held {sub : Branch} (stocked : Stocked s f light) (tidy : Tidy s)
    (part : sub ∈ subsAll f.children)
    (supplies : (Assoc.get? supplied name).getD [] = (assigned light name).map (·.id))
    (held : (holdContent supplied name sub.id).run s = .ok holder s₁) :
    (ids (.node s.arena.size ⟨.root, [], false⟩ (stuffing light name sub.children))).Nodup ∧
      ∃ f', Parted f sub.id (stuffing light name sub.children) f' ∧
        Held s s₁ f (stuffing light name sub.children) f' := by
  obtain ⟨once, light_once, apart⟩ := List.nodup_append.mp stocked.once
  obtain ⟨rfl, rich, arena⟩ := holdContent_ok held
  have sub_stands := stocked.stands.children.sub_parent part
  have sub_once := nodup_sub (nodup_children once) part
  obtain ⟨free, free_once⟩ := stocked.free_assigned name
  rw [supplies, isContent_eq free] at arena
  rw [stuffing]
  cases blank : Blank (assigned light name) with
  | true =>
    rw [blank] at arena
    have old : sub.id ≠ s.arena.size := Nat.ne_of_lt (sub_stands.lt id_mem_ids)
    have kids : (s.arena.alloc .root).2.children sub.id = s.arena.children sub.id := by
      rw [Arena.children, Arena.node_alloc, if_neg old, Arena.children]
    rw [kids] at arena
    exact ⟨List.nodup_cons.mpr ⟨fun mem => Nat.lt_irrefl _ (sub_stands.lt (mem_ids_of_children mem)),
      nodup_children sub_once⟩, _, parted_emptied once part sub.stem,
      held_own tidy stocked.stands once part arena rich⟩
  | false =>
    rw [blank] at arena
    have out : ∀ y ∈ idsAll (assigned light name), y ∉ f.ids := fun y mem inside =>
      apart y inside y (mem_idsAll_assigned mem) rfl
    exact ⟨List.nodup_cons.mpr ⟨fun mem => Nat.lt_irrefl _ (free.lt mem), free_once⟩, f,
      parted_self once (id_mem_idsAll part) out,
      held_light tidy stocked.stands once (id_mem_idsAll part) free free_once out arena rich⟩

/-- A slot has been filled with `content`, which has become `cs`. -/
structure Refilled (s s' : Expansion) (f : Branch) (x : NodeId) (content cs : List Branch) :
    Prop where
  stands : Stands s' none (.node f.id f.stem (spliceAll x cs f.children))
  once : (ids (.node f.id f.stem (spliceAll x cs f.children))).Nodup
  ids : ∀ y ∈ idsAll cs, y ∈ idsAll content ∨ s.arena.size ≤ y
  framed : Framed s s' (f.ids ++ idsAll content)

/-- What the content of a slot turns into stands apart from the rest of the instance. -/
theorem Held.turned {f' : Branch} {kids cs : List Branch} (hold : Held s s₁ f kids f')
    (parted : Parted f x kids f') (old : ∀ y ∈ f.ids, y < s.arena.size)
    (turns : Turns s₁ s₂ none (.node s.arena.size ⟨.root, [], false⟩ kids) cs) :
    Stands s₂ none f' ∧ (∀ y ∈ idsAll cs, y ∈ idsAll kids ∨ s.arena.size ≤ y) ∧
      ∀ y ∈ ids (.node s.arena.size ⟨.root, [], false⟩ cs), y ∉ f'.ids := by
  have f'_old : ∀ y ∈ f'.ids, y < s.arena.size := fun y mem => old y (parted.ids y mem).1
  have cs_ids : ∀ y ∈ idsAll cs, y ∈ idsAll kids ∨ s.arena.size ≤ y := fun y mem =>
    (turns.ids y mem).imp_right (Nat.le_trans hold.framed.grown)
  refine ⟨turns.framed.stands hold.stands fun y mem inside => ?_, cs_ids, fun y mem inside => ?_⟩
  · rcases List.mem_cons.mp inside with rfl | inside
    · exact Nat.lt_irrefl _ (f'_old _ mem)
    · exact (parted.ids y mem).2 inside
  · rcases List.mem_cons.mp mem with rfl | mem
    · exact Nat.lt_irrefl _ (f'_old _ inside)
    · rcases cs_ids y mem with mem | fresh
      · exact (parted.ids y inside).2 mem
      · exact Nat.not_le_of_lt (f'_old y inside) fresh

/-- What stands below the new root takes the place of the slot. -/
theorem Held.refilled {f' : Branch} {kids cs : List Branch} {listed : List NodeId}
    (hold : Held s s₁ f kids f') (parted : Parted f x kids f') (old : ∀ y ∈ f.ids, y < s.arena.size)
    (turns : Turns s₁ s₂ none (.node s.arena.size ⟨.root, [], false⟩ kids) cs)
    (taken : (takeChildren s.arena.size).run s₂ = .ok listed s₃)
    (replaced : (modifyArena (·.replaceWith x listed)).run s₃ = .ok () s₄) :
    Refilled s s₄ f x kids cs := by
  obtain ⟨stands', cs_ids, apart⟩ := hold.turned parted old turns
  obtain ⟨placed, size, rest⟩ := stands_exchange stands' parted.once parted.here turns.stands
    turns.once apart taken replaced
  have placed_once : (ids (.node f'.id f'.stem (spliceAll x cs f'.children))).Nodup := by
    have once' := parted.once
    rw [ids_eq, List.nodup_cons] at once'
    refine List.nodup_cons.mpr ⟨fun mem => ?_, nodup_spliceAll _ once'.2 (nodup_children turns.once)
      fun y mem inside => apart y (mem_ids_of_children mem)
        (mem_ids_of_children (mem_idsAll_of_idsButAll _ inside))⟩
    rcases mem_idsAll_splice _ mem with mem | mem
    · exact once'.1 (mem_idsAll_of_idsButAll _ mem)
    · exact apart _ (mem_ids_of_children mem) id_mem_ids
  rw [Branch.children, parted.id, parted.stem, parted.splice] at placed
  rw [parted.id, parted.stem, parted.splice] at placed_once
  refine ⟨placed, placed_once, cs_ids, ?_⟩
  have last : Framed s₂ s₄ (f'.ids ++ ids (.node s.arena.size ⟨.root, [], false⟩ cs)) :=
    ⟨Nat.le_of_eq size.symm, fun y _ out => by
      rw [List.mem_append, not_or] at out
      exact rest y out.1 out.2⟩
  have start : ∀ y ∈ ids (.node s.arena.size ⟨.root, [], false⟩ kids), y < s.arena.size →
      y ∈ f.ids ++ idsAll kids := by
    intro y mem range
    rcases List.mem_cons.mp mem with rfl | mem
    · exact absurd range (Nat.lt_irrefl _)
    · exact List.mem_append_right _ mem
  refine (hold.framed.trans turns.framed start).trans last fun y mem range => ?_
  rcases List.mem_append.mp mem with mem | mem
  · exact List.mem_append_left _ (parted.ids y mem).1
  · rcases List.mem_cons.mp mem with rfl | mem
    · exact absurd range (Nat.lt_irrefl _)
    · exact List.mem_append_right _ ((cs_ids y mem).resolve_right (Nat.not_le_of_lt range))

/-- The other children of the host stand apart from the instance with the slot filled. -/
theorem Stocked.next {sub : Branch} {cs : List Branch} (stocked : Stocked s f light)
    (part : sub ∈ subsAll f.children)
    (refilled : Refilled s s₁ f sub.id (stuffing light name sub.children) cs) :
    Stocked s₁ (.node f.id f.stem (spliceAll sub.id cs f.children)) (others light name) := by
  obtain ⟨once, light_once, disjoint⟩ := List.nodup_append.mp stocked.once
  obtain ⟨-, others_once, parts⟩ :=
    List.nodup_append.mp ((light_perm light name).nodup_iff.mpr light_once)
  have out : ∀ y ∈ idsAll ((others light name).map (·.2)), y ∉ f.ids ∧
      y ∉ idsAll (stuffing light name sub.children) := by
    intro y mem
    have apart : y ∉ f.ids := fun inside => disjoint y inside y (mem_idsAll_others mem) rfl
    refine ⟨apart, fun inside => ?_⟩
    rw [stuffing] at inside
    split at inside
    · exact apart (mem_ids_of_children (ids_subset part (mem_ids_of_children inside)))
    · exact parts y inside y mem rfl
  have free : StandsAll s none ((others light name).map (·.2)) := standsAll_iff.mpr fun b mem => by
    obtain ⟨e, here, rfl⟩ := List.mem_map.mp mem
    exact standsAll_iff.mp stocked.free e.2 (List.mem_map_of_mem (List.mem_filter.mp here).1)
  refine ⟨refilled.stands, refilled.framed.standsAll free fun y mem inside => ?_,
    List.nodup_append.mpr ⟨refilled.once, others_once, fun y mem z mem' same => ?_⟩⟩
  · rcases List.mem_append.mp inside with inside | inside
    · exact (out y mem).1 inside
    · exact (out y mem).2 inside
  · subst same
    rcases List.mem_cons.mp mem with rfl | mem
    · exact (out _ mem').1 id_mem_ids
    · rcases mem_idsAll_splice _ mem with mem | mem
      · exact (out y mem').1 (mem_ids_of_children (mem_idsAll_of_idsButAll _ mem))
      · rcases refilled.ids y mem with mem | fresh
        · exact (out y mem').2 mem
        · exact Nat.not_le_of_lt (free.lt mem') fresh

theorem slot_filled {listed : List NodeId} (filling : Filling scene s f light ((name, x) :: rest))
    (tidy : Tidy s) (inside : s.arena.isBelow x f.id = true)
    (supplies : (Assoc.get? supplied name).getD [] = (assigned light name).map (·.id))
    (held : (holdContent supplied name x).run s = .ok holder s₁)
    (content : WithinSpec scene simple room s₁.arena.size holder s₁ s₂)
    (taken : (takeChildren holder).run s₂ = .ok listed s₃)
    (replaced : (modifyArena (·.replaceWith x listed)).run s₃ = .ok () s₄) :
    ∃ sub cs, sub.id = x ∧
      SlotFilled scene simple room s s₄ f (stuffing light name sub.children) sub cs := by
  obtain ⟨sub, part, rfl, slot, own, exposed⟩ :=
    filling.exposed (filling.stands.mem_of_isBelow tidy inside)
  have top : holder = s.arena.size := (holdContent_ok held).1
  obtain ⟨root_once, f', parted, hold⟩ := filling.stocked.held tidy part supplies held
  subst top
  have deep := hold.held.length_le root_once
  rw [Branch.ids, List.length_cons] at deep
  obtain ⟨cs, grows, settled⟩ :=
    content _ none hold.held rfl root_once (Nat.le_of_succ_le deep)
  have refilled := hold.refilled parted (fun y mem => filling.stands.lt mem) grows.turns taken replaced
  exact ⟨sub, cs, rfl, part, slot, own, exposed, refilled.stands, refilled.once,
    fun deep mem => (grows.comes deep mem).mono hold.framed.grown fun old mem => .of_mem mem,
    grows.slots, settled, refilled.framed, grows.means⟩

theorem SlotFilled.refilled {sub : Branch} {content cs : List Branch}
    (step : SlotFilled scene simple room s s₁ f content sub cs) :
    Refilled s s₁ f sub.id content cs :=
  ⟨step.stands, step.once, fun _ mem => mem_ids_of_comes step.comes mem, step.framed⟩

section
variable {sub : Branch} {cs : List Branch}

theorem mem_subsAll_assigned {deep : Branch} (mem : deep ∈ subsAll (assigned light name)) :
    deep ∈ subsAll (light.map (·.2)) := by
  obtain ⟨b, here, inside⟩ := mem_subsAll.mp mem
  obtain ⟨e, there, rfl⟩ := List.mem_map.mp here
  exact mem_subsAll.mpr ⟨e.2, List.mem_map_of_mem (List.mem_filter.mp there).1, inside⟩

theorem mem_subsAll_stuffing {deep : Branch}
    (mem : deep ∈ subsAll (stuffing light name sub.children)) :
    deep ∈ subsAll sub.children ∨ deep ∈ subsAll (assigned light name) := by
  rw [stuffing] at mem
  split at mem
  · exact .inl mem
  · exact .inr mem

theorem mem_subsAll_of_children {bs : List Branch} {deep : Branch} (part : sub ∈ subsAll bs)
    (mem : deep ∈ subsAll sub.children) : deep ∈ subsAll bs := by
  refine subsAll_trans bs part ?_
  rw [subs_eq]
  exact List.mem_cons_of_mem _ mem

variable (step : SlotFilled scene simple room s s₁ f (stuffing light name sub.children) sub cs)
include step

theorem SlotFilled.subs_after {deep : Branch}
    (mem : deep ∈ subsAll (spliceAll sub.id cs f.children)) :
    ComesFrom (f.children ++ light.map (·.2)) s.arena.size deep := by
  rcases mem_subsAll_splice f.children mem with ⟨old, here, same, stem, -⟩ | mem
  · refine .inr ⟨old, ?_, same, by rw [stem], by rw [stem]⟩
    rw [subsAll_append]
    exact List.mem_append_left _ here
  · refine (step.comes deep mem).mono (Nat.le_refl _) fun old mem => .of_mem ?_
    rw [subsAll_append, List.mem_append]
    exact (mem_subsAll_stuffing mem).imp (mem_subsAll_of_children step.part) mem_subsAll_assigned

theorem SlotFilled.slots_after (once : f.ids.Nodup) {slot : Slot}
    (mem : slot ∈ Branch.slots (spliceAll sub.id cs f.children)) :
    (slot ∈ Branch.slots f.children ∧ slot.1 ≠ sub.id) ∨
      slot ∈ Branch.slots (light.map (·.2)) ∨ BareSlot slot := by
  have once' := nodup_children once
  have covers : ∀ c : Content, c.isSlot → c.isPending scene.library := fun c slot => by
    rw [Content.isPending, slot, Bool.true_or]
  rcases slots_splice covers once' step.exposed mem with old | mem
  · exact .inl old
  · rcases step.slots slot mem with mem | bare
    · obtain ⟨deep, inside, is_slot, rfl⟩ := mem_slots.mp mem
      rcases mem_subsAll_stuffing inside with inside | inside
      · refine .inl ⟨mem_slots.mpr ⟨deep, mem_subsAll_of_children step.part inside, is_slot, rfl⟩, ?_⟩
        have sub_once := nodup_sub once' step.part
        rw [ids_eq, List.nodup_cons] at sub_once
        exact fun same => sub_once.1 (same ▸ id_mem_idsAll inside)
      · exact .inr (.inl (mem_slots.mpr ⟨deep, mem_subsAll_assigned inside, is_slot, rfl⟩))
    · exact .inr (.inr bare)

/-- After a slot has been filled, the next ones can be. -/
theorem Filling.next (filling : Filling scene s f light ((name, sub.id) :: rest)) :
    Filling scene s₁ (.node f.id f.stem (spliceAll sub.id cs f.children)) (others light name)
      rest := by
  have once := (List.nodup_append.mp filling.once).1
  have names := List.nodup_cons.mp filling.names
  have order := List.pairwise_cons.mp filling.order
  have stocked := filling.stocked.next step.part step.refilled
  refine ⟨stocked.stands, stocked.free, stocked.once, ?_, names.2, order.2,
    fun deep mem listed => ?_, fun slot mem y listed inside => ?_, fun y listed mem => ?_,
    fun y listed => ?_⟩
  · intro top front
    rcases mem_front_splice (nodup_children once) step.exposed front with ⟨front, -⟩ | front
    · exact filling.settled top front
    · exact step.settled top front
  · rcases step.subs_after mem with fresh | ⟨old, here, same, slot, own⟩
    · exact absurd fresh (Nat.not_le_of_lt (filling.known _ (List.mem_cons_of_mem _ listed)))
    · rw [← same] at listed
      rw [subsAll_append, List.mem_append] at here
      rcases here with here | here
      · obtain ⟨is_slot, owned⟩ := filling.own old here (List.mem_cons_of_mem _ listed)
        exact ⟨slot ▸ is_slot, own ▸ owned⟩
      · exact absurd (id_mem_idsAll here) (filling.apart _ (List.mem_cons_of_mem _ listed))
  · rcases step.slots_after once mem with ⟨mem, other⟩ | mem | bare
    · obtain ⟨listed, before⟩ := filling.nested slot mem y (List.mem_cons_of_mem _ listed) inside
      exact ⟨(List.mem_cons.mp listed).resolve_left other, before⟩
    · exact absurd (ids_subset_of_slot mem inside)
        (filling.apart y (List.mem_cons_of_mem _ listed))
    · rw [bare.2] at inside
      cases inside
  · exact filling.apart y (List.mem_cons_of_mem _ listed) (mem_idsAll_others mem)
  · exact Nat.lt_of_lt_of_le (filling.known y (List.mem_cons_of_mem _ listed)) step.framed.grown

/-- The nodes that have changed were those of the instance or of the children of its host. -/
theorem SlotFilled.ids_after {y : NodeId}
    (mem : y ∈ ids (.node f.id f.stem (spliceAll sub.id cs f.children))) :
    y ∈ f.ids ++ idsAll (light.map (·.2)) ∨ s.arena.size ≤ y := by
  rcases List.mem_cons.mp mem with rfl | mem
  · exact .inl (List.mem_append_left _ id_mem_ids)
  · obtain ⟨deep, here, rfl⟩ := mem_idsAll_iff_subs.mp mem
    rcases step.subs_after here with fresh | ⟨old, there, same, -⟩
    · exact .inr fresh
    · rw [subsAll_append, List.mem_append] at there
      rw [← same, List.mem_append]
      exact .inl (there.imp (fun h => mem_ids_of_children (id_mem_idsAll h)) id_mem_idsAll)

theorem SlotFilled.framed_after : Framed s s₁ (f.ids ++ idsAll (light.map (·.2))) := by
  refine step.framed.mono fun y mem => ?_
  rw [List.mem_append] at mem ⊢
  rcases mem with mem | mem
  · exact .inl mem
  · obtain ⟨deep, here, rfl⟩ := mem_idsAll_iff_subs.mp mem
    rcases mem_subsAll_stuffing here with here | here
    · exact .inl (mem_ids_of_children (id_mem_idsAll (mem_subsAll_of_children step.part here)))
    · exact .inr (id_mem_idsAll (mem_subsAll_assigned here))

/-- Filling a slot that stands for what it is filled with changes no meaning. -/
theorem SlotFilled.mean_after {depth above : Nat} {ρ : NodeId → List Tree} (h : simple)
    (once : f.ids.Nodup) (deep : room ≤ depth) (deep' : room ≤ above)
    (stuffed : Stuffed scene depth above ρ f light ((name, sub.id) :: rest)) :
    mean scene depth ρ (spliceAll sub.id cs f.children) = mean scene depth ρ f.children := by
  have clear : ∀ depth, Open (Sketch.make richValue? scene.library scene.document depth)
      (·.isPending scene.library) := fun depth => open_of_isPending fun _ pending => pending
  refine rewriteAll_splice (clear depth) (nodup_children once) step.exposed fun other mem same => ?_
  rw [eq_of_id_eq (nodup_children once) mem step.part same]
  have slot : (sub.id, true, sub.children) ∈ Branch.slots f.children :=
    mem_slots.mpr ⟨sub, step.part, step.isSlot, by rw [step.own]⟩
  have value := stuffed (name, sub.id) List.mem_cons_self sub.children slot
  have left : Sketch.rewrite (Sketch.make richValue? scene.library scene.document depth)
      (fun x => some (ρ x)) false sub.sketch = ρ sub.id := by
    rw [← node_eta sub, sketch, step.isSlot, step.own]
    rfl
  rw [left, value]
  have grown := step.means h
  rw [stuffing] at grown
  split
  · next blank =>
    rw [if_pos blank] at grown
    exact grown depth deep ρ
  · next more =>
    rw [if_neg more] at grown
    exact (rewriteAll_settled ρ (clear depth) (clear above) cs step.settled).trans
      (grown above deep' ρ)

end

theorem assigned_others {name' : String} (other : name' ≠ name) :
    assigned (others light name) name' = assigned light name' := by
  rw [assigned, assigned, others, List.filter_filter]
  congr 1
  refine List.filter_congr fun e _ => ?_
  by_cases own : e.1 = name'
  · simp [own, other]
  · simp [own]

/-- A slot that is below the instance is filled, and then the next ones. -/
theorem slots_cons {listed : List NodeId} (tidy : Tidy s)
    (inside : s.arena.isBelow x fragment = true)
    (held : (holdContent supplied name x).run s = .ok holder s₁)
    (content : WithinSpec scene simple room s₁.arena.size holder s₁ s₂)
    (taken : (takeChildren holder).run s₂ = .ok listed s₃)
    (replaced : (modifyArena (·.replaceWith x listed)).run s₃ = .ok () s₄)
    (tail : SlotsSpec scene simple room fragment supplied rest s₄ s') :
    SlotsSpec scene simple room fragment supplied ((name, x) :: rest) s s' := by
  rintro f light rfl filling supplies
  obtain ⟨sub, cs, rfl, step⟩ := slot_filled filling tidy inside
    (supplies name List.mem_cons_self) held content taken replaced
  have once := (List.nodup_append.mp filling.once).1
  have names := List.nodup_cons.mp filling.names
  have apart : ∀ e ∈ rest, e.1 ≠ name := fun e mem same =>
    names.1 (List.mem_map.mpr ⟨e, mem, same⟩)
  obtain ⟨ds, filled⟩ := tail (.node f.id f.stem (spliceAll sub.id cs f.children))
    (others light name) rfl (filling.next step) fun other mem => by
      obtain ⟨e, here, rfl⟩ := List.mem_map.mp mem
      rw [assigned_others (apart e here)]
      exact supplies e.1 (List.mem_cons_of_mem _ mem)
  have kept : ∀ {deep : Branch}, deep ∈ subsAll ((others light name).map (·.2)) →
      deep ∈ subsAll (light.map (·.2)) := by
    intro deep mem
    obtain ⟨b, here, inside⟩ := mem_subsAll.mp mem
    obtain ⟨e, there, rfl⟩ := List.mem_map.mp here
    exact mem_subsAll.mpr ⟨e.2, List.mem_map_of_mem (List.mem_filter.mp there).1, inside⟩
  have kept_slots : ∀ {slot : Slot}, slot ∈ Branch.slots ((others light name).map (·.2)) →
      slot ∈ Branch.slots (light.map (·.2)) := by
    intro slot mem
    obtain ⟨deep, here, is_slot, rfl⟩ := mem_slots.mp mem
    exact mem_slots.mpr ⟨deep, kept here, is_slot, rfl⟩
  refine ⟨ds, filled.stands, filled.once, fun deep mem => ?_, fun slot mem => ?_, filled.settled,
    step.framed_after.trans filled.framed fun y mem range => ?_,
    fun h depth above deep deep' ρ stuffed => ?_⟩
  · refine (filled.comes deep mem).mono step.framed.grown fun old mem => ?_
    rw [subsAll_append, List.mem_append] at mem
    rcases mem with mem | mem
    · exact step.subs_after mem
    · refine .of_mem ?_
      rw [subsAll_append]
      exact List.mem_append_right _ (kept mem)
  · rcases filled.slots slot mem with ⟨mem, out⟩ | mem | bare
    · refine (step.slots_after once mem).imp_left fun ⟨mem, other⟩ => ⟨mem, fun listed => ?_⟩
      exact (List.mem_cons.mp listed).elim other out
    · exact .inr (.inl (kept_slots mem))
    · exact .inr (.inr bare)
  · rcases List.mem_append.mp mem with mem | mem
    · exact (step.ids_after mem).resolve_right (Nat.not_le_of_lt range)
    · exact List.mem_append_right _ (mem_idsAll_others mem)
  · refine (filled.means h depth above deep deep' ρ fun e mem kids slot => ?_).trans
      (step.mean_after h once deep deep' stuffed)
    rw [assigned_others (apart e mem)]
    rcases step.slots_after once slot with ⟨slot, -⟩ | slot | bare
    · exact stuffed e (List.mem_cons_of_mem _ mem) kids slot
    · exact absurd (id_mem_of_slot slot)
        (filling.apart e.2 (List.mem_cons_of_mem _ (List.mem_map_of_mem mem)))
    · cases bare.1

end
end Stencil.Expansion
