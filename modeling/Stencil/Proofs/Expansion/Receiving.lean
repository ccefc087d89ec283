import Stencil.Proofs.Expansion.Slots
/-!
Changes of nodes that keep their places, and what an instance receives from its host: the values of
the attributes, and the children, each for the slot that it names.
-/
namespace Stencil
open Markup

namespace Markup

/-- A content whose element is changed. -/
def Content.mapElement (f : Element → Element) : Content → Content
  | .element e => .element (f e)
  | c => c

theorem Content.isSlot_mapElement {f : Element → Element} (named : ∀ e, (f e).name = e.name)
    (c : Content) : (c.mapElement f).isSlot = c.isSlot := by
  cases c with
  | element e => rw [mapElement, isSlot, isSlot, element?, element?, Option.any_some,
      Option.any_some, named]
  | root | text _ | comment _ | directive _ => rfl

theorem Content.withoutSlot_eq (c : Content) :
    c.withoutSlot = c.mapElement (·.eraseAttr "slot") := by
  cases c with
  | element e | root | text _ | comment _ | directive _ => rfl

@[simp] theorem Content.isSlot_withoutSlot (c : Content) : c.withoutSlot.isSlot = c.isSlot := by
  rw [withoutSlot_eq]
  exact isSlot_mapElement (f := (·.eraseAttr "slot")) (fun _ => rfl) c

@[simp] theorem Content.isBlank_withoutSlot (c : Content) : c.withoutSlot.isBlank = c.isBlank := by
  cases c with
  | element e | root | text _ | comment _ | directive _ => rfl

end Markup

namespace Branch

mutual

/-- The branch with other contents. -/
def restem (g : NodeId → Stem → Stem) : Branch → Branch
  | node id stem bs => node id (g id stem) (restemAll g bs)

def restemAll (g : NodeId → Stem → Stem) : List Branch → List Branch
  | [] => []
  | b :: bs => b.restem g :: restemAll g bs

end

section
variable {g : NodeId → Stem → Stem}

@[simp] theorem id_restem (b : Branch) : (b.restem g).id = b.id := by
  cases b
  rfl

theorem stem_restem (b : Branch) : (b.restem g).stem = g b.id b.stem := by
  cases b
  rfl

theorem children_restem (b : Branch) : (b.restem g).children = restemAll g b.children := by
  cases b
  rfl

theorem map_id_restemAll (bs : List Branch) : (restemAll g bs).map (·.id) = bs.map (·.id) := by
  induction bs with
  | nil => rfl
  | cons b bs ih => rw [restemAll, List.map_cons, List.map_cons, id_restem, ih]

mutual

@[simp] theorem ids_restem (b : Branch) : (b.restem g).ids = b.ids := by
  cases b with
  | node i stem bs => rw [restem, ids, ids, idsAll_restemAll bs]

@[simp] theorem idsAll_restemAll (bs : List Branch) : idsAll (restemAll g bs) = idsAll bs := by
  cases bs with
  | nil => rfl
  | cons b bs => rw [restemAll, idsAll, idsAll, ids_restem b, idsAll_restemAll bs]

end

mutual

theorem mem_subs_restem {sub : Branch} (b : Branch) (mem : sub ∈ (b.restem g).subs) :
    ∃ old ∈ b.subs, sub = old.restem g := by
  cases b with
  | node i stem bs =>
    rw [restem, subs, List.mem_cons] at mem
    rcases mem with rfl | mem
    · exact ⟨_, self_mem_subs, rfl⟩
    · obtain ⟨old, here, same⟩ := mem_subsAll_restem bs mem
      exact ⟨old, List.mem_cons_of_mem _ here, same⟩

theorem mem_subsAll_restem {sub : Branch} (bs : List Branch)
    (mem : sub ∈ subsAll (restemAll g bs)) : ∃ old ∈ subsAll bs, sub = old.restem g := by
  cases bs with
  | nil => cases mem
  | cons b bs =>
    rw [restemAll, subsAll, List.mem_append] at mem
    rcases mem with mem | mem
    · obtain ⟨old, here, same⟩ := mem_subs_restem b mem
      exact ⟨old, List.mem_append_left _ here, same⟩
    · obtain ⟨old, here, same⟩ := mem_subsAll_restem bs mem
      exact ⟨old, List.mem_append_right _ here, same⟩

end

mutual

theorem restem_eq (b : Branch) (same : ∀ id ∈ b.ids, ∀ stem, g id stem = stem) :
    b.restem g = b := by
  cases b with
  | node i stem bs =>
    rw [ids, List.forall_mem_cons] at same
    rw [restem, same.1, restemAll_eq bs same.2]

theorem restemAll_eq (bs : List Branch) (same : ∀ id ∈ idsAll bs, ∀ stem, g id stem = stem) :
    restemAll g bs = bs := by
  cases bs with
  | nil => rfl
  | cons b bs =>
    rw [idsAll, List.forall_mem_append] at same
    rw [restemAll, restem_eq b same.1, restemAll_eq bs same.2]

end

end
end Branch

/-- A change of a node that keeps its place: of its content, and of its values. -/
abbrev Touch := Content × Values → Content × Values

def Stem.touch (f : Touch) (stem : Stem) : Stem :=
  ⟨(f (stem.content, stem.rich)).1, (f (stem.content, stem.rich)).2, stem.own⟩

/-- The change of one node. -/
def Stem.touchAt (x : NodeId) (f : Touch) (id : NodeId) (stem : Stem) : Stem :=
  if id = x then stem.touch f else stem

theorem Branch.restemAll_touchAt {x : NodeId} {f : Touch} {bs : List Branch} (out : x ∉ idsAll bs) :
    restemAll (Stem.touchAt x f) bs = bs :=
  restemAll_eq bs fun id mem _ => if_neg fun same : id = x => out (same ▸ mem)

namespace Expansion
open Branch

/-- One node has changed, and has kept its place. -/
structure Touches (s s' : Expansion) (x : NodeId) (f : Touch) : Prop where
  size : s'.arena.size = s.arena.size
  look : ∀ y, s'.look y = if y = x then
    ({ s.arena.node y with content := (f (s.arena.content y, (s.look y).2)).1 },
      (f (s.arena.content y, (s.look y).2)).2) else s.look y

section
variable {s s₁ s' : Expansion} {x : NodeId} {f g : Touch} {p : Option NodeId} {b : Branch}
  {bs : List Branch}

theorem Touches.comp (first : Touches s s₁ x f) (second : Touches s₁ s' x g) :
    Touches s s' x (g ∘ f) := by
  refine ⟨second.size.trans first.size, fun y => ?_⟩
  have before := first.look y
  rw [second.look]
  split
  · next own =>
    rw [if_pos own] at before
    have node : s₁.arena.node y = _ := congrArg (·.1) before
    rw [before, Arena.content, node]
    rfl
  · next other =>
    rw [if_neg other] at before
    exact before

theorem Touches.framed (touches : Touches s s' x f) {own : List NodeId} (mem : x ∈ own) :
    Framed s s' own :=
  ⟨Nat.le_of_eq touches.size.symm, fun y _ out => by
    rw [touches.look, if_neg fun same : y = x => out (same ▸ mem)]⟩

mutual

theorem Touches.stands (b : Branch) {p : Option NodeId} (touches : Touches s s' x f)
    (stands : Stands s p b) : Stands s' p (b.restem (Stem.touchAt x f)) := by
  cases b with
  | node i stem bs =>
    have here := stands.look_eq
    have node : s.arena.node i = ⟨stem.content, p, bs.map (·.id)⟩ := congrArg (·.1) here
    have rich : (s.look i).2 = stem.rich := congrArg (·.2) here
    rw [restem, stands_node]
    refine ⟨⟨touches.size ▸ stands.lt id_mem_ids, ?_⟩, touches.standsAll bs stands.children⟩
    rw [touches.look, Stem.touchAt, map_id_restemAll]
    split
    · rw [Arena.content, node, rich]
      rfl
    · exact here

theorem Touches.standsAll (bs : List Branch) {p : Option NodeId} (touches : Touches s s' x f)
    (stands : StandsAll s p bs) : StandsAll s' p (restemAll (Stem.touchAt x f) bs) := by
  cases bs with
  | nil => exact standsAll_nil
  | cons b bs =>
    obtain ⟨head, tail⟩ := standsAll_cons.mp stands
    exact standsAll_cons.mpr ⟨touches.stands b head, touches.standsAll bs tail⟩

end

/-- Other branches are left as they are. -/
theorem Touches.standsAll_of_not_mem (touches : Touches s s' x f) (stands : StandsAll s p bs)
    (out : x ∉ idsAll bs) : StandsAll s' p bs := by
  have touched := touches.standsAll bs stands
  rwa [restemAll_touchAt out] at touched

/-- The top of a branch changes. -/
theorem Touches.stands_top (touches : Touches s s' b.id f) (stands : Stands s p b)
    (once : b.ids.Nodup) : Stands s' p (.node b.id (b.stem.touch f) b.children) := by
  cases b with
  | node i stem bs =>
    have touched := touches.stands _ stands
    rw [Branch.id, restem, restemAll_touchAt (List.nodup_cons.mp once).1, Stem.touchAt,
      if_pos rfl] at touched
    exact touched

/-- The change of an element. -/
def touchElement (f : Element → Element) : Touch := fun (c, r) => (c.mapElement f, r)

theorem touches_modifyElement {f : Element → Element} {s' : Expansion}
    (run : (modifyArena (·.modifyElement x f)).run s = .ok () s') :
    Touches s s' x (touchElement f) := by
  obtain ⟨arena, rich⟩ := modifyArena_ok run
  refine ⟨by rw [arena, Arena.size_modifyElement], fun y => ?_⟩
  rw [look, look, arena, rich, Arena.node_modifyElement, Arena.element?, Arena.content]
  cases node : s.arena.node y with
  | mk c parent kids =>
    cases c with
    | element e =>
      dsimp only [Content.element?, touchElement, Content.mapElement]
      split
      · rfl
      · rfl
    | root | text _ | comment _ | directive _ =>
      dsimp only [Content.element?, touchElement, Content.mapElement]
      split
      · rfl
      · rfl

end

/-! ### What an instance receives -/

/-- A child of a host without its `slot` attribute. -/
def freed (b : Branch) : Branch :=
  .node b.id { b.stem with content := b.stem.content.withoutSlot } b.children

/-- The children of a host, each with the slot that it names. -/
def lightOf (bs : List Branch) : List (String × Branch) :=
  bs.map fun b => (b.stem.content.slotName, freed b)

section
variable {s s' : Expansion} {p : Option NodeId} {b : Branch} {bs : List Branch} {x : NodeId}

theorem ids_freed (b : Branch) : (freed b).ids = b.ids := by
  rw [freed, ids, ids_eq]

theorem map_freed (bs : List Branch) : (lightOf bs).map (·.2) = bs.map freed := by
  rw [lightOf, List.map_map]
  rfl

@[simp] theorem idsAll_lightOf (bs : List Branch) :
    idsAll ((lightOf bs).map (·.2)) = idsAll bs := by
  rw [map_freed]
  induction bs with
  | nil => rfl
  | cons b bs ih => rw [List.map_cons, idsAll, idsAll, ids_freed, ih]

/-- Without their `slot` attributes, the children of a host have the same nodes and the same slots. -/
theorem mem_subsAll_lightOf {sub : Branch} (mem : sub ∈ subsAll ((lightOf bs).map (·.2))) :
    ∃ old ∈ subsAll bs, old.id = sub.id ∧ old.stem.content.isSlot = sub.stem.content.isSlot ∧
      old.stem.own = sub.stem.own ∧ old.children = sub.children := by
  obtain ⟨top, here, inside⟩ := mem_subsAll.mp mem
  rw [map_freed, List.mem_map] at here
  obtain ⟨b, there, rfl⟩ := here
  rw [subs_eq, List.mem_cons] at inside
  rcases inside with rfl | inside
  · exact ⟨b, mem_subsAll.mpr ⟨b, there, self_mem_subs⟩, rfl,
      (Content.isSlot_withoutSlot _).symm, rfl, rfl⟩
  · refine ⟨sub, mem_subsAll.mpr ⟨b, there, ?_⟩, rfl, rfl, rfl, rfl⟩
    rw [subs_eq]
    exact List.mem_cons_of_mem _ inside

theorem mem_slots_lightOf {slot : Slot} (mem : slot ∈ slots ((lightOf bs).map (·.2))) :
    slot ∈ slots bs := by
  obtain ⟨sub, here, is_slot, rfl⟩ := mem_slots.mp mem
  obtain ⟨old, there, same, slot, own, kids⟩ := mem_subsAll_lightOf here
  exact mem_slots.mpr ⟨old, there, slot ▸ is_slot, by rw [same, own, kids]⟩

theorem lookup_filter (rich : List (NodeId × Values)) (host y : NodeId) :
    (rich.filter (·.1 != host)).lookup y = if y = host then none else rich.lookup y := by
  induction rich with
  | nil => simp
  | cons e rest ih =>
    obtain ⟨x, v⟩ := e
    rw [List.filter_cons]
    by_cases other : x = host
    · rw [if_neg (by simp [other]), ih, List.lookup_cons]
      split
      · rfl
      · next ne =>
        rw [show (y == x) = false by simpa [other] using ne]
    · rw [if_pos (by simpa using other), List.lookup_cons, List.lookup_cons, ih]
      by_cases own : y = x
      · simp [own, other]
      · rw [show (y == x) = false by simpa using own]

theorem mergeHost_ok {host : NodeId} {values values' : Values} {e : Element}
    (found : s.arena.element? host = some e)
    (run : (mergeHost host values).run s = .ok values' s') :
    values' = (hostValues e (s.look host).2).foldl putHostValue values ∧
      Touches s s' host fun (c, _) => (c, []) := by
  rw [mergeHost, run_get_bind, found] at run
  cases run
  refine ⟨rfl, rfl, fun y => ?_⟩
  rw [look, look]
  dsimp only
  rw [lookup_filter]
  split
  · next own => rfl
  · rfl

/-- Sorting the children of a host takes away their `slot` attributes. -/
theorem sort_ok {slots slots' : Assoc (List NodeId)} (stands : StandsAll s none bs)
    (once : (idsAll bs).Nodup)
    (run : ((bs.map (·.id)).foldlM (fun slots id => do
      let a := (← get).arena
      let name := slotName ((a.element? id).bind fun e => (e.attribute? "slot").bind (·.value))
      modifyArena (·.modifyElement id (·.eraseAttr "slot"))
      return slots.put name ((Assoc.get? slots name).getD [] ++ [id])) slots : Expand _).run s =
        .ok slots' s') :
    StandsAll s' none ((lightOf bs).map (·.2)) ∧ Framed s s' (idsAll bs) ∧
      ∀ name, (Assoc.get? slots' name).getD [] =
        (Assoc.get? slots name).getD [] ++ (assigned (lightOf bs) name).map (·.id) := by
  induction bs generalizing s slots with
  | nil =>
    cases run
    exact ⟨standsAll_nil, .refl _ _, fun name => by simp [lightOf, assigned]⟩
  | cons b bs ih =>
    obtain ⟨head, tail⟩ := standsAll_cons.mp stands
    rw [idsAll, List.nodup_append] at once
    obtain ⟨head_once, tail_once, disjoint⟩ := once
    rw [List.map_cons, List.foldlM_cons] at run
    obtain ⟨slots₁, s₁, first, rest⟩ := eq_ok_of_bind run
    rw [run_get_bind] at first
    obtain ⟨_, s₂, touched, last⟩ := eq_ok_of_bind first
    cases last
    have touches := touches_modifyElement touched
    have out : b.id ∉ idsAll bs := fun mem => disjoint _ id_mem_ids _ mem rfl
    obtain ⟨placed, framed, sorted⟩ := ih (touches.standsAll_of_not_mem tail out) tail_once rest
    have top := touches.stands_top head head_once
    have freed_eq : Branch.node b.id (b.stem.touch (touchElement (·.eraseAttr "slot"))) b.children =
        freed b := by
      rw [freed, Stem.touch, touchElement, Content.withoutSlot_eq]
    rw [freed_eq] at top
    refine ⟨?_, (touches.framed (List.mem_append_left _ id_mem_ids)).trans framed
      fun y mem _ => List.mem_append_right _ mem, fun name => ?_⟩
    · rw [lightOf, List.map_cons, List.map_cons, standsAll_cons]
      refine ⟨framed.stands top fun y mem inside => ?_, placed⟩
      rw [ids_freed] at mem
      exact disjoint y mem y inside rfl
    · rw [sorted name, Assoc.get?_put, Arena.element?, head.content]
      have named : (assigned (lightOf (b :: bs)) name).map (·.id) =
          (if b.stem.content.slotName = name then [b.id] else []) ++
            (assigned (lightOf bs) name).map (·.id) := by
        rw [assigned, lightOf, List.map_cons, List.filter_cons]
        by_cases own : b.stem.content.slotName = name
        · simp [own, freed, assigned, lightOf, Branch.id]
        · simp [own, assigned, lightOf]
      rw [named, ← List.append_assoc]
      congr 1
      by_cases own : name = b.stem.content.slotName
      · rw [if_pos own.symm, own]
        exact if_pos rfl ▸ rfl
      · rw [if_neg (Ne.symm own), List.append_nil]
        exact if_neg own ▸ rfl

/-- An instance takes the values of its host, and the children of the host without their `slot`
attributes. The host is left empty. -/
structure Received (document : Values) (s s' : Expansion) (p : Option NodeId) (b : Branch)
    (values : Values) (supplied : Assoc (List NodeId)) : Prop where
  values : ∀ e, b.stem.content = .element e → values = Sketch.hostValues document e b.stem.rich
  host : Stands s' p (.node b.id ⟨b.stem.content, [], b.stem.own⟩ [])
  light : StandsAll s' none ((lightOf b.children).map (·.2))
  supplies : ∀ name,
    (Assoc.get? supplied name).getD [] = (assigned (lightOf b.children) name).map (·.id)
  framed : Framed s s' b.ids
  rich : ∀ y, y ≠ b.id → (s'.look y).2 = (s.look y).2

theorem receive_ok {scene : Scene} {values : Values} {supplied : Assoc (List NodeId)}
    (stands : Stands s p b) (once : b.ids.Nodup) (custom : b.stem.content.isCustom)
    (run : (receive scene (some b.id)).run s = .ok (values, supplied) s') :
    Received scene.document s s' p b values supplied := by
  rw [receive] at run
  obtain ⟨merged, s₁, merge, rest⟩ := eq_ok_of_bind run
  obtain ⟨slots, s₂, partition, last⟩ := eq_ok_of_bind rest
  cases last
  rw [partitionSlots] at partition
  obtain ⟨listed, s₃, taken, sorted⟩ := eq_ok_of_bind partition
  obtain ⟨e, found⟩ : ∃ e, b.stem.content = .element e := by
    cases content : b.stem.content with
    | element e => exact ⟨e, rfl⟩
    | root | text _ | comment _ | directive _ => rw [content] at custom; cases custom
  have element : s.arena.element? b.id = some e := by
    rw [Arena.element?, stands.content, found]
    rfl
  obtain ⟨merged_eq, touches⟩ := mergeHost_ok element merge
  have rich : (s.look b.id).2 = b.stem.rich := congrArg (·.2) stands.look_eq
  have stands₁ := touches.stands_top stands once
  obtain ⟨listed_eq, arena, same⟩ := takeChildren_ok taken
  have kept : s'.rich = s₃.rich := by
    refine Preserves.of_ok (I := fun t => t.rich = s₃.rich) (preserves_foldlM (fun _ _ => ?_) _ _)
      rfl sorted
    exact preserves_bind preserves_get fun _ => preserves_bind (fun _ same => same) fun _ =>
      preserves_pure _
  rw [show s₁.arena.children b.id = _ from stands₁.children_eq] at listed_eq
  obtain ⟨free, emptied, others⟩ := stands_takeChildren stands₁ (by rwa [ids_eq] at once ⊢) arena same
  have size : s₃.arena.size = s₁.arena.size := by rw [arena, Arena.size_takeChildren]
  rw [ids_eq, List.nodup_cons] at once
  rw [listed_eq] at sorted
  obtain ⟨placed, framed, supplies⟩ := sort_ok free once.2 sorted
  refine ⟨fun e' content => ?_, framed.stands emptied fun y mem inside => ?_, placed, fun name => ?_, ?_,
    fun y other => ?_⟩
  · rw [found, Content.element.injEq] at content
    rw [merged_eq, rich, content, Sketch.hostValues]
  · rw [ids, idsAll, List.mem_singleton] at mem
    exact once.1 (mem ▸ inside)
  · rw [supplies name]
    rfl
  · have moved : Framed s₁ s₃ b.ids := by
      refine ⟨Nat.le_of_eq size.symm, fun y _ out => others y ?_⟩
      rwa [ids_eq] at out ⊢
    have sorted : Framed s₃ s' b.ids := framed.mono fun y mem => mem_ids_of_children mem
    exact (touches.framed id_mem_ids).trans (moved.trans sorted fun y mem _ => mem)
      fun y mem _ => mem
  · rw [look, kept, same]
    exact (congrArg (·.2) (touches.look y)).trans (by rw [if_neg other])

end
end Expansion
end Stencil
