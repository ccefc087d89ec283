import Stencil.Proofs.Expansion.Texts
/-!
Making an instance. When its values have been put in, its slots stand for what they are going to be
filled with; from then on every step leaves the trees that the instance is rewritten to.
-/
namespace Stencil
open Markup

namespace Branch
variable {bs : List Branch}

mutual

theorem mem_holes_sketch {hole : NodeId × List (Sketch NodeId)} (b : Branch)
    (mem : hole ∈ b.sketch.holes) :
    ∃ sub ∈ b.subs, sub.stem.content.isSlot ∧ sub.stem.own ∧ hole = (sub.id, sketches sub.children) := by
  cases b with
  | node i stem bs =>
    rw [sketch, Sketch.holes, List.mem_append] at mem
    rcases mem with mem | mem
    · split at mem
      · next both =>
        rw [Bool.and_eq_true] at both
        refine ⟨node i stem bs, self_mem_subs, both.2, both.1, ?_⟩
        rw [Branch.id, children]
        simpa using mem
      · cases mem
    · obtain ⟨sub, inside, found⟩ := mem_holesAll_sketches bs mem
      exact ⟨sub, List.mem_cons_of_mem _ inside, found⟩

/-- The slots to fill are those of instances that are being made. -/
theorem mem_holesAll_sketches {hole : NodeId × List (Sketch NodeId)} (bs : List Branch)
    (mem : hole ∈ Sketch.holesAll (sketches bs)) :
    ∃ sub ∈ subsAll bs, sub.stem.content.isSlot ∧ sub.stem.own ∧
      hole = (sub.id, sketches sub.children) := by
  cases bs with
  | nil => cases mem
  | cons b bs =>
    rw [sketches, Sketch.holesAll, List.mem_append] at mem
    rw [subsAll]
    rcases mem with mem | mem
    · obtain ⟨sub, inside, found⟩ := mem_holes_sketch b mem
      exact ⟨sub, List.mem_append_left _ inside, found⟩
    · obtain ⟨sub, inside, found⟩ := mem_holesAll_sketches bs mem
      exact ⟨sub, List.mem_append_right _ inside, found⟩

end

/-- What stands below a node of branches. -/
def kidsOf (bs : List Branch) (x : NodeId) : List Branch :=
  (((subsAll bs).find? (·.id = x)).map (·.children)).getD []

theorem kidsOf_eq {sub : Branch} (once : (idsAll bs).Nodup) (mem : sub ∈ subsAll bs) :
    kidsOf bs sub.id = sub.children := by
  rw [kidsOf]
  cases found : (subsAll bs).find? (·.id = sub.id) with
  | none =>
    have other := List.find?_eq_none.mp found sub mem
    simp at other
  | some other =>
    have same : other.id = sub.id := by simpa using List.find?_some found
    rw [eq_of_id_eq once (List.mem_of_find?_eq_some found) mem same]
    rfl

end Branch

namespace Expansion
open Branch

section
variable {scene : Scene} {depth : Nat} {ρ ρ' : NodeId → List Tree} {bs : List Branch}
  {make : Sketch.Maker} {fill : NodeId → Option (List Tree)}

/-- Only slots to fill decide what an assignment is good for. -/
theorem mean_agree (agree : ∀ x kids, (x, true, kids) ∈ slots bs → ρ x = ρ' x) :
    mean scene depth ρ bs = mean scene depth ρ' bs := by
  refine Sketch.rewriteAll_agree _ fun hole mem => ?_
  obtain ⟨sub, inside, slot, own, rfl⟩ := mem_holesAll_sketches bs mem
  exact agree sub.id sub.children (mem_slots.mpr ⟨sub, inside, slot, by rw [own]⟩)

/-! ### What slots are given -/

/-- The trees that a slot is given from branches; blanks alone do not count. -/
def supply (scene : Scene) (depth : Nat) (ρ : NodeId → List Tree) (light : List (String × Branch))
    (name : String) : Option (List Tree) :=
  if Blank (assigned light name) then none else some (mean scene depth ρ (assigned light name))

theorem rewrite_freed (b : Branch) :
    Sketch.rewrite make fill false (freed b).sketch = Sketch.rewrite make fill true b.sketch := by
  cases b with
  | node i stem bs =>
    rw [freed, sketch, sketch, Branch.id, Branch.stem, Branch.children, Content.isSlot_withoutSlot]
    split
    · rfl
    · rw [Sketch.rewrite, Sketch.rewrite]
      rfl

/-- The children of a host, as slots get them, are the branches without their `slot` attributes. -/
theorem content_lights (name : String) :
    Light.content (Sketch.lights make fill (sketches bs)) name =
      if Blank (assigned (lightOf bs) name) then none
      else some (Sketch.rewriteAll make fill (sketches (assigned (lightOf bs) name))) := by
  have both : ((Sketch.lights make fill (sketches bs)).filter (·.slot = name)).all (·.blank) =
        Blank (assigned (lightOf bs) name) ∧
      ((Sketch.lights make fill (sketches bs)).filter (·.slot = name)).flatMap (·.trees) =
        Sketch.rewriteAll make fill (sketches (assigned (lightOf bs) name)) := by
    induction bs with
    | nil => exact ⟨rfl, rfl⟩
    | cons b bs ih =>
      have lit : Sketch.lights make fill (sketches (b :: bs)) =
          ⟨b.stem.content.slotName, b.stem.content.isBlank, Sketch.rewrite make fill true b.sketch⟩ ::
            Sketch.lights make fill (sketches bs) := by
        cases b
        rfl
      have named : assigned (lightOf (b :: bs)) name =
          (if b.stem.content.slotName = name then [freed b] else []) ++
            assigned (lightOf bs) name := by
        rw [assigned, lightOf, List.map_cons, List.filter_cons]
        by_cases own : b.stem.content.slotName = name
        · simp [own, assigned, lightOf]
        · simp [own, assigned, lightOf]
      rw [lit, named, List.filter_cons]
      by_cases own : b.stem.content.slotName = name
      · have blank : (freed b).stem.content.isBlank = b.stem.content.isBlank :=
          Content.isBlank_withoutSlot _
        rw [if_pos (by simpa using own), if_pos own, List.all_cons, List.flatMap_cons, ih.1, ih.2,
          List.singleton_append, sketches, Sketch.rewriteAll, rewrite_freed, Blank, Blank,
          List.all_cons, blank]
        exact ⟨rfl, rfl⟩
      · rw [if_neg (by simpa using own), if_neg own]
        exact ih
  rw [Light.content, both.1, both.2]

/-! ### What slots stand for -/

/-- The slots of an instance stand for what they are given, or for what stands in them. -/
def standFor (make : Sketch.Maker) (fill : NodeId → Option (List Tree)) (bs : List Branch)
    (pending : List NodeId) (ρ : NodeId → List Tree) (x : NodeId) : List Tree :=
  if x ∈ pending then (fill x).getD (Sketch.rewriteAll make fill (sketches (kidsOf bs x))) else ρ x

/-- The assignment says what the slots are filled with. -/
theorem rewriteAll_standFor {pending : List NodeId} {cs : List Branch} (once : (idsAll bs).Nodup)
    (owned : ∀ x kids, (x, true, kids) ∈ slots bs → x ∈ pending)
    (part : ∀ sub ∈ subsAll cs, sub ∈ subsAll bs) :
    Sketch.rewriteAll make fill (sketches cs) =
      Sketch.rewriteAll make (fun x => some (standFor make fill bs pending ρ x)) (sketches cs) := by
  refine Sketch.rewriteAll_agree _ fun hole mem => ?_
  obtain ⟨sub, inside, slot, own, rfl⟩ := mem_holesAll_sketches cs mem
  have here := part sub inside
  have listed := owned sub.id sub.children (mem_slots.mpr ⟨sub, here, slot, by rw [own]⟩)
  rw [Sketch.Agree, Option.getD_some, standFor, if_pos listed, kidsOf_eq once here]

theorem nameOf_eq {slots : List (String × NodeId)} (once : (slots.map (·.2)).Nodup)
    {e : String × NodeId} (mem : e ∈ slots) : nameOf slots e.2 = e.1 := by
  have found : (slots.filter (·.2 = e.2)).head? = some e := by
    induction slots with
    | nil => cases mem
    | cons first rest ih =>
      rw [List.map_cons, List.nodup_cons] at once
      rw [List.filter_cons]
      rcases List.mem_cons.mp mem with rfl | mem
      · rw [if_pos (by simp)]
        rfl
      · have other : first.2 ≠ e.2 := fun same => once.1 (List.mem_map.mpr ⟨e, mem, same.symm⟩)
        rw [if_neg (by simpa using other)]
        exact ih once.2 mem
  rw [nameOf, found]
  rfl

end

/-! ### The instance -/

section
variable {scene : Scene} {simple : Prop} {left : Nat} {s s₁ s₂ s₃ s₄ s' : Expansion} {c : Component}
  {o : Opened} {context : String} {f : Branch} {cs ds : List Branch} {first last : NodeId}
  {light : List (String × Branch)} {sites : List (String × NodeId)}
  {refs : List (String × String)}

/-- An instance whose values have been put in is the component with the values. -/
theorem ready (opened : OpenedAs s s₁ c o f)
    (texts : TextsSpec simple o.values o.sites.texts s₁ s₂)
    (bound : (bindRefs c context o).run s₂ = .ok refs s₃) (silent : simple → o.client = none) :
    ∃ f, Prepared s₃ s.arena.size (s.arena.size + c.document.tree.size) (o.sites.slots.map (·.2)) f ∧
      Framed s s₃ [] ∧
      (simple → Sketch.mapAll (nameOf o.sites.slots) (sketches f.children) =
        Sketch.fillTrees richValue? o.values false c.document.tree.children) := by
  obtain ⟨f₁, filled, same⟩ := texts _ _ _ f _ opened.prepared opened.workable rfl rfl
  obtain ⟨f₂, worked, done⟩ := worked_bindRefs o.values filled.prepared filled.workable bound
  refine ⟨f₂, worked.prepared, opened.framed.trans (filled.trans worked).framed fun x mem range => ?_,
    fun h => ?_⟩
  · exact absurd (opened.prepared.low x mem) (Nat.not_le_of_lt range)
  · rw [done (silent h), same h]
    exact opened.finish

/-- Where the nodes of an instance are from after hosts in it have been expanded. -/
theorem Prepared.ids_of_grows (prepared : Prepared s₃ first last (sites.map (·.2)) f)
    (grows : Grows scene simple left s₃ s₄ none f cs) {x : NodeId}
    (mem : x ∈ ids (.node f.id f.stem cs)) : first ≤ x := by
  rcases List.mem_cons.mp mem with rfl | mem
  · exact prepared.low _ id_mem_ids
  · rcases grows.ids mem with mem | fresh
    · exact prepared.low x (mem_ids_of_children mem)
    · exact Nat.le_trans (prepared.low _ id_mem_ids)
        (Nat.le_trans (Nat.le_of_lt (prepared.stands.lt id_mem_ids)) fresh)

/-- The slots of the instance can be filled. -/
theorem filling_of_grows (prepared : Prepared s₃ first last (sites.map (·.2)) f)
    (grows : Grows scene simple left s₃ s₄ none f cs) (settled : Settled scene.library cs)
    (names : (sites.map (·.1)).Nodup) (order : (sites.map (·.2)).Pairwise (· < ·))
    (late : ∀ x ∈ sites.map (·.2), first ≤ x) (free : StandsAll s₄ none (light.map (·.2)))
    (once : (idsAll (light.map (·.2))).Nodup) (early : ∀ x ∈ idsAll (light.map (·.2)), x < first) :
    Filling scene s₄ (.node f.id f.stem cs) light sites := by
  have known : ∀ x ∈ sites.map (·.2), x < s₃.arena.size := fun x mem =>
    Nat.lt_of_lt_of_le (prepared.known x mem) prepared.grown
  refine ⟨grows.stands, free, ?_, settled, names, order, fun sub mem listed => ?_,
    fun slot mem x listed inside => ?_, fun x mem inside => ?_,
    fun x mem => Nat.lt_of_lt_of_le (known x mem) grows.framed.grown⟩
  · refine List.nodup_append.mpr ⟨grows.once, once, fun x mem y mem' same => ?_⟩
    exact Nat.not_le_of_lt (early y mem') (same ▸ prepared.ids_of_grows grows mem)
  · rcases grows.comes sub mem with fresh | ⟨old, here, same, slot, own⟩
    · exact absurd fresh (Nat.not_le_of_lt (known _ listed))
    · obtain ⟨is_slot, owned⟩ := prepared.own old here (same ▸ listed)
      exact ⟨slot ▸ is_slot, own ▸ owned⟩
  · rcases grows.slots slot mem with mem | bare
    · obtain ⟨sub, here, is_slot, rfl⟩ := mem_slots.mp mem
      refine ⟨(prepared.slots _ mem).resolve_right fun bare => ?_,
        prepared.order sub here x inside (prepared.known x listed)⟩
      rw [show sub.children = [] from bare.2] at inside
      cases inside
    · rw [bare.2] at inside
      cases inside
  · exact Nat.not_le_of_lt (early x inside) (late x mem)

/-- The slots that an instance is left with are those of the children of its host, or hold nothing. -/
theorem slots_of_filled (prepared : Prepared s₃ first last (sites.map (·.2)) f)
    (grows : Grows scene simple left s₃ s₄ none f cs)
    (filled : Filled scene simple left s₄ s' (.node f.id f.stem cs) light sites ds) {slot : Slot}
    (mem : slot ∈ slots ds) : slot ∈ slots (light.map (·.2)) ∨ BareSlot slot := by
  rcases filled.slots slot mem with ⟨mem, out⟩ | mem | bare
  · rcases grows.slots slot mem with mem | bare
    · exact .inr ((prepared.slots slot mem).resolve_left out)
    · exact .inr bare
  · exact .inl mem
  · exact .inr bare

theorem nodup_of_lt {xs : List NodeId} (order : xs.Pairwise (· < ·)) : xs.Nodup :=
  order.imp fun less => Nat.ne_of_lt less

/-- Filling the slots of an instance gives it the trees of the component with the values and with the
content of the slots. -/
theorem mean_of_filled (h : simple) (prepared : Prepared s₃ first last (sites.map (·.2)) f)
    (grows : Grows scene simple left s₃ s₄ none f cs)
    (filled : Filled scene simple left s₄ s' (.node f.id f.stem cs) light sites ds)
    (order : (sites.map (·.2)).Pairwise (· < ·)) (late : ∀ x ∈ sites.map (·.2), first ≤ x)
    (early : ∀ x ∈ idsAll (light.map (·.2)), x < first) {depth : Nat} (deep : left ≤ depth)
    (ρ : NodeId → List Tree) :
    mean scene (depth + 1) ρ ds =
      Sketch.rewriteAll (Sketch.make richValue? scene.library scene.document depth)
        (supply scene (depth + 1) ρ light) (Sketch.mapAll (nameOf sites) (sketches f.children)) := by
  have once := nodup_children prepared.once
  have owned : ∀ x kids, (x, true, kids) ∈ slots f.children → x ∈ sites.map (·.2) :=
    fun x kids mem => (prepared.slots _ mem).resolve_right fun bare => Bool.noConfusion bare.1
  -- the slots stand for what they are going to be filled with
  let make := Sketch.make richValue? scene.library scene.document depth
  let fill : NodeId → Option (List Tree) := supply scene (depth + 1) ρ light ∘ nameOf sites
  let σ := standFor make fill f.children (sites.map (·.2)) ρ
  have outside : ∀ x kids, (x, true, kids) ∈ slots (light.map (·.2)) → σ x = ρ x := by
    intro x kids mem
    have out : x ∉ sites.map (·.2) := fun listed =>
      Nat.not_le_of_lt (early x (id_mem_of_slot mem)) (late x listed)
    exact if_neg out
  have stuffed : Stuffed scene depth (depth + 1) σ (.node f.id f.stem cs) light sites := by
    intro e mem kids slot
    have here : (e.2, true, kids) ∈ slots f.children :=
      (grows.slots _ slot).resolve_right fun bare => Bool.noConfusion bare.1
    obtain ⟨sub, inside, -, same⟩ := mem_slots.mp here
    injection same with id same
    injection same with own same
    have named : nameOf sites e.2 = e.1 := nameOf_eq (nodup_of_lt order) mem
    have value : σ e.2 = (fill e.2).getD (Sketch.rewriteAll make fill (sketches kids)) := by
      have kids_eq : kidsOf f.children e.2 = kids := by
        rw [← id, kidsOf_eq once inside, same]
      rw [← kids_eq]
      exact if_pos (List.mem_map_of_mem mem)
    have kept : Sketch.rewriteAll make fill (sketches kids) = mean scene depth σ kids :=
      rewriteAll_standFor once owned fun deep mem =>
        mem_subsAll_of_children inside (same ▸ mem)
    have given : mean scene (depth + 1) ρ (assigned light e.1) =
        mean scene (depth + 1) σ (assigned light e.1) := by
      refine mean_agree fun x inner mem => (outside x inner ?_).symm
      obtain ⟨deep, inside, is_slot, same⟩ := mem_slots.mp mem
      exact mem_slots.mpr ⟨deep, mem_subsAll_assigned inside, is_slot, same⟩
    rw [value, kept]
    have supplied : fill e.2 = supply scene (depth + 1) ρ light e.1 :=
      congrArg (supply scene (depth + 1) ρ light) named
    rw [supplied, supply]
    split
    · rfl
    · exact given
  have clear : ∀ depth, Open (Sketch.make richValue? scene.library scene.document depth)
      (·.isPending scene.library) := fun depth => open_of_isPending fun _ pending => pending
  calc mean scene (depth + 1) ρ ds
      = mean scene (depth + 1) σ ds := mean_agree fun x kids mem => by
        rcases slots_of_filled prepared grows filled mem with mem | bare
        · exact (outside x kids mem).symm
        · exact Bool.noConfusion bare.1
    _ = mean scene depth σ ds := rewriteAll_settled σ (clear _) (clear _) ds filled.settled
    _ = mean scene depth σ cs :=
        filled.means h depth (depth + 1) deep (Nat.le_succ_of_le deep) σ stuffed
    _ = mean scene depth σ f.children := grows.means h depth deep σ
    _ = Sketch.rewriteAll make fill (sketches f.children) :=
        (rewriteAll_standFor once owned fun _ mem => mem).symm
    _ = _ := (Sketch.rewriteAll_mapAll _).symm

/-- An instance has been made, from the component and from the children of the host. -/
theorem made_of_light (light : List (String × Branch)) (opened : OpenedAs s s₁ c o f)
    (texts : TextsSpec simple o.values o.sites.texts s₁ s₂)
    (bound : (bindRefs c context o).run s₂ = .ok refs s₃)
    (within : WithinSpec scene simple left s₃.arena.size o.fragment s₃ s₄)
    (slots : SlotsSpec scene simple left o.fragment o.supplied o.sites.slots s₄ s')
    (silent : simple → o.client = none) (free : StandsAll s none (light.map (·.2)))
    (once : (idsAll (light.map (·.2))).Nodup)
    (supplies : ∀ name, (Assoc.get? o.supplied name).getD [] = (assigned light name).map (·.id)) :
    ∃ f, f.id = o.fragment ∧ Made scene s s' (light.map (·.2)) (idsAll (light.map (·.2))) f ∧
      (simple → ∀ depth, left ≤ depth → ∀ ρ, mean scene (depth + 1) ρ f.children =
        Sketch.rewriteAll (Sketch.make richValue? scene.library scene.document depth)
          (supply scene (depth + 1) ρ light)
          (Sketch.fillTrees richValue? o.values false c.document.tree.children)) := by
  obtain ⟨f₂, prepared, framed, same⟩ := ready opened texts bound silent
  have fragment : f₂.id = o.fragment := by
    rw [← opened.id, prepared.id, opened.prepared.id]
  obtain ⟨cs, grows, settled⟩ := within f₂ none prepared.stands fragment prepared.once (by
    have short := prepared.stands.length_le prepared.once
    rw [ids_eq, List.length_cons] at short
    omega)
  have early : ∀ x ∈ idsAll (light.map (·.2)), x < s.arena.size := fun x mem => free.lt mem
  have grown : Framed s s₄ [] := framed.trans grows.framed fun x mem range =>
    absurd (prepared.low x mem) (Nat.not_le_of_lt range)
  have filling := filling_of_grows prepared grows settled opened.names opened.order opened.late
    (grown.standsAll free fun _ _ => List.not_mem_nil) once early
  obtain ⟨ds, filled⟩ := slots (.node f₂.id f₂.stem cs) light fragment filling fun name _ => supplies name
  have fresh : ∀ x ∈ ids (.node f₂.id f₂.stem cs), s.arena.size ≤ x := fun x mem =>
    prepared.ids_of_grows grows mem
  refine ⟨.node f₂.id f₂.stem ds, fragment, ⟨filled.stands, filled.once, fresh _ id_mem_ids,
    fun sub mem => ?_, fun slot mem => slots_of_filled prepared grows filled mem, filled.settled, ?_⟩,
    fun h depth deep ρ => ?_⟩
  · refine (filled.comes sub mem).mono grown.grown fun old mem => ?_
    rw [subsAll_append, List.mem_append] at mem
    rcases mem with mem | mem
    · exact .inl (fresh _ (List.mem_cons_of_mem _ (id_mem_idsAll mem)))
    · exact .of_mem mem
  · refine (grown.mono fun _ mem => (nomatch mem)).trans filled.framed fun x mem range => ?_
    exact (List.mem_append.mp mem).resolve_left fun mem =>
      Nat.not_le_of_lt range (fresh x mem)
  · rw [Branch.children, mean_of_filled h prepared grows filled opened.order opened.late early deep ρ,
      same h]

/-! ### Hosts and values -/

/-- A host of a known component is rewritten to the component with its values and its children. -/
theorem mean_host {b : Branch} {e : Element} (content : b.stem.content = .element e)
    (custom : e.isCustom) (known : scene.library.component? e.name = some c) (depth : Nat)
    (ρ : NodeId → List Tree) :
    mean scene (depth + 1) ρ [b] =
      Sketch.rewriteAll (Sketch.make richValue? scene.library scene.document depth)
        (supply scene (depth + 1) ρ (lightOf b.children))
        (Sketch.fillTrees richValue? (Sketch.hostValues scene.document e b.stem.rich) false
          c.document.tree.children) := by
  have plain : b.stem.content.isSlot = false := Content.isSlot_of_isCustom (by
    rw [content, Content.isCustom, Content.element?, Option.any_some, custom])
  have other : e.name ≠ "slot" := by
    intro same
    rw [content, Content.isSlot, Content.element?, Option.any_some, same] at plain
    cases plain
  have given : Light.content (Sketch.lights
      (Sketch.make richValue? scene.library scene.document (depth + 1)) (fun x => some (ρ x))
        (sketches b.children)) = supply scene (depth + 1) ρ (lightOf b.children) :=
    funext fun name => content_lights name
  cases b with
  | node i stem bs =>
    rw [Branch.stem] at content plain
    rw [Branch.children] at given
    rw [mean, sketches, sketches, Sketch.rewriteAll_singleton, sketch, plain, Bool.and_false,
      if_neg Bool.false_ne_true, Sketch.rewrite, content]
    simp only [Bool.false_eq_true, if_false, if_neg other, custom, if_true]
    rw [Sketch.make, known, Option.map_some, given]
    rfl

/-- What making an instance leaves. -/
def CreateSpec (scene : Scene) (simple : Prop) (room : Nat) (id : String) (host : Option NodeId)
    (extra : Values) (s s' : Expansion) : Option NodeId → Prop
  | none => scene.library.component? id = none ∧ (∀ x, s'.look x = s.look x) ∧
      s'.arena.size = s.arena.size
  | some fragment =>
    match host with
    | none => ∃ f, f.id = fragment ∧ Made scene s s' [] [] f
    | some host => ∀ e, s.arena.element? host = some e → e.name = id → extra = [] →
        HostedSpec scene simple room host s s' fragment

theorem given_of_no_script {values : Values} {given : Option Computed} (none : c.script = none)
    (run : (compute scene c context values).run s = .ok given s') : given = .none := by
  rw [compute, none] at run
  cases run
  rfl

theorem hosted_of_light {host : NodeId} {values : Values} {id : String} {e : Element} (tidy : Tidy s₁)
    (sound : c.Sound) (known : scene.library.component? id = some c)
    (silent : simple → c.script = none)
    (received : (receive scene (some host)).run s = .ok (values, o.supplied) s₁)
    (own : o.own = values) (fragment : o.fragment = (c.instantiate s₁.arena).1)
    (placed : o.sites = (c.instantiate s₁.arena).2.1) {t : Expansion}
    (computed : (compute scene c context o.own).run (copied s₁ c) = .ok o.given t)
    (filled : (o.sites.attributes.forM (substituteAttribute o.values)).run t = .ok () s₂)
    (texts : TextsSpec simple o.values o.sites.texts s₂ s₃)
    (bound : (bindRefs c context o).run s₃ = .ok refs s₄) {s₅ : Expansion}
    (within : WithinSpec scene simple left s₄.arena.size o.fragment s₄ s₅)
    (slots : SlotsSpec scene simple left o.fragment o.supplied o.sites.slots s₅ s')
    (found : s.arena.element? host = some e) (named : e.name = id) :
    HostedSpec scene simple (left + 1) host s s' o.fragment := by
  rintro b q stands rfl once custom
  have received := receive_ok stands once custom received
  obtain ⟨f₀, opened⟩ := openedAs sound tidy fragment placed computed filled
  have quiet : simple → o.given = none := fun h => given_of_no_script (silent h) computed
  have kids_once := nodup_children once
  obtain ⟨f, same, made, means⟩ := made_of_light (lightOf b.children) opened texts bound within
    slots (fun h => by rw [Opened.client, quiet h]; rfl) received.light (by rwa [idsAll_lightOf])
    received.supplies
  have content : b.stem.content = .element e := by
    rw [← stands.content]
    exact content_of_element? found
  refine ⟨f, same, ⟨made.stands, made.once, Nat.le_trans received.framed.grown made.fresh,
    fun sub mem => ?_, fun slot mem => (made.slots slot mem).imp_left mem_slots_lightOf, made.settled,
    ?_⟩, ?_, fun h depth deep ρ => ?_⟩
  · refine (made.comes sub mem).mono received.framed.grown fun old mem => ?_
    obtain ⟨older, here, same, slot, own, -⟩ := mem_subsAll_lightOf mem
    exact .inr ⟨older, here, same, slot, own⟩
  · refine received.framed.trans made.framed fun x mem _ => ?_
    rw [idsAll_lightOf] at mem
    exact mem_ids_of_children mem
  · refine made.framed.stands received.host fun x mem inside => ?_
    rw [idsAll_lightOf] at inside
    rw [ids, idsAll, List.mem_singleton] at mem
    rw [ids_eq, List.nodup_cons] at once
    exact once.1 (mem ▸ inside)
  · obtain ⟨less, rfl⟩ : ∃ less, depth = less + 1 := ⟨depth - 1, by omega⟩
    have custom' : e.isCustom := by
      rwa [content, Content.isCustom, Content.element?, Option.any_some] at custom
    have values_eq : o.values = Sketch.hostValues scene.document e b.stem.rich := by
      rw [Opened.values, quiet h, ← received.values e content]
      exact own
    rw [means h less (by omega) ρ, mean_host content custom' (named ▸ known) less ρ, values_eq]

theorem create_made {id : String} {host : Option NodeId} {extra : Values} (tidy : Tidy s)
    (sound : c.Sound) (known : scene.library.component? id = some c)
    (silent : simple → c.script = none)
    (opened : (openInstance scene c context host extra).run s = .ok o s₁)
    (texts : TextsSpec simple o.values o.sites.texts s₁ s₂)
    (bound : (bindRefs c context o).run s₂ = .ok refs s₃)
    (within : WithinSpec scene simple left s₃.arena.size o.fragment s₃ s₄)
    (slots : SlotsSpec scene simple left o.fragment o.supplied o.sites.slots s₄ s') :
    CreateSpec scene simple (left + 1) id host extra s s' (some o.fragment) := by
  obtain ⟨values, t, u, received, own, fragment, placed, computed, filled⟩ := openInstance_ok opened
  have tidy' := (tidy_receive scene host).of_ok tidy received
  cases host with
  | none =>
    have nothing : EStateM.Result.ok (scene.document, []) s = .ok (values, o.supplied) t := received
    injection nothing with given same
    injection given with _ supplied
    subst same
    obtain ⟨f₀, opened⟩ := openedAs sound tidy fragment placed computed filled
    obtain ⟨f, same, made, -⟩ := made_of_light [] opened texts bound within slots
      (fun h => by rw [Opened.client, given_of_no_script (silent h) computed]; rfl) standsAll_nil
      List.nodup_nil fun name => by rw [← supplied]; rfl
    exact ⟨f, same, made⟩
  | some host =>
    intro e found named none
    subst none
    exact hosted_of_light tidy' sound known silent received own fragment placed computed filled texts
      bound within slots found named

end
end Expansion
end Stencil
