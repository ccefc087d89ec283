import Stencil.Proofs.Expansion.Meaning
import Stencil.Proofs.Expansion.Tidy
/-!
How a branch may change while what stands below it is expanded. Nothing outside of the branch changes,
no slot gets another content, and the branch is still rewritten to the same trees.
-/
namespace Stencil.Expansion
open Markup Branch

/-- From a state to a later one, only nodes of the list have changed, and others have been added. -/
structure Framed (s s' : Expansion) (own : List NodeId) : Prop where
  grown : s.arena.size ≤ s'.arena.size
  same : ∀ x, x < s.arena.size → x ∉ own → s'.look x = s.look x

section
variable {s s₁ s' : Expansion} {own own' : List NodeId}

theorem Framed.refl (s : Expansion) (own : List NodeId) : Framed s s own :=
  ⟨Nat.le_refl _, fun _ _ _ => rfl⟩

/-- Nodes that have been added may change afterwards. -/
theorem Framed.trans (first : Framed s s₁ own) (second : Framed s₁ s' own')
    (within : ∀ x ∈ own', x < s.arena.size → x ∈ own) : Framed s s' own :=
  ⟨Nat.le_trans first.grown second.grown, fun x range out =>
    (second.same x (Nat.lt_of_lt_of_le range first.grown) fun mem => out (within x mem range)).trans
      (first.same x range out)⟩

/-- Where every node is looked at the same, nothing has changed. -/
theorem framed_of_looks (looks : ∀ x, s'.look x = s.look x) (size : s'.arena.size = s.arena.size)
    (own : List NodeId) : Framed s s' own :=
  ⟨Nat.le_of_eq size.symm, fun x _ _ => looks x⟩

theorem Framed.mono (framed : Framed s s' own) (more : ∀ x ∈ own, x ∈ own') : Framed s s' own' :=
  ⟨framed.grown, fun x range out => framed.same x range fun mem => out (more x mem)⟩

theorem Framed.stands (framed : Framed s s' own) {p : Option NodeId} {b : Branch}
    (stands : Stands s p b) (apart : ∀ x ∈ b.ids, x ∉ own) : Stands s' p b :=
  stands.congr fun x mem => ⟨Nat.lt_of_lt_of_le (stands.lt mem) framed.grown,
    framed.same x (stands.lt mem) (apart x mem)⟩

theorem Framed.standsAll (framed : Framed s s' own) {p : Option NodeId} {bs : List Branch}
    (stands : StandsAll s p bs) (apart : ∀ x ∈ idsAll bs, x ∉ own) : StandsAll s' p bs :=
  stands.congr fun x mem => ⟨Nat.lt_of_lt_of_le (stands.lt mem) framed.grown,
    framed.same x (stands.lt mem) (apart x mem)⟩

/-- A branch of nodes that are looked at the same is still there. -/
theorem stands_of_same {p : Option NodeId} {b : Branch} (looks : ∀ x, s'.look x = s.look x)
    (size : s'.arena.size = s.arena.size) (stands : Stands s p b) : Stands s' p b :=
  (framed_of_looks looks size []).stands stands fun _ _ => List.not_mem_nil

end

theorem node_eta (b : Branch) : Branch.node b.id b.stem b.children = b := by
  cases b
  rfl

/-- What stands below the top of a branch has become `cs`. Its nodes are from there, or new. -/
structure Turns (s s' : Expansion) (p : Option NodeId) (b : Branch) (cs : List Branch) : Prop where
  stands : Stands s' p (.node b.id b.stem cs)
  once : (ids (.node b.id b.stem cs)).Nodup
  ids : ∀ x ∈ idsAll cs, x ∈ idsAll b.children ∨ s.arena.size ≤ x
  framed : Framed s s' b.ids

section
variable {s s₁ s₂ s' : Expansion} {p : Option NodeId} {b sub f : Branch} {cs ds new : List Branch}

theorem Turns.refl (stands : Stands s p b) (once : b.ids.Nodup) : Turns s s p b b.children where
  stands := by rwa [node_eta]
  once := by rwa [node_eta]
  ids _ mem := .inl mem
  framed := .refl s _

theorem Turns.trans (first : Turns s s₁ p b cs) (second : Turns s₁ s' p (.node b.id b.stem cs) ds) :
    Turns s s' p b ds where
  stands := second.stands
  once := second.once
  ids x mem := (second.ids x mem).elim (first.ids x) fun fresh =>
    .inr (Nat.le_trans first.framed.grown fresh)
  framed := by
    refine first.framed.trans second.framed fun x mem range => ?_
    rw [Branch.ids, List.mem_cons] at mem
    rw [ids_eq, List.mem_cons]
    exact mem.imp_right fun mem => (first.ids x mem).resolve_right (Nat.not_le_of_lt range)

/-- A node of the branch gives way to others. -/
theorem turns_splice (stands : Stands s' p (.node b.id b.stem (spliceAll sub.id new b.children)))
    (once : b.ids.Nodup) (new_once : (idsAll new).Nodup) (part : sub ∈ subsAll b.children)
    (ids : ∀ y ∈ idsAll new, y ∈ sub.ids ∨ s.arena.size ≤ y) (old : ∀ y ∈ b.ids, y < s.arena.size)
    (framed : Framed s s' b.ids) : Turns s s' p b (spliceAll sub.id new b.children) := by
  have once' := nodup_children once
  have apart : ∀ y ∈ idsAll new, y ∉ idsButAll sub.id b.children := by
    intro y mem inside
    rcases ids y mem with mem | fresh
    · exact idsButAll_apart _ once' part inside mem
    · have range := old y (mem_ids_of_children (mem_idsAll_of_idsButAll _ inside))
      exact Nat.not_le_of_lt range fresh
  have ids_of : ∀ y ∈ idsAll (spliceAll sub.id new b.children),
      y ∈ idsAll b.children ∨ s.arena.size ≤ y := by
    intro y mem
    rcases mem_idsAll_splice _ mem with mem | mem
    · exact .inl (mem_idsAll_of_idsButAll _ mem)
    · exact (ids y mem).imp_left (ids_subset part)
  refine ⟨stands, ?_, ids_of, framed⟩
  rw [Branch.ids, List.nodup_cons]
  refine ⟨fun mem => ?_, nodup_spliceAll _ once' new_once apart⟩
  rcases ids_of _ mem with mem | fresh
  · rw [ids_eq, List.nodup_cons] at once
    exact once.1 mem
  · exact Nat.not_le_of_lt (old _ id_mem_ids) fresh

/-- A node stays where it is, and what is below it turns into something. -/
theorem turns_of_within (looks : ∀ x, s₁.look x = s.look x) (size : s₁.arena.size = s.arena.size)
    (stands : Stands s p b) (once : b.ids.Nodup) (part : sub ∈ subsAll b.children)
    (inside : Turns s₁ s' (s.arena.parent? sub.id) sub cs) :
    Turns s s' p b (spliceAll sub.id [.node sub.id sub.stem cs] b.children) := by
  have framed : Framed s s' b.ids := (framed_of_looks looks size b.ids).trans inside.framed
    fun x mem _ => mem_ids_of_children (ids_subset part mem)
  have placed := stands_update stands once part inside.stands fun y mem out =>
    ⟨Nat.lt_of_lt_of_le (stands.lt mem) framed.grown,
      (inside.framed.same y (size ▸ stands.lt mem) out).trans (looks y)⟩
  refine turns_splice placed once (by simpa using inside.once) part (fun y mem => ?_)
    (fun y mem => stands.lt mem) framed
  rw [idsAll_singleton, ids, List.mem_cons] at mem
  rcases mem with rfl | mem
  · exact .inl id_mem_ids
  · exact (inside.ids y mem).imp mem_ids_of_children fun fresh => size ▸ fresh

/-- What stands in an instance takes the place of the host that it has been made for. -/
theorem turns_of_instance {listed : List NodeId} {stem : Stem} (stands : Stands s p b)
    (once : b.ids.Nodup) (part : sub ∈ subsAll b.children) (free : Stands s₁ none f)
    (free_once : f.ids.Nodup) (f_ids : ∀ x ∈ f.ids, x ∈ idsAll sub.children ∨ s.arena.size ≤ x)
    (framed : Framed s s₁ sub.ids)
    (left : Stands s₁ (s.arena.parent? sub.id) (.node sub.id stem []))
    (taken : (takeChildren f.id).run s₁ = .ok listed s₂)
    (replaced : (modifyArena (·.replaceWith sub.id listed)).run s₂ = .ok () s') :
    Turns s s' p b (spliceAll sub.id f.children b.children) := by
  have once' := nodup_children once
  -- the branch with an empty host
  have emptied := stands_update stands once part left fun y mem out =>
    ⟨Nat.lt_of_lt_of_le (stands.lt mem) framed.grown, framed.same y (stands.lt mem) out⟩
  have top : b.id ∉ idsAll b.children := by
    rw [ids_eq, List.nodup_cons] at once
    exact once.1
  have old : ∀ x ∈ ids (.node b.id b.stem (spliceAll sub.id [.node sub.id stem []] b.children)),
      x ∈ b.ids ∧ x ∉ idsAll sub.children := by
    intro x mem
    rcases List.mem_cons.mp mem with rfl | mem
    · exact ⟨id_mem_ids, fun deep => top (ids_subset part (mem_ids_of_children deep))⟩
    · exact (mem_ids_emptied once' part mem).imp_left mem_ids_of_children
  have apart : ∀ x ∈ f.ids,
      x ∉ ids (.node b.id b.stem (spliceAll sub.id [.node sub.id stem []] b.children)) := by
    intro x mem inside
    rcases f_ids x mem with deep | fresh
    · exact (old x inside).2 deep
    · exact Nat.not_le_of_lt (stands.lt (old x inside).1) fresh
  have emptied_once :
      (ids (.node b.id b.stem (spliceAll sub.id [.node sub.id stem []] b.children))).Nodup :=
    List.nodup_cons.mpr ⟨fun mem => top (mem_ids_emptied once' part mem).1,
      nodup_emptied _ _ once'⟩
  have still : sub.id ∈ idsAll (spliceAll sub.id [.node sub.id stem []] b.children) :=
    mem_spliceAll_of_new _ (id_mem_idsAll part) (by simp [Branch.ids])
  obtain ⟨placed, size, rest⟩ :=
    stands_exchange emptied emptied_once still free free_once apart taken replaced
  rw [Branch.children, spliceAll_spliceAll] at placed
  refine turns_splice placed once (nodup_children free_once) part
    (fun y mem => (f_ids y (mem_ids_of_children mem)).imp_left mem_ids_of_children)
    (fun y mem => stands.lt mem) ?_
  have moved : Framed s₁ s' (b.ids ++ f.ids) := by
    refine ⟨Nat.le_of_eq size.symm, fun x _ out => ?_⟩
    rw [List.mem_append, not_or] at out
    exact rest x (fun inside => out.1 (old x inside).1) out.2
  refine Framed.trans (framed.mono fun x mem => mem_ids_of_children (ids_subset part mem)) moved
    fun x mem range => ?_
  rcases List.mem_append.mp mem with mem | mem
  · exact mem
  · rcases f_ids x mem with deep | fresh
    · exact mem_ids_of_children (ids_subset part (mem_ids_of_children deep))
    · exact absurd fresh (Nat.not_le_of_lt range)

end

/-- The trees that branches are rewritten to when slots to fill stand for given trees. -/
def mean (scene : Scene) (depth : Nat) (ρ : NodeId → List Tree) (bs : List Branch) : List Tree :=
  Sketch.rewriteAll (Sketch.make richValue? scene.library scene.document depth)
    (fun x => some (ρ x)) (sketches bs)

/-- A slot that no instance fills and that holds nothing. -/
def BareSlot (slot : Slot) : Prop := slot.2.1 = false ∧ slot.2.2 = []

/-- The node is a new one, or it is a node of the branches, and a slot of an instance if that is. -/
def ComesFrom (bs : List Branch) (size : Nat) (sub : Branch) : Prop :=
  size ≤ sub.id ∨ ∃ old ∈ subsAll bs, old.id = sub.id ∧
    old.stem.content.isSlot = sub.stem.content.isSlot ∧ old.stem.own = sub.stem.own

theorem ComesFrom.of_mem {bs : List Branch} {size : Nat} {sub : Branch} (mem : sub ∈ subsAll bs) :
    ComesFrom bs size sub :=
  .inr ⟨sub, mem, rfl, rfl, rfl⟩

theorem ComesFrom.mono {bs cs : List Branch} {n m : Nat} {sub : Branch} (le : n ≤ m)
    (more : ∀ old ∈ subsAll bs, ComesFrom cs n old) (comes : ComesFrom bs m sub) :
    ComesFrom cs n sub := by
  rcases comes with fresh | ⟨old, mem, same, slot, own⟩
  · exact .inl (Nat.le_trans le fresh)
  · rcases more old mem with fresh | ⟨older, mem, same', slot', own'⟩
    · exact .inl (same ▸ fresh)
    · exact .inr ⟨older, mem, same'.trans same, slot'.trans slot, own'.trans own⟩

/-- Numbers of nodes that come from branches. -/
theorem mem_ids_of_comes {bs cs : List Branch} {size : Nat}
    (comes : ∀ sub ∈ subsAll cs, ComesFrom bs size sub) {x : NodeId} (mem : x ∈ idsAll cs) :
    x ∈ idsAll bs ∨ size ≤ x := by
  obtain ⟨sub, inside, rfl⟩ := mem_idsAll_iff_subs.mp mem
  rcases comes sub inside with fresh | ⟨old, here, same, -⟩
  · exact .inr fresh
  · exact .inl (same ▸ id_mem_idsAll here)

/-- What stands below the top of a branch has become `cs`. The trees that it is rewritten to are
looked at in simple scenes only. -/
structure Grows (scene : Scene) (simple : Prop) (room : Nat) (s s' : Expansion) (p : Option NodeId)
    (b : Branch) (cs : List Branch) : Prop where
  stands : Stands s' p (.node b.id b.stem cs)
  once : (ids (.node b.id b.stem cs)).Nodup
  comes : ∀ sub ∈ subsAll cs, ComesFrom b.children s.arena.size sub
  slots : ∀ slot ∈ slots cs, slot ∈ Branch.slots b.children ∨ BareSlot slot
  framed : Framed s s' b.ids
  means : simple → ∀ depth, room ≤ depth → ∀ ρ,
    mean scene depth ρ cs = mean scene depth ρ b.children

section
variable {scene : Scene} {simple : Prop} {room : Nat} {s s₁ s' : Expansion} {p : Option NodeId}
  {b : Branch} {bs cs ds : List Branch}

theorem Grows.ids (grows : Grows scene simple room s s' p b cs) {x : NodeId} (mem : x ∈ idsAll cs) :
    x ∈ idsAll b.children ∨ s.arena.size ≤ x :=
  mem_ids_of_comes grows.comes mem

theorem Grows.turns (grows : Grows scene simple room s s' p b cs) : Turns s s' p b cs :=
  ⟨grows.stands, grows.once, fun _ mem => grows.ids mem, grows.framed⟩

theorem Grows.refl (stands : Stands s p b) (once : b.ids.Nodup) :
    Grows scene simple room s s p b b.children where
  stands := by rwa [node_eta]
  once := by rwa [node_eta]
  comes _ mem := .of_mem mem
  slots slot mem := .inl mem
  framed := .refl s _
  means _ _ _ _ := rfl

theorem Grows.trans (first : Grows scene simple room s s₁ p b cs)
    (second : Grows scene simple room s₁ s' p (.node b.id b.stem cs) ds) :
    Grows scene simple room s s' p b ds where
  stands := second.stands
  once := second.once
  comes sub mem := (second.comes sub mem).mono first.framed.grown first.comes
  slots slot mem := by
    rcases second.slots slot mem with old | bare
    · exact first.slots slot old
    · exact .inr bare
  framed := by
    refine first.framed.trans second.framed fun x mem range => ?_
    rw [Branch.ids, List.mem_cons] at mem
    rw [ids_eq, List.mem_cons]
    refine mem.imp_right fun mem => (first.ids mem).resolve_right ?_
    exact Nat.not_le_of_lt range
  means h depth deep ρ := (second.means h depth deep ρ).trans (first.means h depth deep ρ)

/-- With less room, less is said. -/
theorem Grows.mono {more : Nat} (le : room ≤ more) (grows : Grows scene simple room s s' p b cs) :
    Grows scene simple more s s' p b cs :=
  { grows with means := fun h depth deep => grows.means h depth (Nat.le_trans le deep) }

/-- A node of the branch that is exposed gives way to others, which are rewritten to the same. -/
theorem grows_splice {x : NodeId} {new : List Branch} {sub : Branch}
    (stands : Stands s' p (.node b.id b.stem (spliceAll x new b.children)))
    (once : b.ids.Nodup) (new_once : (idsAll new).Nodup)
    (front : sub ∈ frontAll Content.covers b.children) (at_sub : sub.id = x)
    (comes : ∀ deep ∈ subsAll new, ComesFrom [sub] s.arena.size deep)
    (old : ∀ y ∈ b.ids, y < s.arena.size)
    (slots : ∀ slot ∈ slots new, slot ∈ Branch.slots [sub] ∨ BareSlot slot)
    (framed : Framed s s' b.ids)
    (means : simple → ∀ depth, room ≤ depth → ∀ ρ,
      mean scene depth ρ new = mean scene depth ρ [sub]) :
    Grows scene simple room s s' p b (spliceAll x new b.children) := by
  have part := (mem_subsAll_of_front _ front).1
  have once' := nodup_children once
  subst at_sub
  have exposed : Exposed Content.covers sub.id b.children := ⟨sub, front, rfl⟩
  have turns := turns_splice stands once new_once part (fun y mem => by
    have here := mem_ids_of_comes comes mem
    rwa [idsAll_singleton] at here) old framed
  refine ⟨stands, turns.once, fun deep mem => ?_, fun slot mem => ?_, framed,
    fun h depth deep ρ => ?_⟩
  · rcases mem_subsAll_splice _ mem with ⟨older, mem, same, stem, -⟩ | mem
    · exact .inr ⟨older, mem, same, by rw [stem], by rw [stem]⟩
    · refine (comes deep mem).mono (Nat.le_refl _) fun older mem => .of_mem ?_
      rw [subsAll, subsAll, List.append_nil] at mem
      exact subsAll_trans _ part mem
  · rcases slots_splice (fun c => Content.covers_of_isSlot) once' exposed mem with ⟨mem, -⟩ | mem
    · exact .inl mem
    · refine (slots slot mem).imp_left fun mem => ?_
      obtain ⟨deep, inside, is_slot, rfl⟩ := mem_slots.mp mem
      refine mem_slots.mpr ⟨deep, subsAll_trans _ part ?_, is_slot, rfl⟩
      simpa [subsAll] using inside
  · refine rewriteAll_splice (open_of_isPending Content.covers_of_isPending) once' exposed
      fun other mem same => ?_
    have eq := eq_of_id_eq once' mem part same
    rw [eq, ← Sketch.rewriteAll_singleton]
    exact means h depth deep ρ

end

/-! ### Hosts -/

/-- Hosts below the top of a branch that are still to be expanded. -/
structure Waiting (s : Expansion) (p : Option NodeId) (b : Branch) (subs : List Branch) : Prop where
  stands : Stands s p b
  once : b.ids.Nodup
  distinct : (subs.map (·.id)).Nodup
  hosts : ∀ sub ∈ subs, sub ∈ frontAll Content.covers b.children ∧ sub.stem.content.isCustom

section
variable {s s₁ : Expansion} {p : Option NodeId} {b sub : Branch} {subs new : List Branch}

/-- The hosts that a node has are the outermost custom elements below it. -/
theorem waiting_all (stands : Stands s p b) (once : b.ids.Nodup) :
    Waiting s p b ((frontAll Content.covers b.children).filter (·.stem.content.isCustom)) :=
  ⟨stands, once, (nodup_front (nodup_children once)).sublist (List.filter_sublist.map _),
    fun _ mem => List.mem_filter.mp mem⟩

theorem Waiting.part (waiting : Waiting s p b (sub :: subs)) : sub ∈ subsAll b.children :=
  (mem_subsAll_of_front _ (waiting.hosts sub List.mem_cons_self).1).1

/-- When one host has given way, the others are still there. -/
theorem Waiting.next (waiting : Waiting s p b (sub :: subs))
    (turns : Turns s s₁ p b (spliceAll sub.id new b.children)) :
    Waiting s₁ p (.node b.id b.stem (spliceAll sub.id new b.children)) subs := by
  have distinct := List.nodup_cons.mp waiting.distinct
  obtain ⟨⟨front, -⟩, others⟩ := List.forall_mem_cons.mp waiting.hosts
  refine ⟨turns.stands, turns.once, distinct.2, fun other mem => ?_⟩
  refine (others other mem).imp_left fun here => ?_
  exact mem_front_splice_of_ne (nodup_children waiting.once) ⟨sub, front, rfl⟩ here
    fun same => distinct.1 (List.mem_map.mpr ⟨other, mem, same⟩)

end

/-- Expanding what stands below a node settles it. -/
def WithinSpec (scene : Scene) (simple : Prop) (room height : Nat) (scope : NodeId)
    (s s' : Expansion) : Prop :=
  ∀ b p, Stands s p b → b.id = scope → b.ids.Nodup → (idsAll b.children).length ≤ height →
    ∃ cs, Grows scene simple room s s' p b cs ∧ Settled scene.library cs

/-- Expanding hosts settles what stands in their places, and leaves the other hosts. -/
def HostsSpec (scene : Scene) (simple : Prop) (room height : Nat) (hosts : List NodeId)
    (s s' : Expansion) : Prop :=
  ∀ b p (subs : List Branch), Stands s p b → b.ids.Nodup → subs.map (·.id) = hosts →
    (subs.map (·.id)).Nodup →
    (∀ sub ∈ subs, sub ∈ frontAll Content.covers b.children ∧ sub.stem.content.isCustom ∧
      sub.ids.length ≤ height) →
    (∀ sub ∈ frontAll Content.covers b.children, sub ∈ subs ∨ Settled scene.library [sub]) →
    ∃ cs, Grows scene simple room s s' p b cs ∧ Settled scene.library cs

/-- Expanding a host puts settled branches into its place. -/
def HostSpec (scene : Scene) (simple : Prop) (room height : Nat) (host : NodeId)
    (s s' : Expansion) : Prop :=
  ∀ b p sub, Stands s p b → b.ids.Nodup → sub ∈ frontAll Content.covers b.children →
    sub.stem.content.isCustom → sub.id = host → sub.ids.length ≤ height →
    ∃ new, Grows scene simple room s s' p b (spliceAll host new b.children) ∧
      Settled scene.library new

/-- An instance that is ready: a branch without a place. Its nodes are new, or stand below `kids`. -/
structure Made (scene : Scene) (s s' : Expansion) (kids : List Branch) (own : List NodeId)
    (f : Branch) : Prop where
  stands : Stands s' none f
  once : f.ids.Nodup
  fresh : s.arena.size ≤ f.id
  comes : ∀ sub ∈ subsAll f.children, ComesFrom kids s.arena.size sub
  slots : ∀ slot ∈ slots f.children, slot ∈ Branch.slots kids ∨ BareSlot slot
  settled : Settled scene.library f.children
  framed : Framed s s' own

/-- An instance has been made for a host, which has lost its children and is rewritten to what stands
in the instance. -/
def HostedSpec (scene : Scene) (simple : Prop) (room : Nat) (host : NodeId) (s s' : Expansion)
    (fragment : NodeId) : Prop :=
  ∀ b q, Stands s q b → b.id = host → b.ids.Nodup → b.stem.content.isCustom →
    ∃ f, f.id = fragment ∧ Made scene s s' b.children b.ids f ∧
      Stands s' q (.node host ⟨b.stem.content, [], b.stem.own⟩ []) ∧
      (simple → ∀ depth, room ≤ depth → ∀ ρ,
        mean scene depth ρ f.children = mean scene depth ρ [b])

section
variable {scene : Scene} {simple : Prop} {room height : Nat} {s s₁ s' : Expansion}

theorem within_of_hosts {scope : NodeId} {context : String}
    (all : HostsSpec scene simple room height ((hosts s.arena scope context).map (·.1)) s s') :
    WithinSpec scene simple room height scope s s' := by
  rintro b p stands rfl once deep
  have waiting := waiting_all stands once
  refine all b p _ stands once (stands.hosts_eq once).symm waiting.distinct (fun sub mem => ?_)
    fun sub mem => ?_
  · obtain ⟨mem, custom⟩ := waiting.hosts sub mem
    exact ⟨mem, custom,
      Nat.le_trans (length_subAll_le _ (mem_subsAll_of_front _ mem).1) deep⟩
  · have covered := (mem_subsAll_of_front _ mem).2
    cases custom : sub.stem.content.isCustom with
    | true => exact .inl (List.mem_filter.mpr ⟨mem, custom⟩)
    | false =>
      exact .inr (settled_of_isSlot (Content.isSlot_of_covers covered custom))

theorem hosts_nil : HostsSpec scene simple room height [] s s := by
  intro b p subs stands once none _ _ settled
  rw [List.map_eq_nil_iff] at none
  subst none
  exact ⟨b.children, .refl stands once,
    settled_iff.mpr fun sub mem => (settled sub mem).resolve_left List.not_mem_nil⟩

theorem hosts_cons {host : NodeId} {rest : List NodeId}
    (head : HostSpec scene simple room height host s s₁)
    (tail : HostsSpec scene simple room height rest s₁ s') :
    HostsSpec scene simple room height (host :: rest) s s' := by
  intro b p subs stands once listed distinct here settled
  obtain ⟨sub, subs, rfl, rfl, others⟩ := List.map_eq_cons_iff.mp listed
  have waiting : Waiting s p b (sub :: subs) :=
    ⟨stands, once, distinct, fun other mem => ⟨(here other mem).1, (here other mem).2.1⟩⟩
  obtain ⟨⟨front, custom, short⟩, here⟩ := List.forall_mem_cons.mp here
  obtain ⟨new, grows, new_settled⟩ := head b p sub stands once front custom rfl short
  have next := waiting.next grows.turns
  have still : ∀ other ∈ subs,
      other ∈ frontAll Content.covers (spliceAll sub.id new b.children) ∧
        other.stem.content.isCustom ∧ other.ids.length ≤ height := fun other mem =>
    ⟨(next.hosts other mem).1, (next.hosts other mem).2, (here other mem).2.2⟩
  have left : ∀ other ∈ frontAll Content.covers (spliceAll sub.id new b.children),
      other ∈ subs ∨ Settled scene.library [other] := by
    intro other mem
    rcases mem_front_splice (nodup_children once) ⟨sub, front, rfl⟩ mem with ⟨mem, apart⟩ | mem
    · rcases settled other mem with listed | settled
      · rcases List.mem_cons.mp listed with rfl | listed
        · exact absurd rfl apart
        · exact .inl listed
      · exact .inr settled
    · exact .inr (settled_iff.mp new_settled other mem)
  obtain ⟨cs, more, done⟩ := tail (.node b.id b.stem (spliceAll sub.id new b.children)) p subs
    grows.stands grows.once others next.distinct still left
  exact ⟨cs, grows.trans more, done⟩

/-- A host of an unknown component stays, and what stands in it is settled. -/
theorem host_of_within {host : NodeId} {e : Element}
    (found : s.arena.element? host = some e) (unknown : scene.library.component? e.name = none)
    (same : ∀ x, s₁.look x = s.look x) (size : s₁.arena.size = s.arena.size)
    (inside : WithinSpec scene simple (room - 1) height host s₁ s') :
    HostSpec scene simple room (height + 1) host s s' := by
  rintro b p sub stands once front custom rfl short
  have part := (mem_subsAll_of_front _ front).1
  have sub_stands := stands_of_same same size (stands.children.sub_parent part)
  rw [ids_eq, List.length_cons] at short
  obtain ⟨cs, grows, settled⟩ :=
    inside sub _ sub_stands rfl (nodup_sub (nodup_children once) part) (by omega)
  have turns := turns_of_within same size stands once part grows.turns
  have content : s.arena.content sub.id = sub.stem.content :=
    (stands.children.sub_parent part).content
  have unknown' : sub.stem.content.isKnown scene.library = false := by
    rw [Arena.element?, content] at found
    rw [Content.isKnown, found, Option.any_some, unknown]
    simp
  have plain : sub.stem.content.isPending scene.library = false := by
    rw [Content.isPending, unknown', Content.isSlot_of_isCustom custom]
    rfl
  have bare_or : ∀ slot ∈ slots [.node sub.id sub.stem cs],
      slot ∈ Branch.slots [sub] ∨ BareSlot slot := by
    have not_slot := Content.isSlot_of_isCustom custom
    rw [slots_node not_slot, ← node_eta sub, slots_node not_slot]
    exact grows.slots
  refine ⟨[.node sub.id sub.stem cs], ?_, settled_of_unknown unknown' settled⟩
  refine grows_splice turns.stands once (by simpa using grows.once) front rfl (fun deep mem => ?_)
    (fun y mem => stands.lt mem) bare_or turns.framed fun h depth deep ρ => ?_
  · rw [subsAll, subsAll, List.append_nil, subs, List.mem_cons] at mem
    rcases mem with rfl | mem
    · exact .inr ⟨sub, by simp [subsAll, self_mem_subs], rfl, rfl, rfl⟩
    · refine (grows.comes deep mem).mono (Nat.le_of_eq size.symm) fun old mem => .of_mem ?_
      rw [subsAll, subsAll, List.append_nil, subs_eq]
      exact List.mem_cons_of_mem _ mem
  · have clear : Open (Sketch.make richValue? scene.library scene.document depth)
        (·.isPending scene.library) := open_of_isPending fun _ pending => pending
    have inner := grows.means h depth (Nat.le_trans (Nat.sub_le room 1) deep) ρ
    cases sub with
    | node i stem bs =>
      rw [mean, mean]
      simp only [sketches, Sketch.rewriteAll_singleton]
      exact (rewrite_open clear plain cs).trans
        ((congrArg (fun ts => [Markup.Tree.node stem.content ts]) inner).trans
          (rewrite_open clear plain bs).symm)

/-- The instance takes the place of its host. -/
theorem host_of_create {host fragment : NodeId} {listed : List NodeId} {s₂ : Expansion}
    (made : HostedSpec scene simple room host s s₁ fragment)
    (taken : (takeChildren fragment).run s₁ = .ok listed s₂)
    (replaced : (modifyArena (·.replaceWith host listed)).run s₂ = .ok () s') :
    HostSpec scene simple room height host s s' := by
  rintro b p sub stands once front custom rfl -
  have part := (mem_subsAll_of_front _ front).1
  have sub_stands := stands.children.sub_parent part
  obtain ⟨f, rfl, made, left, means⟩ :=
    made sub _ sub_stands rfl (nodup_sub (nodup_children once) part) custom
  have f_ids : ∀ x ∈ f.ids, x ∈ idsAll sub.children ∨ s.arena.size ≤ x := by
    intro x mem
    rw [ids_eq, List.mem_cons] at mem
    rcases mem with rfl | mem
    · exact .inr made.fresh
    · exact mem_ids_of_comes made.comes mem
  have turns := turns_of_instance stands once part made.stands made.once f_ids made.framed left taken
    replaced
  refine ⟨f.children, grows_splice turns.stands once (nodup_children made.once) front rfl
    (fun deep mem => ?_) (fun y mem => stands.lt mem) (fun slot mem => ?_) turns.framed means,
    made.settled⟩
  · refine (made.comes deep mem).mono (Nat.le_refl _) fun old mem => .of_mem ?_
    rw [subsAll, subsAll, List.append_nil, subs_eq]
    exact List.mem_cons_of_mem _ mem
  · refine (made.slots slot mem).imp_left fun mem => ?_
    rw [← node_eta sub, slots_node (Content.isSlot_of_isCustom custom)]
    exact mem

end
end Stencil.Expansion
