import Stencil.Proofs.Expansion.Texts
/-!
Copies of components while values are put into them. Whatever the values are, such a copy is a branch
without a place, nothing older than the copy changes, and the custom elements of the component that
stand in no slot and in no other custom element are still there when the work is done.
-/
namespace Stencil
open Markup

namespace Markup

/-- A custom element of the name. -/
def Content.isCalled (name : String) (c : Content) : Bool :=
  c.element?.any fun e => e.isCustom && e.name == name

/-- What stands below the node is expanded later, or is lost when the node gives way to values. -/
def Content.shields (c : Content) : Bool := c.covers || c.text?.isSome

theorem Content.shields_of_covers {c : Content} (covered : c.covers) : c.shields := by
  rw [shields, covered, Bool.true_or]

theorem Content.isCustom_of_isCalled {c : Content} {name : String} (called : c.isCalled name) :
    c.isCustom := by
  cases c with
  | element e =>
    simp only [isCalled, element?, Option.any_some, Bool.and_eq_true] at called
    exact called.1
  | root | text _ | comment _ | directive _ => cases called

theorem Content.eq_element_of_isCalled {c : Content} {name : String} (called : c.isCalled name) :
    ∃ e, c = .element e ∧ e.name = name := by
  cases c with
  | element e =>
    simp only [isCalled, element?, Option.any_some, Bool.and_eq_true, beq_iff_eq] at called
    exact ⟨e, rfl, called.2⟩
  | root | text _ | comment _ | directive _ => cases called

namespace Tree

mutual

/-- Names of the custom elements that stand in no slot and in no other custom element. -/
def outerNames : Tree → List String
  | .node (.element e) ts =>
    if e.isCustom then [e.name] else if e.name = "slot" then [] else outerNamesAll ts
  | .node (.text _) _ => []
  | .node _ ts => outerNamesAll ts

def outerNamesAll : List Tree → List String
  | [] => []
  | t :: ts => t.outerNames ++ outerNamesAll ts

end
end Tree
end Markup

section
variable {f : Touch} (mild : f.Mild)
include mild

theorem Touch.Mild.covers (c : Content) (r : Values) : (f (c, r)).1.covers = c.covers := by
  cases c with
  | element e =>
    obtain ⟨e', r', same, name⟩ := mild.named e r
    rw [same, Content.covers, Content.covers, Content.element?, Content.element?, Option.any_some,
      Option.any_some, Element.isCustom, Element.isCustom, name]
  | text _ | root | comment _ | directive _ => rw [mild.plain _ _ rfl]

theorem Touch.Mild.shields (c : Content) (r : Values) : (f (c, r)).1.shields = c.shields := by
  rw [Content.shields, Content.shields, mild.covers, mild.text?]

theorem Touch.Mild.isCalled (name : String) (c : Content) (r : Values) :
    (f (c, r)).1.isCalled name = c.isCalled name := by
  cases c with
  | element e =>
    obtain ⟨e', r', same, named⟩ := mild.named e r
    rw [same, Content.isCalled, Content.isCalled, Content.element?, Content.element?,
      Option.any_some, Option.any_some, Element.isCustom, Element.isCustom, named]
  | text _ | root | comment _ | directive _ => rw [mild.plain _ _ rfl]

end

namespace Branch

section
variable {cover : Content → Bool} {g : NodeId → Stem → Stem} {x : NodeId} {new : List Branch}

mutual

/-- Changes that keep the class keep its outermost nodes in their places. -/
theorem front_restem (keeps : ∀ id stem, cover (g id stem).content = cover stem.content)
    (b : Branch) : (b.restem g).front cover = (b.front cover).map (·.restem g) := by
  cases b with
  | node i stem bs =>
    rw [restem, front, front, keeps]
    split
    · rfl
    · exact frontAll_restemAll keeps bs

theorem frontAll_restemAll (keeps : ∀ id stem, cover (g id stem).content = cover stem.content)
    (bs : List Branch) :
    frontAll cover (restemAll g bs) = (frontAll cover bs).map (·.restem g) := by
  cases bs with
  | nil => rfl
  | cons b bs =>
    rw [restemAll, frontAll, frontAll, List.map_append, front_restem keeps b,
      frontAll_restemAll keeps bs]

end

mutual

/-- When a node of the class gives way, the other outermost nodes keep what they are. -/
theorem stem_mem_front_splice {top : Branch} (b : Branch)
    (covered : ∀ sub ∈ b.subs, sub.id = x → cover sub.stem.content) (mem : top ∈ b.front cover)
    (other : top.id ≠ x) : ∃ kept ∈ frontAll cover (splice x new b), kept.stem = top.stem := by
  cases b with
  | node i stem bs =>
    rw [subs, List.forall_mem_cons] at covered
    rw [front] at mem
    rw [splice]
    split at mem
    · next own =>
      rw [List.mem_singleton] at mem
      subst mem
      have apart : i ≠ x := other
      rw [if_neg apart, frontAll_singleton, front, if_pos own]
      exact ⟨_, List.mem_singleton_self _, rfl⟩
    · next clear =>
      have apart : i ≠ x := fun same => clear (covered.1 same)
      rw [if_neg apart, frontAll_singleton, front, if_neg clear]
      exact stem_mem_frontAll_splice bs covered.2 mem other

theorem stem_mem_frontAll_splice {top : Branch} (bs : List Branch)
    (covered : ∀ sub ∈ subsAll bs, sub.id = x → cover sub.stem.content)
    (mem : top ∈ frontAll cover bs) (other : top.id ≠ x) :
    ∃ kept ∈ frontAll cover (spliceAll x new bs), kept.stem = top.stem := by
  cases bs with
  | nil => cases mem
  | cons b bs =>
    rw [subsAll, List.forall_mem_append] at covered
    rw [spliceAll, frontAll_append]
    rcases List.mem_append.mp mem with mem | mem
    · obtain ⟨kept, here, same⟩ := stem_mem_front_splice b covered.1 mem other
      exact ⟨kept, List.mem_append_left _ here, same⟩
    · obtain ⟨kept, here, same⟩ := stem_mem_frontAll_splice bs covered.2 mem other
      exact ⟨kept, List.mem_append_right _ here, same⟩

end
end

/-- A custom element of the name stands below the top, in no slot and in no other custom element. -/
def Shows (b : Branch) (name : String) : Prop :=
  ∃ top ∈ frontAll Content.shields b.children, top.stem.content.isCalled name

theorem Shows.host {b : Branch} {name : String} (shows : b.Shows name) :
    ∃ sub ∈ frontAll Content.covers b.children, sub.stem.content.isCalled name := by
  obtain ⟨top, mem, called⟩ := shows
  refine ⟨top, ?_, called⟩
  rw [frontAll_of_le fun c => Content.shields_of_covers, List.mem_flatMap]
  refine ⟨top, mem, ?_⟩
  cases top with
  | node i stem bs =>
    have covered : stem.content.covers :=
      Content.covers_of_isCustom (Content.isCustom_of_isCalled called)
    rw [front, if_pos covered]
    exact List.mem_singleton_self _

section
variable {own : Bool} {name : String}

mutual

theorem shows_ofTree (first : NodeId) (t : Tree) (mem : name ∈ t.outerNames) :
    ∃ top ∈ (ofTree own first t).front Content.shields, top.stem.content.isCalled name := by
  cases t with
  | node c ts =>
    rw [ofTree, front]
    cases c with
    | element e =>
      rw [Tree.outerNames] at mem
      split at mem
      · next custom =>
        rw [List.mem_singleton] at mem
        have called : (Content.element e).isCalled name := by
          simp [Content.isCalled, Content.element?, custom, mem]
        rw [if_pos (Content.shields_of_covers
          (Content.covers_of_isCustom (Content.isCustom_of_isCalled called)))]
        exact ⟨_, List.mem_singleton_self _, called⟩
      · next plain =>
        split at mem
        · cases mem
        · next other =>
          rw [if_neg (by simp [Content.shields, Content.covers, Content.element?, Content.text?,
            plain, other])]
          exact shows_ofTrees (first + 1) ts mem
    | text s => cases mem
    | root | comment _ | directive _ =>
      rw [if_neg (by simp [Content.shields, Content.covers, Content.element?, Content.text?])]
      exact shows_ofTrees (first + 1) ts mem

theorem shows_ofTrees (first : NodeId) (ts : List Tree) (mem : name ∈ Tree.outerNamesAll ts) :
    ∃ top ∈ frontAll Content.shields (ofTrees own first ts), top.stem.content.isCalled name := by
  cases ts with
  | nil => cases mem
  | cons t ts =>
    rw [ofTrees, frontAll]
    rcases List.mem_append.mp mem with mem | mem
    · obtain ⟨top, here, called⟩ := shows_ofTree first t mem
      exact ⟨top, List.mem_append_left _ here, called⟩
    · obtain ⟨top, here, called⟩ := shows_ofTrees (first + t.size) ts mem
      exact ⟨top, List.mem_append_right _ here, called⟩

end
end
end Branch

namespace Expansion
open Branch

/-- A copy of a component on which work is done; `s₀` is the state before it was made, and `todo`
lists the texts that values are still to be put into. -/
structure Draft (s₀ s : Expansion) (c : Component) (todo : List NodeId) (f : Branch) : Prop where
  stands : Stands s none f
  once : f.ids.Nodup
  id : f.id = s₀.arena.size
  late : ∀ x ∈ f.ids, s₀.arena.size ≤ x
  framed : Framed s₀ s []
  texts : ∀ x ∈ todo, ∃ sub ∈ subsAll f.children, sub.id = x ∧ sub.children = [] ∧
    ∃ t, sub.stem.content = .text t
  distinct : todo.Nodup
  shows : ∀ name ∈ c.document.tree.outerNames, f.Shows name

section
variable {s₀ s s' : Expansion} {c : Component} {todo : List NodeId} {f : Branch} {x : NodeId}
  {φ : Touch} {new : List Branch}

theorem draft_copied (sound : c.Sound) (tidy : Tidy s) :
    Draft s (copied s c) c ((copySites s c).texts.map (·.node)) (copyOf s c) := by
  have prepared := prepared_copy sound tidy
  have workable := workable_copy (s := s) sound
  refine ⟨prepared.stands, prepared.once, prepared.id, prepared.low, framed_copied s c [],
    fun x mem => ?_, workable.once, fun name mem => ?_⟩
  · obtain ⟨site, here, rfl⟩ := List.mem_map.mp mem
    obtain ⟨sub, part, same, leaf, -, text⟩ := workable.texts site here
    exact ⟨sub, part, same, leaf, text⟩
  · have root := sound.root
    rw [copyOf]
    cases tree : c.document.tree with
    | node content ts =>
      rw [tree] at root mem
      rw [Tree.content] at root
      subst root
      exact shows_ofTrees (s.arena.size + 1) ts mem

theorem Draft.congr (draft : Draft s₀ s c todo f) (arena : s'.arena = s.arena)
    (rich : s'.rich = s.rich) : Draft s₀ s' c todo f :=
  { draft with
    stands := draft.stands.congr fun x mem => ⟨arena ▸ draft.stands.lt mem, look_congr arena rich x⟩
    framed := draft.framed.trans (framed_of_same arena rich []) fun _ mem _ => mem }

/-- A node of the copy, or a later one, changes. -/
theorem Draft.touch (draft : Draft s₀ s c todo f) (touches : Touches s s' x φ) (mild : φ.Mild)
    (late : s₀.arena.size ≤ x) : Draft s₀ s' c todo (f.restem (Stem.touchAt x φ)) where
  stands := touches.stands f draft.stands
  once := by
    rw [ids_restem]
    exact draft.once
  id := by rw [id_restem, draft.id]
  late := by
    rw [ids_restem]
    exact draft.late
  framed := draft.framed.trans (touches.framed (List.mem_singleton_self x)) fun y mem range => by
    rw [List.mem_singleton.mp mem] at range
    exact absurd late (Nat.not_le_of_lt range)
  texts y mem := by
    obtain ⟨sub, here, same, leaf, t, text⟩ := draft.texts y mem
    refine ⟨sub.restem (Stem.touchAt x φ), ?_, by rw [id_restem, same], ?_, ?_⟩
    · rw [children_restem]
      exact restemAll_mem _ here
    · rw [children_restem, leaf]
      rfl
    · rw [stem_restem, Stem.touchAt]
      split
      · exact ⟨t, by rw [Stem.touch, text, mild.plain _ _ rfl]⟩
      · exact ⟨t, text⟩
  distinct := draft.distinct
  shows name mem := by
    obtain ⟨top, front, called⟩ := draft.shows name mem
    have keeps : ∀ {p : Content → Bool}, (∀ c r, p (φ (c, r)).1 = p c) → ∀ id stem,
        p (Stem.touchAt x φ id stem).content = p stem.content := by
      intro p same id stem
      rw [Stem.touchAt]
      split
      · exact same _ _
      · rfl
    refine ⟨top.restem (Stem.touchAt x φ), ?_, ?_⟩
    · rw [children_restem, frontAll_restemAll (keeps mild.shields)]
      exact List.mem_map_of_mem front
    · rw [stem_restem, keeps (mild.isCalled name)]
      exact called

/-- Values take the place of a text. -/
theorem Draft.swap (draft : Draft s₀ s c (x :: todo) f)
    (swapped : Swapped s s' f x new) :
    Draft s₀ s' c todo (.node f.id f.stem (spliceAll x new f.children)) := by
  obtain ⟨⟨sub, part, rfl, leaf, t, text⟩, others⟩ := List.forall_mem_cons.mp draft.texts
  have once := nodup_children draft.once
  have turns := swapped.turns draft.stands draft.once part
  have own : ∀ old ∈ subsAll f.children, old.id = sub.id → old = sub := fun old mem same =>
    eq_of_id_eq once mem part same
  have distinct := List.nodup_cons.mp draft.distinct
  refine ⟨turns.stands, turns.once, draft.id, fun y mem => ?_,
    draft.framed.trans turns.framed fun y mem range => ?_, fun y mem => ?_, distinct.2,
    fun name mem => ?_⟩
  · rcases List.mem_cons.mp mem with rfl | mem
    · exact draft.late _ id_mem_ids
    · exact (turns.ids y mem).elim (fun mem => draft.late y (mem_ids_of_children mem))
        (Nat.le_trans draft.framed.grown)
  · exact absurd (draft.late y mem) (Nat.not_le_of_lt range)
  · obtain ⟨old, here, same, old_leaf, old_text⟩ := others y mem
    have apart : old.id ≠ sub.id := by
      rw [same]
      exact fun again => distinct.1 (again ▸ mem)
    refine ⟨_, mem_subsAll_splice_of_ne _ (fun old mem same => ?_) here apart, same, ?_, old_text⟩
    · rw [own old mem same]
      exact leaf
    · rw [old_leaf]
      rfl
  · obtain ⟨top, front, called⟩ := draft.shows name mem
    have covered : ∀ old ∈ subsAll f.children, old.id = sub.id → old.stem.content.shields := by
      intro old mem same
      rw [own old mem same, text]
      rfl
    have apart : top.id ≠ sub.id := by
      intro same
      rw [own top (mem_subsAll_of_front _ front).1 same, text] at called
      cases called
    obtain ⟨kept, here, same⟩ := stem_mem_frontAll_splice f.children covered front apart
    exact ⟨kept, here, by rw [same]; exact called⟩

theorem Draft.attributes {values : Values} {sites : List AttributeSite} (draft : Draft s₀ s c todo f)
    (late : ∀ site ∈ sites, s₀.arena.size ≤ site.node)
    (run : (sites.forM (substituteAttribute values)).run s = .ok () s') :
    ∃ f', Draft s₀ s' c todo f' := by
  induction sites generalizing s f with
  | nil =>
    cases run
    exact ⟨f, draft⟩
  | cons site rest ih =>
    change (substituteAttribute values site >>= fun _ =>
      rest.forM (substituteAttribute values)).run s = .ok () s' at run
    obtain ⟨_, s₁, filled, tail⟩ := eq_ok_of_bind run
    rw [List.forall_mem_cons] at late
    exact ih (draft.touch (touches_substituteAttribute filled) (mild_fillTouch values site) late.1)
      late.2 tail

theorem Draft.foldlM {α : Type} {step : α → NodeId → Expand α} {out out' : α}
    {nodes : List NodeId} (draft : Draft s₀ s c todo f) (late : ∀ x ∈ nodes, s₀.arena.size ≤ x)
    (touches : ∀ {out out' x s s'}, (step out x).run s = .ok out' s' →
      ∃ φ : Touch, φ.Mild ∧ Touches s s' x φ)
    (run : (nodes.foldlM step out).run s = .ok out' s') : ∃ f', Draft s₀ s' c todo f' := by
  induction nodes generalizing s f out with
  | nil =>
    cases run
    exact ⟨f, draft⟩
  | cons x rest ih =>
    rw [List.foldlM_cons] at run
    obtain ⟨_, s₁, first, tail⟩ := eq_ok_of_bind run
    obtain ⟨φ, mild, touched⟩ := touches first
    rw [List.forall_mem_cons] at late
    exact ih (draft.touch touched mild late.1) late.2 tail

theorem Draft.bound {context : String} {o : Opened} {refs : List (String × String)}
    (draft : Draft s₀ s c todo f) (late : ∀ x ∈ o.sites.refs, s₀.arena.size ≤ x)
    (run : (bindRefs c context o).run s = .ok refs s') : ∃ f', Draft s₀ s' c todo f' := by
  obtain ⟨names, s₁, captured, rest⟩ := eq_ok_of_bind run
  obtain ⟨f', draft'⟩ := draft.foldlM late (fun run =>
    (touches_captureRef run).imp fun _ facts => ⟨facts.1, facts.2.2⟩) captured
  cases client : o.client with
  | none =>
    rw [client] at rest
    cases rest
    exact ⟨f', draft'⟩
  | some source =>
    rw [client] at rest
    cases rest
    exact ⟨f', draft'.congr rfl rfl⟩

/-- Opening an instance gives a copy with the values in its attributes. -/
theorem draft_opened {scene : Scene} {context : String} {o : Opened} {s₁ : Expansion}
    (sound : c.Sound) (tidy : Tidy s) (sites : o.sites = copySites s c)
    (computed : (compute scene c context o.own).run (copied s c) = .ok o.given s₁)
    (filled : (o.sites.attributes.forM (substituteAttribute o.values)).run s₁ = .ok () s') :
    ∃ f, Draft s s' c (o.sites.texts.map (·.node)) f := by
  obtain ⟨arena, rich⟩ := compute_same computed
  rw [sites] at filled ⊢
  refine ((draft_copied sound tidy).congr arena rich).attributes (fun site mem => ?_) filled
  obtain ⟨older, -, rfl⟩ := List.mem_map.mp mem
  exact Nat.le_add_right _ _

end
end Expansion
end Stencil
