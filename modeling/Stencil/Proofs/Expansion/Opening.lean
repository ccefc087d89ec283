import Stencil.Proofs.Expansion.Preparing
import Stencil.Proofs.Markup.Leaves
import Stencil.Proofs.Markup.Told
/-!
Opening an instance: a component is copied, and the values of the instance are put into the attributes
of the copy. When all work on it is done, the copy is the component with the values.
-/
namespace Stencil
open Markup

/-! ### Copies of components -/

namespace Markup.Element

theorem names_assign {name value : String} {attributes : List Attribute}
    (mem : name ∈ attributes.map (·.name)) :
    (assign name value attributes).map (·.name) = attributes.map (·.name) := by
  induction attributes with
  | nil => cases mem
  | cons a rest ih =>
    rw [assign]
    split
    · next own => rw [List.map_cons, List.map_cons, own]
    · next other =>
      have later := (List.mem_cons.mp mem).resolve_left (Ne.symm other)
      rw [List.map_cons, List.map_cons, ih later]

theorem mem_names_of_attr? {e : Element} {name text : String} (found : e.attr? name = some text) :
    name ∈ e.attributes.map (·.name) := by
  obtain ⟨a, here, -⟩ := Option.map_eq_some_iff.mp found
  have own := List.find?_some here
  rw [beq_iff_eq] at own
  exact List.mem_map.mpr ⟨a, List.mem_of_find?_eq_some here, own⟩

theorem eraseAttr_of_not_mem {e : Element} {name : String}
    (out : name ∉ e.attributes.map (·.name)) : e.eraseAttr name = e := by
  rw [eraseAttr, List.eraseP_of_forall_not fun a mem => ?_]
  have other : a.name ≠ name := fun same => out (same ▸ List.mem_map_of_mem mem)
  simpa using other

end Markup.Element

namespace Sketch
variable {keep : Keep} {values : Values}

theorem names_fillSite (p : Element × Values) (site : AttributeSite) :
    (fillSite keep values p site).1.attributes.map (·.name) = p.1.attributes.map (·.name) := by
  obtain ⟨e, rich⟩ := p
  rw [fillSite]
  split
  · rfl
  · next text found => exact Element.names_assign (Element.mem_names_of_attr? found)

theorem names_foldl_fillSite (sites : List AttributeSite) (p : Element × Values) :
    (sites.foldl (fillSite keep values) p).1.attributes.map (·.name) =
      p.1.attributes.map (·.name) := by
  induction sites generalizing p with
  | nil => rfl
  | cons site rest ih => rw [List.foldl_cons, ih, names_fillSite]

/-- The number of the element does not matter. -/
theorem foldl_ofAttributes (n : NodeId) (e : Element) (p : Element × Values) :
    (Sites.ofAttributes n e).foldl (fillSite keep values) p =
      (Sites.ofAttributes 0 e).foldl (fillSite keep values) p := by
  rw [Sites.ofAttributes_node, List.foldl_map]
  rfl

theorem fillTokens_nil (raw : Bool) (s : String) : fillTokens values [] raw s = [s] := by
  simp [fillTokens, Expansion.pieces, Expansion.Piece.isPlain, Expansion.Piece.text]

theorem mapAll_append {η θ : Type} (f : η → θ) (ts us : List (Sketch η)) :
    mapAll f (ts ++ us) = mapAll f ts ++ mapAll f us := by
  induction ts with
  | nil => rfl
  | cons t ts ih => rw [List.cons_append, mapAll, mapAll, ih, List.cons_append]

theorem mapAll_texts {η θ : Type} (f : η → θ) (texts : List String) :
    mapAll f (texts.map fun s => node (.text s) [] none []) =
      texts.map fun s => node (.text s) [] none [] := by
  induction texts with
  | nil => rfl
  | cons s rest ih => rw [List.map_cons, mapAll, ih, map]; rfl

end Sketch

/-- The name that a slot has in a list of slots. -/
def nameOf (slots : List (String × NodeId)) (x : NodeId) : String :=
  ((slots.filter (·.2 = x)).head?.map (·.1)).getD ""

namespace Branch
variable {values : Values} {sites : Sites}

theorem finishElement_ofSites {id : NodeId} {e : Element} (tells : sites.Tells (id, .element e)) :
    finishElement values (.ofSites sites) id (e, []) =
      Sketch.fillElement Expansion.richValue? values e := by
  have attributes : (Work.ofSites sites).attributes.filter (·.node = id) = Sites.ofAttributes id e :=
    tells.attributes
  have refs : (Work.ofSites sites).refs.filter (· = id) =
      (if e.hasAttr "ref" then some id else none).toList := tells.refs
  rw [finishElement, Sketch.fillElement, attributes, refs, Sketch.foldl_ofAttributes]
  cases marked : e.hasAttr "ref" with
  | true => rfl
  | false =>
    have out : "ref" ∉ e.attributes.map (·.name) := by
      intro mem
      obtain ⟨a, here, own⟩ := List.mem_map.mp mem
      rw [Element.hasAttr, List.any_eq_false] at marked
      exact marked a here (by simpa using own)
    have names := @Sketch.names_foldl_fillSite Expansion.richValue? values
      (Sites.ofAttributes 0 e) (e, [])
    rw [← names] at out
    dsimp only
    rw [Element.eraseAttr_of_not_mem out]
    rfl

mutual

/-- When all work is done, a copy of a tree is the tree with the values. -/
theorem finish_ofTree (first : NodeId) (t : Tree) (raw : Bool) (leaves : t.LeafTexts)
    (tells : ∀ sub ∈ (ofTree true first t).subs, sites.Tells (sub.id, sub.stem.content)) :
    Sketch.mapAll (nameOf sites.slots)
      ((ofTree true first t).finish values (.ofSites sites) raw) =
        Sketch.fillTree Expansion.richValue? values raw t := by
  cases t with
  | node c ts =>
    rw [ofTree, subs, List.forall_mem_cons] at tells
    have own : sites.Tells (first, c) := tells.1
    have below := tells.2
    cases c with
    | text s =>
      rw [Tree.LeafTexts] at leaves
      subst leaves
      have texts : (Work.ofSites sites).texts.filter (·.node = first) =
        (Sites.textOf (first, .text s)).toList := own.texts
      rw [ofTree, finish, Sketch.fillTree, Sketch.fillText]
      dsimp only
      rw [texts, Sites.textOf]
      cases tokens : Token.ofText s with
      | nil =>
        rw [Sketch.fillTokens_nil]
        rfl
      | cons t ts => exact Sketch.mapAll_texts _ _
    | element e =>
      have inner := finishAll_ofTrees (first + 1) ts (Expansion.rawParents.contains e.name)
        leaves below
      have filled : finishElement values (.ofSites sites) first (e, []) =
        Sketch.fillElement Expansion.richValue? values e := finishElement_ofSites own
      have slots : sites.slots.filter (·.2 = first) =
        (Sites.slotOf (first, .element e)).toList := own.slots
      rw [ofTree, finish, Sketch.fillTree]
      dsimp only
      rw [filled, Sketch.mapAll, Sketch.map, inner, Bool.true_and, Content.isSlot,
        Content.element?, Option.any_some, Sketch.mapAll]
      by_cases slot : e.name = "slot"
      · rw [Sites.slotOf, if_pos slot] at slots
        rw [if_pos (by simpa using slot), if_pos slot, Option.map_some, nameOf, slots]
        rfl
      · rw [if_neg (by simpa using slot), if_neg slot]
        rfl
    | root | comment _ | directive _ =>
      have inner := finishAll_ofTrees (first + 1) ts false leaves below
      rw [ofTree, finish, Sketch.fillTree]
      · dsimp only
        rw [Sketch.mapAll, Sketch.map, inner]
        rfl
      · exact fun _ same => nomatch same
      · exact fun _ same => nomatch same

theorem finishAll_ofTrees (first : NodeId) (ts : List Tree) (raw : Bool)
    (leaves : Tree.LeafTextsAll ts)
    (tells : ∀ sub ∈ subsAll (ofTrees true first ts), sites.Tells (sub.id, sub.stem.content)) :
    Sketch.mapAll (nameOf sites.slots)
      (finishAll values (.ofSites sites) raw (ofTrees true first ts)) =
        Sketch.fillTrees Expansion.richValue? values raw ts := by
  cases ts with
  | nil => rfl
  | cons t ts =>
    rw [ofTrees, subsAll, List.forall_mem_append] at tells
    rw [ofTrees, finishAll, Sketch.mapAll_append, Sketch.fillTrees,
      finish_ofTree first t raw leaves.1 tells.1,
      finishAll_ofTrees (first + t.size) ts raw leaves.2 tells.2]

end
section
variable {own : Bool} {first : NodeId} {sub : Branch}

mutual

/-- In a copy, the nodes below a node have later numbers. -/
theorem lt_of_mem_ofTree (first : NodeId) (t : Tree) (mem : sub ∈ (ofTree own first t).subs) {x : NodeId}
    (inside : x ∈ idsAll sub.children) : sub.id < x := by
  cases t with
  | node c ts =>
    rw [ofTree, subs, List.mem_cons] at mem
    rcases mem with rfl | mem
    · rw [children, idsAll_ofTrees, List.mem_range'_1] at inside
      exact inside.1
    · exact lt_of_mem_ofTrees (first + 1) ts mem inside

theorem lt_of_mem_ofTrees (first : NodeId) (ts : List Tree) (mem : sub ∈ subsAll (ofTrees own first ts))
    {x : NodeId} (inside : x ∈ idsAll sub.children) : sub.id < x := by
  cases ts with
  | nil => cases mem
  | cons t ts =>
    rcases List.mem_append.mp mem with mem | mem
    · exact lt_of_mem_ofTree first t mem inside
    · exact lt_of_mem_ofTrees (first + t.size) ts mem inside

end

mutual

theorem leaf_of_mem_ofTree (first : NodeId) (t : Tree) (leaves : t.LeafTexts)
    (mem : sub ∈ (ofTree own first t).subs) {s : String} (text : sub.stem.content = .text s) :
    sub.children = [] := by
  cases t with
  | node c ts =>
    rw [ofTree, subs, List.mem_cons] at mem
    rcases mem with rfl | mem
    · have same : c = .text s := text
      rw [same, Tree.LeafTexts] at leaves
      rw [leaves]
      rfl
    · cases c with
      | text s =>
        rw [Tree.LeafTexts] at leaves
        rw [leaves] at mem
        cases mem
      | element _ | root | comment _ | directive _ =>
        exact leaf_of_mem_ofTrees (first + 1) ts leaves mem text

theorem leaf_of_mem_ofTrees (first : NodeId) (ts : List Tree) (leaves : Tree.LeafTextsAll ts)
    (mem : sub ∈ subsAll (ofTrees own first ts)) {s : String} (text : sub.stem.content = .text s) :
    sub.children = [] := by
  cases ts with
  | nil => cases mem
  | cons t ts =>
    rcases List.mem_append.mp mem with mem | mem
    · exact leaf_of_mem_ofTree first t leaves.1 mem text
    · exact leaf_of_mem_ofTrees (first + t.size) ts leaves.2 mem text

end
end
end Branch

namespace Expansion
open Branch

/-- The copy of a component that is put into a store next. -/
def copyOf (s : Expansion) (c : Component) : Branch := ofTree true s.arena.size c.document.tree

def copySites (s : Expansion) (c : Component) : Sites := c.document.sites.shift s.arena.size

def copied (s : Expansion) (c : Component) : Expansion :=
  { s with arena := (c.instantiate s.arena).2.2 }

section
variable {s : Expansion} {c : Component}

theorem numbered_copy (s : Expansion) (c : Component) :
    Sites.numbered s.arena.size c.document.tree =
      (copyOf s c).subs.map fun b => (b.id, b.stem.content) :=
  numbered_ofTree _ _

theorem nodup_numbered_copy (s : Expansion) (c : Component) :
    ((Sites.numbered s.arena.size c.document.tree).map (·.1)).Nodup := by
  rw [numbered_copy, List.map_map]
  have once : (ofTree true s.arena.size c.document.tree).ids.Nodup := nodup_ofTree _
  rw [← map_id_subs] at once
  exact once

theorem tells_copy (sound : c.Sound) {sub : Branch} (mem : sub ∈ (copyOf s c).subs) :
    (copySites s c).Tells (sub.id, sub.stem.content) := by
  refine Sites.tells_of_numbered (Sites.ofNumbered_shift sound.sites s.arena.size)
    (nodup_numbered_copy s c) ?_
  rw [numbered_copy]
  exact List.mem_map_of_mem mem

theorem sites_copy (sound : c.Sound) :
    (copySites s c).attributes =
        (Sites.numbered s.arena.size c.document.tree).flatMap Sites.attributesOf ∧
      (copySites s c).texts =
        (Sites.numbered s.arena.size c.document.tree).filterMap Sites.textOf ∧
      (copySites s c).refs = (Sites.numbered s.arena.size c.document.tree).filterMap
        (Sites.elementOf (·.hasAttr "ref")) ∧
      (copySites s c).slots =
        (Sites.numbered s.arena.size c.document.tree).filterMap Sites.slotOf := by
  obtain ⟨-, same⟩ := Sites.ofNumbered_ok (Sites.ofNumbered_shift sound.sites s.arena.size)
  rw [copySites, same]
  exact ⟨rfl, rfl, rfl, rfl⟩

/-- A numbered node that is not a root is below the top of the copy. -/
theorem mem_copy (sound : c.Sound) {p : NodeId × Content}
    (mem : p ∈ Sites.numbered s.arena.size c.document.tree) (other : p.2 ≠ .root) :
    ∃ sub ∈ subsAll (copyOf s c).children, (sub.id, sub.stem.content) = p := by
  rw [numbered_copy, List.mem_map] at mem
  obtain ⟨sub, here, rfl⟩ := mem
  rw [subs_eq, List.mem_cons] at here
  rcases here with rfl | here
  · refine absurd ?_ other
    have root := sound.root
    dsimp only
    rw [copyOf]
    cases tree : c.document.tree with
    | node content ts =>
      rw [tree] at root
      exact root
  · exact ⟨sub, here, rfl⟩

theorem workable_copy (sound : c.Sound) : Workable (copyOf s c) (.ofSites (copySites s c)) := by
  obtain ⟨attributes, texts, refs, -⟩ := sites_copy (s := s) sound
  refine ⟨fun site mem => ?_, fun x mem => ?_, fun site mem => ?_, ?_⟩
  · rw [Work.ofSites, attributes, List.mem_flatMap] at mem
    obtain ⟨⟨id, content⟩, here, mem⟩ := mem
    have own := Sites.node_of_mem_attributesOf mem
    have other : content ≠ .root := by
      rintro rfl
      cases mem
    obtain ⟨sub, inside, same⟩ := mem_copy sound here other
    rw [own, ← same]
    exact id_mem_idsAll inside
  · rw [Work.ofSites, refs, List.mem_filterMap] at mem
    obtain ⟨p, here, found⟩ := mem
    obtain ⟨e, rfl⟩ := Sites.eq_of_elementOf found
    obtain ⟨sub, inside, same⟩ := mem_copy sound here (by simp)
    injection same with id content
    exact ⟨sub, inside, id, by rw [content]; rfl⟩
  · rw [Work.ofSites, texts, List.mem_filterMap] at mem
    obtain ⟨p, here, found⟩ := mem
    obtain ⟨t, rfl, -⟩ := Sites.eq_of_textOf found
    obtain ⟨sub, inside, same⟩ := mem_copy sound here (by simp)
    injection same with id content
    have part : sub ∈ (copyOf s c).subs := by
      rw [subs_eq]
      exact List.mem_cons_of_mem _ inside
    exact ⟨sub, inside, id, leaf_of_mem_ofTree s.arena.size c.document.tree sound.leaves part content,
      (own_of_mem_ofTree s.arena.size c.document.tree part).2, t, content⟩
  · refine (nodup_numbered_copy s c).sublist ?_
    rw [Work.ofSites, texts]
    exact Sites.sublist_filterMap (fun _ _ => Sites.node_of_textOf) _

theorem slots_copy (sound : c.Sound) :
    ((copySites s c).slots.map (·.1)).Nodup ∧
      ((copySites s c).slots.map (·.2)).Pairwise (· < ·) ∧
      ∀ x ∈ (copySites s c).slots.map (·.2),
        s.arena.size ≤ x ∧ x < s.arena.size + c.document.tree.size := by
  refine ⟨Sites.nodup_names_of_numbered (Sites.ofNumbered_shift sound.sites s.arena.size), ?_, ?_⟩
  all_goals
    obtain ⟨-, -, -, slots⟩ := sites_copy (s := s) sound
    have sub := Sites.sublist_filterMap (fun _ _ => Sites.node_of_slotOf)
      (Sites.numbered s.arena.size c.document.tree)
    have ids : (Sites.numbered s.arena.size c.document.tree).map (·.1) =
        List.range' s.arena.size c.document.tree.size := by
      have copied : (ofTree true s.arena.size c.document.tree).ids = _ := ids_ofTree _ _
      rw [numbered_copy, List.map_map, ← copied, ← map_id_subs]
      rfl
    rw [ids, ← slots] at sub
  · exact List.Pairwise.sublist sub List.pairwise_lt_range'
  · intro x mem
    exact List.mem_range'_1.mp (sub.subset mem)

/-- The node of a slot of the copy is a slot. -/
theorem isSlot_copy (sound : c.Sound) {sub : Branch} (mem : sub ∈ (copyOf s c).subs) :
    sub.id ∈ (copySites s c).slots.map (·.2) ↔ sub.stem.content.isSlot := by
  have tells := (tells_copy sound mem).slots
  constructor
  · intro listed
    obtain ⟨slot, here, same⟩ := List.mem_map.mp listed
    have found : slot ∈ (copySites s c).slots.filter (·.2 = sub.id) :=
      List.mem_filter.mpr ⟨here, by simpa using same⟩
    rw [tells, Option.mem_toList] at found
    obtain ⟨e, same, named⟩ := Sites.eq_of_slotOf found
    injection same with _ content
    rw [content]
    simpa [Content.isSlot, Content.element?] using named
  · intro slot
    cases content : sub.stem.content with
    | element e =>
      rw [content] at slot tells
      have named : e.name = "slot" := by simpa [Content.isSlot, Content.element?] using slot
      rw [Sites.slotOf, if_pos named, Option.toList_some] at tells
      have here : (slotName (e.attr? "name"), sub.id) ∈
          (copySites s c).slots.filter (·.2 = sub.id) := by
        rw [tells]
        exact List.mem_singleton_self _
      exact List.mem_map.mpr ⟨_, (List.mem_filter.mp here).1, rfl⟩
    | text _ | root | comment _ | directive _ =>
      rw [content] at slot
      cases slot

theorem prepared_copy (sound : c.Sound) (tidy : Tidy s) :
    Prepared (copied s c) s.arena.size (s.arena.size + c.document.tree.size)
      ((copySites s c).slots.map (·.2)) (copyOf s c) := by
  have inside : ∀ {sub}, sub ∈ subsAll (copyOf s c).children → sub ∈ (copyOf s c).subs := by
    intro sub mem
    rw [subs_eq]
    exact List.mem_cons_of_mem _ mem
  have owned : ∀ {sub}, sub ∈ (copyOf s c).subs → sub.stem.own = true := fun mem =>
    (own_of_mem_ofTree s.arena.size c.document.tree mem).1
  refine ⟨stands_copy rfl rfl fun x low => tidy.fresh low, nodup_ofTree _, id_ofTree _ _, ?_,
    fun x mem => ?_, fun sub mem listed => ?_, fun slot mem => ?_, fun sub mem x deep _ => ?_,
    fun x mem => ((slots_copy sound).2.2 x mem).2, ?_⟩
  · have root := sound.root
    rw [copyOf]
    cases tree : c.document.tree with
    | node content ts =>
      rw [tree] at root
      exact root
  · rw [copyOf, ids_ofTree, List.mem_range'_1] at mem
    exact mem.1
  · exact ⟨(isSlot_copy sound (inside mem)).mp listed, owned (inside mem)⟩
  · obtain ⟨sub, here, is_slot, rfl⟩ := mem_slots.mp mem
    exact .inl ((isSlot_copy sound (inside here)).mpr is_slot)
  · exact lt_of_mem_ofTree s.arena.size c.document.tree (inside mem) deep
  · exact Nat.le_of_eq (s.arena.size_graft c.document.tree).symm

theorem framed_copied (s : Expansion) (c : Component) (own : List NodeId) : Framed s (copied s c) own where
  grown := by
    rw [copied, Component.instantiate]
    dsimp only
    rw [Arena.size_graft]
    exact Nat.le_add_right _ _
  same x range _ := by
    rw [look, look]
    refine Prod.ext ?_ rfl
    exact (s.arena.node_graft c.document.tree x).trans (if_pos range)

/-- What a copy becomes when all work on it is done. -/
theorem finishAll_copy (sound : c.Sound) (values : Values) :
    Sketch.mapAll (nameOf (copySites s c).slots)
      (finishAll values (.ofSites (copySites s c)) false (copyOf s c).children) =
        Sketch.fillTrees richValue? values false c.document.tree.children := by
  have tells : ∀ sub ∈ (copyOf s c).subs, (copySites s c).Tells (sub.id, sub.stem.content) :=
    fun sub mem => tells_copy sound mem
  have leaves := sound.leaves
  have root := sound.root
  rw [copyOf] at tells ⊢
  cases tree : c.document.tree with
  | node content ts =>
    rw [tree] at tells leaves root
    rw [Tree.content] at root
    subst root
    rw [ofTree, subs, List.forall_mem_cons] at tells
    exact finishAll_ofTrees (s.arena.size + 1) ts false leaves tells.2

end

/-! ### Opening -/

section
variable {s s₁ s' : Expansion} {scene : Scene} {c : Component} {context : String} {o : Opened}
  {values : Values} {first last : NodeId} {pending : List NodeId} {f : Branch} {work : Work}

theorem compute_kept (s : Expansion) :
    Preserves (fun t => t.arena = s.arena ∧ t.rich = s.rich) (compute scene c context values) := by
  rw [compute]
  cases c.script with
  | none => exact preserves_pure _
  | some script =>
    refine preserves_map (preserves_bind preserves_get fun t => ?_)
    split
    · exact preserves_pure _
    · refine preserves_bind (preserves_modify fun _ same => same) fun _ => ?_
      split
      · exact preserves_throw _
      · exact preserves_bind (preserves_modify fun _ same => same) fun _ => preserves_pure _

theorem compute_same {given : Option Computed}
    (run : (compute scene c context values).run s = .ok given s') :
    s'.arena = s.arena ∧ s'.rich = s.rich :=
  (compute_kept s).of_ok ⟨rfl, rfl⟩ run

theorem look_congr (arena : s'.arena = s.arena) (rich : s'.rich = s.rich) (x : NodeId) :
    s'.look x = s.look x := by
  rw [look, look, arena, rich]

theorem Prepared.congr (prepared : Prepared s first last pending f) (arena : s'.arena = s.arena)
    (rich : s'.rich = s.rich) : Prepared s' first last pending f :=
  { prepared with
    stands := prepared.stands.congr fun x mem =>
      ⟨arena ▸ prepared.stands.lt mem, look_congr arena rich x⟩
    grown := arena ▸ prepared.grown }

theorem framed_of_same (arena : s'.arena = s.arena) (rich : s'.rich = s.rich) (own : List NodeId) :
    Framed s s' own :=
  ⟨Nat.le_of_eq (by rw [arena]), fun x _ _ => look_congr arena rich x⟩

/-- An instance that has been opened, with what it is filled from. -/
structure OpenedAs (s s' : Expansion) (c : Component) (o : Opened) (f : Branch) : Prop where
  id : f.id = o.fragment
  prepared : Prepared s' s.arena.size (s.arena.size + c.document.tree.size)
    (o.sites.slots.map (·.2)) f
  workable : Workable f { texts := o.sites.texts, refs := o.sites.refs }
  names : (o.sites.slots.map (·.1)).Nodup
  order : (o.sites.slots.map (·.2)).Pairwise (· < ·)
  late : ∀ x ∈ o.sites.slots.map (·.2), s.arena.size ≤ x
  framed : Framed s s' []
  finish : Sketch.mapAll (nameOf o.sites.slots)
    (finishAll o.values { texts := o.sites.texts, refs := o.sites.refs } false f.children) =
      Sketch.fillTrees richValue? o.values false c.document.tree.children

/-- What happens after an instance has received what its host has. -/
theorem openedAs (sound : c.Sound) (tidy : Tidy s)
    (fragment : o.fragment = (c.instantiate s.arena).1)
    (sites : o.sites = (c.instantiate s.arena).2.1)
    (computed : (compute scene c context o.own).run (copied s c) = .ok o.given s₁)
    (filled : (o.sites.attributes.forM (substituteAttribute o.values)).run s₁ = .ok () s') :
    ∃ f, OpenedAs s s' c o f := by
  obtain ⟨arena, rich⟩ := compute_same computed
  have sites : o.sites = copySites s c := sites
  rw [sites] at filled
  obtain ⟨f, worked, same⟩ := worked_attributes ((prepared_copy sound tidy).congr arena rich)
    (workable_copy sound) rfl filled
  obtain ⟨names, order, late⟩ := slots_copy (s := s) sound
  have framed : Framed s s' [] := by
    refine ((framed_copied s c []).trans (framed_of_same arena rich []) fun _ mem _ => mem).trans
      worked.framed fun x mem range => ?_
    exact absurd ((prepared_copy sound tidy).low x mem) (Nat.not_le_of_lt range)
  refine ⟨f, worked.prepared.id.trans fragment.symm, ?_, ?_, ?_, ?_, ?_, framed, ?_⟩
  · rw [sites]
    exact worked.prepared
  · rw [sites]
    exact worked.workable
  · rw [sites]
    exact names
  · rw [sites]
    exact order
  · rw [sites]
    exact fun x mem => (late x mem).1
  · rw [sites]
    exact (congrArg (Sketch.mapAll _) (same false)).trans (finishAll_copy sound o.values)

theorem worked_bindRefs (values : Values) {refs : List (String × String)}
    (prepared : Prepared s first last pending f)
    (workable : Workable f { refs := o.sites.refs })
    (run : (bindRefs c context o).run s = .ok refs s') :
    ∃ f', Worked s s' first last pending f {} f' ∧
      (o.client = none → sketches f'.children =
        finishAll values { refs := o.sites.refs } false f.children) := by
  obtain ⟨names, s₁, erased, rest⟩ := eq_ok_of_bind run
  obtain ⟨f', worked, same⟩ := @worked_refs s s₁ first last pending f _ values o.sites.refs _ _ _
    prepared workable rfl rfl erased
  have kept : s'.arena = s₁.arena ∧ s'.rich = s₁.rich := by
    cases client : o.client with
    | none =>
      rw [client] at rest
      cases rest
      exact ⟨rfl, rfl⟩
    | some source =>
      rw [client] at rest
      cases rest
      exact ⟨rfl, rfl⟩
  refine ⟨f', ⟨worked.prepared.congr kept.1 kept.2, worked.workable,
    worked.framed.trans (framed_of_same kept.1 kept.2 f.ids) fun _ mem _ => mem, worked.ids⟩,
    fun none => ?_⟩
  rw [← same (by rw [none]; rfl) false]
  exact (finishAll_done false f'.children).symm

end
end Expansion
end Stencil
