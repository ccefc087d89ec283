import Stencil.Proofs.Expansion.Exhaustive
import Stencil.Proofs.Expansion.Lasting
import Stencil.Proofs.Markup.Attributes
/-!
The numbers that elements get for client behaviors. Each number is given once, by counting up, and an
element keeps its number wherever it is moved, so no two nodes of a page have one number as long as
nothing that comes from outside has a number already.
-/
namespace Stencil
open Markup

namespace Markup

/-- The number that an element has for a client behavior. -/
def Content.mark? (c : Content) : Option String := c.element?.bind (·.attr? refAttribute)

/-- No element has a number. -/
def Tree.Unnumbered (t : Tree) : Prop := ∀ c ∈ t.contents, c.mark? = none

instance (t : Tree) : Decidable t.Unnumbered :=
  inferInstanceAs (Decidable (∀ c ∈ t.contents, c.mark? = none))

theorem Tree.Unnumbered.children {t : Tree} (unnumbered : t.Unnumbered) : ∀ u ∈ t.children, u.Unnumbered :=
  fun _ mem c inside => unnumbered c (Tree.mem_contents_of_mem_children mem inside)

theorem mark?_setAttr {e : Element} {name value : String} (other : name ≠ refAttribute) :
    (Content.element (e.setAttr name value)).mark? = (Content.element e).mark? :=
  congrArg (Option.map _) (Element.attribute?_setAttr_of_ne other)

theorem mark?_eraseAttr {e : Element} {name : String} (other : name ≠ refAttribute) :
    (Content.element (e.eraseAttr name)).mark? = (Content.element e).mark? :=
  congrArg (Option.map _) (Element.attribute?_eraseAttr_of_ne other)

theorem mark?_number {e : Element} {value : String} :
    (Content.element (e.setAttr refAttribute value)).mark? = some value :=
  congrArg (Option.map _) Element.attribute?_setAttr

theorem isSome_mark? {e : Element} :
    (Content.element e).mark?.isSome ↔ refAttribute ∈ e.attributes.map (·.name) := by
  rw [show (Content.element e).mark? = e.attr? refAttribute from rfl, Element.attr?, Option.isSome_map,
    Element.isSome_attribute?, Element.hasAttr]
  simp

end Markup

/-- No markup in the value has an element with a number. -/
def Value.Unnumbered (v : Value) : Prop :=
  ∀ s ∈ v.markups, ∀ d, Document.ofSource .page [] s = .ok d → d.tree.Unnumbered

theorem Value.inherits_unnumbered : Inherits Unnumbered := inherits_markups _

theorem Value.unnumbered_of_plain {v : Value} (plain : v.Plain) : v.Unnumbered := by
  intro s mem
  rw [markups_of_plain plain] at mem
  cases mem

namespace Expansion

theorem eq_of_toString_eq {n m : Nat} (same : toString n = toString m) : n = m := by
  have digits := congrArg (fun t : String => Nat.ofDigitChars 10 t.toList 0) same
  simpa using digits

def mark? (s : Expansion) (x : NodeId) : Option String := (s.arena.content x).mark?

/-- Every number has been counted, and no two nodes have the same. -/
structure Numbered (s : Expansion) : Prop where
  early : ∀ x m, s.mark? x = some m → ∃ n < s.nextRef, m = toString n
  once : ∀ x y m, s.mark? x = some m → s.mark? y = some m → x = y

section
variable {scene : Scene} {s s₁ s' : Expansion}

/-! ### Steps -/

/-- Nothing gets a number. -/
theorem Numbered.fade (numbered : Numbered s) (later : s.nextRef ≤ s'.nextRef)
    (old : ∀ x m, s'.mark? x = some m → s.mark? x = some m) : Numbered s' where
  early x m has := by
    obtain ⟨n, counted, same⟩ := numbered.early x m (old x m has)
    exact ⟨n, Nat.lt_of_lt_of_le counted later, same⟩
  once x y m has has' := numbered.once x y m (old x m has) (old y m has')

theorem Numbered.of_contents (numbered : Numbered s) (next : s'.nextRef = s.nextRef)
    (same : ∀ y, s'.arena.content y = s.arena.content y) : Numbered s' := by
  refine numbered.fade (Nat.le_of_eq next.symm) fun x m has => ?_
  rwa [mark?, same] at has

theorem numbered_modifyArena {f : Arena → Arena}
    (same : ∀ (a : Arena) y, (f a).content y = a.content y) : Preserves Numbered (modifyArena f) :=
  preserves_modify fun _ numbered => numbered.of_contents rfl (same _)

theorem numbered_replaceWith (x : NodeId) (ids : List NodeId) :
    Preserves Numbered (modifyArena (·.replaceWith x ids)) :=
  numbered_modifyArena fun a y => a.content_replaceWith x ids y

theorem numbered_takeChildren (x : NodeId) : Preserves Numbered (takeChildren x) :=
  fun s numbered => numbered.of_contents rfl fun y => s.arena.content_takeChildren x y

theorem numbered_logUnknown (scene : Scene) (id : String) : Preserves Numbered (logUnknown scene id) :=
  fun _ numbered => numbered.of_contents rfl fun _ => rfl

theorem numbered_setContent {x : NodeId} {c : Content} (plain : c.mark? = none) :
    Preserves Numbered (modifyArena (·.setContent x c)) := by
  refine preserves_modify fun s numbered => numbered.fade (Nat.le_refl _) fun y m has => ?_
  rw [mark?, Arena.content_setContent] at has
  split at has
  · rw [plain] at has
    cases has
  · exact has

/-- New nodes without numbers. -/
theorem Numbered.grow (numbered : Numbered s) {ns : List Node}
    (plain : ∀ n ∈ ns, n.content.mark? = none) :
    Numbered { s with arena := ⟨s.arena.nodes ++ ns.toArray⟩ } := by
  refine numbered.fade (Nat.le_refl _) fun x m has => ?_
  rw [mark?, Arena.content_grow] at has
  split at has
  · exact has
  · cases found : (ns.map (·.content))[x - s.arena.size]? with
    | none =>
      rw [found] at has
      cases has
    | some c =>
      obtain ⟨n, mem, rfl⟩ := List.mem_map.mp (List.mem_of_getElem? found)
      rw [found, Option.getD_some, plain n mem] at has
      cases has

theorem numbered_alloc {c : Content} (plain : c.mark? = none) : Preserves Numbered (alloc c) := by
  intro s numbered
  have alone : ∀ n ∈ [Node.mk c none []], n.content.mark? = none :=
    fun n mem => List.mem_singleton.mp mem ▸ plain
  have grown := numbered.grow alone
  rwa [← s.arena.alloc_eq_grow c] at grown

theorem Numbered.graft (numbered : Numbered s) {t : Tree} (unnumbered : t.Unnumbered) :
    Numbered { s with arena := (s.arena.graft t).2 } := by
  refine numbered.grow fun n mem => unnumbered _ ?_
  rw [← t.content_layout none s.arena.size]
  exact List.mem_map_of_mem mem

theorem numbered_graftAll {ts : List Tree} (unnumbered : ∀ t ∈ ts, t.Unnumbered) :
    Preserves Numbered (graftAll ts) := by
  induction ts with
  | nil => exact fun _ numbered => numbered
  | cons t ts ih =>
    rw [List.forall_mem_cons] at unnumbered
    rw [graftAll, List.mapM_cons]
    exact preserves_bind (fun s numbered => numbered.graft unnumbered.1) fun _ =>
      preserves_bind (ih unnumbered.2) fun _ => preserves_pure _

theorem numbered_holdContent (supplied : Assoc (List NodeId)) (name : String) (slot : NodeId) :
    Preserves Numbered (holdContent supplied name slot) := by
  have place : ∀ (holder : NodeId) (ids : List NodeId), Preserves Numbered
      (modifyArena fun a => ids.foldl (·.append holder ·) a) := fun holder ids =>
    numbered_modifyArena fun a y => a.content_foldl (fun a x j => a.content_append holder x j) ids y
  refine preserves_bind preserves_get fun _ => preserves_bind (numbered_alloc rfl) fun holder => ?_
  dsimp only
  split
  · exact preserves_bind (preserves_pure _) fun ids => preserves_bind (place holder ids) fun _ =>
      preserves_pure holder
  · exact preserves_bind (numbered_takeChildren slot) fun ids =>
      preserves_bind (place holder ids) fun _ => preserves_pure holder

theorem Numbered.touch {x : NodeId} {φ : Touch} (numbered : Numbered s) (touches : Touches s s' x φ)
    (later : s.nextRef ≤ s'.nextRef) (old : ∀ c r, (φ (c, r)).1.mark? = c.mark?) : Numbered s' := by
  refine numbered.fade later fun y m has => ?_
  rw [mark?, touches.content] at has
  split at has
  · rwa [old] at has
  · exact has

theorem mark?_touchElement {f : Element → Element}
    (same : ∀ e, (Content.element (f e)).mark? = (Content.element e).mark?) (c : Content) (r : Values) :
    (touchElement f (c, r)).1.mark? = c.mark? := by
  cases c with
  | element e => exact same e
  | root | text _ | comment _ | directive _ => rfl

theorem numbered_eraseAttr {x : NodeId} {name : String} (other : name ≠ refAttribute) :
    Preserves Numbered (modifyArena (·.modifyElement x (·.eraseAttr name))) := fun _ numbered =>
  numbered.touch (touches_modifyElement rfl) (Nat.le_refl _)
    (mark?_touchElement fun _ => mark?_eraseAttr other)

theorem numbered_receive (scene : Scene) (host : Option NodeId) :
    Preserves Numbered (receive scene host) := by
  cases host with
  | none => exact preserves_pure _
  | some host =>
    refine preserves_bind (fun s numbered => ?_) fun _ => preserves_bind ?_ fun _ => preserves_pure _
    · rw [mergeHost, run_get_bind]
      split
      · exact numbered
      · exact numbered.of_contents rfl fun _ => rfl
    · exact preserves_bind (numbered_takeChildren host) fun ids => preserves_foldlM (fun _ id =>
        preserves_bind preserves_get fun _ => preserves_bind (numbered_eraseAttr (by decide)) fun _ =>
          preserves_pure _) ids _

theorem numbered_compute (scene : Scene) (c : Component) (context : String) (values : Values) :
    Preserves Numbered (compute scene c context values) := by
  rw [compute]
  cases c.script with
  | none => exact preserves_pure _
  | some script =>
    refine preserves_map (preserves_bind preserves_get fun s => ?_)
    split
    · exact preserves_pure _
    · refine preserves_bind (preserves_modify fun _ numbered => numbered.of_contents rfl fun _ => rfl)
        fun _ => ?_
      split
      · exact preserves_throw _
      · exact preserves_bind (preserves_modify fun _ numbered => numbered.of_contents rfl fun _ => rfl)
          fun _ => preserves_pure _

theorem nextRef_substituteAttribute {values : Values} {site : AttributeSite}
    (run : (substituteAttribute values site).run s = .ok () s') : s'.nextRef = s.nextRef := by
  have same : ∀ n, Preserves (·.nextRef = n) (substituteAttribute values site) := by
    intro n
    refine preserves_bind preserves_get fun _ => ?_
    dsimp only
    split
    · exact preserves_pure _
    · split
      · exact preserves_pure _
      · split
        · split
          · exact preserves_bind (preserves_modify fun _ h => h) fun _ => preserves_modify fun _ h => h
          · exact preserves_modify fun _ h => h
        · exact preserves_modify fun _ h => h
  exact (same _).of_ok rfl run

theorem numbered_substituteAttribute (values : Values) {site : AttributeSite}
    (other : site.name ≠ refAttribute) : Preserves Numbered (substituteAttribute values site) := by
  intro s numbered
  obtain ⟨_, s', run⟩ := total_substituteAttribute values site s
  rw [run]
  refine numbered.touch (touches_substituteAttribute run)
    (Nat.le_of_eq (nextRef_substituteAttribute run).symm) fun c r => ?_
  cases c with
  | element e =>
    rw [fillTouch, Sketch.fillSite]
    split
    · rfl
    · exact mark?_setAttr other
  | root | text _ | comment _ | directive _ => rfl

theorem numbered_openInstance {c : Component} {context : String} {host : Option NodeId}
    {extra : Values} {o : Opened} (sound : c.Sound) (unnumbered : c.document.tree.Unnumbered)
    (numbered : Numbered s) (opened : (openInstance scene c context host extra).run s = .ok o s') :
    Numbered s' := by
  obtain ⟨values, s₁, s₂, received, -, -, sites, computed, filled⟩ := openInstance_ok opened
  have copied := ((numbered_receive scene host).of_ok numbered received).graft unnumbered
  have start := (numbered_compute scene c context o.own).of_ok copied computed
  have each : ∀ site ∈ o.sites.attributes, Preserves Numbered (substituteAttribute o.values site) := by
    intro site mem
    rw [sites] at mem
    obtain ⟨inner, listed, rfl⟩ := List.mem_map.mp mem
    obtain ⟨e, found, a, has, named, -⟩ := sound.exists_attribute listed
    refine numbered_substituteAttribute _ fun marked => ?_
    have some := isSome_mark?.mpr (List.mem_map.mpr ⟨a, has, named.symm.trans marked⟩)
    rw [unnumbered _ (List.mem_of_getElem? found)] at some
    cases some
  exact (preserves_forM_mem each).of_ok start filled

theorem mark?_giveNumber {n : Nat} {c : Content} {r : Values} {m : String}
    (has : ((giveNumber n ∘ eraseRef) (c, r)).1.mark? = some m) : m = toString n := by
  cases c with
  | element e =>
    have given : some (toString n) = some m := mark?_number.symm.trans has
    exact (Option.some.inj given).symm
  | root | text _ | comment _ | directive _ => cases has

/-- The next number is new. -/
theorem numbered_captureRef (hasClient : Bool) (refs : List (String × String)) (node : NodeId) :
    Preserves Numbered (captureRef hasClient refs node) := by
  intro s numbered
  obtain ⟨refs', s', run⟩ := total_captureRef hasClient refs node s
  rw [run]
  rcases captureRef_ok run with ⟨-, next, touches⟩ | ⟨name, -, -, next, touches⟩
  · exact numbered.touch touches (Nat.le_of_eq next.symm)
      (mark?_touchElement fun _ => mark?_eraseAttr (by decide))
  · have marks : ∀ x m, s'.mark? x = some m →
        s.mark? x = some m ∨ x = node ∧ m = toString s.nextRef := by
      intro x m has
      rw [mark?, touches.content] at has
      split at has
      · next own => exact .inr ⟨own, mark?_giveNumber has⟩
      · exact .inl has
    -- numbers that have been counted before are smaller
    have new : ∀ x, s.mark? x ≠ some (toString s.nextRef) := by
      intro x has
      obtain ⟨n, counted, same⟩ := numbered.early x _ has
      exact Nat.ne_of_gt counted (eq_of_toString_eq same)
    refine ⟨fun x m has => ?_, fun x y m has has' => ?_⟩
    · rw [Outcome.state_ok, next]
      rcases marks x m has with old | ⟨-, rfl⟩
      · obtain ⟨n, counted, same⟩ := numbered.early x m old
        exact ⟨n, Nat.lt_succ_of_lt counted, same⟩
      · exact ⟨s.nextRef, Nat.lt_succ_self _, rfl⟩
    · rcases marks x m has with old | ⟨rfl, rfl⟩
      · rcases marks y m has' with old' | ⟨rfl, rfl⟩
        · exact numbered.once x y m old old'
        · exact absurd old (new x)
      · rcases marks y _ has' with old' | ⟨rfl, -⟩
        · exact absurd old' (new y)
        · rfl

theorem numbered_bindRefs (c : Component) (context : String) (o : Opened) :
    Preserves Numbered (bindRefs c context o) := by
  refine preserves_bind (preserves_foldlM (fun refs node => numbered_captureRef _ refs node) _ _)
    fun refs => ?_
  split
  · exact preserves_bind (preserves_modify fun _ numbered => numbered.of_contents rfl fun _ => rfl)
      fun _ => preserves_pure refs
  · exact preserves_pure refs

/-! ### Runs -/

theorem numbered_of_run {call : Call} {made : List Instance} {r : Outcome call.Out}
    (sound : ∀ id c, scene.library.component? id = some c → c.Sound)
    (unnumbered : ∀ id c, scene.library.component? id = some c → c.document.tree.Unnumbered)
    (document : Values.All Value.Unnumbered scene.document) (run : Run scene call s made r)
    (rich : RichAll Value.Unnumbered s) (ready : call.Ready Value.Unnumbered)
    (given : GivenAll Value.Unnumbered made) (numbered : Numbered s) :
    ∀ out s', r = .ok out s' → Numbered s' := by
  have inherits := Value.inherits_unnumbered
  induction run with
  | tooDeep | refused | textsStop | withinStop | textsHeadStop | richTextStop | piecesValueStop
  | valueMarkupStop | valueComponentStop | valuesHeadStop | hostsHeadStop | hostStop | slotsStop =>
    intro out s' same
    cases same
  | unknown absent logged =>
    intro out s' same
    cases same
    exact (numbered_logUnknown _ _).of_ok numbered logged
  | created known opened texts bound within slots ih ihw ihs =>
    intro out s' same
    obtain ⟨_, rfl, -⟩ := Outcome.eq_ok_of_map same
    obtain ⟨rich₁, all⟩ := rich_openInstance inherits document rich ready given.head opened
    have rich₂ := rich_of_run inherits document texts rich₁ all given.tail.left _ _ rfl
    have rich₃ := (rich_bindRefs _ _ _).of_ok rich₂ bound
    have rich₄ := rich_of_run inherits document within rich₃ trivial given.tail.right.left _ _ rfl
    have numbered₁ := numbered_openInstance (sound _ _ known) (unnumbered _ _ known) numbered opened
    have numbered₂ := ih rich₁ all given.tail.left numbered₁ _ _ rfl
    have numbered₃ := (numbered_bindRefs _ _ _).of_ok numbered₂ bound
    have numbered₄ := ihw rich₃ trivial given.tail.right.left numbered₃ _ _ rfl
    exact ihs rich₄ trivial given.tail.right.right numbered₄ _ _ rfl
  | textsNil | noText | piecesNil | valuesNil | hostsNil | noHost | slotsNil =>
    intro out s' same
    cases same
    exact numbered
  | textsCons head tail ih iht =>
    exact iht (rich_of_run inherits document head rich ready given.left _ _ rfl) ready given.right
      (ih rich ready given.left numbered _ _ rfl)
  | plainText found plain written =>
    intro out s' same
    cases same
    exact (numbered_setContent rfl).of_ok numbered written
  | richText found plain placed replaced ih =>
    intro out s' same
    cases same
    exact (numbered_replaceWith _ _).of_ok
      (ih rich (fun v mem => all_pieces ready _ _ mem) given numbered _ _ rfl) replaced
  | piecesEmpty empty tail ih =>
    exact ih rich (fun v mem => ready v (List.mem_cons_of_mem _ mem)) given numbered
  | piecesLiteral more added tail ih =>
    intro out s' same
    obtain ⟨_, rfl, -⟩ := Outcome.eq_ok_of_map same
    exact ih ((rich_alloc _).of_ok rich added) (fun v mem => ready v (List.mem_cons_of_mem _ mem)) given
      ((numbered_alloc rfl).of_ok numbered added) _ _ rfl
  | piecesValue head tail ih iht =>
    intro out s' same
    obtain ⟨_, rfl, -⟩ := Outcome.eq_ok_of_map same
    have own := ready _ List.mem_cons_self
    exact iht (rich_of_run inherits document head rich own given.left _ _ rfl)
      (fun v mem => ready v (List.mem_cons_of_mem _ mem)) given.right
      (ih rich own given.left numbered _ _ rfl) _ _ rfl
  | valuesCons head tail ih iht =>
    intro out s' same
    obtain ⟨_, rfl, -⟩ := Outcome.eq_ok_of_map same
    have own := ready _ List.mem_cons_self
    exact iht (rich_of_run inherits document head rich own given.left _ _ rfl)
      (fun v mem => ready v (List.mem_cons_of_mem _ mem)) given.right
      (ih rich own given.left numbered _ _ rfl) _ _ rfl
  | valueText added =>
    intro out s' same
    cases same
    exact (numbered_alloc rfl).of_ok numbered added
  | @valueMarkup left context source s d ids s' read grafted =>
    intro out s' same
    cases same
    have own : d.tree.Unnumbered :=
      ready source (by rw [Value.markups]; exact List.mem_singleton_self _) d read
    exact (numbered_graftAll own.children).of_ok numbered grafted
  | valueComponent body taken ih =>
    intro out s' same
    cases same
    exact (numbered_takeChildren _).of_ok
      (ih rich (fun e mem => inherits.nested ready mem) given numbered _ _ rfl) taken
  | valueUnknown body added ih =>
    intro out s' same
    cases same
    exact (numbered_alloc rfl).of_ok
      (ih rich (fun e mem => inherits.nested ready mem) given numbered _ _ rfl) added
  | valueList all ih => exact ih rich (fun v mem => inherits.item ready mem) given numbered
  | within all ih | slotsGone outside tail ih => exact ih rich trivial given numbered
  | hostBottom found body ih =>
    intro out s' same
    cases same
    exact ih rich (fun _ mem => nomatch mem) given numbered _ _ rfl
  | hostsCons head tail ih iht =>
    exact iht (rich_of_run inherits document head rich trivial given.left _ _ rfl) trivial given.right
      (ih rich trivial given.left numbered _ _ rfl)
  | hostReplaced found body taken replaced ih =>
    intro out s' same
    cases same
    have numbered₁ := ih rich (fun _ mem => nomatch mem) given numbered _ _ rfl
    exact (numbered_replaceWith _ _).of_ok ((numbered_takeChildren _).of_ok numbered₁ taken) replaced
  | hostKept found body inside ih iht =>
    have none : Values.All Value.Unnumbered [] := fun _ mem => nomatch mem
    exact iht (rich_of_run inherits document body rich none given.left _ _ rfl) trivial given.right
      (ih rich none given.left numbered _ _ rfl)
  | slotsCons inside held content taken replaced tail ih iht =>
    have rich₁ := (rich_holdContent _ _ _).of_ok rich held
    have rich₂ := rich_of_run inherits document content rich₁ trivial given.left _ _ rfl
    have numbered₂ := ih rich₁ trivial given.left ((numbered_holdContent _ _ _).of_ok numbered held)
      _ _ rfl
    exact iht ((rich_modifyArena _).of_ok ((rich_takeChildren _).of_ok rich₂ taken) replaced) trivial
      given.right ((numbered_replaceWith _ _).of_ok
        ((numbered_takeChildren _).of_ok numbered₂ taken) replaced)

theorem numbered_ofPage {page : Page} (unnumbered : page.document.tree.Unnumbered) :
    Numbered (ofPage page) := by
  have absent : ∀ x, mark? { arena := ⟨#[]⟩ } x = none := fun _ => rfl
  have empty : Numbered { arena := ⟨#[]⟩ } := by
    refine ⟨fun x m has => ?_, fun x y m has _ => ?_⟩
    · rw [absent] at has
      cases has
    · rw [absent] at has
      cases has
  have grown := empty.graft unnumbered
  rw [Arena.graft] at grown
  simpa [ofPage, Arena.ofTree, Arena.size] using grown

end
end Expansion
end Stencil
