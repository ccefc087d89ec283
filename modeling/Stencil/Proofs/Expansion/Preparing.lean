import Stencil.Proofs.Expansion.Receiving
/-!
Work on an instance before anything in it is expanded: values are put into its attributes and its
texts, and it loses its `ref` attributes. A branch is read as what it will be when the work that is
left is done, so each step of the work leaves the reading as it is.
-/
namespace Stencil
open Markup

/-- What is left to do in an instance. -/
structure Work where
  attributes : List AttributeSite := []
  texts : List TextSite := []
  refs : List NodeId := []

def Work.ofSites (sites : Sites) : Work := ⟨sites.attributes, sites.texts, sites.refs⟩

namespace Branch
variable {values : Values} {work work' : Work} {x : NodeId} {bs : List Branch}

/-- The values are put into the attributes of an element, and it loses its `ref` if it is to. -/
def finishElement (values : Values) (work : Work) (id : NodeId) (p : Element × Values) :
    Element × Values :=
  let filled := (work.attributes.filter (·.node = id)).foldl
    (Sketch.fillSite Expansion.richValue? values) p
  ((work.refs.filter (· = id)).foldl (fun e _ => e.eraseAttr "ref") filled.1, filled.2)

mutual

/-- What a branch will be when all work on it is done. -/
def finish (values : Values) (work : Work) (raw : Bool) : Branch → List (Sketch NodeId)
  | node id stem bs =>
    match stem.content with
    | .text s =>
      match work.texts.filter (·.node = id) with
      | [] => [.node (.text s) stem.rich none (finishAll values work false bs)]
      | site :: _ =>
        (Sketch.fillTokens values site.tokens raw s).map fun s => .node (.text s) [] none []
    | .element e =>
      [.node (.element (finishElement values work id (e, stem.rich)).1)
        (finishElement values work id (e, stem.rich)).2
        (if stem.own && stem.content.isSlot then some id else none)
        (finishAll values work (Expansion.rawParents.contains e.name) bs)]
    | c => [.node c stem.rich none (finishAll values work false bs)]

def finishAll (values : Values) (work : Work) (raw : Bool) : List Branch → List (Sketch NodeId)
  | [] => []
  | b :: bs => b.finish values work raw ++ finishAll values work raw bs

end

@[simp] theorem finishAll_append {raw : Bool} (bs cs : List Branch) :
    finishAll values work raw (bs ++ cs) =
      finishAll values work raw bs ++ finishAll values work raw cs := by
  induction bs with
  | nil => rfl
  | cons b bs ih => rw [List.cons_append, finishAll, finishAll, ih, List.append_assoc]

mutual

theorem finish_done (raw : Bool) (b : Branch) :
    b.finish values {} raw = [b.sketch] := by
  cases b with
  | node i stem bs =>
    cases content : stem.content with
    | text s | root | comment _ | directive _ =>
      simp [finish, sketch, content, Content.isSlot, Content.element?, finishAll_done false bs]
    | element e =>
      simp [finish, sketch, content, finishElement, finishAll_done _ bs]

theorem finishAll_done (raw : Bool) (bs : List Branch) :
    finishAll values {} raw bs = sketches bs := by
  cases bs with
  | nil => rfl
  | cons b bs => rw [finishAll, sketches, finish_done raw b, finishAll_done raw bs]; rfl

end

end Branch

/-- Elements are changed and keep their names, and nothing else is changed. -/
structure Touch.Mild (f : Touch) : Prop where
  plain : ∀ c r, c.element? = none → f (c, r) = (c, r)
  named : ∀ e r, ∃ e' r', f (.element e, r) = (.element e', r') ∧ e'.name = e.name

section
variable {f : Touch} (mild : f.Mild)
include mild

theorem Touch.Mild.keepsSlots (c : Content) (r : Values) : (f (c, r)).1.isSlot = c.isSlot := by
  cases c with
  | element e =>
    obtain ⟨e', r', same, name⟩ := mild.named e r
    rw [same, Content.isSlot, Content.isSlot, Content.element?, Content.element?, Option.any_some,
      Option.any_some, name]
  | text _ | root | comment _ | directive _ => rw [mild.plain _ _ rfl]

theorem Touch.Mild.text? (c : Content) (r : Values) : (f (c, r)).1.text? = c.text? := by
  cases c with
  | element e =>
    obtain ⟨e', r', same, -⟩ := mild.named e r
    rw [same]
    rfl
  | text _ | root | comment _ | directive _ => rw [mild.plain _ _ rfl]

end

namespace Branch
variable {values : Values} {work work' : Work} {x : NodeId} {f : Touch}

/-- Work that is done at one node. -/
structure Progress (values : Values) (work work' : Work) (x : NodeId) (f : Touch) : Prop where
  mild : f.Mild
  texts : work'.texts = work.texts
  here : ∀ e rich e' rich', f (.element e, rich) = (.element e', rich') →
    finishElement values work' x (e', rich') = finishElement values work x (e, rich)
  other : ∀ id, id ≠ x → finishElement values work' id = finishElement values work id

mutual

theorem finish_touchAt (progress : Progress values work work' x f) (raw : Bool) (b : Branch) :
    (b.restem (Stem.touchAt x f)).finish values work' raw = b.finish values work raw := by
  cases b with
  | node i stem bs =>
    have below := fun raw => finishAll_touchAt progress raw bs
    rw [restem, Stem.touchAt]
    by_cases own : i = x
    · rw [if_pos own, Stem.touch]
      cases content : stem.content with
      | element e =>
        obtain ⟨e', r', same, name⟩ := progress.mild.named e stem.rich
        have here := progress.here e stem.rich e' r' same
        have slot := progress.mild.keepsSlots (.element e) stem.rich
        rw [same] at slot
        rw [finish, finish]
        simp only [content, same, name, own, here, slot, below]
      | text s | root | comment _ | directive _ =>
        have same := progress.mild.plain stem.content stem.rich (by rw [content]; rfl)
        rw [content] at same
        rw [finish, finish]
        simp only [content, same, progress.texts, below]
    · rw [if_neg own, finish, finish, progress.texts]
      simp only [progress.other i own, below]

theorem finishAll_touchAt (progress : Progress values work work' x f) (raw : Bool)
    (bs : List Branch) :
    finishAll values work' raw (restemAll (Stem.touchAt x f) bs) = finishAll values work raw bs := by
  cases bs with
  | nil => rfl
  | cons b bs =>
    rw [restemAll, finishAll, finishAll, finish_touchAt progress raw b,
      finishAll_touchAt progress raw bs]

end
end Branch

/-- Putting values into one attribute. -/
def fillTouch (values : Values) (site : AttributeSite) : Touch
  | (.element e, rich) =>
    let filled := Sketch.fillSite Expansion.richValue? values (e, rich) site
    (.element filled.1, filled.2)
  | p => p

def eraseRef : Touch := Expansion.touchElement (·.eraseAttr "ref")

theorem Sketch.fillSite_name (keep : Sketch.Keep) (values : Values) (e : Element) (rich : Values)
    (site : AttributeSite) : (Sketch.fillSite keep values (e, rich) site).1.name = e.name := by
  rw [Sketch.fillSite]
  split
  · rfl
  · rfl

theorem mild_fillTouch (values : Values) (site : AttributeSite) : (fillTouch values site).Mild where
  plain c r none := by
    cases c with
    | element e => cases none
    | text _ | root | comment _ | directive _ => rfl
  named e r := ⟨_, _, rfl, Sketch.fillSite_name _ values e r site⟩

theorem mild_touchElement {f : Element → Element} (named : ∀ e, (f e).name = e.name) :
    (Expansion.touchElement f).Mild where
  plain c r none := by
    cases c with
    | element e => cases none
    | text _ | root | comment _ | directive _ => rfl
  named e r := ⟨f e, r, rfl, named e⟩

theorem Touch.Mild.comp {f g : Touch} (first : f.Mild) (second : g.Mild) : Touch.Mild (g ∘ f) where
  plain c r none := by rw [Function.comp, first.plain c r none, second.plain c r none]
  named e r := by
    obtain ⟨e', r', same, name⟩ := first.named e r
    obtain ⟨e'', r'', same', name'⟩ := second.named e' r'
    exact ⟨e'', r'', by rw [Function.comp, same, same'], name'.trans name⟩

theorem progress_attribute (values : Values) (site : AttributeSite) (rest : List AttributeSite)
    (work : Work) (todo : work.attributes = site :: rest) :
    Branch.Progress values work { work with attributes := rest } site.node
      (fillTouch values site) where
  mild := mild_fillTouch values site
  texts := rfl
  here e rich e' rich' same := by
    rw [fillTouch] at same
    injection same with same_e same_rich
    rw [Branch.finishElement, Branch.finishElement, todo, List.filter_cons_of_pos (by simp),
      List.foldl_cons, ← Content.element.inj same_e, ← same_rich]
  other id other := by
    funext p
    rw [Branch.finishElement, Branch.finishElement, todo,
      List.filter_cons_of_neg (by simpa using Ne.symm other)]

theorem progress_ref (values : Values) (x : NodeId) (rest : List NodeId) (work : Work)
    (done : work.attributes = []) (todo : work.refs = x :: rest) :
    Branch.Progress values work { work with refs := rest } x eraseRef where
  mild := mild_touchElement fun _ => rfl
  texts := rfl
  here e rich e' rich' same := by
    rw [eraseRef, Expansion.touchElement] at same
    injection same with same_e same_rich
    have same_e : e.eraseAttr "ref" = e' := Content.element.inj same_e
    rw [Branch.finishElement, Branch.finishElement, todo, done,
      List.filter_cons_of_pos (a := x) (by simp), ← same_e, ← same_rich]
    rfl
  other id other := by
    funext p
    rw [Branch.finishElement, Branch.finishElement, todo,
      List.filter_cons_of_neg (by simpa using Ne.symm other)]

namespace Expansion
open Branch

section
variable {s s' : Expansion}

theorem lookup_putRich (rich : List (NodeId × Values)) (node y : NodeId) (name : String) (v : Value) :
    ((putRich node name v rich).lookup y).getD [] =
      if y = node then ((rich.lookup node).getD []).put name v else (rich.lookup y).getD [] := by
  have mapped : ∀ (old : Values) (rich : List (NodeId × Values)),
      ((rich.map fun e => if e.1 = node then (e.1, old.put name v) else (e.1, e.2)).lookup y) =
        if y = node then (rich.lookup y).map fun _ => old.put name v else rich.lookup y := by
    intro old rich
    induction rich with
    | nil => simp
    | cons e rest ih =>
      obtain ⟨x, vs⟩ := e
      rw [List.map_cons]
      dsimp only
      by_cases own : x = node
      · rw [if_pos own, List.lookup_cons, List.lookup_cons, ih]
        by_cases here : y = x
        · simp [here, own]
        · rw [show (y == x) = false by simpa using here]
      · rw [if_neg own, List.lookup_cons, List.lookup_cons, ih]
        by_cases here : y = x
        · simp [here, own]
        · rw [show (y == x) = false by simpa using here]
  rw [putRich]
  split
  · next none =>
    rw [List.lookup_append, none]
    by_cases own : y = node
    · rw [own, none]
      simp [Assoc.put]
    · rw [if_neg own, List.lookup_cons, show (y == node) = false by simpa using own]
      simp
  · next old found =>
    refine (congrArg (·.getD []) (mapped old rich)).trans ?_
    by_cases own : y = node
    · rw [own, found]
      simp
    · simp [own]

/-- A node that has no element is not touched. -/
theorem touches_of_mild {x : NodeId} {f : Touch} (mild : f.Mild)
    (none : s.arena.element? x = none) : Touches s s x f := by
  refine ⟨rfl, fun y => ?_⟩
  split
  · next own =>
    rw [mild.plain (s.arena.content y) (s.look y).2 (by rw [own]; exact none)]
    rfl
  · rfl

theorem content_of_element? {a : Arena} {x : NodeId} {e : Element} (found : a.element? x = some e) :
    a.content x = .element e := by
  rw [Arena.element?] at found
  cases here : a.content x with
  | element e' =>
    rw [here] at found
    cases found
    rfl
  | root | text _ | comment _ | directive _ =>
    rw [here] at found
    cases found

theorem touches_putRich (node : NodeId) (name : String) (v : Value) :
    Touches s { s with rich := putRich node name v s.rich } node fun (c, r) => (c, r.put name v) := by
  refine ⟨rfl, fun y => ?_⟩
  rw [look, look]
  dsimp only
  rw [lookup_putRich]
  split
  · next own => rw [own]; rfl
  · rfl

theorem touches_substituteAttribute {values : Values} {site : AttributeSite}
    (run : (substituteAttribute values site).run s = .ok () s') :
    Touches s s' site.node (fillTouch values site) := by
  rw [substituteAttribute, run_get_bind] at run
  dsimp only at run
  cases found : s.arena.element? site.node with
  | none =>
    rw [found] at run
    cases run
    exact touches_of_mild (mild_fillTouch values site) found
  | some e =>
    rw [found] at run
    dsimp only at run
    have content := content_of_element? found
    have same : ∀ {g : Touch}, Touches s s' site.node g →
        (∀ r, g (.element e, r) = fillTouch values site (.element e, r)) →
        Touches s s' site.node (fillTouch values site) := by
      intro g touches agree
      refine ⟨touches.size, fun y => ?_⟩
      rw [touches.look]
      split
      · next own => rw [own, content, agree]
      · rfl
    cases attr : e.attr? site.name with
    | none =>
      rw [attr] at run
      cases run
      refine same (g := id) ⟨rfl, fun y => ?_⟩ fun r => ?_
      · split
        · rfl
        · rfl
      · rw [fillTouch, Sketch.fillSite, attr]
        rfl
    | some text =>
      rw [attr] at run
      dsimp only at run
      cases kept : if e.isCustom then richValue? values site.tokens text else none with
      | none =>
        have plain : (modifyArena (·.modifyElement site.node (·.setAttr site.name
            (fillAttribute values site.tokens text)))).run s = .ok () s' := by
          cases custom : e.isCustom with
          | false =>
            rw [custom, if_neg Bool.false_ne_true] at run
            exact run
          | true =>
            rw [custom, if_pos rfl] at kept
            rw [custom, if_pos rfl, kept] at run
            exact run
        refine same (touches_modifyElement plain) fun r => ?_
        rw [fillTouch, Sketch.fillSite, attr]
        dsimp only
        rw [kept]
        rfl
      | some v =>
        cases custom : e.isCustom with
        | false =>
          rw [custom, if_neg Bool.false_ne_true] at kept
          cases kept
        | true =>
          rw [custom, if_pos rfl] at kept
          rw [custom, if_pos rfl, kept] at run
          obtain ⟨_, s₁, put, filled⟩ := eq_ok_of_bind run
          cases put
          refine same ((touches_putRich site.node site.name v).comp (touches_modifyElement filled))
            fun r => ?_
          rw [fillTouch, Sketch.fillSite, attr]
          dsimp only
          rw [custom, if_pos rfl, kept]
          rfl

/-- Taking away a `ref`; in an instance with a client behavior the element may get a number. -/
theorem touches_captureRef {refs refs' : List (String × String)} {node : NodeId} {hasClient : Bool}
    (run : (do
      let name := ((← get).arena.element? node).bind fun e => (e.attribute? "ref").bind (·.value)
      modifyArena (·.modifyElement node (·.eraseAttr "ref"))
      match name with
      | none => return refs
      | some name =>
        if !hasClient || name.isEmpty then return refs
        let n := (← get).nextRef
        modify fun s => { s with
          nextRef := n + 1
          arena := s.arena.modifyElement node (·.setAttr refAttribute (toString n)) }
        return refs ++ [(name, refSelector n)] : Expand _).run s = .ok refs' s') :
    ∃ f : Touch, f.Mild ∧ (hasClient = false → f = eraseRef) ∧ Touches s s' node f := by
  rw [run_get_bind] at run
  dsimp only at run
  obtain ⟨_, s₁, erased, rest⟩ := eq_ok_of_bind run
  have first : Touches s s₁ node eraseRef := touches_modifyElement erased
  have mild : eraseRef.Mild := mild_touchElement fun _ => rfl
  split at rest
  · cases rest
    exact ⟨eraseRef, mild, fun _ => rfl, first⟩
  · next name _ =>
    split at rest
    · cases rest
      exact ⟨eraseRef, mild, fun _ => rfl, first⟩
    · next named =>
      rw [run_get_bind] at rest
      obtain ⟨_, s₂, numbered, last⟩ := eq_ok_of_bind rest
      cases numbered
      cases last
      have second := touches_modifyElement (s := s₁) (x := node)
        (f := (·.setAttr refAttribute (toString s₁.nextRef))) rfl
      have numbered : Touch.Mild (touchElement (·.setAttr refAttribute (toString s₁.nextRef))) :=
        mild_touchElement fun _ => rfl
      refine ⟨_, mild.comp numbered, fun none => ?_, first.comp ⟨second.size, second.look⟩⟩
      rw [none] at named
      exact absurd rfl named

end

/-! ### Instances that are made ready -/

/-- An instance in which nothing has been expanded. Its copy has the numbers from `first` to `last`;
other nodes have come later. All its slots that are to be filled are from the copy. -/
structure Prepared (s : Expansion) (first last : NodeId) (pending : List NodeId) (f : Branch) :
    Prop where
  stands : Stands s none f
  once : f.ids.Nodup
  id : f.id = first
  root : f.stem.content = .root
  low : ∀ x ∈ f.ids, first ≤ x
  own : ∀ sub ∈ subsAll f.children, sub.id ∈ pending → sub.stem.content.isSlot ∧ sub.stem.own
  slots : ∀ slot ∈ slots f.children, slot.1 ∈ pending ∨ BareSlot slot
  order : ∀ sub ∈ subsAll f.children, ∀ x ∈ idsAll sub.children, x < last → sub.id < x
  known : ∀ x ∈ pending, x < last
  grown : last ≤ s.arena.size

/-- The nodes that are left to work on are there. -/
structure Workable (f : Branch) (work : Work) : Prop where
  attributes : ∀ site ∈ work.attributes, site.node ∈ idsAll f.children
  refs : ∀ x ∈ work.refs, ∃ sub ∈ subsAll f.children, sub.id = x ∧ sub.stem.content.text? = none
  texts : ∀ site ∈ work.texts, ∃ sub ∈ subsAll f.children, sub.id = site.node ∧
    sub.children = [] ∧ sub.stem.rich = [] ∧ ∃ t, sub.stem.content = .text t
  once : (work.texts.map (·.node)).Nodup

section
variable {s s' : Expansion} {first last x : NodeId} {pending : List NodeId} {f : Branch}
  {work : Work} {values : Values} {φ : Touch}

theorem own_touchAt (x : NodeId) (φ : Touch) (id : NodeId) (stem : Stem) :
    (Stem.touchAt x φ id stem).own = stem.own := by
  rw [Stem.touchAt]
  split
  · rfl
  · rfl

theorem isSlot_touchAt (mild : φ.Mild) (x id : NodeId) (stem : Stem) :
    (Stem.touchAt x φ id stem).content.isSlot = stem.content.isSlot := by
  rw [Stem.touchAt]
  split
  · exact mild.keepsSlots _ _
  · rfl

theorem text?_touchAt (mild : φ.Mild) (x id : NodeId) (stem : Stem) :
    (Stem.touchAt x φ id stem).content.text? = stem.content.text? := by
  rw [Stem.touchAt]
  split
  · exact mild.text? _ _
  · rfl

theorem Prepared.touch (prepared : Prepared s first last pending f) (touches : Touches s s' x φ)
    (mild : φ.Mild) (mem : x ∈ idsAll f.children) :
    Prepared s' first last pending (f.restem (Stem.touchAt x φ)) where
  stands := touches.stands f prepared.stands
  once := by
    rw [ids_restem]
    exact prepared.once
  id := by rw [id_restem, prepared.id]
  root := by
    have other : f.id ≠ x := by
      have once := prepared.once
      rw [ids_eq, List.nodup_cons] at once
      exact fun same => once.1 (same ▸ mem)
    rw [stem_restem, Stem.touchAt, if_neg other]
    exact prepared.root
  low := by
    rw [ids_restem]
    exact prepared.low
  own sub mem listed := by
    rw [children_restem] at mem
    obtain ⟨old, here, rfl⟩ := mem_subsAll_restem _ mem
    rw [id_restem] at listed
    rw [stem_restem, isSlot_touchAt mild, own_touchAt]
    exact prepared.own old here listed
  slots slot mem := by
    obtain ⟨sub, inside, is_slot, rfl⟩ := mem_slots.mp mem
    rw [children_restem] at inside
    obtain ⟨old, here, rfl⟩ := mem_subsAll_restem _ inside
    rw [stem_restem, isSlot_touchAt mild] at is_slot
    refine (prepared.slots _ (mem_slots.mpr ⟨old, here, is_slot, rfl⟩)).imp (fun listed => ?_)
      fun bare => ?_
    · rwa [id_restem]
    · rw [BareSlot, stem_restem, own_touchAt, children_restem, show old.children = [] from bare.2]
      exact ⟨bare.1, rfl⟩
  order sub mem y inside range := by
    rw [children_restem] at mem
    obtain ⟨old, here, rfl⟩ := mem_subsAll_restem _ mem
    rw [children_restem, idsAll_restemAll] at inside
    rw [id_restem]
    exact prepared.order old here y inside range
  known := prepared.known
  grown := touches.size ▸ prepared.grown

mutual

theorem restem_mem {g : NodeId → Stem → Stem} {sub : Branch} (b : Branch) (mem : sub ∈ b.subs) :
    sub.restem g ∈ (b.restem g).subs := by
  cases b with
  | node i stem bs =>
    rw [subs, List.mem_cons] at mem
    rcases mem with rfl | mem
    · exact self_mem_subs
    · rw [restem, subs]
      exact List.mem_cons_of_mem _ (restemAll_mem bs mem)

theorem restemAll_mem {g : NodeId → Stem → Stem} {sub : Branch} (bs : List Branch)
    (mem : sub ∈ subsAll bs) : sub.restem g ∈ subsAll (restemAll g bs) := by
  cases bs with
  | nil => cases mem
  | cons b bs =>
    rw [restemAll, subsAll, List.mem_append]
    exact (List.mem_append.mp mem).imp (restem_mem b) (restemAll_mem bs)

end

theorem Workable.touch (workable : Workable f work) (mild : φ.Mild) (x : NodeId) :
    Workable (f.restem (Stem.touchAt x φ)) work where
  attributes site mem := by
    rw [children_restem, idsAll_restemAll]
    exact workable.attributes site mem
  refs y mem := by
    obtain ⟨sub, here, same, none⟩ := workable.refs y mem
    refine ⟨sub.restem (Stem.touchAt x φ), ?_, by rw [id_restem, same], ?_⟩
    · rw [children_restem]
      exact restemAll_mem _ here
    · rw [stem_restem, text?_touchAt mild, none]
  texts site mem := by
    obtain ⟨sub, here, same, leaf, rich, t, text⟩ := workable.texts site mem
    refine ⟨sub.restem (Stem.touchAt x φ), ?_, by rw [id_restem, same], ?_, ?_⟩
    · rw [children_restem]
      exact restemAll_mem _ here
    · rw [children_restem, leaf]
      rfl
    · rw [stem_restem, Stem.touchAt]
      split
      · rw [Stem.touch, text, mild.plain _ _ rfl]
        exact ⟨rich, t, rfl⟩
      · exact ⟨rich, t, text⟩
  once := workable.once

theorem Workable.mono {work' : Work} (workable : Workable f work)
    (attributes : ∀ site ∈ work'.attributes, site ∈ work.attributes)
    (refs : ∀ x ∈ work'.refs, x ∈ work.refs) (texts : work'.texts.Sublist work.texts) :
    Workable f work' where
  attributes site mem := workable.attributes site (attributes site mem)
  refs x mem := workable.refs x (refs x mem)
  texts site mem := workable.texts site (texts.subset mem)
  once := workable.once.sublist (texts.map _)

/-- From a state to a later one, an instance has been worked on. -/
structure Worked (s s' : Expansion) (first last : NodeId) (pending : List NodeId) (f : Branch)
    (work' : Work) (f' : Branch) : Prop where
  prepared : Prepared s' first last pending f'
  workable : Workable f' work'
  framed : Framed s s' f.ids
  ids : ∀ y ∈ f'.ids, y ∈ f.ids ∨ s.arena.size ≤ y

theorem Worked.trans {s₁ : Expansion} {f₁ f' : Branch} {work₁ work' : Work}
    (before : Worked s s₁ first last pending f work₁ f₁)
    (after : Worked s₁ s' first last pending f₁ work' f') :
    Worked s s' first last pending f work' f' where
  prepared := after.prepared
  workable := after.workable
  framed := before.framed.trans after.framed fun y mem range =>
    (before.ids y mem).resolve_right (Nat.not_le_of_lt range)
  ids y mem := (after.ids y mem).elim (before.ids y) fun fresh =>
    .inr (Nat.le_trans before.framed.grown fresh)

theorem worked_touch {work' : Work} (prepared : Prepared s first last pending f)
    (workable : Workable f work') (touches : Touches s s' x φ) (mild : φ.Mild)
    (mem : x ∈ idsAll f.children) :
    Worked s s' first last pending f work' (f.restem (Stem.touchAt x φ)) where
  prepared := prepared.touch touches mild mem
  workable := workable.touch mild x
  framed := touches.framed (mem_ids_of_children mem)
  ids _ inside := .inl (ids_restem f ▸ inside)

theorem worked_attributes {sites : List AttributeSite} (prepared : Prepared s first last pending f)
    (workable : Workable f work) (todo : work.attributes = sites)
    (run : (sites.forM (substituteAttribute values)).run s = .ok () s') :
    ∃ f', Worked s s' first last pending f { work with attributes := [] } f' ∧
      ∀ raw, finishAll values { work with attributes := [] } raw f'.children =
        finishAll values work raw f.children := by
  induction sites generalizing s f work with
  | nil =>
    cases run
    refine ⟨f, ⟨prepared, workable.mono (fun _ mem => (nomatch mem)) (fun _ mem => mem)
      (List.Sublist.refl _), .refl _ _, fun _ mem => .inl mem⟩, fun raw => ?_⟩
    rw [← todo]
  | cons site rest ih =>
    change (substituteAttribute values site >>= fun _ =>
      rest.forM (substituteAttribute values)).run s = .ok () s' at run
    obtain ⟨_, s₁, filled, tail⟩ := eq_ok_of_bind run
    have touches := touches_substituteAttribute filled
    have mild := mild_fillTouch values site
    have mem := workable.attributes site (todo ▸ List.mem_cons_self)
    have left : Workable f { work with attributes := rest } :=
      workable.mono (fun site mem => todo ▸ List.mem_cons_of_mem _ mem) (fun _ mem => mem)
        (List.Sublist.refl _)
    have touched := worked_touch prepared left touches mild mem
    obtain ⟨f', worked, same⟩ := ih touched.prepared touched.workable rfl tail
    refine ⟨f', touched.trans worked, fun raw => (same raw).trans ?_⟩
    rw [children_restem]
    exact finishAll_touchAt (progress_attribute values site rest work todo) raw f.children

theorem worked_refs {refs : List NodeId} {hasClient : Bool} {names names' : List (String × String)}
    (prepared : Prepared s first last pending f) (workable : Workable f work)
    (done : work.attributes = []) (todo : work.refs = refs)
    (run : (refs.foldlM (fun refs node => do
      let name := ((← get).arena.element? node).bind fun e => (e.attribute? "ref").bind (·.value)
      modifyArena (·.modifyElement node (·.eraseAttr "ref"))
      match name with
      | none => return refs
      | some name =>
        if !hasClient || name.isEmpty then return refs
        let n := (← get).nextRef
        modify fun s => { s with
          nextRef := n + 1
          arena := s.arena.modifyElement node (·.setAttr refAttribute (toString n)) }
        return refs ++ [(name, refSelector n)]) names : Expand _).run s = .ok names' s') :
    ∃ f', Worked s s' first last pending f { work with refs := [] } f' ∧
      (hasClient = false → ∀ raw, finishAll values { work with refs := [] } raw f'.children =
        finishAll values work raw f.children) := by
  induction refs generalizing s f work names with
  | nil =>
    cases run
    refine ⟨f, ⟨prepared, workable.mono (fun _ mem => mem) (fun _ mem => (nomatch mem))
      (List.Sublist.refl _), .refl _ _, fun _ mem => .inl mem⟩, fun _ raw => ?_⟩
    rw [← todo]
  | cons x rest ih =>
    rw [List.foldlM_cons] at run
    obtain ⟨names₁, s₁, erased, tail⟩ := eq_ok_of_bind run
    obtain ⟨φ, mild, plain, touches⟩ := touches_captureRef erased
    obtain ⟨sub, here, rfl, -⟩ := workable.refs x (todo ▸ List.mem_cons_self)
    have mem := id_mem_idsAll here
    have left : Workable f { work with refs := rest } :=
      workable.mono (fun _ mem => mem) (fun x mem => todo ▸ List.mem_cons_of_mem _ mem)
        (List.Sublist.refl _)
    have touched := worked_touch prepared left touches mild mem
    obtain ⟨f', worked, same⟩ := ih touched.prepared touched.workable done rfl tail
    refine ⟨f', touched.trans worked, fun none raw => (same none raw).trans ?_⟩
    rw [children_restem, plain none]
    exact finishAll_touchAt (progress_ref values sub.id rest work done todo) raw f.children

end
end Expansion
end Stencil
