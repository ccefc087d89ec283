import Stencil.Proofs.Expansion.Opening
import Stencil.Proofs.Markup.Told
/-!
What lasts of the contents of nodes. An instance is made of new nodes, and its values and numbers go
into these. Of a node that is there before, a call takes at most the `slot` attribute, and it writes
only into the texts that it is given.
-/
namespace Stencil
open Markup

namespace Markup

/-- A content without what naming a slot is about. -/
def Content.lasting : Content → Content
  | .element e => .element { e with attributes := e.attributes.filter (·.name != "slot") }
  | c => c

theorem lasting_eraseAttr (e : Element) :
    (Content.element (e.eraseAttr "slot")).lasting = (Content.element e).lasting := by
  have kept : ∀ as : List Attribute, (as.eraseP (·.name == "slot")).filter (·.name != "slot") =
      as.filter (·.name != "slot") := by
    intro as
    induction as with
    | nil => rfl
    | cons a as ih =>
      by_cases own : a.name = "slot"
      · rw [List.eraseP_cons_of_pos (by simpa using own), List.filter_cons_of_neg (by simpa using own)]
      · rw [List.eraseP_cons_of_neg (by simpa using own), List.filter_cons_of_pos (by simpa using own),
          List.filter_cons_of_pos (by simpa using own), ih]
  rw [Content.lasting, Content.lasting, Element.eraseAttr, kept]

/-- Other attributes are read off what lasts. -/
theorem attribute?_lasting {e e' : Element} {name : String} (other : name ≠ "slot")
    (same : (Content.element e).lasting = (Content.element e').lasting) :
    e.attribute? name = e'.attribute? name := by
  have kept : ∀ as : List Attribute,
      (as.filter (·.name != "slot")).find? (·.name == name) = as.find? (·.name == name) := by
    intro as
    rw [List.find?_filter]
    have both : ∀ a : Attribute,
        decide ((a.name != "slot") = true ∧ (a.name == name) = true) = (a.name == name) := by
      intro a
      by_cases own : a.name = name
      · simp [own, other]
      · simp [own]
    exact congrArg (as.find? ·) (funext both)
  have lists : e.attributes.filter (·.name != "slot") = e'.attributes.filter (·.name != "slot") := by
    injection same with same
    exact congrArg Element.attributes same
  rw [Element.attribute?, Element.attribute?, ← kept, lists, kept]

theorem text?_lasting (c : Content) : c.lasting.text? = c.text? := by
  cases c <;> rfl

theorem element?_lasting (c : Content) : c.lasting.element?.map (·.name) = c.element?.map (·.name) := by
  cases c <;> rfl

end Markup

namespace Expansion

/-- What is done about the `ref` attribute of a node. -/
def captureRef (hasClient : Bool) (refs : List (String × String)) (node : NodeId) :
    Expand (List (String × String)) := do
  let name := ((← get).arena.element? node).bind fun e => (e.attribute? "ref").bind (·.value)
  modifyArena (·.modifyElement node (·.eraseAttr "ref"))
  match name with
  | none => return refs
  | some name =>
    if !hasClient || name.isEmpty then return refs
    let n := (← get).nextRef
    modify fun s => { s with
      nextRef := n + 1
      arena := s.arena.modifyElement node (·.setAttr refAttribute (toString n)) }
    return refs ++ [(name, refSelector n)]

theorem captureRefs_eq (sites : Sites) (hasClient : Bool) :
    captureRefs sites hasClient = sites.refs.foldlM (captureRef hasClient) [] := rfl

/-- Each of some nodes has a content that is good for it. -/
structure Lasts (kept : NodeId → Prop) (good : NodeId → Content → Prop) (s : Expansion) : Prop where
  known : ∀ y, kept y → y < s.arena.size
  holds : ∀ y, kept y → good y (s.arena.content y)

/-- Whether an element names a slot does not matter. -/
def Lasting (good : NodeId → Content → Prop) : Prop :=
  ∀ y e, good y (.element e) → good y (.element (e.eraseAttr "slot"))

/-- Whatever the call writes into one of the nodes is good for it. -/
def Call.Spares (kept : NodeId → Prop) (good : NodeId → Content → Prop) : Call → Prop
  | .texts _ _ _ _ sites => ∀ site ∈ sites, kept site.node → ∀ t, good site.node (.text t)
  | .text _ _ _ site => kept site.node → ∀ t, good site.node (.text t)
  | _ => True

theorem lasting_eq (view : NodeId → Content) : Lasting fun y c => c.lasting = view y :=
  fun _ e same => (lasting_eraseAttr e).trans same

section
variable {α : Type} {kept : NodeId → Prop} {good : NodeId → Content → Prop} {s s' : Expansion}

/-! ### Steps -/

theorem Lasts.congr (lasts : Lasts kept good s) (grown : s.arena.size ≤ s'.arena.size)
    (same : ∀ y, kept y → good y (s.arena.content y) → good y (s'.arena.content y)) :
    Lasts kept good s' :=
  ⟨fun y mem => Nat.lt_of_lt_of_le (lasts.known y mem) grown,
    fun y mem => same y mem (lasts.holds y mem)⟩

theorem Lasts.of_arena (lasts : Lasts kept good s) (same : s'.arena = s.arena) :
    Lasts kept good s' :=
  ⟨fun y mem => same ▸ lasts.known y mem, fun y mem => same ▸ lasts.holds y mem⟩

theorem lasts_modifyArena {f : Arena → Arena} (size : ∀ a : Arena, (f a).size = a.size)
    (same : ∀ (a : Arena) y, kept y → good y (a.content y) → good y ((f a).content y)) :
    Preserves (Lasts kept good) (modifyArena f) :=
  preserves_modify fun _ lasts => lasts.congr (Nat.le_of_eq (size _).symm) (same _)

theorem lasts_replaceWith (x : NodeId) (ids : List NodeId) :
    Preserves (Lasts kept good) (modifyArena (·.replaceWith x ids)) := by
  refine lasts_modifyArena (fun a => a.size_replaceWith x ids) fun a y _ holds => ?_
  rwa [a.content_replaceWith x ids y]

theorem lasts_setContent {x : NodeId} {c : Content} (fits : kept x → good x c) :
    Preserves (Lasts kept good) (modifyArena (·.setContent x c)) := by
  refine lasts_modifyArena (fun a => a.size_setContent x c) fun a y mem holds => ?_
  rw [a.content_setContent]
  split
  · next own => exact own.1 ▸ fits (own.1 ▸ mem)
  · exact holds

theorem lasts_modifyElement {x : NodeId} {f : Element → Element}
    (fits : kept x → ∀ e, good x (.element e) → good x (.element (f e))) :
    Preserves (Lasts kept good) (modifyArena (·.modifyElement x f)) := by
  refine lasts_modifyArena (fun a => a.size_modifyElement x f) fun a y mem holds => ?_
  rw [Arena.modifyElement]
  split
  · next e found =>
    rw [a.content_setContent]
    split
    · next own =>
      obtain ⟨rfl, -⟩ := own
      rw [content_of_element? found] at holds
      exact fits mem e holds
    · exact holds
  · exact holds

/-- What is added at the end changes nothing of the nodes before. -/
theorem Lasts.grow (lasts : Lasts kept good s) (ns : List Node) :
    Lasts kept good { s with arena := ⟨s.arena.nodes ++ ns.toArray⟩ } := by
  refine lasts.congr ?_ fun y mem holds => ?_
  · simp [Arena.size]
  · dsimp only
    rwa [Arena.content_grow, if_pos (lasts.known y mem)]

theorem lasts_alloc (c : Content) : Preserves (Lasts kept good) (alloc c) := by
  intro s lasts
  have grown := lasts.grow [⟨c, none, []⟩]
  rwa [← s.arena.alloc_eq_grow c] at grown

theorem Lasts.graft (lasts : Lasts kept good s) (t : Tree) :
    Lasts kept good { s with arena := (s.arena.graft t).2 } :=
  lasts.grow (t.layout none s.arena.size)

theorem lasts_graftAll (ts : List Tree) : Preserves (Lasts kept good) (graftAll ts) :=
  preserves_mapM (fun t _ lasts => lasts.graft t) ts

theorem lasts_takeChildren (id : NodeId) : Preserves (Lasts kept good) (takeChildren id) := by
  refine fun s lasts => lasts.congr (Nat.le_of_eq (s.arena.size_takeChildren id).symm)
    fun y _ holds => ?_
  change good y ((s.arena.takeChildren id).2.content y)
  rwa [s.arena.content_takeChildren id y]

theorem lasts_logUnknown (scene : Scene) (id : String) :
    Preserves (Lasts kept good) (logUnknown scene id) :=
  fun _ lasts => lasts.of_arena rfl

theorem lasts_holdContent (supplied : Assoc (List NodeId)) (name : String) (slot : NodeId) :
    Preserves (Lasts kept good) (holdContent supplied name slot) := by
  have place : ∀ (holder : NodeId) (ids : List NodeId), Preserves (Lasts kept good)
      (modifyArena fun a => ids.foldl (·.append holder ·) a) := by
    intro holder ids
    refine lasts_modifyArena (fun a => a.size_foldl (fun b x => b.size_append holder x) ids)
      fun a y _ holds => ?_
    rwa [a.content_foldl (fun a x j => a.content_append holder x j) ids y]
  refine preserves_bind preserves_get fun _ => preserves_bind (lasts_alloc .root) fun holder => ?_
  dsimp only
  split
  · exact preserves_bind (preserves_pure _) fun ids => preserves_bind (place holder ids) fun _ =>
      preserves_pure holder
  · exact preserves_bind (lasts_takeChildren slot) fun ids =>
      preserves_bind (place holder ids) fun _ => preserves_pure holder

/-- A host gives its children away without their `slot` attributes. -/
theorem lasts_receive (lasting : Lasting good) (scene : Scene) (host : Option NodeId) :
    Preserves (Lasts kept good) (receive scene host) := by
  cases host with
  | none => exact preserves_pure _
  | some host =>
    refine preserves_bind (fun s lasts => ?_) fun _ => preserves_bind ?_ fun _ => preserves_pure _
    · rw [mergeHost, run_get_bind]
      split
      · exact lasts
      · exact lasts.of_arena rfl
    · exact preserves_bind (lasts_takeChildren host) fun ids => preserves_foldlM (fun _ id =>
        preserves_bind preserves_get fun _ => preserves_bind
          (lasts_modifyElement fun _ e => lasting id e) fun _ => preserves_pure _) ids _

theorem lasts_compute (scene : Scene) (c : Component) (context : String) (values : Values) :
    Preserves (Lasts kept good) (compute scene c context values) := by
  rw [compute]
  cases c.script with
  | none => exact preserves_pure _
  | some script =>
    refine preserves_map (preserves_bind preserves_get fun s => ?_)
    split
    · exact preserves_pure _
    · refine preserves_bind (preserves_modify fun _ lasts => lasts.of_arena rfl) fun _ => ?_
      split
      · exact preserves_throw _
      · exact preserves_bind (preserves_modify fun _ lasts => lasts.of_arena rfl) fun _ =>
          preserves_pure _

theorem Touches.content {x : NodeId} {φ : Touch} (touches : Touches s s' x φ) (y : NodeId) :
    s'.arena.content y =
      if y = x then (φ (s.arena.content y, (s.look y).2)).1 else s.arena.content y := by
  have look : s'.arena.content y = _ := congrArg (·.1.content) (touches.look y)
  rw [look]
  split
  · rfl
  · rfl

theorem Lasts.touch {x : NodeId} {φ : Touch} (lasts : Lasts kept good s) (touches : Touches s s' x φ)
    (fits : kept x → ∀ c r, good x c → good x (φ (c, r)).1) : Lasts kept good s' := by
  refine lasts.congr (Nat.le_of_eq touches.size.symm) fun y mem holds => ?_
  rw [touches.content]
  split
  · next own => exact own ▸ fits (own ▸ mem) _ _ (own ▸ holds)
  · exact holds

/-- An attribute that gets its value is there already. -/
theorem lasts_substituteAttribute (values : Values) {site : AttributeSite}
    (fits : kept site.node → ∀ e v, site.name ∈ e.attributes.map (·.name) →
      good site.node (.element e) → good site.node (.element (e.setAttr site.name v))) :
    Preserves (Lasts kept good) (substituteAttribute values site) := by
  intro s lasts
  obtain ⟨_, s', run⟩ := total_substituteAttribute values site s
  rw [run]
  refine lasts.touch (touches_substituteAttribute run) fun mem c r holds => ?_
  cases c with
  | element e =>
    rw [fillTouch, Sketch.fillSite]
    split
    · exact holds
    · next text found => exact fits mem e _ (Element.mem_names_of_attr? found) holds
  | root | text _ | comment _ | directive _ => exact holds

theorem lasts_openInstance (lasting : Lasting good) (scene : Scene) (c : Component)
    (context : String) (host : Option NodeId) (extra : Values) :
    Preserves (Lasts kept good) (openInstance scene c context host extra) := by
  intro s lasts
  cases run : (openInstance scene c context host extra).run s with
  | ok o s' =>
    obtain ⟨values, s₁, s₂, received, -, -, sites, computed, filled⟩ := openInstance_ok run
    have before := (lasts_receive lasting scene host).of_ok lasts received
    -- the sites of a copy are new
    refine (preserves_forM_mem fun site mem => lasts_substituteAttribute _ fun old => ?_).of_ok
      ((lasts_compute scene c context _).of_ok (before.graft c.document.tree) computed) filled
    rw [sites] at mem
    obtain ⟨inner, -, rfl⟩ := List.mem_map.mp mem
    exact absurd (before.known _ old) (Nat.not_lt_of_le (Nat.le_add_right s₁.arena.size inner.node))
  | error e s' =>
    obtain ⟨values, supplied, s₁, received, failed⟩ := openInstance_error run
    have before := (lasts_receive lasting scene host).of_ok lasts received
    exact (lasts_compute scene c context _).of_error (before.graft c.document.tree) failed

/-- What is good in a component, and stays so when attributes get their values, is good in a copy. -/
theorem lasts_opened {scene : Scene} {c : Component} {context : String} {host : Option NodeId}
    {extra : Values} {o : Opened} (opened : (openInstance scene c context host extra).run s = .ok o s')
    (copied : ∀ y, kept y → ∃ k content, y = o.fragment + k ∧
      c.document.tree.contents[k]? = some content ∧ good y content)
    (fits : ∀ site ∈ o.sites.attributes, kept site.node → ∀ e v,
      site.name ∈ e.attributes.map (·.name) → good site.node (.element e) →
        good site.node (.element (e.setAttr site.name v))) : Lasts kept good s' := by
  obtain ⟨own, s₁, s₂, -, -, fragment, -, computed, filled⟩ := openInstance_ok opened
  have start : Lasts kept good { s₁ with arena := (c.instantiate s₁.arena).2.2 } := by
    refine ⟨fun y mem => ?_, fun y mem => ?_⟩
    · obtain ⟨k, content, rfl, found, -⟩ := copied y mem
      have range := (List.getElem?_eq_some_iff.mp found).1
      rw [Tree.length_contents] at range
      rw [fragment]
      exact Nat.lt_of_lt_of_eq (Nat.add_lt_add_left range _) (Arena.size_graft _ _).symm
    · obtain ⟨k, content, rfl, found, holds⟩ := copied y mem
      have same : (c.instantiate s₁.arena).2.2.content (o.fragment + k) = content := by
        rw [fragment]
        exact Arena.content_graft _ found
      rwa [same]
  exact (preserves_forM_mem fun site mem => lasts_substituteAttribute _ (fits site mem)).of_ok
    ((lasts_compute scene c context _).of_ok start computed) filled

theorem total_captureRef (hasClient : Bool) (refs : List (String × String)) (node : NodeId) :
    Total (captureRef hasClient refs node) := by
  refine total_bind total_get fun _ => total_bind (total_modifyArena _) fun _ => ?_
  split
  · exact total_pure refs
  · split
    · exact total_pure refs
    · exact total_bind total_get fun _ => total_bind (total_modify _) fun _ => total_pure _

/-- Giving the number `n`. -/
def giveNumber (n : Nat) : Touch := touchElement (·.setAttr refAttribute (toString n))

/-- A `ref` attribute is taken away. If it has a name for a client behavior, the element gets the next
number. -/
theorem captureRef_ok {hasClient : Bool} {refs refs' : List (String × String)} {node : NodeId}
    (run : (captureRef hasClient refs node).run s = .ok refs' s') :
    (refs' = refs ∧ s'.nextRef = s.nextRef ∧ Touches s s' node eraseRef) ∨
    ∃ name, ((s.arena.element? node).bind fun e => (e.attribute? "ref").bind (·.value)) = some name ∧
      refs' = refs ++ [(name, refSelector s.nextRef)] ∧ s'.nextRef = s.nextRef + 1 ∧
      Touches s s' node (giveNumber s.nextRef ∘ eraseRef) := by
  rw [captureRef, run_get_bind] at run
  obtain ⟨_, s₁, erased, rest⟩ := eq_ok_of_bind run
  have first : Touches s s₁ node eraseRef := touches_modifyElement erased
  have next : s₁.nextRef = s.nextRef := by
    cases erased
    rfl
  split at rest
  · cases rest
    exact .inl ⟨rfl, next, first⟩
  · next name named =>
    split at rest
    · cases rest
      exact .inl ⟨rfl, next, first⟩
    · rw [run_get_bind] at rest
      obtain ⟨_, s₂, numbered, last⟩ := eq_ok_of_bind rest
      cases numbered
      cases last
      have second : Touches s₁ { s₁ with
          arena := s₁.arena.modifyElement node (·.setAttr refAttribute (toString s₁.nextRef)) }
          node (giveNumber s₁.nextRef) := touches_modifyElement rfl
      have both := first.comp second
      rw [← next]
      exact .inr ⟨name, named, rfl, rfl, both.size, both.look⟩

theorem lasts_captureRef (hasClient : Bool) (refs : List (String × String)) {node : NodeId}
    (erased : kept node → ∀ e, good node (.element e) → good node (.element (e.eraseAttr "ref")))
    (numbered : kept node → ∀ e n, good node (.element e) →
      good node (.element (e.setAttr refAttribute n))) :
    Preserves (Lasts kept good) (captureRef hasClient refs node) := by
  have erase : kept node → ∀ c r, good node c → good node (eraseRef (c, r)).1 := by
    intro mem c r holds
    cases c with
    | element e => exact erased mem e holds
    | root | text _ | comment _ | directive _ => exact holds
  refine preserves_bind preserves_get fun _ => preserves_bind (lasts_modifyElement erased) fun _ => ?_
  split
  · exact preserves_pure refs
  · split
    · exact preserves_pure refs
    · refine preserves_bind preserves_get fun _ => preserves_bind (fun s lasts => ?_) fun _ =>
        preserves_pure _
      exact ((lasts_modifyElement fun mem e => numbered mem e _) s lasts).of_arena rfl

theorem lasts_bindRefs {c : Component} {context : String} {o : Opened}
    (erased : ∀ x ∈ o.sites.refs, kept x → ∀ e, good x (.element e) →
      good x (.element (e.eraseAttr "ref")))
    (numbered : ∀ x ∈ o.sites.refs, kept x → ∀ e n, good x (.element e) →
      good x (.element (e.setAttr refAttribute n))) :
    Preserves (Lasts kept good) (bindRefs c context o) := by
  refine preserves_bind (preserves_foldlM_mem (fun x mem refs =>
    lasts_captureRef _ refs (erased x mem) (numbered x mem)) _) fun refs => ?_
  split
  · exact preserves_bind (preserves_modify fun _ lasts => lasts.of_arena rfl) fun _ =>
      preserves_pure refs
  · exact preserves_pure refs

/-! ### Runs -/

/-- The nodes of an instance that is opened are new. -/
theorem spares_opened {scene : Scene} {c : Component} {context : String} {host : Option NodeId}
    {extra : Values} {o : Opened} {left : Nat} (lasting : Lasting good) (lasts : Lasts kept good s)
    (opened : (openInstance scene c context host extra).run s = .ok o s') :
    (Call.texts left o.values context 0 o.sites.texts).Spares kept good ∧
      ∀ x ∈ o.sites.refs, ¬ kept x := by
  obtain ⟨values, s₁, s₂, received, -, -, sites, -, -⟩ := openInstance_ok opened
  have before := (lasts_receive lasting scene host).of_ok lasts received
  have late : ∀ x, kept (s₁.arena.size + x) → False := fun x old =>
    Nat.not_lt_of_le (Nat.le_add_right _ _) (before.known _ old)
  rw [sites]
  refine ⟨fun site mem old => ?_, fun x mem => ?_⟩
  · obtain ⟨inner, -, rfl⟩ := List.mem_map.mp mem
    exact (late inner.node old).elim
  · obtain ⟨inner, -, rfl⟩ := List.mem_map.mp mem
    exact late inner

/-- What is there lasts through a run, whether it ends well or not. -/
theorem lasts_of_run {scene : Scene} {call : Call} {made : List Instance} {r : Outcome call.Out}
    (run : Run scene call s made r) (lasting : Lasting good) (spares : call.Spares kept good)
    (lasts : Lasts kept good s) : Lasts kept good r.state := by
  induction run with
  | unknown absent logged => exact (lasts_logUnknown _ _).of_ok lasts logged
  | tooDeep known => exact lasts
  | refused known failed => exact (lasts_openInstance lasting _ _ _ _ _).of_error lasts failed
  | textsStop known opened texts ih =>
    exact ih (spares_opened lasting lasts opened).1 ((lasts_openInstance lasting _ _ _ _ _).of_ok lasts opened)
  | withinStop known opened texts bound within ih ihw =>
    obtain ⟨texts, refs⟩ := spares_opened lasting lasts opened
    have lasts := (lasts_openInstance lasting _ _ _ _ _).of_ok lasts opened
    exact ihw trivial ((lasts_bindRefs (fun x mem old => absurd old (refs x mem)) fun x mem old =>
      absurd old (refs x mem)).of_ok (ih texts lasts) bound)
  | created known opened texts bound within slots ih ihw ihs =>
    rw [Outcome.state_map]
    obtain ⟨texts, refs⟩ := spares_opened lasting lasts opened
    have lasts := (lasts_openInstance lasting _ _ _ _ _).of_ok lasts opened
    exact ihs trivial (ihw trivial ((lasts_bindRefs (fun x mem old => absurd old (refs x mem))
      fun x mem old => absurd old (refs x mem)).of_ok (ih texts lasts) bound))
  | textsNil | noText | piecesNil | valueMarkupStop | valuesNil | hostsNil | noHost | slotsNil =>
    exact lasts
  | textsHeadStop head ih => exact ih (spares _ List.mem_cons_self) lasts
  | textsCons head tail ih iht =>
    exact iht (fun site mem => spares site (List.mem_cons_of_mem _ mem))
      (ih (spares _ List.mem_cons_self) lasts)
  | plainText found plain written => exact (lasts_setContent fun mem => spares mem _).of_ok lasts written
  | richText found rich placed replaced ih =>
    exact (lasts_replaceWith _ _).of_ok (ih trivial lasts) replaced
  | richTextStop _ _ _ ih | piecesEmpty _ _ ih | piecesValueStop _ ih | valueComponentStop _ ih
  | valueList _ ih | valuesHeadStop _ ih | within _ ih | hostsHeadStop _ ih | hostStop _ _ ih
  | hostBottom _ _ ih | slotsGone _ _ ih => exact ih trivial lasts
  | piecesLiteral more added tail ih =>
    rw [Outcome.state_map]
    exact ih trivial ((lasts_alloc _).of_ok lasts added)
  | piecesValue head tail ih iht | valuesCons head tail ih iht =>
    rw [Outcome.state_map]
    exact iht trivial (ih trivial lasts)
  | valueText added => exact (lasts_alloc _).of_ok lasts added
  | valueMarkup read grafted => exact (lasts_graftAll _).of_ok lasts grafted
  | valueComponent body taken ih => exact (lasts_takeChildren _).of_ok (ih trivial lasts) taken
  | valueUnknown body added ih => exact (lasts_alloc _).of_ok (ih trivial lasts) added
  | hostsCons head tail ih iht | hostKept _ head tail ih iht => exact iht trivial (ih trivial lasts)
  | hostReplaced found body taken replaced ih =>
    exact (lasts_replaceWith _ _).of_ok ((lasts_takeChildren _).of_ok (ih trivial lasts) taken)
      replaced
  | slotsStop inside held content ih =>
    exact ih trivial ((lasts_holdContent _ _ _).of_ok lasts held)
  | slotsCons inside held content taken replaced tail ih iht =>
    exact iht trivial ((lasts_replaceWith _ _).of_ok ((lasts_takeChildren _).of_ok
      (ih trivial ((lasts_holdContent _ _ _).of_ok lasts held)) taken) replaced)

/-- All nodes stay where they are. -/
theorem size_le_of_lasts (lasts : Lasts (· < s.arena.size) (fun _ _ => True) s →
      Lasts (· < s.arena.size) (fun _ _ => True) s') :
    s.arena.size ≤ s'.arena.size := by
  have known := (lasts ⟨fun _ old => old, fun _ _ => trivial⟩).known
  exact Nat.le_of_not_lt fun short => Nat.lt_irrefl _ (known _ short)

theorem size_le_of_run {scene : Scene} {call : Call} {made : List Instance} {r : Outcome call.Out}
    (run : Run scene call s made r) : s.arena.size ≤ r.state.arena.size := by
  refine size_le_of_lasts fun lasts => lasts_of_run run (fun _ _ _ => trivial) ?_ lasts
  cases call with
  | texts => exact fun _ _ _ _ => trivial
  | text => exact fun _ _ => trivial
  | _ => trivial

/-- An instance is made of new nodes. -/
theorem fragment_late {scene : Scene} {c : Component} {context : String} {host : Option NodeId}
    {extra : Values} {o : Opened} (opened : (openInstance scene c context host extra).run s = .ok o s') :
    s.arena.size ≤ o.fragment := by
  obtain ⟨values, s₀, s₂, received, -, fragment, -⟩ := openInstance_ok opened
  rw [fragment]
  exact size_le_of_lasts fun lasts =>
    (lasts_receive (fun _ _ _ => trivial) scene host).of_ok lasts received

end

/-! ### Copies of components -/

section
variable {scene : Scene} {s s₁ : Expansion} {c : Component} {context : String} {host : Option NodeId}
  {extra : Values} {o : Opened}

/-- The node is one of the copy that the instance has started from. -/
def Opened.Copied (o : Opened) (c : Component) (y : NodeId) : Prop :=
  o.fragment ≤ y ∧ y < o.fragment + c.document.tree.size

theorem Opened.Copied.exists_content {y : NodeId} (copied : o.Copied c y) :
    ∃ k content, y = o.fragment + k ∧ c.document.tree.contents[k]? = some content := by
  obtain ⟨low, high⟩ := copied
  have range : y - o.fragment < c.document.tree.contents.length := by
    rw [Tree.length_contents]
    exact Nat.sub_lt_left_of_lt_add low high
  exact ⟨y - o.fragment, _, (Nat.add_sub_cancel' low).symm, List.getElem?_eq_getElem range⟩

theorem Opened.copied_of_content {k : NodeId} {content : Content}
    (found : c.document.tree.contents[k]? = some content) : o.Copied c (o.fragment + k) := by
  have range := (List.getElem?_eq_some_iff.mp found).1
  rw [Tree.length_contents] at range
  exact ⟨Nat.le_add_right _ _, Nat.add_lt_add_left range _⟩

theorem Opened.copied_fragment (o : Opened) (c : Component) : o.Copied c o.fragment := by
  refine ⟨Nat.le_refl _, Nat.lt_add_of_pos_right ?_⟩
  cases c.document.tree with
  | node content ts =>
    rw [Tree.size]
    omega

/-- The sites of a copy are those of the component. -/
theorem sites_opened (opened : (openInstance scene c context host extra).run s = .ok o s₁) :
    o.sites = c.document.sites.shift o.fragment := by
  obtain ⟨values, s₀, s₂, -, -, fragment, sites, -⟩ := openInstance_ok opened
  rw [sites, fragment]
  rfl

theorem copied_of_mem_refs (sound : c.Sound)
    (opened : (openInstance scene c context host extra).run s = .ok o s₁) {x : NodeId}
    (mem : x ∈ o.sites.refs) : ∃ k e, x = o.fragment + k ∧
      c.document.tree.contents[k]? = some (.element e) ∧ o.Copied c x := by
  rw [sites_opened opened] at mem
  obtain ⟨k, listed, rfl⟩ := List.mem_map.mp mem
  obtain ⟨e, found, -⟩ := sound.mem_refs.mp listed
  exact ⟨k, e, rfl, found, Opened.copied_of_content found⟩

theorem copied_of_mem_texts (sound : c.Sound)
    (opened : (openInstance scene c context host extra).run s = .ok o s₁) {site : TextSite}
    (mem : site ∈ o.sites.texts) : ∃ k text, site.node = o.fragment + k ∧
      c.document.tree.contents[k]? = some (.text text) ∧ o.Copied c site.node := by
  rw [sites_opened opened] at mem
  obtain ⟨inner, listed, rfl⟩ := List.mem_map.mp mem
  obtain ⟨text, found, -⟩ := sound.exists_text listed
  exact ⟨inner.node, text, rfl, found, Opened.copied_of_content found⟩

theorem nodup_refs_opened (sound : c.Sound)
    (opened : (openInstance scene c context host extra).run s = .ok o s₁) : o.sites.refs.Nodup := by
  rw [sites_opened opened]
  exact sound.nodup_refs.map fun _ _ same => Nat.add_left_cancel same

theorem Opened.Copied.lt {y : NodeId} (copied : o.Copied c y)
    (opened : (openInstance scene c context host extra).run s = .ok o s₁) : y < s₁.arena.size := by
  have known : Lasts (o.Copied c) (fun _ _ => True) s₁ := by
    refine lasts_opened opened (fun y copied => ?_) fun _ _ _ _ _ _ _ => trivial
    obtain ⟨k, content, own, found⟩ := copied.exists_content
    exact ⟨k, content, own, found, trivial⟩
  exact known.known y copied

end
end Expansion
end Stencil
