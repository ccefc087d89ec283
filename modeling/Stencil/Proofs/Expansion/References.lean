import Stencil.Proofs.Expansion.Calls
import Stencil.Proofs.Expansion.Context
import Stencil.Proofs.Expansion.Numbers
import Stencil.Proofs.Expansion.Upkeep
/-!
The elements that client behaviors refer to. When the texts of an instance have their values, the
elements of the copy lose their `ref` attributes, and those of an instance with a behavior get
numbers, which its record lists. From then on an element keeps its number, wherever it is moved and
whatever is expanded in it.
-/
namespace Stencil
open Markup

namespace Markup

/-- The names of the attributes. -/
def Content.names (c : Content) : List String := (c.element?.map (·.attributes.map (·.name))).getD []

/-- What an element is called by the behavior of its component. -/
def Content.refName? (c : Content) : Option String :=
  (c.element?.bind (·.attribute? "ref")).bind (·.value)

theorem names_eraseAttr (e : Element) (name : String) :
    (Content.element (e.eraseAttr name)).names = (Content.element e).names.erase name := by
  change (e.attributes.eraseP (·.name == name)).map (·.name) = (e.attributes.map (·.name)).erase name
  induction e.attributes with
  | nil => rfl
  | cons a as ih =>
    rw [List.map_cons, List.erase_cons, List.eraseP_cons]
    cases a.name == name with
    | true => rfl
    | false => exact congrArg _ ih

theorem names_setAttr {e : Element} {name value : String} (mem : name ∈ (Content.element e).names) :
    (Content.element (e.setAttr name value)).names = (Content.element e).names :=
  Element.names_assign mem

theorem refName?_of_not_mem {c : Content} (bare : "ref" ∉ c.names) : c.refName? = none := by
  cases c with
  | element e =>
    have absent : e.attribute? "ref" = none := by
      rw [← Option.not_isSome_iff_eq_none, Element.isSome_attribute?, Element.hasAttr]
      intro has
      obtain ⟨a, mem, own⟩ := List.any_eq_true.mp has
      exact bare (List.mem_map.mpr ⟨a, mem, beq_iff_eq.mp own⟩)
    rw [Content.refName?, Content.element?, Option.bind_some, absent]
    rfl
  | root | text _ | comment _ | directive _ => rfl

theorem refName?_eraseAttr {e : Element} {name : String} (other : name ≠ "ref") :
    (Content.element (e.eraseAttr name)).refName? = (Content.element e).refName? :=
  congrArg (Option.bind · _) (Element.attribute?_eraseAttr_of_ne other)

end Markup

theorem Library.FromFiles.once {library : Library} (files : library.FromFiles) (id : String)
    (c : Component) (known : library.component? id = some c) (e : Element)
    (mem : .element e ∈ c.document.tree.contents) : (e.attributes.map (·.name)).Nodup := by
  obtain ⟨root, rules, r, read⟩ := files id c known
  exact (Component.legible_ofRecord read mem).once

namespace Expansion
open Branch

/-! ### Numbers for an instance -/

section
variable {s s₁ s' : Expansion}

/-- The nodes have lost their `ref` attributes, and some of them have got numbers. -/
structure Captures (s s' : Expansion) (nodes : List NodeId) (refs : List (String × String)) :
    Prop where
  apart : ∀ y, y ∉ nodes → s'.arena.content y = s.arena.content y
  bare : ∀ x ∈ nodes, (s.arena.content x).names.Nodup → "ref" ∉ (s'.arena.content x).names
  named : ∀ r ∈ refs, ∃ x ∈ nodes, ∃ n, (s.arena.content x).refName? = some r.1 ∧
    r.2 = refSelector n ∧ s'.mark? x = some (toString n)

theorem captures_nil : Captures s s [] [] where
  apart _ _ := rfl
  bare _ mem := nomatch mem
  named _ mem := nomatch mem

theorem Captures.append {x : NodeId} {nodes : List NodeId} {refs more : List (String × String)}
    (first : Captures s s₁ [x] refs) (rest : Captures s₁ s' nodes more) (out : x ∉ nodes) :
    Captures s s' (x :: nodes) (refs ++ more) where
  apart y away := by
    rw [List.mem_cons, not_or] at away
    rw [rest.apart y away.2, first.apart y (by simpa using away.1)]
  bare y mem once := by
    rcases List.mem_cons.mp mem with rfl | mem
    · rw [rest.apart y out]
      exact first.bare y (List.mem_singleton_self y) once
    · have other : y ∉ [x] := fun own => out (List.mem_singleton.mp own ▸ mem)
      rw [← first.apart y other] at once
      exact rest.bare y mem once
  named r mem := by
    rcases List.mem_append.mp mem with mem | mem
    · obtain ⟨y, own, n, called, selector, mark⟩ := first.named r mem
      obtain rfl := List.mem_singleton.mp own
      refine ⟨y, List.mem_cons_self, n, called, selector, ?_⟩
      rw [mark?, rest.apart y out]
      exact mark
    · obtain ⟨y, here, n, called, selector, mark⟩ := rest.named r mem
      have other : y ∉ [x] := fun own => out (List.mem_singleton.mp own ▸ here)
      rw [first.apart y other] at called
      exact ⟨y, List.mem_cons_of_mem x here, n, called, selector, mark⟩

theorem bare_eraseRef {c : Content} (r : Values) (once : c.names.Nodup) :
    "ref" ∉ (eraseRef (c, r)).1.names := by
  cases c with
  | element e =>
    change "ref" ∉ (Content.element (e.eraseAttr "ref")).names
    rw [names_eraseAttr]
    exact once.not_mem_erase
  | root | text _ | comment _ | directive _ => exact List.not_mem_nil

theorem bare_giveNumber {c : Content} (n : Nat) (r : Values) (once : c.names.Nodup) :
    "ref" ∉ ((giveNumber n ∘ eraseRef) (c, r)).1.names := by
  have erased := bare_eraseRef r once
  cases c with
  | element e =>
    intro mem
    rcases Element.eq_or_mem_of_mem_assign mem with own | mem
    · exact absurd own (by decide)
    · exact erased mem
  | root | text _ | comment _ | directive _ => exact erased

theorem captures_captureRef {hasClient : Bool} {refs refs' : List (String × String)} {node : NodeId}
    (run : (captureRef hasClient refs node).run s = .ok refs' s') :
    ∃ more, refs' = refs ++ more ∧ Captures s s' [node] more := by
  have away : ∀ {f : Touch}, Touches s s' node f → ∀ y, y ∉ [node] →
      s'.arena.content y = s.arena.content y := fun touches y away => by
    rw [touches.content, if_neg (by simpa using away)]
  rcases captureRef_ok run with ⟨rfl, -, touches⟩ | ⟨name, called, rfl, -, touches⟩
  · refine ⟨[], (List.append_nil _).symm, away touches, fun x mem once => ?_, nofun⟩
    rw [touches.content, if_pos (List.mem_singleton.mp mem)]
    exact bare_eraseRef _ once
  · refine ⟨_, rfl, away touches, fun x mem once => ?_, fun r mem => ?_⟩
    · rw [touches.content, if_pos (List.mem_singleton.mp mem)]
      exact bare_giveNumber _ _ once
    · obtain rfl := List.mem_singleton.mp mem
      obtain ⟨e, found, _⟩ := Option.bind_eq_some_iff.mp called
      refine ⟨node, List.mem_singleton_self node, s.nextRef, ?_, rfl, ?_⟩
      · rw [Content.refName?, Option.bind_assoc]
        exact called
      · rw [mark?, touches.content, if_pos rfl, content_of_element? found]
        exact mark?_number

theorem captures_foldlM {hasClient : Bool} {nodes : List NodeId} {refs refs' : List (String × String)}
    (once : nodes.Nodup) (run : (nodes.foldlM (captureRef hasClient) refs).run s = .ok refs' s') :
    ∃ more, refs' = refs ++ more ∧ Captures s s' nodes more := by
  induction nodes generalizing s refs with
  | nil =>
    cases run
    exact ⟨[], (List.append_nil _).symm, captures_nil⟩
  | cons x nodes ih =>
    rw [List.nodup_cons] at once
    obtain ⟨_, s₁, head, tail⟩ := eq_ok_of_bind run
    obtain ⟨first, rfl, captured⟩ := captures_captureRef head
    obtain ⟨more, rfl, rest⟩ := ih once.2 tail
    exact ⟨first ++ more, List.append_assoc _ _ _, captured.append rest once.1⟩

theorem captures_bindRefs {c : Component} {context : String} {o : Opened}
    {refs : List (String × String)} (once : o.sites.refs.Nodup)
    (run : (bindRefs c context o).run s = .ok refs s') : Captures s s' o.sites.refs refs := by
  obtain ⟨found, s₁, captured, rest⟩ := eq_ok_of_bind run
  rw [captureRefs_eq] at captured
  obtain ⟨more, rfl, captures⟩ := captures_foldlM once captured
  cases client : o.client with
  | none =>
    rw [client] at rest
    cases rest
    exact captures
  | some source =>
    rw [client] at rest
    cases rest
    exact ⟨captures.apart, captures.bare, captures.named⟩

end

/-! ### What comes later -/

/-- What is there from a number on lasts. -/
structure Later (first : Nat) (s s' : Expansion) : Prop where
  grown : s.arena.size ≤ s'.arena.size
  lasts : ∀ {kept : NodeId → Prop} {good : NodeId → Content → Prop}, Lasting good →
    (∀ y, kept y → first ≤ y) → Lasts kept good s → Lasts kept good s'

/-- The texts that the call writes into are before the number. -/
def Call.Sited (first : Nat) : Call → Prop
  | .texts _ _ _ _ sites => ∀ site ∈ sites, site.node < first
  | .text _ _ _ site => site.node < first
  | _ => True

section
variable {α : Type} {scene : Scene} {first : Nat} {s s₁ s₂ s₃ s' : Expansion}

theorem later_refl : Later first s s := ⟨Nat.le_refl _, fun _ _ lasts => lasts⟩

theorem Later.trans (before : Later first s s₁) (after : Later first s₁ s') : Later first s s' :=
  ⟨Nat.le_trans before.grown after.grown, fun lasting late lasts =>
    after.lasts lasting late (before.lasts lasting late lasts)⟩

theorem Later.mono {more : Nat} (later : Later first s s') (le : first ≤ more) : Later more s s' :=
  ⟨later.grown, fun lasting late => later.lasts lasting fun y mem => Nat.le_trans le (late y mem)⟩

theorem later_of_preserves {m : Expand α} {a : α}
    (each : ∀ {kept : NodeId → Prop} {good : NodeId → Content → Prop}, Lasting good →
      Preserves (Lasts kept good) m) (run : m.run s = .ok a s') : Later first s s' :=
  ⟨size_le_of_lasts fun lasts => (each fun _ _ _ => trivial).of_ok lasts run,
    fun lasting _ lasts => (each lasting).of_ok lasts run⟩

theorem later_of_run {call : Call} {made : List Instance} {r : Outcome call.Out}
    (run : Run scene call s made r) (sited : call.Sited first) : Later first s r.state := by
  refine ⟨size_le_of_run run, fun lasting late lasts => lasts_of_run run lasting ?_ lasts⟩
  cases call with
  | texts => exact fun site mem old => absurd (late _ old) (Nat.not_le_of_lt (sited site mem))
  | text => exact fun old => absurd (late _ old) (Nat.not_le_of_lt sited)
  | _ => trivial

theorem later_bindRefs {c : Component} {context : String} {o : Opened} {refs : List (String × String)}
    (early : ∀ x ∈ o.sites.refs, x < first) (run : (bindRefs c context o).run s = .ok refs s') :
    Later first s s' := by
  refine ⟨size_le_of_lasts fun lasts => ?_, fun lasting late lasts => ?_⟩
  · exact (lasts_bindRefs (fun _ _ _ _ _ => trivial) fun _ _ _ _ _ _ => trivial).of_ok lasts run
  · have apart : ∀ x ∈ o.sites.refs, _ → False := fun x mem old =>
      Nat.not_le_of_lt (early x mem) (late x old)
    exact (lasts_bindRefs (fun x mem old => (apart x mem old).elim) fun x mem old =>
      (apart x mem old).elim).of_ok lasts run

/-! ### Copies of components -/

variable {c : Component} {context : String} {host : Option NodeId} {extra : Values} {o : Opened}
  {left : Nat} {made : List Instance} {refs : List (String × String)}

/-- No attribute stands twice in the node, and it is one of the sites if it has a `ref` attribute. -/
def Opened.Tells (o : Opened) (y : NodeId) (content : Content) : Prop :=
  content.names.Nodup ∧ ("ref" ∈ content.names → y ∈ o.sites.refs)

theorem tells_opened (sound : c.Sound)
    (once : ∀ e, .element e ∈ c.document.tree.contents → (e.attributes.map (·.name)).Nodup)
    (opened : (openInstance scene c context host extra).run s = .ok o s₁) :
    Lasts (o.Copied c) o.Tells s₁ := by
  refine lasts_opened opened (fun y copied => ?_) fun site _ _ e v mem good => ?_
  · obtain ⟨k, content, rfl, found⟩ := copied.exists_content
    refine ⟨k, content, rfl, found, ?_⟩
    cases content with
    | element e =>
      refine ⟨once e (List.mem_of_getElem? found), fun has => ?_⟩
      rw [sites_opened opened]
      refine List.mem_map_of_mem (sound.mem_refs.mpr ⟨e, found, ?_⟩)
      obtain ⟨a, listed, own⟩ := List.mem_map.mp has
      exact List.any_eq_true.mpr ⟨a, listed, beq_iff_eq.mpr own⟩
    | root | text _ | comment _ | directive _ => exact ⟨List.nodup_nil, nofun⟩
  · rwa [Opened.Tells, names_setAttr mem]

/-- The copy has no `ref` attribute any more, and what the behavior refers to has numbers. -/
structure Referred (c : Component) (o : Opened) (start : Expansion) (refs : List (String × String))
    (s : Expansion) : Prop where
  bare : Lasts (o.Copied c) (fun _ content => "ref" ∉ content.names) s
  named : ∀ r ∈ refs, ∃ x, o.Copied c x ∧ (start.arena.content x).refName? = some r.1 ∧
    ∃ n, r.2 = refSelector n ∧ s.mark? x = some (toString n)

theorem Referred.later {start : Expansion} (referred : Referred c o start refs s)
    (later : Later first s s') (late : first ≤ o.fragment) : Referred c o start refs s' where
  bare := later.lasts
    (fun _ e bare mem => bare (List.mem_of_mem_erase (names_eraseAttr e "slot" ▸ mem)))
    (fun _ copied => Nat.le_trans late copied.1) referred.bare
  named r mem := by
    obtain ⟨x, copied, called, n, selector, mark⟩ := referred.named r mem
    have marked : Lasts (· = x) (fun _ content => content.mark? = some (toString n)) s :=
      ⟨fun y own => own ▸ referred.bare.known x copied, fun y own => own ▸ mark⟩
    have after : ∀ y, y = x → first ≤ y := fun y own => own ▸ Nat.le_trans late copied.1
    have lasts := later.lasts (fun _ e same => (mark?_eraseAttr (by decide)).trans same) after marked
    exact ⟨x, copied, called, n, selector, lasts.holds x rfl⟩

theorem referred_bound {values : Values} (sound : c.Sound)
    (once : ∀ e, .element e ∈ c.document.tree.contents → (e.attributes.map (·.name)).Nodup)
    (opened : (openInstance scene c context host extra).run s = .ok o s₁)
    (texts : Run scene (.texts left values context 0 o.sites.texts) s₁ made (.ok () s₂))
    (bound : (bindRefs c context o).run s₂ = .ok refs s₃) : Referred c o s₁ refs s₃ := by
  have start := tells_opened sound once opened
  have told : Lasts (o.Copied c) o.Tells s₂ := by
    refine lasts_of_run texts (fun y e good => ?_) (fun _ _ _ _ => ⟨List.nodup_nil, nofun⟩) start
    rw [Opened.Tells, names_eraseAttr]
    exact ⟨good.1.erase _, fun mem => good.2 (List.mem_of_mem_erase mem)⟩
  -- an element that the texts are put beside is called what it was called before
  have called : Lasts (· ∈ o.sites.refs)
      (fun y content => content.refName? = (s₁.arena.content y).refName?) s₂ := by
    refine lasts_of_run texts (fun y e same => (refName?_eraseAttr (by decide)).trans same)
      (fun site mem also => ?_) ⟨fun y mem => ?_, fun y _ => rfl⟩
    · obtain ⟨k, text, own, found, -⟩ := copied_of_mem_texts sound opened mem
      obtain ⟨j, e, same, element, -⟩ := copied_of_mem_refs sound opened also
      obtain rfl : k = j := Nat.add_left_cancel (own.symm.trans same)
      rw [found] at element
      cases element
    · obtain ⟨-, -, -, -, copied⟩ := copied_of_mem_refs sound opened mem
      exact start.known y copied
  have captures := captures_bindRefs (nodup_refs_opened sound opened) bound
  have later : Later s₂.arena.size s₂ s₃ := later_bindRefs called.known bound
  refine ⟨⟨fun y copied => Nat.lt_of_lt_of_le (told.known y copied) later.grown, fun y copied => ?_⟩,
    fun r mem => ?_⟩
  · obtain ⟨nodup, listed⟩ := told.holds y copied
    by_cases mem : y ∈ o.sites.refs
    · exact captures.bare y mem nodup
    · rw [captures.apart y mem]
      exact fun has => mem (listed has)
  · obtain ⟨x, listed, n, name, selector, mark⟩ := captures.named r mem
    obtain ⟨-, -, -, -, copied⟩ := copied_of_mem_refs sound opened listed
    exact ⟨x, copied, (called.holds x listed).symm.trans name, n, selector, mark⟩

end

/-! ### The instances of a run -/

def Birth.lift {scene : Scene} {call call' : Call} {s s' : Expansion} (b : Birth scene call' s')
    (leads : Leads scene (call, s) (call', s')) : Birth scene call s :=
  { b with led := leads.trans b.led }

/-- An instance that is opened, with what its behavior refers to. -/
abbrev Bearing (scene : Scene) (call : Call) (s : Expansion) : Type :=
  Birth scene call s × List (String × String)

namespace Bearing
variable {scene : Scene} {call : Call} {s : Expansion}

def fragment (b : Bearing scene call s) : NodeId := b.1.opened.fragment

def made (b : Bearing scene call s) : Instance := b.1.opened.made b.1.id b.1.context b.1.component b.2

def Referred (b : Bearing scene call s) (s' : Expansion) : Prop :=
  Expansion.Referred b.1.component b.1.opened b.1.after b.2 s'

end Bearing

/-- The instances have been opened one after the other, in calls that the call leads to, and what
their behaviors refer to has numbers. -/
structure Bears (scene : Scene) (call : Call) (s : Expansion) (made : List Instance) (first : Nat)
    (s' : Expansion) (births : List (Bearing scene call s)) : Prop where
  made : births.map (·.made) = made
  order : (births.map (·.fragment)).Pairwise (· < ·)
  range : ∀ b ∈ births, first ≤ b.fragment ∧ b.fragment < s'.arena.size
  referred : ∀ b ∈ births, b.Referred s'

section
variable {scene : Scene} {call call' : Call} {s s₁ s₂ s' : Expansion} {made more : List Instance}
  {first second : Nat}

theorem bears_nil : ∃ births, Bears scene call s [] first s' births :=
  ⟨[], rfl, .nil, nofun, nofun⟩

theorem bears_lift (bears : ∃ births, Bears scene call' s₁ made first s' births)
    (enters : Enters scene (call, s) (call', s₁)) : ∃ births, Bears scene call s made first s' births := by
  obtain ⟨births, bears⟩ := bears
  have led : Leads scene (call, s) (call', s₁) := .single enters
  refine ⟨births.map fun b => (b.1.lift led, b.2), ?_, ?_, ?_, ?_⟩
  · rw [List.map_map]
    exact bears.made
  · rw [List.map_map]
    exact bears.order
  · exact List.forall_mem_map.mpr bears.range
  · exact List.forall_mem_map.mpr bears.referred

theorem bears_later (bears : ∃ births, Bears scene call s made first s₁ births)
    (later : Later first s₁ s') : ∃ births, Bears scene call s made first s' births := by
  obtain ⟨births, bears⟩ := bears
  refine ⟨births, bears.made, bears.order, fun b mem => ?_, fun b mem => ?_⟩
  · obtain ⟨low, high⟩ := bears.range b mem
    exact ⟨low, Nat.lt_of_lt_of_le high later.grown⟩
  · exact (bears.referred b mem).later later (bears.range b mem).1

theorem bears_append (bears : ∃ births, Bears scene call s made first s₁ births)
    (others : ∃ births, Bears scene call s more second s' births) (later : Later first s₁ s')
    (le : first ≤ second) (after : s₁.arena.size ≤ second) :
    ∃ births, Bears scene call s (made ++ more) first s' births := by
  obtain ⟨births, bears⟩ := bears
  obtain ⟨others, rest⟩ := others
  refine ⟨births ++ others, ?_, ?_, ?_, ?_⟩
  · rw [List.map_append, bears.made, rest.made]
  · rw [List.map_append, List.pairwise_append]
    refine ⟨bears.order, rest.order, List.forall_mem_map.mpr fun b mem => ?_⟩
    refine List.forall_mem_map.mpr fun b' mem' => ?_
    exact Nat.lt_of_lt_of_le (bears.range b mem).2 (Nat.le_trans after (rest.range b' mem').1)
  · refine List.forall_mem_append.mpr ⟨fun b mem => ?_, fun b mem => ?_⟩
    · obtain ⟨low, high⟩ := bears.range b mem
      exact ⟨low, Nat.lt_of_lt_of_le high later.grown⟩
    · obtain ⟨low, high⟩ := rest.range b mem
      exact ⟨Nat.le_trans le low, high⟩
  · refine List.forall_mem_append.mpr ⟨fun b mem => ?_, rest.referred⟩
    exact (bears.referred b mem).later later (bears.range b mem).1

theorem bears_cons (b : Bearing scene call s) (low : first ≤ b.fragment) (high : b.fragment < second)
    (grown : second ≤ s'.arena.size) (referred : b.Referred s')
    (others : ∃ births, Bears scene call s more second s' births) :
    ∃ births, Bears scene call s (b.made :: more) first s' births := by
  obtain ⟨others, rest⟩ := others
  refine ⟨b :: others, congrArg _ rest.made, ?_, ?_, List.forall_mem_cons.mpr ⟨referred, rest.referred⟩⟩
  · rw [List.map_cons, List.pairwise_cons]
    refine ⟨List.forall_mem_map.mpr fun b' mem => ?_, rest.order⟩
    exact Nat.lt_of_lt_of_le high (rest.range b' mem).1
  · refine List.forall_mem_cons.mpr ⟨⟨low, Nat.lt_of_lt_of_le high grown⟩, fun b' mem => ?_⟩
    obtain ⟨far, short⟩ := rest.range b' mem
    exact ⟨Nat.le_trans low (Nat.le_trans (Nat.le_of_lt high) far), short⟩

theorem bears_mono (bears : ∃ births, Bears scene call s made second s' births)
    (le : first ≤ second) : ∃ births, Bears scene call s made first s' births := by
  obtain ⟨births, bears⟩ := bears
  refine ⟨births, bears.made, bears.order, fun b mem => ?_, bears.referred⟩
  exact ⟨Nat.le_trans le (bears.range b mem).1, (bears.range b mem).2⟩

/-- One call after the other. -/
theorem bears_both {call₁ call₂ : Call} (head : ∃ births, Bears scene call₁ s made first s₁ births)
    (start : Enters scene (call, s) (call₁, s))
    (tail : ∃ births, Bears scene call₂ s₁ more s₁.arena.size s' births)
    (next : Enters scene (call, s) (call₂, s₁)) (later : Later first s₁ s')
    (grown : first ≤ s₁.arena.size) : ∃ births, Bears scene call s (made ++ more) first s' births :=
  bears_append (bears_lift head start) (bears_lift tail next) later grown (Nat.le_refl _)

theorem later_takeChildren {x : NodeId} {ids : List NodeId}
    (taken : (takeChildren x).run s = .ok ids s') : Later first s s' :=
  later_of_preserves (fun _ => lasts_takeChildren x) taken

theorem later_replaceWith {x : NodeId} {ids : List NodeId}
    (replaced : (modifyArena (·.replaceWith x ids)).run s = .ok () s') : Later first s s' :=
  later_of_preserves (fun _ => lasts_replaceWith x ids) replaced

theorem later_alloc {content : Content} {x : NodeId} (added : (alloc content).run s = .ok x s') :
    Later first s s' :=
  later_of_preserves (fun _ => lasts_alloc content) added

theorem bears_of_run {call : Call} {made : List Instance} {r : Outcome call.Out}
    (sound : ∀ id c, scene.library.component? id = some c → c.Sound)
    (once : ∀ id c, scene.library.component? id = some c →
      ∀ e, .element e ∈ c.document.tree.contents → (e.attributes.map (·.name)).Nodup)
    (run : Run scene call s made r) (sited : call.Sited s.arena.size) :
    ∀ out s', r = .ok out s' → ∃ births, Bears scene call s made s.arena.size s' births := by
  induction run with
  | tooDeep | refused | textsStop | withinStop | textsHeadStop | richTextStop | piecesValueStop
  | valueMarkupStop | valueComponentStop | valuesHeadStop | hostsHeadStop | hostStop | slotsStop =>
    intro out s' same
    cases same
  | unknown | textsNil | noText | plainText | piecesNil | valueText | valueMarkup | valuesNil | hostsNil
  | noHost | slotsNil =>
    intro out s' same
    exact bears_nil
  | @created left id context host extra s c o s₁ made s₂ refs s₃ nested s₄ filled r known opened texts
      bound within slots ih ihw ihs =>
    intro out s' same
    obtain ⟨_, rfl, -⟩ := Outcome.eq_ok_of_map same
    have sound := sound _ _ known
    have tells := tells_opened sound (once _ _ known) opened
    have sited : (Call.texts left o.values context 0 o.sites.texts).Sited s₁.arena.size := by
      intro site mem
      obtain ⟨-, -, -, -, copied⟩ := copied_of_mem_texts sound opened mem
      exact tells.known _ copied
    have early : ∀ x ∈ o.sites.refs, x < s₁.arena.size := by
      intro x mem
      obtain ⟨-, -, -, -, copied⟩ := copied_of_mem_refs sound opened mem
      exact tells.known _ copied
    have written := exec_of_run texts
    have expanded := exec_of_run within
    have after : Later 0 s₃ s' := (later_of_run within trivial).trans (later_of_run slots trivial)
    have bound_later : Later s₁.arena.size s₂ s₃ := later_bindRefs early bound
    have beyond := Nat.le_trans (size_le_of_run texts) bound_later.grown
    -- the instances of the texts, those of the hosts, and those in the slots
    have first := bears_later (bears_lift (ih sited _ _ rfl) (.texts known opened)) bound_later
    have second := bears_lift (ihw trivial _ _ rfl) (.inside known opened written bound)
    have third := bears_lift (ihs trivial _ _ rfl) (.slots known opened written bound expanded)
    have others := bears_append first (bears_append second third (later_of_run slots trivial)
      (size_le_of_run within) (Nat.le_refl _)) (after.mono (Nat.zero_le _)) beyond (Nat.le_refl _)
    let own : Bearing scene (.create (left + 1) id context host extra) s :=
      (⟨left, id, context, host, extra, c, o, s, s₁, .refl, known, opened⟩, refs)
    have referred : Referred c o s₁ refs s' :=
      (referred_bound sound (once _ _ known) opened texts bound).later after (Nat.zero_le _)
    have high := tells.known _ (Opened.copied_fragment o c)
    exact bears_cons own (fragment_late opened) high (Nat.le_trans beyond after.grown) referred others
  | textsCons head tail ih iht =>
    intro out s' same
    subst same
    have grown := size_le_of_run head
    have rest : ∀ site ∈ _, _ := fun site mem => sited site (List.mem_cons_of_mem _ mem)
    exact bears_both (ih (sited _ List.mem_cons_self) _ _ rfl) .text
      (iht (fun site mem => Nat.lt_of_lt_of_le (rest site mem) grown) _ _ rfl)
      (.nextText (exec_of_run head)) (later_of_run tail rest) grown
  | richText found plain placed replaced ih =>
    intro out s' same
    cases same
    exact bears_later (bears_lift (ih trivial _ _ rfl) (.pieces found plain))
      (later_replaceWith replaced)
  | piecesEmpty empty tail ih =>
    intro out s' same
    exact bears_lift (ih trivial out s' same) (.nextEmpty empty)
  | piecesLiteral more added tail ih =>
    intro out s' same
    obtain ⟨_, rfl, -⟩ := Outcome.eq_ok_of_map same
    exact bears_mono (bears_lift (ih trivial _ _ rfl) (.nextLiteral more added))
      (later_alloc added : Later 0 _ _).grown
  | piecesValue head tail ih iht =>
    intro out s' same
    obtain ⟨_, rfl, -⟩ := Outcome.eq_ok_of_map same
    exact bears_both (ih trivial _ _ rfl) .value (iht trivial _ _ rfl) (.nextValue (exec_of_run head))
      (later_of_run tail trivial) (size_le_of_run head)
  | valuesCons head tail ih iht =>
    intro out s' same
    obtain ⟨_, rfl, -⟩ := Outcome.eq_ok_of_map same
    exact bears_both (ih trivial _ _ rfl) .item (iht trivial _ _ rfl) (.nextItem (exec_of_run head))
      (later_of_run tail trivial) (size_le_of_run head)
  | valueComponent body taken ih =>
    intro out s' same
    cases same
    exact bears_later (bears_lift (ih trivial _ _ rfl) .component) (later_takeChildren taken)
  | valueUnknown body added ih =>
    intro out s' same
    cases same
    exact bears_later (bears_lift (ih trivial _ _ rfl) .component) (later_alloc added)
  | valueList all ih =>
    intro out s' same
    exact bears_lift (ih trivial out s' same) .items
  | within all ih =>
    intro out s' same
    exact bears_lift (ih trivial out s' same) .hosts
  | hostBottom found body ih =>
    intro out s' same
    cases same
    exact bears_lift (ih trivial _ _ rfl) (.hosted found)
  | hostsCons head tail ih iht =>
    intro out s' same
    subst same
    exact bears_both (ih trivial _ _ rfl) .host (iht trivial _ _ rfl) (.nextHost (exec_of_run head))
      (later_of_run tail trivial) (size_le_of_run head)
  | hostReplaced found body taken replaced ih =>
    intro out s' same
    cases same
    exact bears_later (bears_lift (ih trivial _ _ rfl) (.hosted found))
      ((later_takeChildren taken).trans (later_replaceWith replaced))
  | hostKept found body inside ih iht =>
    intro out s' same
    subst same
    exact bears_both (ih trivial _ _ rfl) (.hosted found) (iht trivial _ _ rfl)
      (.kept found (exec_of_run body)) (later_of_run inside trivial)
      (size_le_of_run body)
  | slotsGone outside tail ih =>
    intro out s' same
    exact bears_lift (ih trivial out s' same) (.slotGone outside)
  | slotsCons inside held content taken replaced tail ih iht =>
    intro out s' same
    subst same
    have placed : Later 0 _ _ := (later_takeChildren taken).trans (later_replaceWith replaced)
    have held_size := (later_of_preserves (fun _ => lasts_holdContent _ _ _) held : Later 0 _ _).grown
    have content_size := Nat.le_trans held_size (size_le_of_run content)
    have others := bears_lift (iht trivial _ _ rfl)
      (.nextSlot inside held (exec_of_run content) taken replaced)
    exact bears_append (bears_mono (bears_lift (ih trivial _ _ rfl) (.slot inside held)) held_size)
      others ((placed.mono (Nat.zero_le _)).trans (later_of_run tail trivial))
      (Nat.le_trans content_size placed.grown) placed.grown

end
/-! ### Pages -/

/-- The selector asks for the number that the element has. -/
def Selects (s : Expansion) (selector : String) (y : NodeId) : Prop :=
  ∃ m, s.mark? y = some m ∧ selector = "[" ++ refAttribute ++ "=\"" ++ m ++ "\"]"

theorem Numbered.selects_iff {s : Expansion} (numbered : Numbered s) {n : Nat} {x : NodeId}
    (mark : s.mark? x = some (toString n)) (y : NodeId) : s.Selects (refSelector n) y ↔ y = x := by
  constructor
  · rintro ⟨m, other, same⟩
    obtain rfl : toString n = m := by simpa [refSelector, ← String.toList_inj] using same
    exact numbered.once y x _ other mark
  · rintro rfl
    exact ⟨_, mark, rfl⟩

/-- The nodes of an expanded page are told once each. -/
theorem nodup_descendants {scene : Scene} {page : Page} {trace : List Instance} {s : Expansion}
    (sound : ∀ id c, scene.library.component? id = some c → c.Sound)
    (run : Expands scene page trace (.ok () s)) : (s.arena.descendants Arena.root).Nodup := by
  have leaves : WithinLeaves Arena.root (ofPage page) s :=
    leaves_of_run sound run (tidy_ofPage page) _ _ rfl
  have root : (ofTree false Arena.root page.document.tree).id = Arena.root := id_ofTree _ _
  obtain ⟨cs, turns⟩ := leaves _ none (stands_ofPage page) root (nodup_ofTree _)
  have once := turns.once
  rw [← turns.stands.descendants once, Branch.id, root] at once
  exact once

/-- After the expansion of a page each number stands at one element at most. No copy of a component
has a `ref` attribute any more, and the selectors of a record find the elements that had the names in
the copy that the record is about. -/
theorem references_find_their_elements {library : Library} {sandbox : Sandbox} {path : String}
    {page : Page} {trace : List Instance} {s : Expansion} (files : library.FromFiles)
    (unnumbered : page.document.tree.Unnumbered)
    (components : ∀ id c, library.component? id = some c → c.document.tree.Unnumbered)
    (run : Expands (.ofPage library sandbox path page) page trace (.ok () s))
    (given : GivenAll Value.Unnumbered trace) :
    ((s.arena.descendants Arena.root).filterMap s.mark?).Nodup ∧
    ∃ births : List (Bearing (.ofPage library sandbox path page)
        (pageCall (.ofPage library sandbox path page) page) (ofPage page)),
      births.map (·.made) = trace ∧ (births.map (·.fragment)).Pairwise (· < ·) ∧
      (∀ b ∈ births, ∀ y, b.1.opened.Copied b.1.component y → "ref" ∉ (s.arena.content y).names) ∧
      ∀ e ∈ s.instances, ∃ b ∈ births, b.made.given.bind b.made.recordOf = some e ∧
        ∀ r ∈ e.refs, ∃ x, b.1.opened.Copied b.1.component x ∧
          (b.1.after.arena.content x).refName? = some r.1 ∧ ∀ y, s.Selects r.2 y ↔ y = x := by
  have document : Values.All Value.Unnumbered (Values.ofDocument page.values) := fun e mem =>
    Value.unnumbered_of_plain (Values.plain_ofDocument page.values e mem)
  have numbered : Numbered s := numbered_of_run files.sound components document run
    (fun _ mem => nomatch mem) trivial given (numbered_ofPage unnumbered) _ _ rfl
  obtain ⟨births, bears⟩ := bears_of_run files.sound files.once run trivial _ _ rfl
  refine ⟨?_, births, bears.made, bears.order, fun b mem y copied => ?_, fun e mem => ?_⟩
  · exact (nodup_descendants files.sound run).filterMap fun x y m has has' =>
      numbered.once x y m has has'
  · exact (bears.referred b mem).bare.holds y copied
  · obtain ⟨i, made, record⟩ := ((recorded run).origin mem).resolve_left (fun mem => nomatch mem)
    rw [← bears.made] at made
    obtain ⟨b, here, rfl⟩ := List.mem_map.mp made
    refine ⟨b, here, record, fun r listed => ?_⟩
    have refs : e.refs = b.2 := by
      obtain ⟨d, -, record⟩ := Option.bind_eq_some_iff.mp record
      obtain ⟨source, -, rfl⟩ := Option.map_eq_some_iff.mp record
      rfl
    rw [refs] at listed
    obtain ⟨x, copied, called, n, selector, mark⟩ := (bears.referred b here).named r listed
    refine ⟨x, copied, called, ?_⟩
    rw [selector]
    exact numbered.selects_iff mark

/-! ### A box with two references -/

/-- Has two elements that its behavior refers to. -/
def box : Component where
  id := "x-box"
  path := "box.html"
  dir := ""
  document := ⟨.node .root [.node (.element ⟨"p", [⟨"ref", some "a"⟩]⟩) [],
      .node (.element ⟨"b", [⟨"ref", some "b"⟩]⟩) []], { refs := [1, 2] }⟩
  script := some "export default {}"

def boxLibrary : Library where
  component? id := if id = "x-box" then some box else none
  templates := ["x-box"]
  pages := []

/-- The script of the box has a client behavior. -/
def boxSandbox : Sandbox := fun _ => (.ok ⟨[], some "script() {}"⟩, [])

def boxPage : Page where
  values := []
  document := ⟨.node .root [.node (.element ⟨"x-box", []⟩) []], { customs := [1] }⟩

def boxScene : Scene := .ofPage boxLibrary boxSandbox "" boxPage

theorem box_read : (Component.ofRecord "" [] (.ofText "box.html"
    ("<template id=\"x-box\"><p ref=\"a\"></p><b ref=\"b\"></b></template>" ++
      "<script type=\"module\">export default {}</script>"))).toOption = some box := by
  decide +kernel

theorem fromFiles_boxLibrary : boxLibrary.FromFiles := by
  intro id c known
  simp only [boxLibrary] at known
  split at known
  · obtain rfl := Option.some.inj known
    exact ⟨_, _, _, ok_of_toOption box_read⟩
  · cases known

theorem expands_boxPage : ∃ trace s, Expands boxScene boxPage trace (.ok () s) ∧
    trace.map (·.given.map (·.values)) = [some []] ∧
    s.arena.html Arena.root = "<p data-tessera-ref=\"0\"></p><b data-tessera-ref=\"1\"></b>" ∧
    s.instances.map (·.refs.map (·.1)) = [["a", "b"]] := by
  have found : hosts (ofPage boxPage).arena Arena.root "" = [(1, "/0:x-box")] := by
    decide +kernel
  apply Exists.intro
  apply Exists.intro
  apply And.intro
  · apply Run.within
    simp only [boxScene, Scene.ofPage]
    rw [found]
    apply Run.hostsCons
    · apply Run.hostReplaced
      · rfl
      · apply Run.created (r := .ok () _)
        · rfl
        · rfl
        · exact .textsNil
        · rfl
        · exact .within .hostsNil
        · exact .slotsNil
      · rfl
      · rfl
    · exact .hostsNil
  · apply And.intro
    · rfl
    · decide +kernel

theorem references_of_boxPage :
    boxLibrary.FromFiles ∧ boxPage.document.tree.Unnumbered ∧
    (∀ id c, boxLibrary.component? id = some c → c.document.tree.Unnumbered) ∧
    ∃ trace s, Expands boxScene boxPage trace (.ok () s) ∧ GivenAll Value.Unnumbered trace ∧
      s.arena.html Arena.root = "<p data-tessera-ref=\"0\"></p><b data-tessera-ref=\"1\"></b>" ∧
      s.instances.map (·.refs.map (·.1)) = [["a", "b"]] ∧
      ((s.arena.descendants Arena.root).filterMap s.mark?).Nodup ∧
      ∃ births : List (Bearing boxScene (pageCall boxScene boxPage) (ofPage boxPage)),
        births.map (·.made) = trace ∧ (births.map (·.fragment)).Pairwise (· < ·) ∧
        (∀ b ∈ births, ∀ y, b.1.opened.Copied b.1.component y →
          "ref" ∉ (s.arena.content y).names) ∧
        ∀ e ∈ s.instances, ∃ b ∈ births, b.made.given.bind b.made.recordOf = some e ∧
          ∀ r ∈ e.refs, ∃ x, b.1.opened.Copied b.1.component x ∧
            (b.1.after.arena.content x).refName? = some r.1 ∧ ∀ y, s.Selects r.2 y ↔ y = x := by
  obtain ⟨trace, s, run, values, html, refs⟩ := expands_boxPage
  have unnumbered : boxPage.document.tree.Unnumbered := by decide
  have components : ∀ id c, boxLibrary.component? id = some c → c.document.tree.Unnumbered := by
    intro id c known
    simp only [boxLibrary] at known
    split at known
    · obtain rfl := Option.some.inj known
      decide
    · cases known
  have given : GivenAll Value.Unnumbered trace := by
    intro i made computed own
    have listed : i.given.map (·.values) ∈ trace.map (·.given.map (·.values)) :=
      List.mem_map_of_mem made
    rw [values, own, Option.map_some, List.mem_singleton, Option.some.injEq] at listed
    rw [listed]
    exact fun _ mem => nomatch mem
  exact ⟨fromFiles_boxLibrary, unnumbered, components, trace, s, run, given, html, refs,
    references_find_their_elements fromFiles_boxLibrary unnumbered components run given⟩

end Expansion
end Stencil
