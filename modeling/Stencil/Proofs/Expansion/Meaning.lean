import Stencil.Proofs.Expansion.Reading
/-!
What branches are rewritten to. Slots that will be filled stand for trees that an assignment gives
them. Where no known component is left outside slots, the rewriting makes no instance, so it does not
matter how deep instances may nest.
-/
namespace Stencil
open Markup

namespace Sketch

section
variable {η θ : Type} {make : Maker} {fill fill' : η → Option (List Tree)}

@[simp] theorem rewriteAll_append (ts us : List (Sketch η)) :
    rewriteAll make fill (ts ++ us) = rewriteAll make fill ts ++ rewriteAll make fill us := by
  induction ts with
  | nil => rfl
  | cons t ts ih => rw [List.cons_append, rewriteAll, rewriteAll, ih, List.append_assoc]

@[simp] theorem rewriteAll_singleton (t : Sketch η) :
    rewriteAll make fill [t] = rewrite make fill false t := by
  simp [rewriteAll]

mutual

/-- The slots that will be filled, each with what stands in it. -/
def holes : Sketch η → List (η × List (Sketch η))
  | node _ _ slot ts => (slot.map (·, ts)).toList ++ holesAll ts

def holesAll : List (Sketch η) → List (η × List (Sketch η))
  | [] => []
  | t :: ts => t.holes ++ holesAll ts

end

/-- Two assignments give a slot the same trees. -/
def Agree (make : Maker) (fill fill' : η → Option (List Tree)) (hole : η × List (Sketch η)) : Prop :=
  (fill hole.1).getD (rewriteAll make fill hole.2) =
    (fill' hole.1).getD (rewriteAll make fill' hole.2)

mutual

theorem rewrite_agree (light : Bool) (t : Sketch η)
    (agree : ∀ hole ∈ t.holes, Agree make fill fill' hole) :
    rewrite make fill light t = rewrite make fill' light t := by
  cases t with
  | node c rich slot ts =>
    rw [holes, List.forall_mem_append] at agree
    cases slot with
    | some hole => exact agree.1 (hole, ts) (by simp)
    | none =>
      rw [rewrite, rewrite, rewriteAll_agree ts agree.2, lights_agree ts agree.2]

theorem rewriteAll_agree (ts : List (Sketch η))
    (agree : ∀ hole ∈ holesAll ts, Agree make fill fill' hole) :
    rewriteAll make fill ts = rewriteAll make fill' ts := by
  cases ts with
  | nil => rfl
  | cons t ts =>
    rw [holesAll, List.forall_mem_append] at agree
    rw [rewriteAll, rewriteAll, rewrite_agree false t agree.1, rewriteAll_agree ts agree.2]

theorem lights_agree (ts : List (Sketch η))
    (agree : ∀ hole ∈ holesAll ts, Agree make fill fill' hole) :
    lights make fill ts = lights make fill' ts := by
  match ts with
  | [] => rfl
  | node c rich slot us :: ts =>
    rw [holesAll, List.forall_mem_append] at agree
    rw [lights, lights, rewrite_agree true (node c rich slot us) agree.1, lights_agree ts agree.2]

end

mutual

def map (f : η → θ) : Sketch η → Sketch θ
  | node c rich slot ts => node c rich (slot.map f) (mapAll f ts)

def mapAll (f : η → θ) : List (Sketch η) → List (Sketch θ)
  | [] => []
  | t :: ts => t.map f :: mapAll f ts

end

section
variable {f : η → θ} {fill : θ → Option (List Tree)}

mutual

theorem trees_map (t : Sketch η) : (t.map f).tree = t.tree := by
  cases t with
  | node c rich slot ts => rw [map, tree, tree, trees_mapAll ts]

theorem trees_mapAll (ts : List (Sketch η)) : trees (mapAll f ts) = trees ts := by
  cases ts with
  | nil => rfl
  | cons t ts => rw [mapAll, trees, trees, trees_map t, trees_mapAll ts]

end

mutual

theorem rewrite_map (light : Bool) (t : Sketch η) :
    rewrite make fill light (t.map f) = rewrite make (fill ∘ f) light t := by
  cases t with
  | node c rich slot ts =>
    cases slot with
    | some hole => rw [map, Option.map_some, rewrite, rewrite, rewriteAll_mapAll ts]; rfl
    | none =>
      rw [map, Option.map_none, rewrite, rewrite, rewriteAll_mapAll ts, lights_mapAll ts,
        trees_mapAll]

theorem rewriteAll_mapAll (ts : List (Sketch η)) :
    rewriteAll make fill (mapAll f ts) = rewriteAll make (fill ∘ f) ts := by
  cases ts with
  | nil => rfl
  | cons t ts => rw [mapAll, rewriteAll, rewriteAll, rewrite_map false t, rewriteAll_mapAll ts]

theorem lights_mapAll (ts : List (Sketch η)) :
    lights make fill (mapAll f ts) = lights make (fill ∘ f) ts := by
  match ts with
  | [] => rfl
  | node c rich slot us :: ts =>
    rw [mapAll, map, lights, lights, lights_mapAll ts]
    have head := rewrite_map true (node c rich slot us)
    rw [map] at head
    rw [head]

end
end
end

/-- An element that no component has the name of makes nothing. -/
theorem make_eq_none {keep : Keep} {library : Library} {document : Values} {e : Element}
    (unknown : library.component? e.name = none) (depth : Nat) (rich : Values)
    (children : List Light) : make keep library document depth e rich children = none := by
  cases depth with
  | zero => rfl
  | succ depth => rw [make, unknown]; rfl

end Sketch

namespace Markup

/-- The node is a custom element that a component has the name of. -/
def Content.isKnown (library : Library) (c : Content) : Bool :=
  c.element?.any fun e => e.isCustom && (library.component? e.name).isSome

/-- What stands below the node may still change. -/
def Content.isPending (library : Library) (c : Content) : Bool := c.isSlot || c.isKnown library

theorem Content.covers_of_isPending {library : Library} (c : Content)
    (pending : c.isPending library) : c.covers := by
  rw [isPending, Bool.or_eq_true] at pending
  rcases pending with slot | known
  · exact covers_of_isSlot slot
  · refine covers_of_isCustom ?_
    rw [isKnown, Option.any_eq_true] at known
    obtain ⟨e, here, known⟩ := known
    rw [isCustom, Option.any_eq_true]
    exact ⟨e, here, (Bool.and_eq_true _ _ ▸ known).1⟩

end Markup

namespace Branch
variable {library : Library} {bs cs : List Branch}

/-- Outside of slots, no custom element is left that a component has the name of. -/
def Settled (library : Library) (bs : List Branch) : Prop :=
  ∀ sub ∈ frontAll (·.isPending library) bs, sub.stem.content.isSlot

@[simp] theorem settled_nil : Settled library [] := fun _ mem => nomatch mem

theorem settled_append : Settled library (bs ++ cs) ↔ Settled library bs ∧ Settled library cs := by
  rw [Settled, frontAll_append, List.forall_mem_append]
  rfl

theorem settled_cons {b : Branch} :
    Settled library (b :: bs) ↔ Settled library [b] ∧ Settled library bs := by
  rw [← List.singleton_append, settled_append]

/-- Branches are settled when each of their outermost custom elements and slots is. -/
theorem settled_iff : Settled library bs ↔
    ∀ sub ∈ frontAll Content.covers bs, Settled library [sub] := by
  rw [Settled, frontAll_of_le Content.covers_of_isPending bs]
  simp only [List.mem_flatMap, Settled, frontAll_singleton]
  constructor
  · exact fun all sub mem deep inside => all deep ⟨sub, mem, inside⟩
  · rintro all deep ⟨sub, mem, inside⟩
    exact all sub mem deep inside

theorem settled_of_isSlot {b : Branch} (slot : b.stem.content.isSlot) : Settled library [b] := by
  cases b with
  | node i stem bs =>
    intro sub mem
    have pending : stem.content.isPending library = true := by
      rw [Content.isPending, Bool.or_eq_true]
      exact .inl slot
    rw [frontAll_singleton, front, if_pos pending, List.mem_singleton] at mem
    rw [mem]
    exact slot

theorem settled_of_unknown {i : NodeId} {stem : Stem}
    (unknown : stem.content.isKnown library = false) (settled : Settled library bs) :
    Settled library [node i stem bs] := by
  cases slot : stem.content.isSlot with
  | true => exact settled_of_isSlot slot
  | false =>
    intro sub mem
    have clear : stem.content.isPending library = false := by
      rw [Content.isPending, slot, unknown]
      rfl
    rw [frontAll_singleton, front, if_neg (by simp [clear])] at mem
    exact settled sub mem

section
variable {make make' : Sketch.Maker} {fill : NodeId → Option (List Tree)}
  {cover : Content → Bool} {x : NodeId} {new : List Branch}

/-- Nodes outside the class are kept, and what stands in them is rewritten. -/
def Open (make : Sketch.Maker) (cover : Content → Bool) : Prop :=
  ∀ c : Content, cover c = false → c.isSlot = false ∧
    ∀ e, c.element? = some e → e.isCustom → ∀ rich children, make e rich children = none

theorem open_of_isPending {keep : Sketch.Keep} {document : Values} {depth : Nat}
    {cover : Content → Bool} (covers : ∀ c : Content, c.isPending library → cover c) :
    Open (Sketch.make keep library document depth) cover := by
  intro c clear
  have pending : c.isPending library = false := by
    cases pending : c.isPending library with
    | false => rfl
    | true => rw [covers c pending] at clear; cases clear
  rw [Content.isPending, Bool.or_eq_false_iff] at pending
  refine ⟨pending.1, fun e here custom => ?_⟩
  have unknown := pending.2
  rw [Content.isKnown, here, Option.any_some, custom, Bool.true_and,
    Option.isSome_eq_false_iff, Option.isNone_iff_eq_none] at unknown
  exact Sketch.make_eq_none unknown depth

theorem rewrite_open (clear : Open make cover) {i : NodeId} {stem : Stem}
    (out : cover stem.content = false) (bs : List Branch) :
    Sketch.rewrite make fill false (node i stem bs).sketch =
      [.node stem.content (Sketch.rewriteAll make fill (sketches bs))] := by
  obtain ⟨plain, unknown⟩ := clear _ out
  rw [sketch, plain, Bool.and_false, if_neg Bool.false_ne_true, Sketch.rewrite]
  cases content : stem.content with
  | root | text _ | comment _ | directive _ => rfl
  | element e =>
    rw [content] at plain unknown
    have other : e.name ≠ "slot" := by
      intro same
      simp [Content.isSlot, Content.element?, same] at plain
    simp only [Bool.false_eq_true, if_false, if_neg other]
    split
    · next trees made =>
      split at made
      · next custom => rw [unknown e rfl custom] at made; cases made
      · cases made
    · rfl

/-- A splice at an exposed node does not change what branches are rewritten to if it does not change
what the node is rewritten to. -/
theorem rewriteAll_splice (clear : Open make cover) (once : (idsAll bs).Nodup)
    (exposed : Exposed cover x bs)
    (same : ∀ sub ∈ subsAll bs, sub.id = x → Sketch.rewriteAll make fill (sketches new) =
      Sketch.rewrite make fill false sub.sketch) :
    Sketch.rewriteAll make fill (sketches (spliceAll x new bs)) =
      Sketch.rewriteAll make fill (sketches bs) := by
  have step : Splicing cover x new fun bs cs =>
      (∀ sub ∈ subsAll bs, sub.id = x → Sketch.rewriteAll make fill (sketches new) =
        Sketch.rewrite make fill false sub.sketch) →
      Sketch.rewriteAll make fill (sketches cs) = Sketch.rewriteAll make fill (sketches bs) := by
    refine ⟨fun _ => rfl, fun stem bs _ same => ?_, fun _ _ _ => rfl,
      fun i stem bs cs out ih same => ?_, fun bs bs' cs cs' ih ih' same => ?_⟩
    · rw [same (node x stem bs) (by simp [subsAll, subs]) rfl]
      simp [sketches]
    · have inner := ih fun sub mem => same sub (by simp [subsAll, subs, mem])
      simp only [sketches, Sketch.rewriteAll_singleton]
      rw [rewrite_open clear out, rewrite_open clear out, inner]
    · rw [subsAll_append, List.forall_mem_append] at same
      rw [sketches_append, sketches_append, Sketch.rewriteAll_append, Sketch.rewriteAll_append,
        ih same.1, ih' same.2]
  exact step.spliceAll bs once (fun _ => exposed) same

mutual

/-- Settled branches are rewritten alike by all makers of the library. -/
theorem rewrite_settled (ρ : NodeId → List Tree) (clear : Open make (·.isPending library))
    (clear' : Open make' (·.isPending library)) (b : Branch) (settled : Settled library [b]) :
    Sketch.rewrite make (fun x => some (ρ x)) false b.sketch =
      Sketch.rewrite make' (fun x => some (ρ x)) false b.sketch := by
  cases b with
  | node i stem bs =>
    cases pending : stem.content.isPending library with
    | false =>
      have inner : Settled library bs := fun sub mem => settled sub (by
        rwa [frontAll_singleton, front, if_neg (by simp [pending])])
      rw [rewrite_open clear pending, rewrite_open clear' pending,
        rewriteAll_settled ρ clear clear' bs inner]
    | true =>
      have slot : stem.content.isSlot := settled (node i stem bs) (by
        rw [frontAll_singleton, front, if_pos pending]
        exact List.mem_singleton_self _)
      rw [sketch, slot, Bool.and_true]
      cases stem.own with
      | true => rfl
      | false =>
        rw [if_neg Bool.false_ne_true, Sketch.rewrite, Sketch.rewrite]
        cases content : stem.content with
        | root | text _ | comment _ | directive _ => rw [content] at slot; cases slot
        | element e =>
          rw [content] at slot
          have own : e.name = "slot" := by simpa [Content.isSlot, Content.element?] using slot
          simp only [Bool.false_eq_true, if_false, if_pos own]

theorem rewriteAll_settled (ρ : NodeId → List Tree) (clear : Open make (·.isPending library))
    (clear' : Open make' (·.isPending library)) (bs : List Branch) (settled : Settled library bs) :
    Sketch.rewriteAll make (fun x => some (ρ x)) (sketches bs) =
      Sketch.rewriteAll make' (fun x => some (ρ x)) (sketches bs) := by
  cases bs with
  | nil => rfl
  | cons b bs =>
    obtain ⟨head, tail⟩ := settled_cons.mp settled
    rw [sketches, Sketch.rewriteAll, Sketch.rewriteAll, rewrite_settled ρ clear clear' b head,
      rewriteAll_settled ρ clear clear' bs tail]

end

mutual

/-- Settled branches without slots to fill are what they are rewritten to. -/
theorem rewrite_eq_tree (clear : Open make (·.isPending library)) (b : Branch)
    (settled : Settled library [b]) (foreign : ∀ slot ∈ slots [b], slot.2.1 = false) :
    Sketch.rewrite make fill false b.sketch = [b.sketch.tree] := by
  cases b with
  | node i stem bs =>
    cases pending : stem.content.isPending library with
    | false =>
      have inner : Settled library bs := fun sub mem => settled sub (by
        rwa [frontAll_singleton, front, if_neg (by simp [pending])])
      have below : ∀ slot ∈ slots bs, slot.2.1 = false := by
        intro slot mem
        obtain ⟨sub, here, is_slot, rfl⟩ := mem_slots.mp mem
        exact foreign _ (mem_slots.mpr ⟨sub, by simp [subsAll, subs, here], is_slot, rfl⟩)
      rw [rewrite_open clear pending, rewriteAll_eq_trees clear bs inner below, sketch, Sketch.tree]
    | true =>
      have slot : stem.content.isSlot := settled (node i stem bs) (by
        rw [frontAll_singleton, front, if_pos pending]
        exact List.mem_singleton_self _)
      have unowned : stem.own = false := foreign (i, stem.own, bs)
        (mem_slots.mpr ⟨node i stem bs, by simp [subsAll, subs], slot, rfl⟩)
      rw [sketch, unowned, Bool.false_and, if_neg Bool.false_ne_true, Sketch.rewrite]
      cases content : stem.content with
      | root | text _ | comment _ | directive _ => rw [content] at slot; cases slot
      | element e =>
        rw [content] at slot
        have own : e.name = "slot" := by simpa [Content.isSlot, Content.element?] using slot
        simp only [Bool.false_eq_true, if_false, if_pos own]
        rfl

theorem rewriteAll_eq_trees (clear : Open make (·.isPending library)) (bs : List Branch)
    (settled : Settled library bs) (foreign : ∀ slot ∈ slots bs, slot.2.1 = false) :
    Sketch.rewriteAll make fill (sketches bs) = Sketch.trees (sketches bs) := by
  cases bs with
  | nil => rfl
  | cons b bs =>
    obtain ⟨head, tail⟩ := settled_cons.mp settled
    rw [← List.singleton_append, slots_append, List.forall_mem_append] at foreign
    rw [sketches, Sketch.rewriteAll, Sketch.trees, rewrite_eq_tree clear b head foreign.1,
      rewriteAll_eq_trees clear bs tail foreign.2]
    rfl

end
end
end Branch
end Stencil
