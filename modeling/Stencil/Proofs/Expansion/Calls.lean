import Mathlib.Logic.Relation
import Stencil.Proofs.Expansion.Lasting
/-!
The calls of a run. A call makes others and goes on after them, each in a state that the ones before
have left; what holds of a call and its state is carried along to the calls that it leads to.
-/
namespace Stencil.Expansion
open Markup

/-- A call in a state makes another call, or goes on with one. -/
inductive Enters (scene : Scene) : Call × Expansion → Call × Expansion → Prop where
  -- instances
  | texts {left id context host extra s c o s₁} (known : scene.library.component? id = some c)
      (opened : (openInstance scene c context host extra).run s = .ok o s₁) :
      Enters scene (.create (left + 1) id context host extra, s)
        (.texts left o.values context 0 o.sites.texts, s₁)
  | inside {left id context host extra s c o s₁ s₂ refs s₃}
      (known : scene.library.component? id = some c)
      (opened : (openInstance scene c context host extra).run s = .ok o s₁)
      (texts : (substituteTexts scene left o.values context 0 o.sites.texts).run s₁ = .ok () s₂)
      (bound : (bindRefs c context o).run s₂ = .ok refs s₃) :
      Enters scene (.create (left + 1) id context host extra, s)
        (.within left s₃.arena.size o.fragment context, s₃)
  | slots {left id context host extra s c o s₁ s₂ refs s₃ s₄}
      (known : scene.library.component? id = some c)
      (opened : (openInstance scene c context host extra).run s = .ok o s₁)
      (texts : (substituteTexts scene left o.values context 0 o.sites.texts).run s₁ = .ok () s₂)
      (bound : (bindRefs c context o).run s₂ = .ok refs s₃)
      (within : (expandWithin scene left s₃.arena.size o.fragment context).run s₃ = .ok () s₄) :
      Enters scene (.create (left + 1) id context host extra, s)
        (.slots left o.fragment o.supplied context o.sites.slots, s₄)
  -- texts
  | text {left values context index site rest s} :
      Enters scene (.texts left values context index (site :: rest), s)
        (.text left values (context ++ "/#" ++ toString index) site, s)
  | nextText {left values context index site rest s s'}
      (head : (substituteText scene left values (context ++ "/#" ++ toString index) site).run s =
        .ok () s') :
      Enters scene (.texts left values context index (site :: rest), s)
        (.texts left values context (index + 1) rest, s')
  | pieces {left values context site s text} (found : s.arena.text? site.node = some text)
      (rich : (Expansion.pieces values site.tokens text.toList).all
        (·.isPlain (isRaw s.arena site.node)) = false) :
      Enters scene (.text left values context site, s)
        (.pieces left context 0 (Expansion.pieces values site.tokens text.toList), s)
  -- pieces
  | nextEmpty {left context index text rest s} (empty : text.isEmpty = true) :
      Enters scene (.pieces left context index (.literal text :: rest), s)
        (.pieces left context (index + 1) rest, s)
  | nextLiteral {left context index text rest s node s'} (more : text.isEmpty = false)
      (added : (alloc (.text text)).run s = .ok node s') :
      Enters scene (.pieces left context index (.literal text :: rest), s)
        (.pieces left context (index + 1) rest, s')
  | value {left context index v rest s} :
      Enters scene (.pieces left context index (.value v :: rest), s)
        (.value left (context ++ "." ++ toString index) v, s)
  | nextValue {left context index v rest s ids s'}
      (head : (materialize scene left (context ++ "." ++ toString index) v).run s = .ok ids s') :
      Enters scene (.pieces left context index (.value v :: rest), s)
        (.pieces left context (index + 1) rest, s')
  -- values
  | component {left context id values s} :
      Enters scene (.value left context (.component id values), s)
        (.create left id (context ++ ":" ++ id) none values, s)
  | items {left context items s} :
      Enters scene (.value left context (.list items), s) (.values left context 0 items, s)
  | item {left context index v rest s} :
      Enters scene (.values left context index (v :: rest), s)
        (.value left (context ++ "[" ++ toString index ++ "]") v, s)
  | nextItem {left context index v rest s ids s'}
      (head : (materialize scene left (context ++ "[" ++ toString index ++ "]") v).run s =
        .ok ids s') :
      Enters scene (.values left context index (v :: rest), s)
        (.values left context (index + 1) rest, s')
  -- hosts
  | hosts {room height scope context s} :
      Enters scene (.within room height scope context, s)
        (.hosts room height (Expansion.hosts s.arena scope context), s)
  | host {room height host context rest s} :
      Enters scene (.hosts room height ((host, context) :: rest), s)
        (.host room height host context, s)
  | nextHost {room height host context rest s s'}
      (head : (expandHost scene room height host context).run s = .ok () s') :
      Enters scene (.hosts room height ((host, context) :: rest), s) (.hosts room height rest, s')
  | hosted {room height host context s e} (found : s.arena.element? host = some e) :
      Enters scene (.host room height host context, s)
        (.create room e.name context (some host) [], s)
  | kept {room height host context s e s'} (found : s.arena.element? host = some e)
      (unknown : (create scene room e.name context (some host) []).run s = .ok none s') :
      Enters scene (.host room (height + 1) host context, s)
        (.within (room - 1) height host context, s')
  -- slots
  | slot {room fragment supplied context name slot rest s holder s₁}
      (inside : s.arena.isBelow slot fragment = true)
      (held : (holdContent supplied name slot).run s = .ok holder s₁) :
      Enters scene (.slots room fragment supplied context ((name, slot) :: rest), s)
        (.within room s₁.arena.size holder (context ++ "/slot:" ++ name), s₁)
  | slotGone {room fragment supplied context name slot rest s}
      (outside : s.arena.isBelow slot fragment = false) :
      Enters scene (.slots room fragment supplied context ((name, slot) :: rest), s)
        (.slots room fragment supplied context rest, s)
  | nextSlot {room fragment supplied context name slot rest s holder s₁ s₂ ids s₃ s₄}
      (inside : s.arena.isBelow slot fragment = true)
      (held : (holdContent supplied name slot).run s = .ok holder s₁)
      (content : (expandWithin scene room s₁.arena.size holder (context ++ "/slot:" ++ name)).run s₁ =
        .ok () s₂)
      (taken : (takeChildren holder).run s₂ = .ok ids s₃)
      (replaced : (modifyArena (·.replaceWith slot ids)).run s₃ = .ok () s₄) :
      Enters scene (.slots room fragment supplied context ((name, slot) :: rest), s)
        (.slots room fragment supplied context rest, s₄)

/-- A call in a state leads to another one. -/
abbrev Leads (scene : Scene) : Call × Expansion → Call × Expansion → Prop :=
  Relation.ReflTransGen (Enters scene)

section
variable {scene : Scene} {call call' : Call} {s s' : Expansion} {kept : NodeId → Prop}
  {good : NodeId → Content → Prop}

theorem tidy_of_exec (call : Call) {a : call.Out} (run : (exec scene call).run s = .ok a s')
    (tidy : Tidy s) : Tidy s' := by
  obtain ⟨made, run⟩ := (exec_eq_iff scene call s _).mp run
  exact tidy_of_run run tidy

theorem lasts_of_exec (call : Call) {a : call.Out} (run : (exec scene call).run s = .ok a s')
    (lasting : Lasting good) (spares : call.Spares kept good) (lasts : Lasts kept good s) :
    Lasts kept good s' := by
  obtain ⟨made, run⟩ := (exec_eq_iff scene call s _).mp run
  exact lasts_of_run run lasting spares lasts

theorem tidy_of_enters (enters : Enters scene (call, s) (call', s')) (tidy : Tidy s) : Tidy s' := by
  cases enters with
  | texts known opened => exact (tidy_openInstance _ _ _ _ _).of_ok tidy opened
  | inside known opened texts bound =>
    have tidy := (tidy_openInstance _ _ _ _ _).of_ok tidy opened
    exact (tidy_bindRefs _ _ _).of_ok (tidy_of_exec (.texts ..) texts tidy) bound
  | slots known opened texts bound within =>
    have tidy := (tidy_openInstance _ _ _ _ _).of_ok tidy opened
    have tidy := (tidy_bindRefs _ _ _).of_ok (tidy_of_exec (.texts ..) texts tidy) bound
    exact tidy_of_exec (.within ..) within tidy
  | text | pieces | nextEmpty | value | component | items | item | hosts | host | hosted
  | slotGone => exact tidy
  | nextText head => exact tidy_of_exec (.text ..) head tidy
  | nextLiteral more added => exact (tidy_alloc _).of_ok tidy added
  | nextValue head | nextItem head => exact tidy_of_exec (.value ..) head tidy
  | nextHost head => exact tidy_of_exec (.host ..) head tidy
  | kept found unknown => exact tidy_of_exec (.create ..) unknown tidy
  | slot inside held => exact (tidy_holdContent _ _ _).of_ok tidy held
  | nextSlot inside held content taken replaced =>
    have tidy := (tidy_holdContent _ _ _).of_ok tidy held
    have tidy := tidy_of_exec (.within ..) content tidy
    exact (tidy_replaceWith _ _).of_ok ((tidy_takeChildren _).of_ok tidy taken) replaced

/-- What lasts is not written into by the calls that a call leads to. -/
theorem lasts_of_enters (lasting : Lasting good) (enters : Enters scene (call, s) (call', s'))
    (spares : call.Spares kept good) (lasts : Lasts kept good s) :
    call'.Spares kept good ∧ Lasts kept good s' := by
  have bind : ∀ {c context o s₂ s₃ refs}, (∀ x ∈ o.sites.refs, ¬ kept x) →
      (bindRefs c context o).run s₂ = .ok refs s₃ → Lasts kept good s₂ → Lasts kept good s₃ := by
    intro c context o s₂ s₃ refs late bound lasts
    exact (lasts_bindRefs (fun x mem old => absurd old (late x mem)) fun x mem old =>
      absurd old (late x mem)).of_ok lasts bound
  cases enters with
  | texts known opened =>
    exact ⟨(spares_opened lasting lasts opened).1,
      (lasts_openInstance lasting _ _ _ _ _).of_ok lasts opened⟩
  | inside known opened texts bound =>
    obtain ⟨spares, late⟩ := spares_opened lasting lasts opened
    have lasts := (lasts_openInstance lasting _ _ _ _ _).of_ok lasts opened
    exact ⟨trivial, bind late bound (lasts_of_exec (.texts ..) texts lasting spares lasts)⟩
  | slots known opened texts bound within =>
    obtain ⟨spares, late⟩ := spares_opened lasting lasts opened
    have lasts := (lasts_openInstance lasting _ _ _ _ _).of_ok lasts opened
    have lasts := bind late bound (lasts_of_exec (.texts ..) texts lasting spares lasts)
    exact ⟨trivial, lasts_of_exec (.within ..) within lasting trivial lasts⟩
  | text => exact ⟨spares _ List.mem_cons_self, lasts⟩
  | nextText head =>
    refine ⟨fun site mem => spares site (List.mem_cons_of_mem _ mem), ?_⟩
    exact lasts_of_exec (.text ..) head lasting (spares _ List.mem_cons_self) lasts
  | pieces | nextEmpty | value | component | items | item | hosts | host | hosted | slotGone =>
    exact ⟨trivial, lasts⟩
  | nextLiteral more added => exact ⟨trivial, (lasts_alloc _).of_ok lasts added⟩
  | nextValue head | nextItem head =>
    exact ⟨trivial, lasts_of_exec (.value ..) head lasting trivial lasts⟩
  | nextHost head => exact ⟨trivial, lasts_of_exec (.host ..) head lasting trivial lasts⟩
  | kept found unknown =>
    exact ⟨trivial, lasts_of_exec (.create ..) unknown lasting trivial lasts⟩
  | slot inside held => exact ⟨trivial, (lasts_holdContent _ _ _).of_ok lasts held⟩
  | nextSlot inside held content taken replaced =>
    have lasts := (lasts_holdContent _ _ _).of_ok lasts held
    have lasts := lasts_of_exec (.within ..) content lasting trivial lasts
    exact ⟨trivial, (lasts_replaceWith _ _).of_ok ((lasts_takeChildren _).of_ok lasts taken) replaced⟩

end

/-- The call that expands a page. -/
def pageCall (scene : Scene) (page : Page) : Call :=
  .within maxDepth (ofPage page).arena.size Arena.root scene.path

/-- An instance that is opened when a call is made in a state. -/
structure Birth (scene : Scene) (call : Call) (s : Expansion) where
  left : Nat
  id : String
  context : String
  host : Option NodeId
  extra : Values
  component : Component
  opened : Opened
  before : Expansion
  after : Expansion
  led : Leads scene (call, s) (.create (left + 1) id context host extra, before)
  known : scene.library.component? id = some component
  opens : (openInstance scene component context host extra).run before = .ok opened after

end Stencil.Expansion
