import Stencil.Proofs.Expansion.Step
/-!
Expansion as rules. A run of a call starts in a state, makes instances in an order, and ends with a
result, which is a value or a failure together with the state that it leaves. The functions that
expand a page run by these rules and by no others.
-/
namespace Stencil.Expansion
open Markup

/-- An instance of a component that a run has made. -/
structure Instance where
  /-- The id that the component has been found by. -/
  name : String
  context : String
  component : Component
  /-- The values before those of the script. -/
  own : Values
  /-- What the script has given. -/
  given : Option Computed
  /-- The elements that the client behavior refers to; none when the run fails before. -/
  refs : List (String × String) := []

def Opened.made (o : Opened) (name context : String) (c : Component)
    (refs : List (String × String)) : Instance :=
  ⟨name, context, c, o.own, o.given, refs⟩

/-- A call of a function that has a part in expansion. -/
inductive Call where
  | create (room : Nat) (id context : String) (host : Option NodeId) (extra : Values)
  | texts (left : Nat) (values : Values) (context : String) (index : Nat) (sites : List TextSite)
  | text (left : Nat) (values : Values) (context : String) (site : TextSite)
  | pieces (left : Nat) (context : String) (index : Nat) (ps : List Piece)
  | value (left : Nat) (context : String) (v : Value)
  | values (left : Nat) (context : String) (index : Nat) (items : List Value)
  | within (room height : Nat) (scope : NodeId) (context : String)
  | hosts (room height : Nat) (hosts : List (NodeId × String))
  | host (room height : Nat) (host : NodeId) (context : String)
  | slots (room : Nat) (fragment : NodeId) (supplied : Assoc (List NodeId)) (context : String)
      (slots : List (String × NodeId))

abbrev Call.Out : Call → Type
  | .create .. => Option NodeId
  | .pieces .. | .value .. | .values .. => List NodeId
  | .texts .. | .text .. | .within .. | .hosts .. | .host .. | .slots .. => Unit

def exec (scene : Scene) : (call : Call) → Expand call.Out
  | .create room id context host extra => create scene room id context host extra
  | .texts left values context index sites => substituteTexts scene left values context index sites
  | .text left values context site => substituteText scene left values context site
  | .pieces left context index ps => placePieces scene left context index ps
  | .value left context v => materialize scene left context v
  | .values left context index items => materializeAll scene left context index items
  | .within room height scope context => expandWithin scene room height scope context
  | .hosts room height hs => expandHosts scene room height hs
  | .host room height node context => expandHost scene room height node context
  | .slots room fragment supplied context sites =>
    fillSlots scene room fragment supplied context sites

/-- The rules. Where a call makes another one and goes on afterwards, there is a rule for the case
that the other one fails. -/
inductive Run (scene : Scene) :
    (call : Call) → Expansion → List Instance → Outcome call.Out → Prop where
  -- instances
  | unknown {room id context host extra s s'} (absent : scene.library.component? id = none)
      (logged : (logUnknown scene id).run s = .ok () s') :
      Run scene (.create room id context host extra) s [] (.ok none s')
  | tooDeep {id context host extra s c} (known : scene.library.component? id = some c) :
      Run scene (.create 0 id context host extra) s []
        (.error (.recursionLimit id scene.path) s)
  | refused {left id context host extra s c e s'} (known : scene.library.component? id = some c)
      (failed : (openInstance scene c context host extra).run s = .error e s') :
      Run scene (.create (left + 1) id context host extra) s [] (.error e s')
  | textsStop {left id context host extra s c o s₁ made e s₂}
      (known : scene.library.component? id = some c)
      (opened : (openInstance scene c context host extra).run s = .ok o s₁)
      (texts : Run scene (.texts left o.values context 0 o.sites.texts) s₁ made (.error e s₂)) :
      Run scene (.create (left + 1) id context host extra) s (o.made id context c [] :: made)
        (.error e s₂)
  | withinStop {left id context host extra s c o s₁ made s₂ refs s₃ nested e s₄}
      (known : scene.library.component? id = some c)
      (opened : (openInstance scene c context host extra).run s = .ok o s₁)
      (texts : Run scene (.texts left o.values context 0 o.sites.texts) s₁ made (.ok () s₂))
      (bound : (bindRefs c context o).run s₂ = .ok refs s₃)
      (within : Run scene (.within left s₃.arena.size o.fragment context) s₃ nested
        (.error e s₄)) :
      Run scene (.create (left + 1) id context host extra) s
        (o.made id context c refs :: (made ++ nested)) (.error e s₄)
  | created {left id context host extra s c o s₁ made s₂ refs s₃ nested s₄ filled r}
      (known : scene.library.component? id = some c)
      (opened : (openInstance scene c context host extra).run s = .ok o s₁)
      (texts : Run scene (.texts left o.values context 0 o.sites.texts) s₁ made (.ok () s₂))
      (bound : (bindRefs c context o).run s₂ = .ok refs s₃)
      (within : Run scene (.within left s₃.arena.size o.fragment context) s₃ nested (.ok () s₄))
      (slots : Run scene (.slots left o.fragment o.supplied context o.sites.slots) s₄ filled r) :
      Run scene (.create (left + 1) id context host extra) s
        (o.made id context c refs :: (made ++ (nested ++ filled)))
        (r.map fun _ => some o.fragment)
  -- texts
  | textsNil {left values context index s} :
      Run scene (.texts left values context index []) s [] (.ok () s)
  | textsHeadStop {left values context index site rest s made e s'}
      (head : Run scene (.text left values (context ++ "/#" ++ toString index) site) s made
        (.error e s')) :
      Run scene (.texts left values context index (site :: rest)) s made (.error e s')
  | textsCons {left values context index site rest s made s' more r}
      (head : Run scene (.text left values (context ++ "/#" ++ toString index) site) s made
        (.ok () s'))
      (tail : Run scene (.texts left values context (index + 1) rest) s' more r) :
      Run scene (.texts left values context index (site :: rest)) s (made ++ more) r
  | noText {left values context site s} (absent : s.arena.text? site.node = none) :
      Run scene (.text left values context site) s [] (.ok () s)
  | plainText {left values context site s text s'}
      (found : s.arena.text? site.node = some text)
      (plain : (pieces values site.tokens text.toList).all
        (·.isPlain (isRaw s.arena site.node)) = true)
      (written : (modifyArena (·.setContent site.node (.text (String.join
        ((pieces values site.tokens text.toList).map
          (·.text (isRaw s.arena site.node))))))).run s = .ok () s') :
      Run scene (.text left values context site) s [] (.ok () s')
  | richTextStop {left values context site s text made e s'}
      (found : s.arena.text? site.node = some text)
      (rich : (pieces values site.tokens text.toList).all
        (·.isPlain (isRaw s.arena site.node)) = false)
      (placed : Run scene (.pieces left context 0 (pieces values site.tokens text.toList)) s made
        (.error e s')) :
      Run scene (.text left values context site) s made (.error e s')
  | richText {left values context site s text made nodes s₁ s₂}
      (found : s.arena.text? site.node = some text)
      (rich : (pieces values site.tokens text.toList).all
        (·.isPlain (isRaw s.arena site.node)) = false)
      (placed : Run scene (.pieces left context 0 (pieces values site.tokens text.toList)) s made
        (.ok nodes s₁))
      (replaced : (modifyArena (·.replaceWith site.node nodes)).run s₁ = .ok () s₂) :
      Run scene (.text left values context site) s made (.ok () s₂)
  -- pieces
  | piecesNil {left context index s} :
      Run scene (.pieces left context index []) s [] (.ok [] s)
  | piecesEmpty {left context index text rest s made r} (empty : text.isEmpty = true)
      (tail : Run scene (.pieces left context (index + 1) rest) s made r) :
      Run scene (.pieces left context index (.literal text :: rest)) s made r
  | piecesLiteral {left context index text rest s id s' made r} (more : text.isEmpty = false)
      (added : (alloc (.text text)).run s = .ok id s')
      (tail : Run scene (.pieces left context (index + 1) rest) s' made r) :
      Run scene (.pieces left context index (.literal text :: rest)) s made (r.map (id :: ·))
  | piecesValueStop {left context index v rest s made e s'}
      (head : Run scene (.value left (context ++ "." ++ toString index) v) s made (.error e s')) :
      Run scene (.pieces left context index (.value v :: rest)) s made (.error e s')
  | piecesValue {left context index v rest s made ids s' more r}
      (head : Run scene (.value left (context ++ "." ++ toString index) v) s made (.ok ids s'))
      (tail : Run scene (.pieces left context (index + 1) rest) s' more r) :
      Run scene (.pieces left context index (.value v :: rest)) s (made ++ more)
        (r.map (ids ++ ·))
  -- values
  | valueText {left context text s id s'}
      (added : (alloc (.text (Entity.escapeText text))).run s = .ok id s') :
      Run scene (.value left context (.text text)) s [] (.ok [id] s')
  | valueMarkupStop {left context source s cause}
      (bad : Document.ofSource .page [] source = .error cause) :
      Run scene (.value left context (.markup source)) s [] (.error (.markup context cause) s)
  | valueMarkup {left context source s d ids s'}
      (read : Document.ofSource .page [] source = .ok d)
      (grafted : (graftAll d.tree.children).run s = .ok ids s') :
      Run scene (.value left context (.markup source)) s [] (.ok ids s')
  | valueComponentStop {left context id values s made e s'}
      (body : Run scene (.create left id (context ++ ":" ++ id) none values) s made
        (.error e s')) :
      Run scene (.value left context (.component id values)) s made (.error e s')
  | valueComponent {left context id values s made fragment s₁ ids s₂}
      (body : Run scene (.create left id (context ++ ":" ++ id) none values) s made
        (.ok (some fragment) s₁))
      (taken : (takeChildren fragment).run s₁ = .ok ids s₂) :
      Run scene (.value left context (.component id values)) s made (.ok ids s₂)
  | valueUnknown {left context id values s made s₁ node s₂}
      (body : Run scene (.create left id (context ++ ":" ++ id) none values) s made
        (.ok none s₁))
      (added : (alloc (.element { name := id })).run s₁ = .ok node s₂) :
      Run scene (.value left context (.component id values)) s made (.ok [node] s₂)
  | valueList {left context items s made r}
      (all : Run scene (.values left context 0 items) s made r) :
      Run scene (.value left context (.list items)) s made r
  | valuesNil {left context index s} :
      Run scene (.values left context index []) s [] (.ok [] s)
  | valuesHeadStop {left context index v rest s made e s'}
      (head : Run scene (.value left (context ++ "[" ++ toString index ++ "]") v) s made
        (.error e s')) :
      Run scene (.values left context index (v :: rest)) s made (.error e s')
  | valuesCons {left context index v rest s made ids s' more r}
      (head : Run scene (.value left (context ++ "[" ++ toString index ++ "]") v) s made
        (.ok ids s'))
      (tail : Run scene (.values left context (index + 1) rest) s' more r) :
      Run scene (.values left context index (v :: rest)) s (made ++ more) (r.map (ids ++ ·))
  -- hosts
  | within {room height scope context s made r}
      (all : Run scene (.hosts room height (Expansion.hosts s.arena scope context)) s made r) :
      Run scene (.within room height scope context) s made r
  | hostsNil {room height s} : Run scene (.hosts room height []) s [] (.ok () s)
  | hostsHeadStop {room height host context rest s made e s'}
      (head : Run scene (.host room height host context) s made (.error e s')) :
      Run scene (.hosts room height ((host, context) :: rest)) s made (.error e s')
  | hostsCons {room height host context rest s made s' more r}
      (head : Run scene (.host room height host context) s made (.ok () s'))
      (tail : Run scene (.hosts room height rest) s' more r) :
      Run scene (.hosts room height ((host, context) :: rest)) s (made ++ more) r
  | noHost {room height host context s} (absent : s.arena.element? host = none) :
      Run scene (.host room height host context) s [] (.ok () s)
  | hostStop {room height host context s el made e s'}
      (found : s.arena.element? host = some el)
      (body : Run scene (.create room el.name context (some host) []) s made (.error e s')) :
      Run scene (.host room height host context) s made (.error e s')
  | hostReplaced {room height host context s el made fragment s₁ ids s₂ s₃}
      (found : s.arena.element? host = some el)
      (body : Run scene (.create room el.name context (some host) []) s made
        (.ok (some fragment) s₁))
      (taken : (takeChildren fragment).run s₁ = .ok ids s₂)
      (replaced : (modifyArena (·.replaceWith host ids)).run s₂ = .ok () s₃) :
      Run scene (.host room height host context) s made (.ok () s₃)
  | hostBottom {room host context s el made s'} (found : s.arena.element? host = some el)
      (body : Run scene (.create room el.name context (some host) []) s made (.ok none s')) :
      Run scene (.host room 0 host context) s made (.ok () s')
  | hostKept {room height host context s el made s' more r}
      (found : s.arena.element? host = some el)
      (body : Run scene (.create room el.name context (some host) []) s made (.ok none s'))
      (inside : Run scene (.within (room - 1) height host context) s' more r) :
      Run scene (.host room (height + 1) host context) s (made ++ more) r
  -- slots
  | slotsNil {room fragment supplied context s} :
      Run scene (.slots room fragment supplied context []) s [] (.ok () s)
  | slotsGone {room fragment supplied context name slot rest s made r}
      (outside : s.arena.isBelow slot fragment = false)
      (tail : Run scene (.slots room fragment supplied context rest) s made r) :
      Run scene (.slots room fragment supplied context ((name, slot) :: rest)) s made r
  | slotsStop {room fragment supplied context name slot rest s holder s₁ made e s₂}
      (inside : s.arena.isBelow slot fragment = true)
      (held : (holdContent supplied name slot).run s = .ok holder s₁)
      (content : Run scene (.within room s₁.arena.size holder (context ++ "/slot:" ++ name)) s₁
        made (.error e s₂)) :
      Run scene (.slots room fragment supplied context ((name, slot) :: rest)) s made
        (.error e s₂)
  | slotsCons {room fragment supplied context name slot rest s holder s₁ made s₂ ids s₃ s₄ more r}
      (inside : s.arena.isBelow slot fragment = true)
      (held : (holdContent supplied name slot).run s = .ok holder s₁)
      (content : Run scene (.within room s₁.arena.size holder (context ++ "/slot:" ++ name)) s₁
        made (.ok () s₂))
      (taken : (takeChildren holder).run s₂ = .ok ids s₃)
      (replaced : (modifyArena (·.replaceWith slot ids)).run s₃ = .ok () s₄)
      (tail : Run scene (.slots room fragment supplied context rest) s₄ more r) :
      Run scene (.slots room fragment supplied context ((name, slot) :: rest)) s (made ++ more) r

/-! ### Every call runs by the rules -/

/-- Some run of the call starts in the state and ends as the function of the call does. -/
def Runs (scene : Scene) (call : Call) (s : Expansion) : Prop :=
  ∃ made, Run scene call s made ((exec scene call).run s)

section
variable (scene : Scene)

mutual

theorem create_runs (room : Nat) (id context : String) (host : Option NodeId) (extra : Values)
    (s : Expansion) : Runs scene (.create room id context host extra) s := by
  simp only [Runs, exec]
  rw [create]
  cases hc : scene.library.component? id with
  | none =>
    obtain ⟨_, s', logged⟩ := total_logUnknown scene id s
    rw [run_bind_ok logged]
    exact ⟨[], .unknown hc logged⟩
  | some c =>
    match room with
    | 0 => exact ⟨[], .tooDeep hc⟩
    | left + 1 =>
      dsimp only
      cases ho : (openInstance scene c context host extra).run s with
      | error e s₁ =>
        rw [run_bind_error ho]
        exact ⟨[], .refused hc ho⟩
      | ok o s₁ =>
        rw [run_bind_ok ho]
        obtain ⟨made, texts⟩ := substituteTexts_runs left o.values context 0 o.sites.texts s₁
        simp only [exec] at texts
        cases ht : (substituteTexts scene left o.values context 0 o.sites.texts).run s₁ with
        | error e s₂ =>
          rw [ht] at texts
          rw [run_bind_error ht]
          exact ⟨_, .textsStop hc ho texts⟩
        | ok _ s₂ =>
          rw [ht] at texts
          obtain ⟨refs, s₃, bound⟩ := total_bindRefs c context o s₂
          rw [run_bind_ok ht, run_bind_ok bound, run_get_bind]
          obtain ⟨nested, within⟩ := expandWithin_runs left s₃.arena.size o.fragment context s₃
          simp only [exec] at within
          cases hw : (expandWithin scene left s₃.arena.size o.fragment context).run s₃ with
          | error e s₄ =>
            rw [hw] at within
            rw [run_bind_error hw]
            exact ⟨_, .withinStop hc ho texts bound within⟩
          | ok _ s₄ =>
            rw [hw] at within
            rw [run_bind_ok hw, run_bind_pure]
            obtain ⟨filled, slots⟩ :=
              fillSlots_runs left o.fragment o.supplied context o.sites.slots s₄
            exact ⟨_, .created hc ho texts bound within slots⟩
termination_by (room, 0, 5, 0)

theorem substituteTexts_runs (left : Nat) (values : Values) (context : String) (index : Nat)
    (sites : List TextSite) (s : Expansion) :
    Runs scene (.texts left values context index sites) s := by
  simp only [Runs, exec]
  match sites with
  | [] =>
    rw [substituteTexts]
    exact ⟨[], .textsNil⟩
  | site :: rest =>
    rw [substituteTexts]
    obtain ⟨made, head⟩ :=
      substituteText_runs left values (context ++ "/#" ++ toString index) site s
    simp only [exec] at head
    cases hh : (substituteText scene left values (context ++ "/#" ++ toString index) site).run s
    with
    | error e s' =>
      rw [hh] at head
      rw [run_bind_error hh]
      exact ⟨_, .textsHeadStop head⟩
    | ok _ s' =>
      rw [hh] at head
      rw [run_bind_ok hh]
      obtain ⟨more, tail⟩ := substituteTexts_runs left values context (index + 1) rest s'
      exact ⟨_, .textsCons head tail⟩
termination_by (left + 1, 0, 4, sizeOf sites)

theorem substituteText_runs (left : Nat) (values : Values) (context : String) (site : TextSite)
    (s : Expansion) : Runs scene (.text left values context site) s := by
  simp only [Runs, exec]
  rw [substituteText, run_get_bind]
  dsimp only
  cases found : s.arena.text? site.node with
  | none => exact ⟨[], .noText found⟩
  | some text =>
    dsimp only
    cases plain : (pieces values site.tokens text.toList).all
        (·.isPlain (isRaw s.arena site.node)) with
    | true =>
      rw [if_pos rfl]
      obtain ⟨_, s', written⟩ := total_modifyArena (·.setContent site.node (.text (String.join
        ((pieces values site.tokens text.toList).map (·.text (isRaw s.arena site.node)))))) s
      rw [written]
      exact ⟨[], .plainText found plain written⟩
    | false =>
      obtain ⟨made, placed⟩ :=
        placePieces_runs left context 0 (pieces values site.tokens text.toList) s
      simp only [exec] at placed
      rw [if_neg (by simp)]
      cases hp : (placePieces scene left context 0
          (pieces values site.tokens text.toList)).run s with
      | error e s' =>
        rw [hp] at placed
        rw [run_bind_error hp]
        exact ⟨_, .richTextStop found plain placed⟩
      | ok nodes s₁ =>
        rw [hp] at placed
        rw [run_bind_ok hp]
        obtain ⟨_, s₂, replaced⟩ := total_modifyArena (·.replaceWith site.node nodes) s₁
        rw [replaced]
        exact ⟨_, .richText found plain placed replaced⟩
termination_by (left + 1, 0, 3, 0)

theorem placePieces_runs (left : Nat) (context : String) (index : Nat) (ps : List Piece)
    (s : Expansion) : Runs scene (.pieces left context index ps) s := by
  simp only [Runs, exec]
  match ps with
  | [] =>
    rw [placePieces]
    exact ⟨[], .piecesNil⟩
  | .literal text :: rest =>
    rw [placePieces]
    cases empty : text.isEmpty with
    | true =>
      obtain ⟨made, tail⟩ := placePieces_runs left context (index + 1) rest s
      exact ⟨_, .piecesEmpty empty tail⟩
    | false =>
      obtain ⟨id, s', added⟩ := total_alloc (.text text) s
      rw [if_neg (by simp), run_bind_ok added, run_bind_pure]
      obtain ⟨made, tail⟩ := placePieces_runs left context (index + 1) rest s'
      exact ⟨_, .piecesLiteral empty added tail⟩
  | .value v :: rest =>
    rw [placePieces]
    obtain ⟨made, head⟩ := materialize_runs left (context ++ "." ++ toString index) v s
    simp only [exec] at head
    cases hh : (materialize scene left (context ++ "." ++ toString index) v).run s with
    | error e s' =>
      rw [hh] at head
      rw [run_bind_error hh]
      exact ⟨_, .piecesValueStop head⟩
    | ok ids s' =>
      rw [hh] at head
      rw [run_bind_ok hh, run_bind_pure]
      obtain ⟨more, tail⟩ := placePieces_runs left context (index + 1) rest s'
      exact ⟨_, .piecesValue head tail⟩
termination_by (left + 1, 0, 2, sizeOf ps)

theorem materialize_runs (left : Nat) (context : String) (v : Value) (s : Expansion) :
    Runs scene (.value left context v) s := by
  simp only [Runs, exec]
  match v with
  | .text text =>
    rw [materialize]
    obtain ⟨id, s', added⟩ := total_alloc (.text (Entity.escapeText text)) s
    rw [run_bind_ok added]
    exact ⟨[], .valueText added⟩
  | .markup source =>
    rw [materialize]
    cases read : Document.ofSource .page [] source with
    | error cause => exact ⟨[], .valueMarkupStop read⟩
    | ok d =>
      obtain ⟨ids, s', grafted⟩ := total_graftAll d.tree.children s
      rw [grafted]
      exact ⟨[], .valueMarkup read grafted⟩
  | .component id values =>
    rw [materialize]
    obtain ⟨made, body⟩ := create_runs left id (context ++ ":" ++ id) none values s
    simp only [exec] at body
    cases hb : (create scene left id (context ++ ":" ++ id) none values).run s with
    | error e s' =>
      rw [hb] at body
      rw [run_bind_error hb]
      exact ⟨_, .valueComponentStop body⟩
    | ok made s₁ =>
      rw [hb] at body
      rw [run_bind_ok hb]
      cases made with
      | none =>
        obtain ⟨node, s₂, added⟩ := total_alloc (.element { name := id }) s₁
        rw [run_bind_ok added]
        exact ⟨_, .valueUnknown body added⟩
      | some fragment =>
        obtain ⟨ids, s₂, taken⟩ := total_takeChildren fragment s₁
        rw [taken]
        exact ⟨_, .valueComponent body taken⟩
  | .list items =>
    rw [materialize]
    obtain ⟨made, all⟩ := materializeAll_runs left context 0 items s
    exact ⟨_, .valueList all⟩
termination_by (left + 1, 0, 1, sizeOf v)

theorem materializeAll_runs (left : Nat) (context : String) (index : Nat) (items : List Value)
    (s : Expansion) : Runs scene (.values left context index items) s := by
  simp only [Runs, exec]
  match items with
  | [] =>
    rw [materializeAll]
    exact ⟨[], .valuesNil⟩
  | v :: rest =>
    rw [materializeAll]
    obtain ⟨made, head⟩ := materialize_runs left (context ++ "[" ++ toString index ++ "]") v s
    simp only [exec] at head
    cases hh : (materialize scene left (context ++ "[" ++ toString index ++ "]") v).run s with
    | error e s' =>
      rw [hh] at head
      rw [run_bind_error hh]
      exact ⟨_, .valuesHeadStop head⟩
    | ok ids s' =>
      rw [hh] at head
      rw [run_bind_ok hh, run_bind_pure]
      obtain ⟨more, tail⟩ := materializeAll_runs left context (index + 1) rest s'
      exact ⟨_, .valuesCons head tail⟩
termination_by (left + 1, 0, 1, sizeOf items)

theorem expandWithin_runs (room height : Nat) (scope : NodeId) (context : String)
    (s : Expansion) : Runs scene (.within room height scope context) s := by
  simp only [Runs, exec]
  rw [expandWithin, run_get_bind]
  obtain ⟨made, all⟩ := expandHosts_runs room height (hosts s.arena scope context) s
  exact ⟨_, .within all⟩
termination_by (room, 1, 3 * height + 2, 0)

theorem expandHosts_runs (room height : Nat) (hosts : List (NodeId × String)) (s : Expansion) :
    Runs scene (.hosts room height hosts) s := by
  simp only [Runs, exec]
  match hosts with
  | [] =>
    rw [expandHosts]
    exact ⟨[], .hostsNil⟩
  | (host, context) :: rest =>
    rw [expandHosts]
    obtain ⟨made, head⟩ := expandHost_runs room height host context s
    simp only [exec] at head
    cases hh : (expandHost scene room height host context).run s with
    | error e s' =>
      rw [hh] at head
      rw [run_bind_error hh]
      exact ⟨_, .hostsHeadStop head⟩
    | ok _ s' =>
      rw [hh] at head
      rw [run_bind_ok hh]
      obtain ⟨more, tail⟩ := expandHosts_runs room height rest s'
      exact ⟨_, .hostsCons head tail⟩
termination_by (room, 1, 3 * height + 1, sizeOf hosts)

theorem expandHost_runs (room height : Nat) (host : NodeId) (context : String) (s : Expansion) :
    Runs scene (.host room height host context) s := by
  simp only [Runs, exec]
  rw [expandHost.eq_def, run_get_bind]
  cases found : s.arena.element? host with
  | none => exact ⟨[], .noHost found⟩
  | some e =>
    dsimp only
    obtain ⟨made, body⟩ := create_runs room e.name context (some host) [] s
    simp only [exec] at body
    cases hb : (create scene room e.name context (some host) []).run s with
    | error e s' =>
      rw [hb] at body
      rw [run_bind_error hb]
      exact ⟨_, .hostStop found body⟩
    | ok made s₁ =>
      rw [hb] at body
      rw [run_bind_ok hb]
      cases made with
      | some fragment =>
        obtain ⟨ids, s₂, taken⟩ := total_takeChildren fragment s₁
        obtain ⟨_, s₃, replaced⟩ := total_modifyArena (·.replaceWith host ids) s₂
        rw [run_bind_ok taken, replaced]
        exact ⟨_, .hostReplaced found body taken replaced⟩
      | none =>
        match height with
        | 0 => exact ⟨_, .hostBottom found body⟩
        | height + 1 =>
          obtain ⟨more, inside⟩ := expandWithin_runs (room - 1) height host context s₁
          exact ⟨_, .hostKept found body inside⟩
termination_by (room, 1, 3 * height, 0)
decreasing_by
  · decreasing_tactic
  · simp [Prod.lex_def]; omega

theorem fillSlots_runs (room : Nat) (fragment : NodeId) (supplied : Assoc (List NodeId))
    (context : String) (slots : List (String × NodeId)) (s : Expansion) :
    Runs scene (.slots room fragment supplied context slots) s := by
  simp only [Runs, exec]
  match slots with
  | [] =>
    rw [fillSlots]
    exact ⟨[], .slotsNil⟩
  | (name, slot) :: rest =>
    rw [fillSlots, run_get_bind]
    cases inside : s.arena.isBelow slot fragment with
    | false =>
      obtain ⟨made, tail⟩ := fillSlots_runs room fragment supplied context rest s
      exact ⟨_, .slotsGone inside tail⟩
    | true =>
      obtain ⟨holder, s₁, held⟩ := total_holdContent supplied name slot s
      rw [if_pos rfl, run_bind_ok held, run_get_bind]
      obtain ⟨made, content⟩ :=
        expandWithin_runs room s₁.arena.size holder (context ++ "/slot:" ++ name) s₁
      simp only [exec] at content
      cases hw : (expandWithin scene room s₁.arena.size holder
          (context ++ "/slot:" ++ name)).run s₁ with
      | error e s₂ =>
        rw [hw] at content
        rw [run_bind_error hw]
        exact ⟨_, .slotsStop inside held content⟩
      | ok _ s₂ =>
        rw [hw] at content
        obtain ⟨ids, s₃, taken⟩ := total_takeChildren holder s₂
        obtain ⟨_, s₄, replaced⟩ := total_modifyArena (·.replaceWith slot ids) s₃
        rw [run_bind_ok hw, run_bind_ok taken, run_bind_ok replaced]
        obtain ⟨more, tail⟩ := fillSlots_runs room fragment supplied context rest s₄
        exact ⟨_, .slotsCons inside held content taken replaced tail⟩
termination_by (room, 2, 0, sizeOf slots)

end

end

theorem runs (scene : Scene) (call : Call) (s : Expansion) : Runs scene call s := by
  cases call with
  | create => exact create_runs ..
  | texts => exact substituteTexts_runs ..
  | text => exact substituteText_runs ..
  | pieces => exact placePieces_runs ..
  | value => exact materialize_runs ..
  | values => exact materializeAll_runs ..
  | within => exact expandWithin_runs ..
  | hosts => exact expandHosts_runs ..
  | host => exact expandHost_runs ..
  | slots => exact fillSlots_runs ..

/-- The rules say nothing that the functions do not do. -/
theorem exec_of_run {scene : Scene} {call : Call} {s : Expansion} {made : List Instance}
    {r : Outcome call.Out} (run : Run scene call s made r) : (exec scene call).run s = r := by
  induction run with simp only [exec] at *
  | unknown absent logged => rw [create, absent]; exact run_bind_ok logged
  | tooDeep known => rw [create, known]; rfl
  | refused known failed => rw [create, known]; exact run_bind_error failed
  | textsStop known opened texts ih =>
    rw [create, known]
    exact (run_bind_ok opened).trans (run_bind_error ih)
  | withinStop known opened texts bound within ih ihw =>
    rw [create, known]
    dsimp only
    rw [run_bind_ok opened, run_bind_ok ih, run_bind_ok bound, run_get_bind, run_bind_error ihw]
  | created known opened texts bound within slots ih ihw ihs =>
    rw [create, known]
    dsimp only
    rw [run_bind_ok opened, run_bind_ok ih, run_bind_ok bound, run_get_bind, run_bind_ok ihw,
      run_bind_pure, ihs]
  | textsNil => rw [substituteTexts]; rfl
  | textsHeadStop head ih => rw [substituteTexts]; exact run_bind_error ih
  | textsCons head tail ih iht => rw [substituteTexts, run_bind_ok ih, iht]
  | noText absent =>
    rw [substituteText, run_get_bind]
    dsimp only
    rw [absent]
    rfl
  | plainText found plain written =>
    rw [substituteText, run_get_bind]
    dsimp only
    rw [found]
    dsimp only
    rw [if_pos plain, written]
  | richTextStop found rich placed ih =>
    rw [substituteText, run_get_bind]
    dsimp only
    rw [found]
    dsimp only
    rw [if_neg (by simp [rich]), run_bind_error ih]
  | richText found rich placed replaced ih =>
    rw [substituteText, run_get_bind]
    dsimp only
    rw [found]
    dsimp only
    rw [if_neg (by simp [rich]), run_bind_ok ih, replaced]
  | piecesNil => rw [placePieces]; rfl
  | piecesEmpty empty tail ih => rw [placePieces, if_pos empty, ih]
  | piecesLiteral more added tail ih =>
    rw [placePieces, if_neg (by simp [more]), run_bind_ok added, run_bind_pure, ih]
  | piecesValueStop head ih => rw [placePieces, run_bind_error ih]
  | piecesValue head tail ih iht => rw [placePieces, run_bind_ok ih, run_bind_pure, iht]
  | valueText added => rw [materialize]; exact run_bind_ok added
  | valueMarkupStop bad => rw [materialize, bad]; rfl
  | valueMarkup read grafted => rw [materialize, read]; exact grafted
  | valueComponentStop body ih => rw [materialize, run_bind_error ih]
  | valueComponent body taken ih => rw [materialize, run_bind_ok ih]; exact taken
  | valueUnknown body added ih => rw [materialize, run_bind_ok ih]; exact run_bind_ok added
  | valueList all ih => rw [materialize, ih]
  | valuesNil => rw [materializeAll]; rfl
  | valuesHeadStop head ih => rw [materializeAll, run_bind_error ih]
  | valuesCons head tail ih iht => rw [materializeAll, run_bind_ok ih, run_bind_pure, iht]
  | within all ih => rw [expandWithin, run_get_bind, ih]
  | hostsNil => rw [expandHosts]; rfl
  | hostsHeadStop head ih => rw [expandHosts, run_bind_error ih]
  | hostsCons head tail ih iht => rw [expandHosts, run_bind_ok ih, iht]
  | noHost absent => rw [expandHost.eq_def, run_get_bind, absent]; rfl
  | hostStop found body ih =>
    rw [expandHost.eq_def, run_get_bind, found]
    exact run_bind_error ih
  | hostReplaced found body taken replaced ih =>
    rw [expandHost.eq_def, run_get_bind, found]
    exact (run_bind_ok ih).trans ((run_bind_ok taken).trans replaced)
  | hostBottom found body ih =>
    rw [expandHost.eq_def, run_get_bind, found]
    exact run_bind_ok ih
  | hostKept found body inside ih ihi =>
    rw [expandHost.eq_def, run_get_bind, found]
    exact (run_bind_ok ih).trans ihi
  | slotsNil => rw [fillSlots]; rfl
  | slotsGone outside tail ih =>
    rw [fillSlots, run_get_bind, if_neg (by simp [outside]), ih]
  | slotsStop inside held content ih =>
    rw [fillSlots, run_get_bind, if_pos inside, run_bind_ok held, run_get_bind, run_bind_error ih]
  | slotsCons inside held content taken replaced tail ih iht =>
    rw [fillSlots, run_get_bind, if_pos inside, run_bind_ok held, run_get_bind, run_bind_ok ih,
      run_bind_ok taken, run_bind_ok replaced, iht]

/-- The rules and the functions agree. -/
theorem exec_eq_iff (scene : Scene) (call : Call) (s : Expansion) (r : Outcome call.Out) :
    (exec scene call).run s = r ↔ ∃ made, Run scene call s made r := by
  constructor
  · rintro rfl
    exact runs scene call s
  · rintro ⟨made, run⟩
    exact exec_of_run run

/-- The expansion of a page by the rules; the trace lists the instances that it makes. -/
def Expands (scene : Scene) (page : Page) (trace : List Instance) (r : Outcome Unit) : Prop :=
  Run scene (.within maxDepth (ofPage page).arena.size Arena.root scene.path) (ofPage page) trace r

theorem expandPage_eq_iff (scene : Scene) (page : Page) (r : Outcome Unit) :
    (expandPage scene).run (ofPage page) = r ↔ ∃ trace, Expands scene page trace r :=
  exec_eq_iff scene (.within maxDepth _ Arena.root scene.path) (ofPage page) r

end Stencil.Expansion
