import Stencil.Proofs.Expansion.Run
import Stencil.Proofs.Markup.Custom
/-!
Which components a page can get instances of. Names come from the page, from components that are
reached already, and from values that scripts give to instances; nothing else decides what is looked
up, so a library can change as it likes under all other names.
-/
namespace Stencil
open Markup

namespace Value

mutual

/-- Names of the components that a value asks for, and of the custom elements in its markup. -/
def names : Value → List String
  | text _ => []
  | markup s =>
    match Document.ofSource .page [] s with
    | .ok d => d.uses
    | .error _ => []
  | component id values => id :: namesOfEntries values
  | list items => namesOfItems items

def namesOfEntries : List (String × Value) → List String
  | [] => []
  | (_, v) :: rest => v.names ++ namesOfEntries rest

def namesOfItems : List Value → List String
  | [] => []
  | v :: rest => v.names ++ namesOfItems rest

end

theorem mem_namesOfEntries {values : List (String × Value)} {n : String} :
    n ∈ namesOfEntries values ↔ ∃ e ∈ values, n ∈ e.2.names := by
  induction values with
  | nil => simp [namesOfEntries]
  | cons e rest ih =>
    obtain ⟨key, v⟩ := e
    rw [namesOfEntries, List.mem_append, ih]
    simp

theorem mem_namesOfItems {items : List Value} {n : String} :
    n ∈ namesOfItems items ↔ ∃ v ∈ items, n ∈ v.names := by
  induction items with
  | nil => simp [namesOfItems]
  | cons v rest ih => rw [namesOfItems, List.mem_append, ih]; simp

/-- All names of the value are in the class. -/
def Within (N : String → Prop) (v : Value) : Prop := ∀ n ∈ v.names, N n

mutual

theorem names_ofDocument? {j : Json} {v : Value} (h : ofDocument? j = some v) : v.names = [] := by
  cases j with
  | null | object _ => simp [ofDocument?] at h
  | string _ | bool _ | number _ =>
    simp only [ofDocument?, Option.some.injEq] at h
    rw [← h, names]
  | array items =>
    simp only [ofDocument?, Option.some.injEq] at h
    rw [← h, names, names_ofDocumentItems]

theorem names_ofDocumentItems (items : List Json) : namesOfItems (ofDocumentItems items) = [] := by
  match items with
  | [] => rw [ofDocumentItems, namesOfItems]
  | j :: rest =>
    rw [ofDocumentItems]
    cases hv : ofDocument? j with
    | none => exact names_ofDocumentItems rest
    | some v =>
      rw [Option.toList_some, List.singleton_append, namesOfItems, names_ofDocument? hv,
        names_ofDocumentItems rest]
      rfl

end
end Value

namespace Values

def Within (N : String → Prop) (values : Values) : Prop := ∀ e ∈ values, e.2.Within N

variable {N : String → Prop} {values more : Values}

theorem within_ofDocument (declared : Assoc Yaml.Value) : Within N (ofDocument declared) := by
  intro e mem n name
  obtain ⟨⟨key, y⟩, -, found⟩ := List.mem_filterMap.mp mem
  obtain ⟨v, read, rfl⟩ := Option.map_eq_some_iff.mp found
  obtain ⟨j, -, read⟩ := Option.bind_eq_some_iff.mp read
  rw [Value.names_ofDocument? read] at name
  cases name

theorem within_append (first : Within N values) (second : Within N more) :
    Within N (values ++ more) := by
  intro e mem
  rcases List.mem_append.mp mem with mem | mem
  · exact first e mem
  · exact second e mem

theorem within_put {key : String} {v : Value} (own : v.Within N) (h : Within N values) :
    Within N (values.put key v) := by
  induction values with
  | nil =>
    intro e mem
    rw [Assoc.put, List.mem_singleton] at mem
    rw [mem]
    exact own
  | cons e rest ih =>
    obtain ⟨k, old⟩ := e
    have tail : Within N rest := fun e mem => h e (List.mem_cons_of_mem _ mem)
    rw [Assoc.put]
    split
    · intro e mem
      rcases List.mem_cons.mp mem with rfl | mem
      · exact own
      · exact tail e mem
    · intro e mem
      rcases List.mem_cons.mp mem with rfl | mem
      · exact h _ List.mem_cons_self
      · exact ih tail e mem

theorem within_foldl {f : Values → String × Value → Values}
    (step : ∀ values e, Within N values → e.2.Within N → Within N (f values e))
    (first : Within N values) (second : Within N more) : Within N (more.foldl f values) := by
  induction more generalizing values with
  | nil => exact first
  | cons e rest ih =>
    rw [List.foldl_cons]
    exact ih (step values e first (second e List.mem_cons_self))
      fun e mem => second e (List.mem_cons_of_mem _ mem)

theorem within_putAll (first : Within N values) (second : Within N more) :
    Within N (values.putAll more) :=
  within_foldl (fun _ _ h own => within_put own h) first second

theorem within_get? {key : String} {v : Value} (h : Within N values)
    (found : Assoc.get? values key = some v) : v.Within N := by
  obtain ⟨e, here, rfl⟩ := Option.map_eq_some_iff.mp found
  exact h e (List.mem_of_find?_eq_some here)

end Values

namespace Expansion

/-- The names in a state are of the class; the custom elements of an older store are still there. -/
structure Named (N : String → Prop) (old : Arena) (s : Expansion) : Prop where
  custom : ∀ {id n}, s.arena.customName? id = some n → N n
  rich : ∀ e ∈ s.rich, Values.Within N e.2
  kept : ∀ {id n}, old.customName? id = some n → s.arena.customName? id = some n

section
variable {N : String → Prop} {old : Arena} {s : Expansion}

theorem Named.start (custom : ∀ {id n}, s.arena.customName? id = some n → N n)
    (rich : ∀ e ∈ s.rich, Values.Within N e.2) : Named N s.arena s := ⟨custom, rich, id⟩

theorem Named.same_arena {a : Arena} (same : ∀ j, a.customName? j = s.arena.customName? j)
    (h : Named N old s) : Named N old { s with arena := a } where
  custom found := h.custom (by rwa [← same])
  rich := h.rich
  kept found := by
    dsimp only
    rw [same]
    exact h.kept found

theorem Named.grow {ns : List Node}
    (names : ∀ c ∈ ns.map (·.content), ∀ n, c.customName? = some n → N n) (h : Named N old s) :
    Named N old { s with arena := ⟨s.arena.nodes ++ ns.toArray⟩ } where
  custom found := by
    rcases s.arena.customName?_grow found with old | ⟨c, mem, new⟩
    · exact h.custom old
    · exact names c mem _ new
  rich := h.rich
  kept found := s.arena.customName?_grow_of_some (h.kept found)

theorem named_modifyArena {f : Arena → Arena}
    (same : ∀ a j, (f a).customName? j = a.customName? j) :
    Preserves (Named N old) (modifyArena f) :=
  preserves_modify fun _ h => h.same_arena (same _)

theorem named_replaceWith (target : NodeId) (ids : List NodeId) :
    Preserves (Named N old) (modifyArena (·.replaceWith target ids)) :=
  named_modifyArena fun a j => congrArg Content.customName? (a.content_replaceWith target ids j)

theorem named_takeChildren (id : NodeId) : Preserves (Named N old) (takeChildren id) :=
  fun s h => h.same_arena fun j => congrArg Content.customName? (s.arena.content_takeChildren id j)

theorem named_alloc {c : Content} (name : ∀ n, c.customName? = some n → N n) :
    Preserves (Named N old) (alloc c) := by
  intro s h
  have names : ∀ c' ∈ ([⟨c, none, []⟩] : List Node).map (·.content),
      ∀ n, c'.customName? = some n → N n := by
    intro c' mem
    rw [List.map_singleton, List.mem_singleton] at mem
    rw [mem]
    exact name
  have grown := h.grow names
  rwa [← s.arena.alloc_eq_grow c] at grown

theorem named_allocText (text : String) : Preserves (Named N old) (alloc (.text text)) :=
  named_alloc fun n name => by cases name

theorem Named.graft {t : Tree} (names : ∀ c ∈ t.contents, ∀ n, c.customName? = some n → N n)
    (h : Named N old s) : Named N old { s with arena := (s.arena.graft t).2 } := by
  refine h.grow ?_
  rw [Tree.content_layout]
  exact names

theorem named_graftAll {ts : List Tree}
    (names : ∀ t ∈ ts, ∀ c ∈ t.contents, ∀ n, c.customName? = some n → N n) :
    Preserves (Named N old) (graftAll ts) := by
  induction ts with
  | nil => exact preserves_pure []
  | cons t ts ih =>
    rw [graftAll, List.mapM_cons]
    refine preserves_bind (fun s h => h.graft (names t List.mem_cons_self)) fun id => ?_
    exact preserves_bind (ih fun t mem => names t (List.mem_cons_of_mem _ mem)) fun ids =>
      preserves_pure (id :: ids)

theorem named_logUnknown (scene : Scene) (id : String) :
    Preserves (Named N old) (logUnknown scene id) :=
  fun _ h => ⟨h.custom, h.rich, h.kept⟩

theorem named_holdContent (supplied : Assoc (List NodeId)) (name : String) (slot : NodeId) :
    Preserves (Named N old) (holdContent supplied name slot) := by
  have root : ∀ n, Content.root.customName? = some n → N n := fun n h => by cases h
  have place : ∀ (holder : NodeId) (ids : List NodeId), Preserves (Named N old)
      (modifyArena fun a => ids.foldl (·.append holder ·) a) := fun holder ids =>
    named_modifyArena fun a j => congrArg Content.customName?
      (a.content_foldl (fun a x j => a.content_append holder x j) ids j)
  refine preserves_bind preserves_get fun _ => preserves_bind (named_alloc root) fun holder => ?_
  dsimp only
  split
  · exact preserves_bind (preserves_pure _) fun ids => preserves_bind (place holder ids) fun _ =>
      preserves_pure holder
  · exact preserves_bind (named_takeChildren slot) fun ids =>
      preserves_bind (place holder ids) fun _ => preserves_pure holder

theorem named_modifyElement {f : Element → Element} (same : ∀ e, (f e).name = e.name)
    (id : NodeId) : Preserves (Named N old) (modifyArena (·.modifyElement id f)) :=
  named_modifyArena fun a => a.customName?_modifyElement same id

theorem named_bindRefs (c : Component) (context : String) (o : Opened) :
    Preserves (Named N old) (bindRefs c context o) := by
  have captured : Preserves (Named N old) (captureRefs o.sites o.client.isSome) := by
    refine preserves_foldlM (fun refs node => ?_) _ _
    refine preserves_bind preserves_get fun _ => preserves_bind
      (named_modifyElement (f := (·.eraseAttr "ref")) (fun _ => rfl) node) fun _ => ?_
    split
    · exact preserves_pure refs
    · split
      · exact preserves_pure refs
      · refine preserves_bind preserves_get fun t => preserves_bind ?_ fun _ => preserves_pure _
        intro s h
        have set := h.same_arena (s.arena.customName?_modifyElement
          (f := (·.setAttr refAttribute (toString t.nextRef))) (fun _ => rfl) node)
        exact ⟨set.custom, set.rich, set.kept⟩
  refine preserves_bind captured fun refs => ?_
  split
  · exact preserves_bind (fun _ h => ⟨h.custom, h.rich, h.kept⟩) fun _ => preserves_pure refs
  · exact preserves_pure refs

theorem named_mergeHost (host : NodeId) (values : Values) :
    Preserves (Named N old) (mergeHost host values) := by
  intro s h
  rw [mergeHost, run_get_bind]
  split
  · exact h
  · exact ⟨h.custom, fun e mem => h.rich e (List.mem_filter.mp mem).1, h.kept⟩

theorem named_partitionSlots (host : NodeId) : Preserves (Named N old) (partitionSlots host) := by
  refine preserves_bind (named_takeChildren host) fun ids =>
    preserves_foldlM (fun slots id => ?_) _ _
  exact preserves_bind preserves_get fun _ => preserves_bind
    (named_modifyElement (f := (·.eraseAttr "slot")) (fun _ => rfl) id) fun _ => preserves_pure _

theorem named_receive (scene : Scene) (host : Option NodeId) :
    Preserves (Named N old) (receive scene host) := by
  cases host with
  | none => exact preserves_pure _
  | some host =>
    exact preserves_bind (named_mergeHost host _) fun _ =>
      preserves_bind (named_partitionSlots host) fun _ => preserves_pure _

theorem named_compute (scene : Scene) (c : Component) (context : String) (values : Values) :
    Preserves (Named N old) (compute scene c context values) := by
  rw [compute]
  split
  · exact preserves_pure none
  · refine preserves_map (preserves_bind preserves_get fun s => ?_)
    split
    · exact preserves_pure _
    · refine preserves_bind (fun _ h => ⟨h.custom, h.rich, h.kept⟩) fun _ => ?_
      split
      · exact preserves_throw _
      · exact preserves_bind (fun _ h => ⟨h.custom, h.rich, h.kept⟩) fun _ => preserves_pure _

theorem mem_of_lookup {α : Type} {node : NodeId} {a : α} {entries : List (NodeId × α)}
    (found : entries.lookup node = some a) : (node, a) ∈ entries := by
  obtain ⟨before, after, rfl, -⟩ := List.lookup_eq_some_iff.mp found
  simp

theorem within_richValue? {values : Values} {tokens : List Token} {text : String} {v : Value}
    (names : values.Within N) (found : richValue? values tokens text = some v) : v.Within N := by
  unfold richValue? at found
  split at found
  · split at found
    · exact Values.within_get? names (Option.filter_eq_some_iff.mp found).1
    · cases found
  · cases found

theorem within_putRich {node : NodeId} {name : String} {v : Value} {rich : List (NodeId × Values)}
    (own : v.Within N) (names : ∀ e ∈ rich, Values.Within N e.2) :
    ∀ e ∈ putRich node name v rich, Values.Within N e.2 := by
  intro e mem
  rw [putRich] at mem
  split at mem
  · rcases List.mem_append.mp mem with mem | mem
    · exact names e mem
    · rw [List.mem_singleton] at mem
      rw [mem]
      exact Values.within_put own fun _ none => absurd none List.not_mem_nil
  · next old found =>
    obtain ⟨⟨n, vs⟩, stands, rfl⟩ := List.mem_map.mp mem
    dsimp only
    split
    · exact Values.within_put own (names _ (mem_of_lookup found))
    · exact names _ stands

theorem named_substituteAttribute {values : Values} (names : values.Within N)
    (site : AttributeSite) : Preserves (Named N old) (substituteAttribute values site) := by
  have set : ∀ text, Preserves (Named N old)
      (modifyArena (·.modifyElement site.node (·.setAttr site.name text))) := fun text =>
    named_modifyElement (f := (·.setAttr site.name text)) (fun _ => rfl) site.node
  refine preserves_bind preserves_get fun s => ?_
  dsimp only
  split
  · exact preserves_pure ()
  · split
    · exact preserves_pure ()
    · split
      · split
        · next v found =>
          refine preserves_bind (fun s h => ?_) fun _ => set _
          exact ⟨h.custom, within_putRich (within_richValue? names found) h.rich, h.kept⟩
        · exact set _
      · exact set _

/-! ### The values of an instance -/

theorem within_putHostValue {values : Values} {e : String × Value} (h : values.Within N)
    (own : e.2.Within N) : (putHostValue values e).Within N := by
  rw [putHostValue]
  split
  · exact Values.within_put own (Values.within_put own h)
  · exact Values.within_put own h

theorem within_hostValues (e : Element) {rich : Values} (h : rich.Within N) :
    (hostValues e rich).Within N := by
  refine Values.within_append (fun entry mem => ?_) h
  obtain ⟨a, -, rfl⟩ := List.mem_map.mp mem
  intro n name
  simp [Value.names] at name

theorem within_mergeHost {host : NodeId} {values out : Values} {s' : Expansion}
    (names : values.Within N) (h : Named N old s)
    (run : (mergeHost host values).run s = .ok out s') : out.Within N := by
  rw [mergeHost, run_get_bind] at run
  split at run
  · injection run with same
    rwa [← same]
  · injection run with same
    rw [← same]
    refine Values.within_foldl (fun _ _ => within_putHostValue) names (within_hostValues _ ?_)
    cases found : s.rich.lookup host with
    | none => exact fun _ mem => by cases mem
    | some rich => exact h.rich _ (mem_of_lookup found)

theorem within_receive {scene : Scene} {host : Option NodeId} {values : Values}
    {supplied : Assoc (List NodeId)} {s' : Expansion} (document : scene.document.Within N)
    (h : Named N old s) (run : (receive scene host).run s = .ok (values, supplied) s') :
    values.Within N := by
  cases host with
  | none =>
    injection run with same
    rwa [← (Prod.mk.inj same).1]
  | some host =>
    obtain ⟨merged, t, own, run⟩ := eq_ok_of_bind run
    obtain ⟨slots, t', -, run⟩ := eq_ok_of_bind run
    injection run with same
    rw [← (Prod.mk.inj same).1]
    exact within_mergeHost document h own

/-- The values of an instance are of the class if those that its script gives are. -/
theorem within_openInstance {scene : Scene} {c : Component} {context : String}
    {host : Option NodeId} {extra : Values} {o : Opened} {s' : Expansion}
    (document : scene.document.Within N) (extras : extra.Within N)
    (given : ∀ d, o.given = some d → d.values.Within N) (h : Named N old s)
    (opened : (openInstance scene c context host extra).run s = .ok o s') :
    o.values.Within N := by
  obtain ⟨values, s₁, s₂, received, own, -⟩ := openInstance_ok opened
  have names : o.own.Within N := by
    rw [own]
    exact Values.within_putAll (within_receive document h received) extras
  rw [Opened.values]
  split
  · exact names
  · next d found => exact Values.within_putAll names (given d found)

theorem named_openInstance {scene : Scene} {c : Component} {context : String}
    {host : Option NodeId} {extra : Values} {o : Opened} {s' : Expansion}
    (document : scene.document.Within N) (extras : extra.Within N)
    (uses : ∀ n ∈ c.document.uses, N n)
    (given : ∀ d, o.given = some d → d.values.Within N) (h : Named N old s)
    (opened : (openInstance scene c context host extra).run s = .ok o s') : Named N old s' := by
  have names := within_openInstance document extras given h opened
  obtain ⟨values, s₁, s₂, received, -, -, -, computed, filled⟩ := openInstance_ok opened
  have copied : Named N old { s₁ with arena := (c.instantiate s₁.arena).2.2 } :=
    ((named_receive scene host).of_ok h received).graft fun content mem n name =>
      uses n (Document.mem_uses.mpr ⟨content, mem, name⟩)
  exact (preserves_forM (named_substituteAttribute names) _).of_ok
    ((named_compute scene c context o.own).of_ok copied computed) filled

/-- An instance that is refused has its nodes but no values. -/
theorem named_of_refused {scene : Scene} {c : Component} {context : String}
    {host : Option NodeId} {extra : Values} {e : CompileError} {s' : Expansion}
    (uses : ∀ n ∈ c.document.uses, N n) (h : Named N old s)
    (failed : (openInstance scene c context host extra).run s = .error e s') :
    Named N old s' := by
  obtain ⟨values, supplied, s₁, received, failed⟩ := openInstance_error failed
  have copied : Named N old { s₁ with arena := (c.instantiate s₁.arena).2.2 } :=
    ((named_receive scene host).of_ok h received).graft fun content mem n name =>
      uses n (Document.mem_uses.mpr ⟨content, mem, name⟩)
  exact (named_compute scene c context _).of_error copied failed

end

/-! ### Runs stay within a closed class of names -/

/-- What a call is given names the class alone. -/
def Call.Within (N : String → Prop) (s : Expansion) : Call → Prop
  | .create _ id _ _ extra => N id ∧ extra.Within N
  | .texts _ vs .. | .text _ vs .. => vs.Within N
  | .pieces _ _ _ ps => ∀ v, .value v ∈ ps → v.Within N
  | .value _ _ v => v.Within N
  | .values _ _ _ items => ∀ v ∈ items, v.Within N
  | .hosts _ _ hs => ∀ h ∈ hs, (s.arena.customName? h.1).isSome
  | .host _ _ h _ => (s.arena.customName? h).isSome
  | .within .. | .slots .. => True

theorem customName?_of_mem_hosts {a : Arena} {scope : NodeId} {context : String}
    {h : NodeId × String} (mem : h ∈ hosts a scope context) : (a.customName? h.1).isSome := by
  obtain ⟨id, -, found⟩ := List.mem_filterMap.mp mem
  split at found
  · cases found
  · next e element =>
    dsimp only at found
    split at found
    · next custom =>
      simp only [Bool.and_eq_true] at custom
      cases found
      have name := (a.customName?_eq_some (n := e.name)).mpr ⟨e, element, custom.1.2, rfl⟩
      rw [name]
      rfl
    · cases found

theorem within_pieces {N : String → Prop} {values : Values} (names : values.Within N)
    (tokens : List Token) (text : List Char) {v : Value}
    (mem : .value v ∈ pieces values tokens text) : v.Within N := by
  induction tokens generalizing text with
  | nil => simp [pieces] at mem
  | cons t ts ih =>
    rw [pieces] at mem
    split at mem
    · exact ih _ mem
    · rcases List.mem_cons.mp mem with mem | mem
      · cases mem
      · rcases List.mem_cons.mp mem with mem | mem
        · split at mem
          · next found =>
            cases mem
            exact Values.within_get? names found
          · cases mem
        · exact ih _ mem

/-- Two scenes that are alike for the names of a class. -/
structure Agrees (N : String → Prop) (scene scene' : Scene) : Prop where
  path : scene'.path = scene.path
  document : scene'.document = scene.document
  component : ∀ n, N n → scene'.library.component? n = scene.library.component? n
  answer : ∀ n c, N n → scene.library.component? n = some c → ∀ script, c.script = some script →
    ∀ values, answer scene' c script values = answer scene c script values

theorem Agrees.openInstance {N : String → Prop} {scene scene' : Scene}
    (agree : Agrees N scene scene') {id : String} {c : Component} (name : N id)
    (known : scene.library.component? id = some c) (context : String) (host : Option NodeId)
    (extra : Values) :
    openInstance scene' c context host extra = openInstance scene c context host extra := by
  have received : receive scene' host = receive scene host := by
    rw [receive.eq_def, receive.eq_def, agree.document]
  have computed : compute scene' c context = compute scene c context := by
    funext values
    rw [compute, compute]
    split
    · rfl
    · next script found =>
      rw [evaluate, evaluate, agree.answer id c name known script found values]
  rw [Expansion.openInstance, Expansion.openInstance, received, computed]

theorem Agrees.known {N : String → Prop} {scene scene' : Scene} (agree : Agrees N scene scene')
    {id : String} (name : N id) {c : Option Component}
    (known : scene.library.component? id = c) : scene'.library.component? id = c := by
  rw [agree.component id name, known]

theorem Agrees.opens {N : String → Prop} {scene scene' : Scene} (agree : Agrees N scene scene')
    {id : String} {c : Component} (name : N id) (known : scene.library.component? id = some c)
    {context : String} {host : Option NodeId} {extra : Values} {s : Expansion}
    {r : Outcome Opened} (opened : (Expansion.openInstance scene c context host extra).run s = r) :
    (Expansion.openInstance scene' c context host extra).run s = r := by
  rw [agree.openInstance name known, opened]

theorem Agrees.logUnknown {N : String → Prop} {scene scene' : Scene}
    (agree : Agrees N scene scene') (id : String) : logUnknown scene' id = logUnknown scene id := by
  rw [Expansion.logUnknown, Expansion.logUnknown, agree.path]

theorem Named.self {N : String → Prop} {old : Arena} {s : Expansion} (h : Named N old s) :
    Named N s.arena s := ⟨h.custom, h.rich, id⟩

theorem Named.host {N : String → Prop} {old : Arena} {s : Expansion} (h : Named N old s)
    {host : NodeId} {e : Element} (custom : (s.arena.customName? host).isSome)
    (found : s.arena.element? host = some e) : N e.name := by
  obtain ⟨n, name⟩ := Option.isSome_iff_exists.mp custom
  obtain ⟨e', found', -, rfl⟩ := (s.arena.customName?_eq_some).mp name
  rw [found] at found'
  cases found'
  exact h.custom name

theorem within_component {N : String → Prop} {id : String} {values : Values}
    (h : (Value.component id values).Within N) : N id ∧ values.Within N := by
  rw [Value.Within, Value.names] at h
  exact ⟨h id List.mem_cons_self, fun e mem n name =>
    h n (List.mem_cons_of_mem _ (Value.mem_namesOfEntries.mpr ⟨e, mem, name⟩))⟩

/-- The scripts of instances in the class give values in the class. -/
def GivenWithin (N : String → Prop) (made : List Instance) : Prop :=
  ∀ i ∈ made, N i.name → ∀ d, i.given = some d → d.values.Within N

/-- What a run does when all that it can name is in a class: its state is of the class, it makes
instances of the class, and a scene that is alike for the class runs in the same way. -/
structure Confined (N : String → Prop) (scene : Scene) (call : Call) (s : Expansion)
    (trace : List Instance) (r : Outcome call.Out) : Prop where
  named : ∀ old, Named N old s → Named N old (Outcome.state r)
  made : ∀ i ∈ trace, N i.name
  run : Run scene call s trace r

section
variable {N : String → Prop} {scene scene' : Scene}

theorem GivenWithin.left {made more : List Instance} (h : GivenWithin N (made ++ more)) :
    GivenWithin N made := fun i mem => h i (List.mem_append_left _ mem)

theorem GivenWithin.right {made more : List Instance} (h : GivenWithin N (made ++ more)) :
    GivenWithin N more := fun i mem => h i (List.mem_append_right _ mem)

theorem GivenWithin.tail {i : Instance} {made : List Instance} (h : GivenWithin N (i :: made)) :
    GivenWithin N made := fun j mem => h j (List.mem_cons_of_mem _ mem)

theorem confined_of_run
    (closed : ∀ n c, N n → scene.library.component? n = some c → ∀ m ∈ c.document.uses, N m)
    (document : scene.document.Within N) (agree : Agrees N scene scene')
    {call : Call} {s : Expansion} {trace : List Instance} {r : Outcome call.Out}
    (run : Run scene call s trace r) (given : GivenWithin N trace) (start : Named N s.arena s)
    (own : call.Within N s) : Confined N scene' call s trace r := by
  induction run with
  | unknown absent logged =>
    obtain ⟨name, extras⟩ := own
    refine ⟨fun old h => (named_logUnknown scene _).of_ok h logged, by simp, ?_⟩
    exact .unknown (agree.known name absent) (by rw [agree.logUnknown, logged])
  | tooDeep known =>
    obtain ⟨name, extras⟩ := own
    refine ⟨fun old h => h, by simp, ?_⟩
    rw [← agree.path]
    exact .tooDeep (agree.known name known)
  | refused known failed =>
    obtain ⟨name, extras⟩ := own
    refine ⟨fun old h => named_of_refused (closed _ _ name known) h failed, by simp, ?_⟩
    exact .refused (agree.known name known) (agree.opens name known failed)
  | textsStop known opened texts ih =>
    obtain ⟨name, extras⟩ := own
    have head := given _ List.mem_cons_self name
    have opening := fun old (h : Named N old _) => named_openInstance document extras
      (closed _ _ name known) head h opened
    have inner := ih given.tail (opening _ start).self
      (within_openInstance document extras head start opened)
    refine ⟨fun old h => inner.named old (opening old h),
      List.forall_mem_cons.mpr ⟨name, inner.made⟩, ?_⟩
    exact .textsStop (agree.known name known) (agree.opens name known opened) inner.run
  | withinStop known opened texts bound within ih ihw =>
    obtain ⟨name, extras⟩ := own
    have head := given _ List.mem_cons_self name
    have opening := fun old (h : Named N old _) => named_openInstance document extras
      (closed _ _ name known) head h opened
    have filled := ih given.tail.left (opening _ start).self
      (within_openInstance document extras head start opened)
    have binding := fun old h =>
      (named_bindRefs _ _ _).of_ok (filled.named old (opening old h)) bound
    have nested := ihw given.tail.right (binding _ start).self trivial
    refine ⟨fun old h => nested.named old (binding old h),
      List.forall_mem_cons.mpr ⟨name, List.forall_mem_append.mpr ⟨filled.made, nested.made⟩⟩, ?_⟩
    exact .withinStop (agree.known name known) (agree.opens name known opened) filled.run bound
      nested.run
  | created known opened texts bound within slots ih ihw ihs =>
    obtain ⟨name, extras⟩ := own
    have head := given _ List.mem_cons_self name
    have opening := fun old (h : Named N old _) => named_openInstance document extras
      (closed _ _ name known) head h opened
    have filled := ih given.tail.left (opening _ start).self
      (within_openInstance document extras head start opened)
    have binding := fun old h =>
      (named_bindRefs _ _ _).of_ok (filled.named old (opening old h)) bound
    have nested := ihw given.tail.right.left (binding _ start).self trivial
    have placed := ihs given.tail.right.right (nested.named _ (binding _ start)).self trivial
    refine ⟨fun old h => ?_,
      List.forall_mem_cons.mpr ⟨name, List.forall_mem_append.mpr
        ⟨filled.made, List.forall_mem_append.mpr ⟨nested.made, placed.made⟩⟩⟩, ?_⟩
    · rw [Outcome.state_map]
      exact placed.named old (nested.named old (binding old h))
    · exact .created (agree.known name known) (agree.opens name known opened) filled.run bound
        nested.run placed.run
  | textsNil => exact ⟨fun _ h => h, by simp, .textsNil⟩
  | textsHeadStop head ih =>
    have inner := ih given start own
    exact ⟨inner.named, inner.made, .textsHeadStop inner.run⟩
  | textsCons head tail ih iht =>
    have first := ih given.left start own
    have second := iht given.right (first.named _ start).self own
    exact ⟨fun old h => second.named old (first.named old h),
      List.forall_mem_append.mpr ⟨first.made, second.made⟩, .textsCons first.run second.run⟩
  | noText absent => exact ⟨fun _ h => h, by simp, .noText absent⟩
  | plainText found plain written =>
    refine ⟨fun old h => ?_, by simp, .plainText found plain written⟩
    cases written
    exact h.same_arena (Arena.customName?_setContent _ (Arena.customName?_of_text? _ found).symm)
  | richTextStop found rich placed ih =>
    have inner := ih given start fun v mem => within_pieces own _ _ mem
    exact ⟨inner.named, inner.made, .richTextStop found rich inner.run⟩
  | richText found rich placed replaced ih =>
    have inner := ih given start fun v mem => within_pieces own _ _ mem
    exact ⟨fun old h => (named_replaceWith _ _).of_ok (inner.named old h) replaced, inner.made,
      .richText found rich inner.run replaced⟩
  | piecesNil => exact ⟨fun _ h => h, by simp, .piecesNil⟩
  | piecesEmpty empty tail ih =>
    have inner := ih given start fun v mem => own v (List.mem_cons_of_mem _ mem)
    exact ⟨inner.named, inner.made, .piecesEmpty empty inner.run⟩
  | piecesLiteral more added tail ih =>
    have adding := fun old (h : Named N old _) => (named_allocText _).of_ok h added
    have inner := ih given (adding _ start).self fun v mem => own v (List.mem_cons_of_mem _ mem)
    refine ⟨fun old h => ?_, inner.made, .piecesLiteral more added inner.run⟩
    rw [Outcome.state_map]
    exact inner.named old (adding old h)
  | piecesValueStop head ih =>
    have inner := ih given start (own _ List.mem_cons_self)
    exact ⟨inner.named, inner.made, .piecesValueStop inner.run⟩
  | piecesValue head tail ih iht =>
    have first := ih given.left start (own _ List.mem_cons_self)
    have second := iht given.right (first.named _ start).self fun v mem =>
      own v (List.mem_cons_of_mem _ mem)
    refine ⟨fun old h => ?_, List.forall_mem_append.mpr ⟨first.made, second.made⟩,
      .piecesValue first.run second.run⟩
    rw [Outcome.state_map]
    exact second.named old (first.named old h)
  | valueText added =>
    exact ⟨fun old h => (named_allocText _).of_ok h added, by simp, .valueText added⟩
  | valueMarkupStop bad => exact ⟨fun _ h => h, by simp, .valueMarkupStop bad⟩
  | valueMarkup read grafted =>
    refine ⟨fun old h => (named_graftAll fun t mem c inside n name => ?_).of_ok h grafted, by simp,
      .valueMarkup read grafted⟩
    refine own n ?_
    rw [Value.names, read]
    refine Document.mem_uses.mpr ⟨c, ?_, name⟩
    exact Tree.mem_contents_of_mem_children mem inside
  | valueComponentStop body ih =>
    have inner := ih given start (within_component own)
    exact ⟨inner.named, inner.made, .valueComponentStop inner.run⟩
  | valueComponent body taken ih =>
    have inner := ih given start (within_component own)
    exact ⟨fun old h => (named_takeChildren _).of_ok (inner.named old h) taken, inner.made,
      .valueComponent inner.run taken⟩
  | valueUnknown body added ih =>
    have inner := ih given start (within_component own)
    refine ⟨fun old h => (named_alloc fun n name => ?_).of_ok (inner.named old h) added, inner.made,
      .valueUnknown inner.run added⟩
    rw [Content.customName?_element] at name
    split at name
    · cases name
      exact (within_component own).1
    · cases name
  | valueList all ih =>
    have inner := ih given start fun v mem n name =>
      own n (by rw [Value.names]; exact Value.mem_namesOfItems.mpr ⟨v, mem, name⟩)
    exact ⟨inner.named, inner.made, .valueList inner.run⟩
  | valuesNil => exact ⟨fun _ h => h, by simp, .valuesNil⟩
  | valuesHeadStop head ih =>
    have inner := ih given start (own _ List.mem_cons_self)
    exact ⟨inner.named, inner.made, .valuesHeadStop inner.run⟩
  | valuesCons head tail ih iht =>
    have first := ih given.left start (own _ List.mem_cons_self)
    have second := iht given.right (first.named _ start).self fun v mem =>
      own v (List.mem_cons_of_mem _ mem)
    refine ⟨fun old h => ?_, List.forall_mem_append.mpr ⟨first.made, second.made⟩,
      .valuesCons first.run second.run⟩
    rw [Outcome.state_map]
    exact second.named old (first.named old h)
  | within all ih =>
    have inner := ih given start fun h mem => customName?_of_mem_hosts mem
    exact ⟨inner.named, inner.made, .within inner.run⟩
  | hostsNil => exact ⟨fun _ h => h, by simp, .hostsNil⟩
  | hostsHeadStop head ih =>
    have inner := ih given start (own _ List.mem_cons_self)
    exact ⟨inner.named, inner.made, .hostsHeadStop inner.run⟩
  | hostsCons head tail ih iht =>
    have first := ih given.left start (own _ List.mem_cons_self)
    -- hosts that are still to come are custom elements of the state before
    have after := first.named _ start
    have second := iht given.right after.self fun h mem => by
      obtain ⟨n, name⟩ := Option.isSome_iff_exists.mp (own h (List.mem_cons_of_mem _ mem))
      exact Option.isSome_iff_exists.mpr ⟨n, after.kept name⟩
    exact ⟨fun old h => second.named old (first.named old h),
      List.forall_mem_append.mpr ⟨first.made, second.made⟩, .hostsCons first.run second.run⟩
  | noHost absent => exact ⟨fun _ h => h, by simp, .noHost absent⟩
  | hostStop found body ih =>
    have inner := ih given start ⟨start.host own found, fun _ mem => by cases mem⟩
    exact ⟨inner.named, inner.made, .hostStop found inner.run⟩
  | hostReplaced found body taken replaced ih =>
    have inner := ih given start ⟨start.host own found, fun _ mem => by cases mem⟩
    refine ⟨fun old h => ?_, inner.made, .hostReplaced found inner.run taken replaced⟩
    exact (named_replaceWith _ _).of_ok
      ((named_takeChildren _).of_ok (inner.named old h) taken) replaced
  | hostBottom found body ih =>
    have inner := ih given start ⟨start.host own found, fun _ mem => by cases mem⟩
    exact ⟨inner.named, inner.made, .hostBottom found inner.run⟩
  | hostKept found body inside ih ihi =>
    have first := ih given.left start ⟨start.host own found, fun _ mem => by cases mem⟩
    have second := ihi given.right (first.named _ start).self trivial
    exact ⟨fun old h => second.named old (first.named old h),
      List.forall_mem_append.mpr ⟨first.made, second.made⟩, .hostKept found first.run second.run⟩
  | slotsNil => exact ⟨fun _ h => h, by simp, .slotsNil⟩
  | slotsGone outside tail ih =>
    have inner := ih given start trivial
    exact ⟨inner.named, inner.made, .slotsGone outside inner.run⟩
  | slotsStop inside held content ih =>
    have holding := fun old (h : Named N old _) => (named_holdContent _ _ _).of_ok h held
    have inner := ih given (holding _ start).self trivial
    exact ⟨fun old h => inner.named old (holding old h), inner.made,
      .slotsStop inside held inner.run⟩
  | slotsCons inside held content taken replaced tail ih iht =>
    have holding := fun old (h : Named N old _) => (named_holdContent _ _ _).of_ok h held
    have first := ih given.left (holding _ start).self trivial
    have placing := fun old h => (named_replaceWith _ _).of_ok
      ((named_takeChildren _).of_ok (first.named old (holding old h)) taken) replaced
    have second := iht given.right (placing _ start).self trivial
    exact ⟨fun old h => second.named old (placing old h),
      List.forall_mem_append.mpr ⟨first.made, second.made⟩,
      .slotsCons inside held first.run taken replaced second.run⟩

end

/-! ### Reached names -/

/-- A name that a page uses, that a component of a reached name uses, or that stands in a value
which a script has given to an instance of a reached name. -/
inductive Reaches (scene : Scene) (page : Page) (trace : List Instance) : String → Prop where
  | page {n} (used : n ∈ page.document.uses) : Reaches scene page trace n
  | component {n c m} (reached : Reaches scene page trace n)
      (known : scene.library.component? n = some c) (used : m ∈ c.document.uses) :
      Reaches scene page trace m
  | value {i d e n} (made : i ∈ trace) (reached : Reaches scene page trace i.name)
      (given : i.given = some d) (value : e ∈ d.values) (named : n ∈ e.2.names) :
      Reaches scene page trace n

/-- A name that the page or a component of a reached name uses. -/
def InUsageGraph (scene : Scene) (page : Page) (n : String) : Prop := Reaches scene page [] n

theorem named_ofPage {N : String → Prop} {page : Page} (uses : ∀ n ∈ page.document.uses, N n) :
    Named N (ofPage page).arena (ofPage page) := by
  refine .start (fun {id n} found => ?_) (fun e mem => by cases mem)
  have laid : (ofPage page).arena =
      ⟨(⟨#[]⟩ : Arena).nodes ++ (page.document.tree.layout none 0).toArray⟩ := by
    simp [ofPage, Arena.ofTree]
  rw [laid] at found
  rcases Arena.customName?_grow _ found with none | ⟨c, mem, name⟩
  · cases none
  · rw [Tree.content_layout] at mem
    exact uses n (Document.mem_uses.mpr ⟨c, mem, name⟩)

/-- A page and the scripts of its instances name all that it can get instances of. -/
theorem confined_of_expands {N : String → Prop} {scene scene' : Scene} {page : Page}
    {trace : List Instance} {r : Outcome Unit} (uses : ∀ n ∈ page.document.uses, N n)
    (closed : ∀ n c, N n → scene.library.component? n = some c → ∀ m ∈ c.document.uses, N m)
    (document : scene.document.Within N) (given : GivenWithin N trace)
    (agree : Agrees N scene scene') (run : Expands scene page trace r) :
    (∀ i ∈ trace, N i.name) ∧ Expands scene' page trace r := by
  have confined := confined_of_run closed document agree run given (named_ofPage uses) trivial
  refine ⟨confined.made, ?_⟩
  rw [Expands, agree.path]
  exact confined.run

theorem given_eq_none {scene : Scene} {c : Component} {context : String} {host : Option NodeId}
    {extra : Values} {o : Opened} {s s' : Expansion} (unscripted : c.script = none)
    (opened : (openInstance scene c context host extra).run s = .ok o s') : o.given = none := by
  obtain ⟨values, s₁, s₂, -, -, -, -, computed, -⟩ := openInstance_ok opened
  rw [compute, unscripted] at computed
  injection computed with given
  exact given.symm

/-- An instance is one of a component that has been looked up. -/
structure LookedUp (scene : Scene) (i : Instance) : Prop where
  known : scene.library.component? i.name = some i.component
  given : i.component.script = none → i.given = none

theorem lookedUp_of_run {scene : Scene} {call : Call} {s : Expansion} {trace : List Instance}
    {r : Outcome call.Out} (run : Run scene call s trace r) : ∀ i ∈ trace, LookedUp scene i := by
  induction run with
  | textsStop known opened _ ih =>
    exact List.forall_mem_cons.mpr
      ⟨⟨known, fun unscripted => given_eq_none unscripted opened⟩, ih⟩
  | withinStop known opened _ _ _ ih ihw =>
    exact List.forall_mem_cons.mpr ⟨⟨known, fun unscripted => given_eq_none unscripted opened⟩,
      List.forall_mem_append.mpr ⟨ih, ihw⟩⟩
  | created known opened _ _ _ _ ih ihw ihs =>
    exact List.forall_mem_cons.mpr ⟨⟨known, fun unscripted => given_eq_none unscripted opened⟩,
      List.forall_mem_append.mpr ⟨ih, List.forall_mem_append.mpr ⟨ihw, ihs⟩⟩⟩
  | textsHeadStop _ ih | richTextStop _ _ _ ih | richText _ _ _ _ ih | piecesEmpty _ _ ih
  | piecesLiteral _ _ _ ih | piecesValueStop _ ih | valueComponentStop _ ih
  | valueComponent _ _ ih | valueUnknown _ _ ih | valueList _ ih | valuesHeadStop _ ih
  | within _ ih | hostsHeadStop _ ih | hostStop _ _ ih | hostReplaced _ _ _ _ ih
  | hostBottom _ _ ih | slotsGone _ _ ih | slotsStop _ _ _ ih => exact ih
  | textsCons _ _ ih iht | piecesValue _ _ ih iht | valuesCons _ _ ih iht | hostsCons _ _ ih iht
  | hostKept _ _ _ ih iht | slotsCons _ _ _ _ _ _ ih iht =>
    exact List.forall_mem_append.mpr ⟨ih, iht⟩
  | unknown | tooDeep | refused | textsNil | noText | plainText | piecesNil | valueText
  | valueMarkupStop | valueMarkup | valuesNil | hostsNil | noHost | slotsNil =>
    exact fun i mem => by cases mem

/-- Without scripts, a page depends on the components of its usage graph alone. -/
theorem expandPage_congr {scene scene' : Scene} {page : Page}
    (path : scene'.path = scene.path) (document : scene'.document = scene.document)
    (declared : scene.document = Values.ofDocument page.values)
    (unscripted : ∀ n c, InUsageGraph scene page n → scene.library.component? n = some c →
      c.script = none)
    (same : ∀ n, InUsageGraph scene page n →
      scene'.library.component? n = scene.library.component? n) :
    (expandPage scene').run (ofPage page) = (expandPage scene).run (ofPage page) := by
  obtain ⟨trace, run⟩ := (expandPage_eq_iff scene page _).mp rfl
  refine (expandPage_eq_iff scene' page _).mpr ⟨trace, ?_⟩
  refine (confined_of_expands (N := InUsageGraph scene page) (fun n used => Reaches.page used)
    (fun n c reached known m used => Reaches.component reached known used) ?_ ?_ ?_ run).2
  · rw [declared]
    exact Values.within_ofDocument page.values
  · intro i mem reached d given
    have looked := lookedUp_of_run run i mem
    rw [looked.given (unscripted i.name i.component reached looked.known)] at given
    cases given
  · refine ⟨path, document, same, fun n c reached known script found => ?_⟩
    rw [unscripted n c reached known] at found
    cases found

/-- A page expands alike with libraries that agree on the names that it reaches. -/
theorem expandPage_ofPage_congr {library library' : Library} (sandbox sandbox' : Sandbox)
    (path : String) {page : Page}
    (unscripted : ∀ n c, InUsageGraph (.ofPage library sandbox path page) page n →
      library.component? n = some c → c.script = none)
    (same : ∀ n, InUsageGraph (.ofPage library sandbox path page) page n →
      library'.component? n = library.component? n) :
    (expandPage (.ofPage library' sandbox' path page)).run (ofPage page) =
      (expandPage (.ofPage library sandbox path page)).run (ofPage page) :=
  expandPage_congr rfl rfl rfl unscripted same

/-! ### A name that a script carries -/

def entry : Component where
  id := "x-item"
  path := "item.html"
  dir := ""
  document := ⟨.node .root [], {}⟩
  script := none

end Expansion
end Stencil
