import Mathlib.Logic.Relation
import Stencil.Proofs.Expansion.Rewritten
import Stencil.Proofs.Expansion.Unbounded
/-!
Components that contain themselves. An instance of one always leads to another instance, so a page
that one is started in cannot be expanded; that the attempt ends nevertheless is due to the limit on
how deep instances nest.
-/
namespace Stencil
open Markup

/-- In a component stands an element of a name, in no slot and in no other custom element. -/
def Library.Contains (library : Library) (id name : String) : Prop :=
  ∃ c, library.component? id = some c ∧ name ∈ c.document.tree.outerNames

/-- The component contains itself, directly or through others. -/
def Library.Looping (library : Library) (id : String) : Prop :=
  Relation.TransGen library.Contains id id

namespace Library
variable {library : Library} {id : String}

theorem Looping.known (looping : library.Looping id) : ∃ c, library.component? id = some c := by
  obtain ⟨_, ⟨c, known, -⟩, -⟩ := Relation.TransGen.head'_iff.mp looping
  exact ⟨c, known⟩

/-- The loop goes on in some element of the component. -/
theorem Looping.next (looping : library.Looping id) :
    ∃ name, library.Contains id name ∧ library.Looping name := by
  obtain ⟨name, first, rest⟩ := Relation.TransGen.head'_iff.mp looping
  exact ⟨name, first, Relation.TransGen.tail' rest first⟩

end Library

namespace Expansion
open Branch

section
variable {scene : Scene} {s s' : Expansion} {p : Option NodeId} {b sub : Branch} {subs : List Branch}
  {c : Component} {made : List Instance} {name context : String} {room height : Nat}
  {host : Option NodeId} {out : Option NodeId} {extra : Values}

theorem made_of_create (known : scene.library.component? name = some c)
    (run : Run scene (.create room name context host extra) s made (.ok out s')) :
    out.isSome ∧ ∃ i ∈ made, i.name = name := by
  generalize same : EStateM.Result.ok out s' = r at run
  cases run with
  | unknown absent =>
    rw [absent] at known
    cases known
  | tooDeep | refused | textsStop | withinStop => cases same
  | created _ opened texts bound within slots =>
    obtain ⟨_, -, rfl⟩ := Outcome.eq_ok_of_map same.symm
    exact ⟨rfl, _, List.mem_cons_self, rfl⟩

theorem made_of_host (stands : Stands s p sub)
    (called : sub.stem.content.isCalled name) (known : scene.library.component? name = some c)
    (run : Run scene (.host room height sub.id context) s made (.ok () s')) :
    ∃ i ∈ made, i.name = name := by
  obtain ⟨e, content, rfl⟩ := Content.eq_element_of_isCalled called
  have element : s.arena.element? sub.id = some e := by
    rw [Arena.element?, stands.content, content]
    rfl
  generalize same : (EStateM.Result.ok () s' : Outcome Unit) = r at run
  cases run with
  | noHost absent =>
    rw [absent] at element
    cases element
  | hostStop => cases same
  | hostReplaced found body =>
    obtain rfl := Option.some.inj (found.symm.trans element)
    exact (made_of_create known body).2
  | hostBottom found body =>
    obtain rfl := Option.some.inj (found.symm.trans element)
    cases (made_of_create known body).1
  | hostKept found body =>
    obtain rfl := Option.some.inj (found.symm.trans element)
    cases (made_of_create known body).1

theorem made_of_hosts {hs : List (NodeId × String)}
    (sound : ∀ id c, scene.library.component? id = some c → c.Sound) (tidy : Tidy s)
    (waiting : Waiting s p b subs) (listed : subs.map (·.id) = hs.map (·.1)) (mem : sub ∈ subs)
    (called : sub.stem.content.isCalled name) (known : scene.library.component? name = some c)
    (run : Run scene (.hosts room height hs) s made (.ok () s')) : ∃ i ∈ made, i.name = name := by
  induction hs generalizing s b subs made with
  | nil =>
    rw [List.map_nil, List.map_eq_nil_iff] at listed
    subst listed
    cases mem
  | cons h rest ih =>
    obtain ⟨x, inner⟩ := h
    rw [List.map_cons] at listed
    obtain ⟨first, others, rfl, rfl, left⟩ := List.map_eq_cons_iff.mp listed
    generalize same : (EStateM.Result.ok () s' : Outcome Unit) = r at run
    cases run with
    | hostsHeadStop => cases same
    | hostsCons head tail =>
      subst same
      rcases List.mem_cons.mp mem with rfl | mem
      · have stands := waiting.stands.children.sub_parent waiting.part
        obtain ⟨i, mem, named⟩ := made_of_host stands called known head
        exact ⟨i, List.mem_append_left _ mem, named⟩
      · have leaves : HostLeaves first.id s _ := leaves_of_run sound head tidy _ _ rfl
        obtain ⟨new, turns⟩ := leaves b p first waiting.stands waiting.once waiting.part
          (waiting.hosts first List.mem_cons_self).2 rfl
        obtain ⟨i, mem, named⟩ :=
          ih (tidy_of_run head tidy) (waiting.next turns) left mem tail
        exact ⟨i, List.mem_append_right _ mem, named⟩

/-- An element that stands in no slot and in no other custom element is expanded. -/
theorem made_of_shows (sound : ∀ id c, scene.library.component? id = some c → c.Sound)
    (tidy : Tidy s) (stands : Stands s p b) (once : b.ids.Nodup) (shows : b.Shows name)
    (known : scene.library.component? name = some c)
    (run : Run scene (.within room height b.id context) s made (.ok () s')) :
    ∃ i ∈ made, i.name = name := by
  obtain ⟨sub, front, called⟩ := shows.host
  cases run with
  | within all =>
    exact made_of_hosts sound tidy (waiting_all stands once) (stands.hosts_eq once).symm
      (List.mem_filter.mpr ⟨front, Content.isCustom_of_isCalled called⟩) called known all

/-- What ends well has no instance of a component that contains itself. -/
theorem not_looping_of_run {call : Call} {r : Outcome call.Out}
    (sound : ∀ id c, scene.library.component? id = some c → c.Sound) (run : Run scene call s made r)
    (tidy : Tidy s) :
    ∀ out s', r = .ok out s' → ∀ i ∈ made, ¬ scene.library.Looping i.name := by
  induction run with
  | unknown | textsNil | noText | plainText | piecesNil | valueText | valueMarkup | valuesNil
  | hostsNil | noHost | slotsNil =>
    intro out s' _ i mem
    cases mem
  | tooDeep | refused | textsStop | withinStop | textsHeadStop | richTextStop | piecesValueStop
  | valueMarkupStop | valueComponentStop | valuesHeadStop | hostsHeadStop | hostStop | slotsStop =>
    intro out s' same
    cases same
  | @created _ id _ _ _ _ c o _ _ _ _ _ _ _ _ _ known opened texts bound within slots ih ihw ihs =>
    intro out s' same
    obtain ⟨_, rfl, rfl⟩ := Outcome.eq_ok_of_map same
    have tidy₁ := (tidy_openInstance _ _ _ _ _).of_ok tidy opened
    have tidy₃ := (tidy_bindRefs _ _ _).of_ok (tidy_of_run texts tidy₁) bound
    have inside := ihw tidy₃ _ _ rfl
    simp only [List.forall_mem_cons, List.forall_mem_append]
    refine ⟨fun looping => ?_, ih tidy₁ _ _ rfl, inside, ihs (tidy_of_run within tidy₃) _ _ rfl⟩
    -- the element that the loop goes on in has been expanded
    obtain ⟨name, ⟨c', known', mem⟩, again⟩ := looping.next
    obtain rfl := Option.some.inj (known.symm.trans known')
    obtain ⟨c₁, known₁⟩ := again.known
    obtain ⟨_, _, f, -, id, draft, -⟩ := drafted_received (sound _ _ known) tidy opened
      (leaves_of_run sound texts tidy₁ _ _ rfl) bound
    rw [← id] at within
    obtain ⟨i, here, rfl⟩ :=
      made_of_shows sound tidy₃ draft.stands draft.once (draft.shows name mem) known₁ within
    exact inside i here again
  | textsCons head tail ih iht | hostsCons head tail ih iht | hostKept found head tail ih iht =>
    intro out s' same
    exact List.forall_mem_append.mpr ⟨ih tidy _ _ rfl, iht (tidy_of_run head tidy) _ _ same⟩
  | richText found rich placed replaced ih =>
    intro out s' same
    exact ih tidy _ _ rfl
  | piecesEmpty empty tail ih => exact ih tidy
  | piecesLiteral more added tail ih =>
    intro out s' same
    obtain ⟨_, rfl, -⟩ := Outcome.eq_ok_of_map same
    exact ih ((tidy_alloc _).of_ok tidy added) _ _ rfl
  | piecesValue head tail ih iht | valuesCons head tail ih iht =>
    intro out s' same
    obtain ⟨_, rfl, -⟩ := Outcome.eq_ok_of_map same
    exact List.forall_mem_append.mpr ⟨ih tidy _ _ rfl, iht (tidy_of_run head tidy) _ _ rfl⟩
  | valueComponent body _ ih | valueUnknown body _ ih | hostReplaced _ body _ _ ih
  | hostBottom _ body ih =>
    intro out s' same
    exact ih tidy _ _ rfl
  | valueList all ih | within all ih | slotsGone outside all ih => exact ih tidy
  | slotsCons inside held content taken replaced tail ih iht =>
    intro out s' same
    have tidy₁ := (tidy_holdContent _ _ _).of_ok tidy held
    have tidy₄ := (tidy_replaceWith _ _).of_ok ((tidy_takeChildren _).of_ok
      (tidy_of_run content tidy₁) taken) replaced
    exact List.forall_mem_append.mpr ⟨ih tidy₁ _ _ rfl, iht tidy₄ _ _ same⟩

end

/-! ### Pages -/

/-- The expansion of a page ends, although nothing bounds it but the limit on how deep instances nest:
in a value or a failure, with every instance started below the limit. It fails if the page shows a
component that contains itself, or one is started on the way. -/
theorem expansion_ends {scene : Scene} {page : Page} (files : scene.library.FromFiles) :
    ∃ started,
      Unbounded.Ends (Unbounded.expandPage scene) (ofPage page) started
        ((expandPage scene).run (ofPage page)) ∧
      (∀ i ∈ started, i.1 < maxDepth) ∧
      ∀ name, scene.library.Looping name →
        name ∈ started.map (·.2) ∨ name ∈ Tree.outerNamesAll page.document.tree.children →
        ∃ e s, (expandPage scene).run (ofPage page) = .error e s := by
  obtain ⟨trace, run⟩ := (expandPage_eq_iff scene page _).mp rfl
  obtain ⟨started, ends, shallow, named⟩ := follows_of_expands files.sound run
  refine ⟨started, ends, shallow, fun name looping met => ?_⟩
  cases result : (expandPage scene).run (ofPage page) with
  | error e s => exact ⟨e, s, rfl⟩
  | ok out s =>
    rw [result] at run
    have free := not_looping_of_run files.sound run (tidy_ofPage page) out s rfl
    suffices some_made : ∃ i ∈ trace, i.name = name by
      obtain ⟨i, mem, rfl⟩ := some_made
      exact absurd looping (free i mem)
    rcases met with mem | mem
    · rw [named out s result] at mem
      exact List.mem_map.mp mem
    · obtain ⟨c, known⟩ := looping.known
      have top : (ofTree false Arena.root page.document.tree).id = Arena.root := id_ofTree _ _
      have shows : (ofTree false Arena.root page.document.tree).Shows name := by
        cases tree : page.document.tree with
        | node content ts =>
          rw [tree, Tree.children] at mem
          exact shows_ofTrees _ ts mem
      rw [Expands, ← top] at run
      exact made_of_shows files.sound (tidy_ofPage page) (stands_ofPage page) (nodup_ofTree _) shows
        known run

/-- Contains the other one in a paragraph. -/
def ping : Component where
  id := "x-ping"
  path := "ping.html"
  dir := ""
  document := ⟨.node .root [.node (.element ⟨"p", []⟩) [.node (.element ⟨"x-pong", []⟩) []]],
    { customs := [2] }⟩
  script := none

def pong : Component where
  id := "x-pong"
  path := "pong.html"
  dir := ""
  document := ⟨.node .root [.node (.element ⟨"x-ping", []⟩) []], { customs := [1] }⟩
  script := none

def rallyLibrary : Library where
  component? id := if id = "x-ping" then some ping else if id = "x-pong" then some pong else none
  templates := ["x-ping", "x-pong"]
  pages := []

def rallyPage : Page where
  values := []
  document := ⟨.node .root [.node (.element ⟨"x-ping", []⟩) []], { customs := [1] }⟩

def rallyScene : Scene := .ofPage rallyLibrary failingSandbox "" rallyPage

theorem ping_read : (Component.ofRecord "" [] (.ofText "ping.html"
    "<template id=\"x-ping\"><p><x-pong></x-pong></p></template>")).toOption = some ping := by
  decide +kernel

theorem pong_read : (Component.ofRecord "" [] (.ofText "pong.html"
    "<template id=\"x-pong\"><x-ping></x-ping></template>")).toOption = some pong := by
  decide +kernel

theorem fromFiles_rallyLibrary : rallyLibrary.FromFiles := by
  intro id c known
  simp only [rallyLibrary] at known
  split at known
  · obtain rfl := Option.some.inj known
    exact ⟨_, _, _, ok_of_toOption ping_read⟩
  · split at known
    · obtain rfl := Option.some.inj known
      exact ⟨_, _, _, ok_of_toOption pong_read⟩
    · cases known

theorem looping_ping : rallyLibrary.Looping "x-ping" := by
  have there : rallyLibrary.Contains "x-ping" "x-pong" := ⟨ping, rfl, by decide +kernel⟩
  have back : rallyLibrary.Contains "x-pong" "x-ping" := ⟨pong, rfl, by decide +kernel⟩
  exact .tail (.single there) back

/-- Two components that contain each other, and a page that shows one. -/
theorem rallyPage_fails :
    rallyScene.library.FromFiles ∧ rallyLibrary.Looping "x-ping" ∧
      "x-ping" ∈ Tree.outerNamesAll rallyPage.document.tree.children ∧
      ∃ started e s,
        Unbounded.Ends (Unbounded.expandPage rallyScene) (ofPage rallyPage) started (.error e s) ∧
        (∀ i ∈ started, i.1 < maxDepth) ∧
        (expandPage rallyScene).run (ofPage rallyPage) = .error e s := by
  have shown : "x-ping" ∈ Tree.outerNamesAll rallyPage.document.tree.children := by decide +kernel
  obtain ⟨started, ends, shallow, fails⟩ :=
    @expansion_ends rallyScene rallyPage fromFiles_rallyLibrary
  obtain ⟨e, s, failed⟩ := fails "x-ping" looping_ping (.inr shown)
  rw [failed] at ends
  exact ⟨fromFiles_rallyLibrary, looping_ping, shown, started, e, s, ends, shallow, failed⟩

end Expansion
end Stencil
