import Stencil.Proofs.Expansion.Filled
import Stencil.Proofs.Expansion.Simulation
import Stencil.Proofs.Expansion.Texts
/-!
Instances that values have been put into. Where all values are texts nothing but contents of nodes
changes: an instance is the template with the values in the place of its tokens, and texts that are put
into a template cannot bring markup into it, whatever they hold.
-/
namespace Stencil
open Markup

/-! ### Attributes of an element -/

namespace Markup.Element

section
variable {before after : List Attribute} {a : Attribute}

theorem find?_between (fresh : ∀ b ∈ before, b.name ≠ a.name) :
    (before ++ a :: after).find? (·.name == a.name) = some a := by
  rw [List.find?_append, List.find?_eq_none.mpr fun b mem => by simpa using fresh b mem]
  simp

theorem assign_between (fresh : ∀ b ∈ before, b.name ≠ a.name) (value : String) :
    assign a.name value (before ++ a :: after) = before ++ ⟨a.name, some value⟩ :: after := by
  induction before with
  | nil => rw [List.nil_append, assign, if_pos rfl, List.nil_append]
  | cons b before ih =>
    obtain ⟨own, others⟩ := List.forall_mem_cons.mp fresh
    rw [List.cons_append, assign, if_neg own, ih others, List.cons_append]

end

theorem filled_of_no_tokens {values : Values} {a : Attribute}
    (none : Token.ofText (a.value.getD "") = []) : a.filled values = a := by
  obtain ⟨name, value⟩ := a
  cases value with
  | none => rfl
  | some v =>
    rw [Attribute.filled, Option.map_some, show Token.ofText v = [] from none]
    rfl

/-- The sites of the attributes, one after the other, put the values into all of them. -/
theorem foldl_sites {keep : Sketch.Keep} {values : Values} {n : NodeId} {name : String}
    {before after : List Attribute} {rich : Values}
    (once : ((before ++ after).map (·.name)).Nodup) :
    ((Sites.ofAttributes n ⟨name, after⟩).foldl (Sketch.fillSite keep values)
      (⟨name, before ++ after⟩, rich)).1 = ⟨name, before ++ after.map (·.filled values)⟩ := by
  -- the attributes before have their values, and no later site finds one of them
  induction after generalizing before rich with
  | nil => rfl
  | cons a after ih =>
    have fresh : ∀ b ∈ before, b.name ≠ a.name := by
      intro b mem same
      rw [List.map_append, List.nodup_append] at once
      exact once.2.2 b.name (List.mem_map_of_mem mem) a.name (by simp) same
    have later : ∀ (a' : Attribute) (rich' : Values), a'.name = a.name →
        ((Sites.ofAttributes n ⟨name, after⟩).foldl (Sketch.fillSite keep values)
          (⟨name, before ++ a' :: after⟩, rich')).1 =
            ⟨name, before ++ a' :: after.map (·.filled values)⟩ := by
      intro a' rich' same
      rw [List.append_cons, List.append_cons before a' (after.map _)]
      refine ih ?_
      rw [← List.append_cons, List.map_append, List.map_cons, same, ← List.map_cons, ← List.map_append]
      exact once
    rw [Sites.ofAttributes, List.filterMap_cons, List.map_cons]
    cases tokens : Token.ofText (a.value.getD "") with
    | nil =>
      rw [filled_of_no_tokens tokens]
      exact later a rich rfl
    | cons t ts =>
      obtain ⟨v, valued⟩ : ∃ v, a.value = some v := by
        cases value : a.value with
        | none =>
          rw [value, Option.getD_none, Token.ofText, String.toList_empty, Token.ofChars] at tokens
          cases tokens
        | some v => exact ⟨v, rfl⟩
      have found : Element.attr? ⟨name, before ++ a :: after⟩ a.name = some v := by
        rw [attr?, attribute?, find?_between fresh, Option.map_some, valued]
        rfl
      rw [valued, Option.getD_some] at tokens
      dsimp only
      rw [List.foldl_cons, Sketch.fillSite, found]
      dsimp only
      rw [setAttr, assign_between fresh, ← tokens]
      have own : a.filled values =
          ⟨a.name, some (Expansion.fillAttribute values (Token.ofText v) v)⟩ := by
        rw [Attribute.filled, valued, Option.map_some]
      rw [own]
      exact later _ _ rfl

end Markup.Element

/-! ### Copies of templates -/

namespace Expansion

theorem pieces_plain {values : Values} (texts : values.All (·.text?.isSome)) (raw : Bool) (tokens : List Token)
    (s : List Char) : (pieces values tokens s).all (·.isPlain raw) = true := by
  refine List.all_eq_true.mpr fun p mem => ?_
  cases p with
  | literal x => rfl
  | value v =>
    have text : v.text?.isSome = true := all_pieces texts tokens s mem
    rw [Piece.isPlain, text, Bool.true_or]

end Expansion

namespace Sketch

theorem trees_append {η : Type} (ts ts' : List (Sketch η)) :
    trees (ts ++ ts') = trees ts ++ trees ts' := by
  induction ts with
  | nil => rfl
  | cons t ts ih => rw [List.cons_append, trees, ih, trees, List.cons_append]

end Sketch

namespace Branch
variable {values : Values} {sites : Sites}

/-- The work on an instance without taking away its `ref` attributes. -/
def substitution (sites : Sites) : Work := { Work.ofSites sites with refs := [] }

mutual

/-- When the values have been put in, a copy of a template is the template with the values. -/
theorem trees_finish_ofTree (texts : values.All (·.text?.isSome)) (first : NodeId) (t : Tree)
    (raw : Bool) (leaves : t.LeafTexts)
    (once : ∀ e ∈ t.elements, (e.attributes.map (·.name)).Nodup)
    (tells : ∀ sub ∈ (ofTree true first t).subs, sites.Tells (sub.id, sub.stem.content)) :
    Sketch.trees ((ofTree true first t).finish values (substitution sites) raw) =
      [t.filled values raw] := by
  cases t with
  | node c ts =>
    rw [ofTree, subs, List.forall_mem_cons] at tells
    have own : sites.Tells (first, c) := tells.1
    have below := tells.2
    cases c with
    | text s =>
      rw [Tree.LeafTexts] at leaves
      subst leaves
      have found : (substitution sites).texts.filter (·.node = first) =
        (Sites.textOf (first, .text s)).toList := own.texts
      rw [ofTree, finish]
      dsimp only
      rw [found, Sites.textOf]
      cases tokens : Token.ofText s with
      | nil =>
        rw [Tree.filled, filledText_of_no_tokens tokens]
        rfl
      | cons t ts =>
        rw [Tree.filled, filledText, tokens]
        dsimp only [Option.toList]
        rw [Sketch.fillTokens, if_pos (Expansion.pieces_plain texts raw _ _)]
        rfl
    | element e =>
      obtain ⟨unique, inside⟩ := List.forall_mem_cons.mp once
      have inner := trees_finishAll_ofTrees texts (first + 1) ts
        (Expansion.rawParents.contains e.name) leaves inside below
      have attributes : (substitution sites).attributes.filter (·.node = first) =
        Sites.ofAttributes first e := own.attributes
      have filled : (finishElement values (substitution sites) first (e, [])).1 = e.filled values := by
        rw [finishElement, attributes]
        exact @Element.foldl_sites _ values first e.name [] e.attributes [] unique
      rw [ofTree, finish, Tree.filled]
      dsimp only
      rw [filled, Sketch.trees, Sketch.tree, inner]
      rfl
    | root | comment _ | directive _ =>
      have inner := trees_finishAll_ofTrees texts (first + 1) ts false leaves once below
      rw [ofTree, finish, Tree.filled]
      · dsimp only
        rw [Sketch.trees, Sketch.tree, inner]
        rfl

theorem trees_finishAll_ofTrees (texts : values.All (·.text?.isSome)) (first : NodeId)
    (ts : List Tree) (raw : Bool) (leaves : Tree.LeafTextsAll ts)
    (once : ∀ e ∈ Tree.elementsAll ts, (e.attributes.map (·.name)).Nodup)
    (tells : ∀ sub ∈ subsAll (ofTrees true first ts), sites.Tells (sub.id, sub.stem.content)) :
    Sketch.trees (finishAll values (substitution sites) raw (ofTrees true first ts)) =
      Tree.filledAll values raw ts := by
  cases ts with
  | nil => rfl
  | cons t ts =>
    rw [ofTrees, subsAll, List.forall_mem_append] at tells
    rw [Tree.elementsAll, Tree.contentsAll, List.filterMap_append, List.forall_mem_append] at once
    rw [ofTrees, finishAll, Sketch.trees_append,
      trees_finish_ofTree texts first t raw leaves.1 once.1 tells.1,
      trees_finishAll_ofTrees texts (first + t.size) ts raw leaves.2 once.2 tells.2]
    rfl

end
end Branch

namespace Expansion
open Branch

section
variable {s s' : Expansion} {values : Values} {scene : Scene} {left : Nat} {c : Component}
  {context : String}

theorem substituteText_plain (texts : values.All (·.text?.isSome)) (scene : Scene) (left : Nat)
    (context : String) (site : TextSite) (s : Expansion) :
    ∃ s', (substituteText scene left values context site).run s = .ok () s' ∧
      TextSpec True values site s s' := by
  rw [substituteText, run_get_bind]
  dsimp only
  cases found : s.arena.text? site.node with
  | none => exact ⟨s, rfl, text_none found⟩
  | some text =>
    have plain := pieces_plain texts (isRaw s.arena site.node) site.tokens text.toList
    dsimp only
    rw [if_pos plain]
    exact ⟨_, rfl, text_plain found plain rfl⟩

theorem substituteTexts_plain (texts : values.All (·.text?.isSome)) (scene : Scene) (left : Nat)
    (context : String) (index : Nat) (sites : List TextSite) (s : Expansion) :
    ∃ s', (substituteTexts scene left values context index sites).run s = .ok () s' ∧
      TextsSpec True values sites s s' := by
  induction sites generalizing index s with
  | nil =>
    rw [substituteTexts]
    exact ⟨s, rfl, texts_nil⟩
  | cons site rest ih =>
    obtain ⟨s₁, head, first⟩ :=
      substituteText_plain texts scene left (context ++ "/#" ++ toString index) site s
    obtain ⟨s', tail, others⟩ := ih (index + 1) s₁
    rw [substituteTexts, run_bind_ok head]
    exact ⟨s', tail, texts_cons first others⟩

/-- Copies a component and puts values into the copy. -/
def stamp (scene : Scene) (left : Nat) (c : Component) (context : String) (values : Values) :
    Expand NodeId := do
  let (fragment, sites, arena) := c.instantiate (← get).arena
  modify fun s => { s with arena }
  sites.attributes.forM (substituteAttribute values)
  substituteTexts scene left values context 0 sites.texts
  return fragment

/-- An instance without a host and without a script starts with a stamp. -/
theorem openInstance_stamp (silent : c.script = none) (extra : Values) :
    (do
      let o ← openInstance scene c context none extra
      substituteTexts scene left o.values context 0 o.sites.texts
      return o.fragment) = stamp scene left c context (scene.document.putAll extra) := by
  funext s
  simp [openInstance, receive, compute, silent, stamp, Opened.values]

/-- A stamp comes to an end, and the tree of the copy is then the given one. -/
def Stamps (scene : Scene) (left : Nat) (c : Component) (context : String) (values : Values)
    (s : Expansion) (t : Tree) : Prop :=
  ∃ fragment s', (stamp scene left c context values).run s = .ok fragment s' ∧
    s'.arena.tree fragment = t

/-- A component that is stamped with texts is its template with the texts. -/
theorem stamps_filled (sound : c.Sound) (tidy : Tidy s)
    (once : ∀ e ∈ c.document.tree.elements, (e.attributes.map (·.name)).Nodup)
    (texts : values.All (·.text?.isSome)) (scene : Scene) (left : Nat) (context : String) :
    Stamps scene left c context values s (c.document.tree.filled values false) := by
  obtain ⟨_, s₁, attributes⟩ := total_forM (total_substituteAttribute values)
    (copySites s c).attributes (copied s c)
  obtain ⟨s₂, written, spec⟩ := substituteTexts_plain texts scene left context 0
    (copySites s c).texts s₁
  have workable : Workable (copyOf s c) (substitution (copySites s c)) :=
    (workable_copy sound).mono (fun _ mem => mem) (fun _ mem => absurd mem List.not_mem_nil)
      (List.Sublist.refl _)
  obtain ⟨f₁, worked₁, same₁⟩ := worked_attributes (prepared_copy sound tidy) workable rfl attributes
  obtain ⟨f₂, worked₂, same₂⟩ := spec _ _ _ f₁ _ worked₁.prepared worked₁.workable rfl rfl
  refine ⟨s.arena.size, s₂, ?_, ?_⟩
  · rw [stamp, run_get_bind]
    refine (run_bind_ok (show EStateM.run _ s = .ok () (copied s c) from rfl)).trans ?_
    exact (run_bind_ok attributes).trans ((run_bind_ok written).trans rfl)
  · have read := worked₂.prepared.stands.tree worked₂.prepared.once
    have filled : sketches f₂.children =
        finishAll values (substitution (copySites s c)) false (copyOf s c).children :=
      (finishAll_done false f₂.children).symm.trans ((same₂ trivial).trans (same₁ false))
    have tells : ∀ sub ∈ (copyOf s c).subs, (copySites s c).Tells (sub.id, sub.stem.content) :=
      fun sub mem => tells_copy sound mem
    have leaves := sound.leaves
    have root := sound.root
    rw [worked₂.prepared.id] at read
    rw [read, ← node_eta f₂, sketch, Sketch.tree, worked₂.prepared.root, filled]
    rw [copyOf] at tells ⊢
    cases tree : c.document.tree with
    | node content ts =>
      rw [tree] at tells leaves root once
      rw [Tree.content] at root
      subst root
      rw [ofTree, subs, List.forall_mem_cons] at tells
      rw [ofTree, Branch.children, trees_finishAll_ofTrees texts _ ts false leaves once tells.2]
      rfl

end
end Expansion
end Stencil

namespace Stencil
open Markup

/-- The tree has the elements, the comments and the declarations of a template, in the same places; the
two may differ in what texts and values of attributes say. What is written of it is read back as it is,
without the texts that are empty. -/
structure Markup.Tree.KeepsMarkup (template t : Tree) : Prop where
  outline : t.outline = template.outline
  reread : ∀ rules, (∀ e ∈ template.elements, e.Stays rules) →
    Tree.ofSource rules t.html = t.compact

theorem Markup.Tree.keepsMarkup_filled {t : Tree} {values : Values}
    (back : Tree.ofSource [] t.html = t) (harmless : t.Harmless false) :
    t.KeepsMarkup (t.filled values false) :=
  ⟨Tree.outline_filled false t, fun _ stay => Tree.reread_filled back harmless stay⟩

namespace Expansion

section
variable {c : Component} {values values' : Values} {s s' : Expansion}

theorem sound_of_reread (sites : Sites.ofTree .template c.document.tree = .ok c.document.sites)
    (back : Tree.ofSource [] c.document.tree.html = c.document.tree) :
    c.Sound ∧ ∀ e ∈ c.document.tree.elements, (e.attributes.map (·.name)).Nodup := by
  obtain ⟨ts, same, built, -⟩ := Tree.ofSource_built [] c.document.tree.html
  have leaves := Tree.leafTexts_ofSource [] c.document.tree.html
  rw [back] at same leaves
  refine ⟨⟨sites, by rw [same]; rfl, leaves⟩, ?_⟩
  rw [same]
  exact fun e mem => (built.elements e mem).legible.once

/-- Whatever texts are bound to the tokens of a template, its instances are the template with the texts
in it, and have the markup of the template. -/
theorem texts_bring_no_markup
    (sites : Sites.ofTree .template c.document.tree = .ok c.document.sites)
    (back : Tree.ofSource [] c.document.tree.html = c.document.tree)
    (harmless : c.document.tree.Harmless false) (texts : values.All (·.text?.isSome))
    (texts' : values'.All (·.text?.isSome)) (tidy : Tidy s) (tidy' : Tidy s') (scene : Scene)
    (left : Nat) (context : String) :
    (Stamps scene left c context values s (c.document.tree.filled values false) ∧
        c.document.tree.KeepsMarkup (c.document.tree.filled values false)) ∧
      Stamps scene left c context values' s' (c.document.tree.filled values' false) ∧
        c.document.tree.KeepsMarkup (c.document.tree.filled values' false) := by
  obtain ⟨sound, once⟩ := sound_of_reread sites back
  have run := stamps_filled sound tidy once texts scene left context
  have run' := stamps_filled sound tidy' once texts' scene left context
  exact ⟨⟨run, Tree.keepsMarkup_filled back harmless⟩, run', Tree.keepsMarkup_filled back harmless⟩

end

/-! ### A card -/

def card : Component where
  id := "x-card"
  path := "card.html"
  dir := ""
  document := ⟨.node .root [
      .node (.element ⟨"x-note", [⟨"title", some "{{ title }}"⟩, ⟨"open", none⟩]⟩) [
        .node (.text "1 &lt; 2 {{ body }}") [],
        .node (.element ⟨"br", []⟩) []],
      .node (.element ⟨"textarea", []⟩) [.node (.text "{{ body }}") []],
      .node (.element ⟨"style", []⟩) [.node (.text "a<b") []],
      .node (.text "{{ title }}") [],
      .node (.comment " {{ title }} ") []],
    { attributes := [⟨1, "title", [⟨"title", "{{ title }}"⟩]⟩]
      texts := [⟨2, [⟨"body", "{{ body }}"⟩]⟩, ⟨5, [⟨"body", "{{ body }}"⟩]⟩,
        ⟨8, [⟨"title", "{{ title }}"⟩]⟩]
      customs := [1] }⟩
  script := none

def hostileTexts : Values :=
  [("title", .text "\"><script>go()</script>"), ("body", .text "</textarea><b {{ title }}")]

def emptyTexts : Values := [("title", .text ""), ("body", .text "")]

def cardPage : Page := ⟨[], ⟨.node .root [.node (.element ⟨"x-card", []⟩) []], { customs := [1] }⟩⟩

def cardScene : Scene :=
  .ofPage ⟨fun id => if id = "x-card" then some card else none, ["x-card"], []⟩
    (fun _ => (.error .missingDefaultExport, [])) "" cardPage

theorem card_keeps_markup :
    (Sites.ofTree .template card.document.tree = .ok card.document.sites ∧
      Tree.ofSource [] card.document.tree.html = card.document.tree ∧
      card.document.tree.Harmless false) ∧
    (Stamps cardScene 0 card "" hostileTexts (ofPage cardPage)
        (card.document.tree.filled hostileTexts false) ∧
      card.document.tree.KeepsMarkup (card.document.tree.filled hostileTexts false)) ∧
    Stamps cardScene 0 card "" emptyTexts (ofPage cardPage)
        (card.document.tree.filled emptyTexts false) ∧
      card.document.tree.KeepsMarkup (card.document.tree.filled emptyTexts false) :=
  have sites : Sites.ofTree .template card.document.tree = .ok card.document.sites :=
    ok_of_toOption (by decide +kernel)
  have back : Tree.ofSource [] card.document.tree.html = card.document.tree := by decide +kernel
  have harmless : card.document.tree.Harmless false := by decide +kernel
  ⟨⟨sites, back, harmless⟩, texts_bring_no_markup sites back harmless
    (show ∀ e ∈ hostileTexts, _ from by decide) (show ∀ e ∈ emptyTexts, _ from by decide)
    (tidy_ofPage cardPage) (tidy_ofPage cardPage) cardScene 0 ""⟩

end Expansion
end Stencil
