import Stencil.Component.Library
import Stencil.Proofs.Result
/-!
Texts have nothing below them in any tree that is read from a source, so they have nothing below them
in a component.
-/
namespace Stencil
open Markup

namespace Markup

namespace Tree

mutual

/-- Nothing stands below a text. -/
def LeafTexts : Tree → Prop
  | node (.text _) ts => ts = []
  | node .root ts => LeafTextsAll ts
  | node (.element _) ts => LeafTextsAll ts
  | node (.comment _) ts => LeafTextsAll ts
  | node (.directive _) ts => LeafTextsAll ts

def LeafTextsAll : List Tree → Prop
  | [] => True
  | t :: ts => t.LeafTexts ∧ LeafTextsAll ts

end

theorem leafTextsAll_iff {ts : List Tree} : LeafTextsAll ts ↔ ∀ t ∈ ts, t.LeafTexts := by
  induction ts with
  | nil => simp [LeafTextsAll]
  | cons t ts ih => rw [LeafTextsAll, ih, List.forall_mem_cons]

theorem LeafTexts.children {t : Tree} (leaves : t.LeafTexts) : ∀ t' ∈ t.children, t'.LeafTexts := by
  cases t with
  | node c ts =>
    cases c with
    | text s =>
      rw [LeafTexts] at leaves
      rw [Tree.children, leaves]
      exact fun _ mem => absurd mem List.not_mem_nil
    | root | element e | comment _ | directive _ => exact leafTextsAll_iff.mp leaves

end Tree

namespace Builder

/-- No tree of a builder has anything below a text. -/
structure LeafTexts (b : Builder) : Prop where
  siblings : ∀ t ∈ b.siblings, t.LeafTexts
  opened : ∀ e ∈ b.opened, ∀ t ∈ e.2, t.LeafTexts

variable {b : Builder} {rules : List IgnoreRule}

theorem LeafTexts.addText (leaves : b.LeafTexts) (s : String) : (b.addText s).LeafTexts := by
  rw [Builder.addText]
  split
  · exact leaves
  · refine ⟨?_, leaves.opened⟩
    have own := leaves.siblings
    dsimp only
    rw [joinText.eq_def]
    split
    · next t below before joined =>
      rw [joined, List.forall_mem_cons] at own
      exact List.forall_mem_cons.mpr own
    · exact List.forall_mem_cons.mpr ⟨rfl, own⟩

theorem LeafTexts.add (leaves : b.LeafTexts) (c : Content) : (b.add c).LeafTexts := by
  refine ⟨List.forall_mem_cons.mpr ⟨?_, leaves.siblings⟩, leaves.opened⟩
  cases c with
  | text s => rfl
  | root | element e | comment _ | directive _ => trivial

theorem LeafTexts.openElement (leaves : b.LeafTexts) (e : Element) :
    (b.openElement e).LeafTexts :=
  ⟨fun _ mem => (nomatch mem), List.forall_mem_cons.mpr ⟨leaves.siblings, leaves.opened⟩⟩

theorem LeafTexts.closeElement (leaves : b.LeafTexts) : (b.closeElement rules).LeafTexts := by
  rw [Builder.closeElement]
  split
  · exact leaves
  · next e before outer opened =>
    have rest := leaves.opened
    rw [opened, List.forall_mem_cons] at rest
    dsimp only
    split
    · exact ⟨rest.1, rest.2⟩
    · refine ⟨List.forall_mem_cons.mpr ⟨?_, rest.1⟩, rest.2⟩
      exact Tree.leafTextsAll_iff.mpr fun t mem => leaves.siblings t (List.mem_reverse.mp mem)

theorem LeafTexts.closeMany (leaves : b.LeafTexts) (n : Nat) :
    (b.closeMany rules n).LeafTexts := by
  induction n generalizing b with
  | zero => exact leaves
  | succ n ih => exact ih leaves.closeElement

theorem LeafTexts.step (leaves : b.LeafTexts) (l : Lexeme) : (b.step rules l).LeafTexts := by
  cases l with
  | text s => exact leaves.addText s
  | comment s => exact leaves.add _
  | directive s => exact leaves.add _
  | opening e => exact leaves.openElement e
  | leaf e => exact (leaves.openElement e).closeElement
  | verbatim e s => exact ((leaves.openElement e).addText s).closeElement
  | closing name =>
    rw [Builder.step]
    split
    · exact leaves.closeMany _
    · exact leaves

theorem leafTexts_foldl (leaves : b.LeafTexts) (ls : List Lexeme) :
    (ls.foldl (Builder.step rules) b).LeafTexts := by
  induction ls generalizing b with
  | nil => exact leaves
  | cons l ls ih => exact ih (leaves.step l)

end Builder

theorem Tree.leafTexts_ofSource (rules : List IgnoreRule) (source : String) :
    (Tree.ofSource rules source).LeafTexts := by
  have start : Builder.LeafTexts {} := ⟨fun _ mem => (nomatch mem), fun _ mem => (nomatch mem)⟩
  have read : ((Lexeme.ofSource source.toList).foldl (Builder.step rules) {}).LeafTexts :=
    Builder.leafTexts_foldl start _
  exact Tree.leafTextsAll_iff.mpr fun t mem =>
    (read.closeMany _).siblings t (List.mem_reverse.mp mem)

end Markup

/-- A component is as components are that have been read from files. -/
structure Component.Sound (c : Component) : Prop where
  sites : Sites.ofTree .template c.document.tree = .ok c.document.sites
  root : c.document.tree.content = .root
  leaves : c.document.tree.LeafTexts

theorem Markup.Template.mem_of_only {ts : List Tree} {t : Tree} (only : Template.only ts = .ok t) :
    t ∈ ts := by
  match ts with
  | [] => cases only
  | [_] =>
    cases only
    exact List.mem_singleton_self _
  | _ :: _ :: _ => cases only

/-- A template holds what one of the outermost elements of its file holds. -/
theorem Markup.Template.exists_declared {rules : List IgnoreRule} {source : String} {t : Template}
    (read : Template.ofSource rules source = .ok t) :
    ∃ template ∈ (Tree.ofSource rules source).children,
      t.document.tree = .node .root template.children ∧
        Sites.ofTree .template t.document.tree = .ok t.document.sites := by
  obtain ⟨template, only, read⟩ := ok_of_bind read
  obtain ⟨_, -, read⟩ := ok_of_bind read
  obtain ⟨sites, found, read⟩ := ok_of_bind read
  cases read
  exact ⟨template, (List.mem_filter.mp (mem_of_only only)).1, rfl, found⟩

theorem Markup.Template.sound {rules : List IgnoreRule} {source : String} {t : Template}
    (read : Template.ofSource rules source = .ok t) :
    Sites.ofTree .template t.document.tree = .ok t.document.sites ∧
      t.document.tree.content = .root ∧ t.document.tree.LeafTexts := by
  obtain ⟨template, inside, tree, sites⟩ := exists_declared read
  have leaves := (Tree.leafTexts_ofSource rules source).children template inside
  refine ⟨sites, by rw [tree]; rfl, ?_⟩
  rw [tree]
  exact Tree.leafTextsAll_iff.mpr leaves.children

theorem Component.sound_ofRecord {root : String} {rules : List IgnoreRule} {r : Record}
    {c : Component} (read : Component.ofRecord root rules r = .ok c) : c.Sound := by
  obtain ⟨t, parsed, read⟩ := ok_of_bind read
  cases read
  obtain ⟨sites, top, leaves⟩ := Template.sound parsed
  exact ⟨sites, top, leaves⟩

end Stencil
