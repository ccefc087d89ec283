import Stencil.Proofs.Markup.Readable
import Stencil.Proofs.Markup.Reread
/-!
What trees of a source look like, whatever the source and the rules. They are trees that markup can
write, but for what their texts may start and for attributes that take the next one for their value,
and no rule leaves out one of their elements. Texts are written as they are, so a text that has been
joined over an end tag or over an element that was left out can start a tag of its own when it is read
again, and so can an attribute take the one behind it for its value. Nothing else comes back in another
way.
-/
namespace Stencil.Markup

/-- What holds of every element that is read and kept. -/
structure Element.Kept (rules : List IgnoreRule) (e : Element) : Prop where
  legible : e.Legible
  stays : e.Stays rules

namespace Tree
variable {rules : List IgnoreRule} {t : Tree} {ts : List Tree}

/-- A tree as it comes from a source. -/
abbrev Built (rules : List IgnoreRule) : Tree → Prop := Shaped (fun _ => True) (Element.Kept rules)

theorem spaced_reverse : Spaced ts.reverse ↔ Spaced ts := by
  rw [Spaced, List.isChain_reverse, Spaced]
  have swap : ∀ t t' : Tree, (t'.isText = true → t.isText = false) ↔
      (t.isText = true → t'.isText = false) := by
    intro t t'
    cases t.isText <;> cases t'.isText <;> simp
  exact List.IsChain.iff fun t t' => swap t t'

theorem spaced_cons_of_other (other : t.isText = false) (spaced : Spaced ts) : Spaced (t :: ts) :=
  List.isChain_cons.mpr ⟨fun _ _ text => absurd text (by simp [other]), spaced⟩

end Tree

namespace Builder
variable {rules : List IgnoreRule} {b : Builder} {ts : List Tree}

/-- Siblings as they come from a source. The last one may stand first. -/
structure Level (rules : List IgnoreRule) (ts : List Tree) : Prop where
  trees : ∀ t ∈ ts, t.Built rules
  spaced : Tree.Spaced ts

theorem level_nil : Level rules [] := ⟨fun _ mem => absurd mem List.not_mem_nil, List.isChain_nil⟩

theorem Level.cons {t : Tree} (level : Level rules ts) (built : t.Built rules)
    (other : t.isText = false) : Level rules (t :: ts) :=
  ⟨List.forall_mem_cons.mpr ⟨built, level.trees⟩, Tree.spaced_cons_of_other other level.spaced⟩

theorem Level.joinText (level : Level rules ts) {s : String} (filled : s ≠ "") :
    Level rules (joinText s ts) := by
  rw [Builder.joinText.eq_def]
  split
  · next s' below before =>
    obtain ⟨⟨leaf, -, -⟩, rest⟩ := List.forall_mem_cons.mp level.trees
    obtain ⟨next, spaced⟩ := List.isChain_cons.mp level.spaced
    refine ⟨List.forall_mem_cons.mpr ⟨⟨leaf, ?_, trivial⟩, rest⟩,
      List.isChain_cons.mpr ⟨next, spaced⟩⟩
    simp [filled]
  · next other =>
    refine ⟨List.forall_mem_cons.mpr ⟨⟨rfl, filled, trivial⟩, level.trees⟩,
      List.isChain_cons.mpr ⟨fun t mem _ => ?_, level.spaced⟩⟩
    cases ts with
    | nil => cases mem
    | cons t' ts =>
      cases mem
      cases t with
      | node c below =>
        cases c with
        | text s' => exact absurd rfl (other s' below ts)
        | root | element _ | comment _ | directive _ => rfl

/-- An open element may hold siblings. -/
structure Holder (e : Element) : Prop where
  legible : e.Legible
  filled : e.isVoid = false
  plain : e.isVerbatim = false

/-- A builder as reading makes it. -/
structure Formed (rules : List IgnoreRule) (b : Builder) : Prop where
  siblings : Level rules b.siblings
  opened : ∀ e ∈ b.opened, Holder e.1 ∧ Level rules e.2

theorem formed_empty : Formed rules {} :=
  ⟨level_nil, fun _ mem => absurd mem List.not_mem_nil⟩

theorem Formed.addText (formed : Formed rules b) (s : String) : Formed rules (b.addText s) := by
  by_cases none : s = ""
  · rw [none]
    exact formed
  · rw [addText_of_ne none]
    exact ⟨formed.siblings.joinText none, formed.opened⟩

theorem Formed.add (formed : Formed rules b) {c : Content}
    (built : (Tree.node c []).Built rules) (other : (Tree.node c []).isText = false) :
    Formed rules (b.add c) := ⟨formed.siblings.cons built other, formed.opened⟩

theorem Formed.openElement (formed : Formed rules b) {e : Element} (holder : Holder e) :
    Formed rules (b.openElement e) :=
  ⟨level_nil, List.forall_mem_cons.mpr ⟨⟨holder, formed.siblings⟩, formed.opened⟩⟩

/-- Closing an element that has just been opened, with any siblings in it. -/
theorem Formed.close (formed : Formed rules b) {e : Element} {ts dropped : List Tree}
    (built : e.Stays rules → (Tree.node (.element e) ts.reverse).Built rules) :
    Formed rules (closeElement rules ⟨ts, (e, b.siblings) :: b.opened, dropped⟩) := by
  rw [closeElement]
  dsimp only
  split
  · exact ⟨formed.siblings, formed.opened⟩
  · next stays =>
    exact ⟨formed.siblings.cons (built (by simpa [Element.Stays] using stays)) rfl, formed.opened⟩

theorem Formed.closeElement (formed : Formed rules b) : Formed rules (b.closeElement rules) := by
  obtain ⟨siblings, opened, dropped⟩ := b
  cases opened with
  | nil => exact formed
  | cons o outer =>
    obtain ⟨e, before⟩ := o
    obtain ⟨⟨holder, level⟩, opened⟩ := List.forall_mem_cons.mp formed.opened
    have outside : Formed rules ⟨before, outer, dropped⟩ := ⟨level, opened⟩
    refine outside.close fun stays => ⟨⟨holder.legible, stays⟩, ?_⟩
    rw [if_neg (by simp [holder.filled]), if_neg (by simp [holder.plain])]
    refine ⟨(Tree.shapedAll_iff _ _).mpr fun t mem => ?_,
      Tree.spaced_reverse.mpr formed.siblings.spaced⟩
    exact formed.siblings.trees t (List.mem_reverse.mp mem)

theorem Formed.closeMany (formed : Formed rules b) (n : Nat) :
    Formed rules (b.closeMany rules n) := by
  induction n generalizing b with
  | zero => exact formed
  | succ n ih => exact ih formed.closeElement

theorem Formed.step (formed : Formed rules b) {l : Lexeme} (readable : l.Formed) :
    Formed rules (b.step rules l) := by
  cases l with
  | text s => exact formed.addText s
  | comment s => exact formed.add ⟨rfl, readable⟩ rfl
  | directive s => exact formed.add ⟨rfl, readable⟩ rfl
  | opening e => exact formed.openElement ⟨readable.1, readable.2.1, readable.2.2⟩
  | leaf e =>
    refine formed.close fun stays => ⟨⟨readable, stays⟩, ?_⟩
    split
    · rfl
    · split
      · trivial
      · exact ⟨trivial, List.isChain_nil⟩
  | verbatim e s =>
    obtain ⟨legible, filled, verbatim, missing⟩ := readable
    have built : ∀ ts, Tree.Enclosed e ts → e.Stays rules →
        (Tree.node (.element e) ts).Built rules := by
      intro ts enclosed stays
      refine ⟨⟨legible, stays⟩, ?_⟩
      rwa [if_neg (by simp [filled]), if_pos verbatim]
    rw [Builder.step]
    by_cases none : s = ""
    · rw [none]
      exact formed.close (built [] trivial)
    · rw [addText_of_ne none]
      exact formed.close (built [.node (.text s) []] ⟨none, missing⟩)
  | closing name =>
    rw [Builder.step]
    split
    · exact formed.closeMany _
    · exact formed

theorem formed_foldl (formed : Formed rules b) {ls : List Lexeme} (readable : ∀ l ∈ ls, l.Formed) :
    Formed rules (ls.foldl (Builder.step rules) b) := by
  induction ls generalizing b with
  | nil => exact formed
  | cons l ls ih =>
    obtain ⟨first, rest⟩ := List.forall_mem_cons.mp readable
    exact ih (formed.step first) rest

end Builder

/-- The tree of a source is the root of trees as they come from a source. -/
theorem Tree.ofSource_built (rules : List IgnoreRule) (source : String) :
    ∃ ts, Tree.ofSource rules source = .node .root ts ∧
      ShapedAll (fun _ => True) (Element.Kept rules) ts ∧ Spaced ts := by
  have read : Builder.Formed rules
      (((Lexeme.ofSource source.toList).foldl (Builder.step rules) {}).finish rules) :=
    (Builder.formed_foldl Builder.formed_empty (Lexeme.formed_ofSource _)).closeMany _
  refine ⟨_, rfl, (shapedAll_iff _ _).mpr fun t mem => ?_, spaced_reverse.mpr read.siblings.spaced⟩
  exact read.siblings.trees t (List.mem_reverse.mp mem)

end Stencil.Markup

namespace Stencil.Markup

namespace Lexeme

def isText : Lexeme → Bool
  | text _ => true
  | _ => false

theorem startTag?_ne_text {s rest : List Char} {x : String} :
    startTag? s ≠ some (text x, rest) := by
  intro read
  simp only [startTag?] at read
  split at read
  · cases read
  · split at read
    · cases read
    · split at read
      · cases read
      · cases read

/-- A text takes what it holds from the source, character by character. -/
theorem append_of_next {c : Char} {s rest : List Char} {x : String}
    (read : next c s = (text x, rest)) : x.toList ++ rest = c :: s := by
  have plain : ∀ {c s}, readText c s = (text x, rest) → x.toList ++ rest = c :: s := by
    intro c s read
    rw [readText] at read
    cases read
    rw [String.toList_ofList, List.cons_append]
    exact congrArg (c :: ·) (List.takeWhile_append_dropWhile ..)
  have whole : ∀ {c s}, (text (String.ofList (c :: s)), ([] : List Char)) = (text x, rest) →
      x.toList ++ rest = c :: s := by
    intro c s same
    cases same
    rw [String.toList_ofList, List.append_nil]
  rw [next.eq_def] at read
  split at read
  · exact plain read
  · split at read
    · cases read
    · split at read
      · exact whole read
      · cases read
    · cases read
    · cases read
    · split at read
      · cases tag : startTag? _ with
        | none =>
          rw [tag] at read
          exact whole read
        | some r =>
          rw [tag] at read
          exact absurd (tag.trans (congrArg some read)) startTag?_ne_text
      · exact plain read
    · exact plain read

end Lexeme

namespace Builder
variable {rules : List IgnoreRule}

theorem reads_of_texts {s : List Char} (texts : ∀ l ∈ Lexeme.ofSource s, l.isText = true)
    (b : Builder) : b.reads rules s = b.addText (String.ofList s) := by
  fun_induction Lexeme.ofSource s generalizing b with
  | case1 => exact reads_nil
  | case2 c s r ih =>
    obtain ⟨own, rest⟩ := List.forall_mem_cons.mp texts
    obtain ⟨x, text⟩ : ∃ x, r.1 = .text x := by
      cases read : r.1 with
      | text x => exact ⟨x, rfl⟩
      | _ =>
        rw [read] at own
        cases own
    have read : Lexeme.next c s = (.text x, r.2) := by
      rw [← text]
    rw [reads_cons read, ih rest, step, addText_addText, ← Lexeme.append_of_next read,
      String.ofList_append, String.ofList_toList]

end Builder

namespace Tree

/-- The trees before the last one if that is a text, and the text, which is empty if it is none. -/
def splitEnd (ts : List Tree) : List Tree × String :=
  match ts.getLast? with
  | some (node (.text s) _) => (ts.dropLast, s)
  | _ => (ts, "")

/-- Nothing in the tree becomes something else when it is written. No text starts anything but text;
a text at the end of the source may have started a tag that is not ended. No name with an equals sign
before it follows an attribute without a value. -/
structure Settled (t : Tree) : Prop where
  texts : ∀ s ∈ textsAll (splitEnd t.children).1, Lexeme.idle s.toList = true
  last : ∀ l ∈ Lexeme.ofSource (splitEnd t.children).2.toList, l.isText = true
  separated : ∀ e ∈ t.elements, e.Separated

instance (t : Tree) : Decidable t.Settled :=
  decidable_of_iff ((∀ s ∈ textsAll (splitEnd t.children).1, Lexeme.idle s.toList = true) ∧
      (∀ l ∈ Lexeme.ofSource (splitEnd t.children).2.toList, l.isText = true) ∧
      ∀ e ∈ t.elements, e.Separated)
    ⟨fun h => ⟨h.1, h.2.1, h.2.2⟩, fun h => ⟨h.texts, h.last, h.separated⟩⟩

theorem splitEnd_spec {ts : List Tree} {rules : List IgnoreRule}
    (built : ShapedAll (fun _ => True) (Element.Kept rules) ts) (spaced : Spaced ts) :
    (splitEnd ts = (ts, "") ∧ ∀ t ∈ ts.getLast?, t.isText = false) ∨
      ∃ before s, ts = before ++ [node (.text s) []] ∧ splitEnd ts = (before, s) ∧ s ≠ "" ∧
        ∀ t ∈ before.getLast?, t.isText = false := by
  rcases List.eq_nil_or_concat ts with rfl | ⟨before, t, rfl⟩
  · exact .inl ⟨rfl, fun _ mem => absurd mem (by simp)⟩
  · rw [List.concat_eq_append] at built spaced ⊢
    have last := (shapedAll_iff _ _).mp built t (by simp)
    rw [splitEnd, List.getLast?_concat, List.dropLast_concat]
    obtain ⟨c, below⟩ := t
    cases c with
    | text s =>
      obtain ⟨rfl, filled, -⟩ := last
      refine .inr ⟨before, s, rfl, rfl, filled, fun t mem => ?_⟩
      by_contra text
      cases (List.isChain_append.mp spaced).2.2 t mem _ rfl (by simpa using text)
    | root | element e | comment _ | directive _ =>
      refine .inl ⟨rfl, fun t mem => ?_⟩
      cases mem
      rfl

end Tree

theorem Tree.writeAll_append (ts ts' : List Tree) :
    writeAll (ts ++ ts') = writeAll ts ++ writeAll ts' := by
  induction ts with
  | nil => rfl
  | cons t ts ih => rw [List.cons_append, writeAll, ih, writeAll, List.append_assoc]

theorem Tree.shapedAll_of_append {P : String → Prop} {Q : Element → Prop} {ts ts' : List Tree}
    (shaped : ShapedAll P Q (ts ++ ts')) : ShapedAll P Q ts ∧ ShapedAll P Q ts' := by
  simp only [shapedAll_iff, List.forall_mem_append] at shaped ⊢
  exact shaped

/-- A tree that is settled is read again from what is written of it. -/
theorem Tree.reread_of_settled {rules : List IgnoreRule} {source : String}
    (settled : (Tree.ofSource rules source).Settled) :
    Tree.ofSource rules (Tree.ofSource rules source).html =
      (Tree.ofSource rules source).requoted := by
  obtain ⟨ts, read, built, spaced⟩ := Tree.ofSource_built rules source
  rw [read] at settled ⊢
  have plain : ∀ e ∈ elementsAll ts, e.Kept rules → Builder.Plain rules e := fun e mem kept =>
    ⟨kept.legible, settled.separated e mem, kept.stays⟩
  have texts := settled.texts
  have last := settled.last
  rw [show (node .root ts).children = ts from rfl] at texts last
  rcases splitEnd_spec built spaced with ⟨split, -⟩ | ⟨before, s, rfl, split, filled, apart⟩
  · rw [split] at texts
    exact ofSource_html (built.imp (fun s mem _ => texts s mem) plain) spaced
  · rw [split] at texts last
    have shaped : ShapedAll (Lexeme.idle ·.toList = true) (Builder.Plain rules) before := by
      refine ShapedAll.imp (shapedAll_of_append built).1 (fun s mem _ => texts s mem) fun e mem => ?_
      rw [elementsAll_append] at plain
      exact plain e (List.mem_append_left _ mem)
    have front := Builder.reads_writeAll shaped (List.isChain_append.mp spaced).1 {} s.toList
      (fun _ _ _ => rfl) fun t mem text => absurd text (by simp [apart t mem])
    have outside : (Builder.put {} (requotedAll before)).inText = false := by
      rw [Builder.inText, Builder.put, List.append_nil, List.head?_reverse, requotedAll_eq_map,
        List.getLast?_map]
      cases back : before.getLast? with
      | none => rfl
      | some t =>
        rw [Option.map_some, Option.any_some, Builder.isText_requoted]
        exact apart t back
    rw [html, write, writeAll_append, writeAll, writeAll, write, List.append_nil, ofSource_eq, front,
      Builder.reads_of_texts last, String.ofList_toList, Builder.addText_eq_put filled outside,
      Builder.put_put]
    simp [Builder.put, Builder.finish, Builder.closeMany, requoted, Content.requoted,
      requotedAll_eq_map, requotedAll]

/-- A text after an ignored element, an attribute without a value, and a tag that is not ended. -/
theorem Tree.draft_reread :
    let rules : List IgnoreRule := [⟨some "noscript", none⟩]
    let t := Tree.ofSource rules
      "<p>1 <<noscript>x</noscript> 2</p><i hidden class='a\"b'>c</i></u><b foo"
    t.Settled ∧ Tree.ofSource rules t.html = t.requoted :=
  have settled : (Tree.ofSource [⟨some "noscript", none⟩]
      "<p>1 <<noscript>x</noscript> 2</p><i hidden class='a\"b'>c</i></u><b foo").Settled := by
    decide +kernel
  ⟨settled, Tree.reread_of_settled settled⟩

/-- Not every tree is settled. An end tag that closes nothing is dropped and the texts around it are
joined to a tag; an attribute comes to stand right before an equals sign; a tag that is not ended
comes to stand before an end tag. -/
theorem Tree.joined_text_reread_as_element :
    (Tree.ofSource [] (Tree.ofSource [] "<</p>b>").html).requoted ≠
        (Tree.ofSource [] "<</p>b>").requoted ∧
      (Tree.ofSource [] (Tree.ofSource [] "<a x/=b>").html).requoted ≠
        (Tree.ofSource [] "<a x/=b>").requoted ∧
      (Tree.ofSource [] (Tree.ofSource [] "<div><b foo").html).requoted ≠
        (Tree.ofSource [] "<div><b foo").requoted := by
  decide +kernel

end Stencil.Markup
