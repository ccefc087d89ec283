import Stencil.Proofs.Markup.Built
import Stencil.Proofs.Markup.Escaped
/-!
What a source holds besides text. Reading keeps all of it as long as no rule leaves an element out. So
in a tree that comes back from its own text every start tag is read as it stands: a tag that is not
would give an element that the tree does not have at that place. That much of a tree is its outline,
which says nothing of texts and of the values of attributes.
-/
namespace Stencil.Markup

/-! ### Marks -/

/-- What a lexeme puts into a tree besides text. -/
def Lexeme.marks : Lexeme → List Content
  | text _ => []
  | comment s => [.comment s]
  | directive s => [.directive s]
  | opening e => [.element e]
  | leaf e => [.element e]
  | verbatim e _ => [.element e]
  | closing _ => []

/-- What a source holds besides text, in its order. -/
def Lexeme.marksOf (s : List Char) : List Content := (ofSource s).flatMap marks

namespace Tree

/-- The nodes that are no texts, in document order. -/
def marks (t : Tree) : List Content := t.contents.filter (·.text?.isNone)

def marksAll (ts : List Tree) : List Content := (contentsAll ts).filter (·.text?.isNone)

theorem marksAll_cons (t : Tree) (ts : List Tree) : marksAll (t :: ts) = t.marks ++ marksAll ts := by
  rw [marksAll, contentsAll, List.filter_append]
  rfl

theorem marksAll_append (ts ts' : List Tree) :
    marksAll (ts ++ ts') = marksAll ts ++ marksAll ts' := by
  rw [marksAll, contentsAll_append, List.filter_append]
  rfl

theorem marksAll_singleton (t : Tree) : marksAll [t] = t.marks := by
  rw [marksAll_cons]
  exact List.append_nil _

theorem marks_node {c : Content} (other : c.text? = none) (ts : List Tree) :
    (node c ts).marks = c :: marksAll ts := by
  rw [marks, contents, List.filter_cons_of_pos (by simp [other])]
  rfl

theorem marks_text (s : String) (ts : List Tree) : (node (.text s) ts).marks = marksAll ts := by
  rw [marks, contents, List.filter_cons_of_neg (by simp [Content.text?])]
  rfl

end Tree

/-! ### Reading keeps the marks -/

namespace Builder
variable {b : Builder}

/-- What has been read besides text, in document order. -/
def marks (b : Builder) : List Content :=
  b.opened.reverse.flatMap (fun o => Tree.marksAll o.2.reverse ++ [.element o.1]) ++
    Tree.marksAll b.siblings.reverse

theorem marks_addText (s : String) : (b.addText s).marks = b.marks := by
  have joined : ∀ ts, Tree.marksAll (joinText s ts).reverse = Tree.marksAll ts.reverse := by
    intro ts
    rw [joinText.eq_def]
    split
    · rw [List.reverse_cons, List.reverse_cons, Tree.marksAll_append, Tree.marksAll_append,
        Tree.marksAll_singleton, Tree.marksAll_singleton, Tree.marks_text, Tree.marks_text]
    · rw [List.reverse_cons, Tree.marksAll_append, Tree.marksAll_singleton, Tree.marks_text]
      exact List.append_nil _
  rw [addText]
  split
  · rfl
  · rw [marks, marks]
    dsimp only
    rw [joined]

theorem marks_add {c : Content} (other : c.text? = none) : (b.add c).marks = b.marks ++ [c] := by
  rw [add, marks, marks, List.reverse_cons, Tree.marksAll_append, Tree.marksAll_singleton,
    Tree.marks_node other, List.append_assoc]
  rfl

theorem marks_openElement (e : Element) : (b.openElement e).marks = b.marks ++ [.element e] := by
  rw [openElement, marks, marks, List.reverse_cons, List.flatMap_append, List.flatMap_singleton,
    ← List.append_assoc]
  exact List.append_nil _

theorem marks_closeElement : (b.closeElement []).marks = b.marks := by
  rw [closeElement]
  split
  · rfl
  · next e before outer opened =>
    rw [List.any_nil, if_neg Bool.false_ne_true, marks, marks, opened, List.reverse_cons,
      List.reverse_cons, List.flatMap_append, List.flatMap_singleton, Tree.marksAll_append,
      Tree.marksAll_singleton, Tree.marks_node rfl]
    simp only [List.append_assoc, List.singleton_append]

theorem marks_closeMany (n : Nat) : (b.closeMany [] n).marks = b.marks := by
  induction n generalizing b with
  | zero => rfl
  | succ n ih => rw [closeMany, ih, marks_closeElement]

theorem marks_step (l : Lexeme) : (b.step [] l).marks = b.marks ++ l.marks := by
  cases l with
  | text s => rw [step, marks_addText, Lexeme.marks, List.append_nil]
  | comment s => exact marks_add rfl
  | directive s => exact marks_add rfl
  | opening e => exact marks_openElement e
  | leaf e => rw [step, marks_closeElement, marks_openElement, Lexeme.marks]
  | verbatim e s => rw [step, marks_closeElement, marks_addText, marks_openElement, Lexeme.marks]
  | closing name =>
    rw [step, Lexeme.marks, List.append_nil]
    split
    · exact marks_closeMany _
    · rfl

theorem marks_foldl (ls : List Lexeme) :
    (ls.foldl (step []) b).marks = b.marks ++ ls.flatMap Lexeme.marks := by
  induction ls generalizing b with
  | nil => exact (List.append_nil _).symm
  | cons l ls ih => rw [List.foldl_cons, ih, marks_step, List.flatMap_cons, List.append_assoc]

theorem opened_closeElement (rules : List IgnoreRule) :
    (b.closeElement rules).opened = b.opened.tail := by
  rw [closeElement]
  split
  · next none => rw [none, List.tail_nil]
  · next opened =>
    dsimp only
    split
    · rw [opened, List.tail_cons]
    · rw [opened, List.tail_cons]

theorem opened_closeMany (rules : List IgnoreRule) (n : Nat) :
    (b.closeMany rules n).opened = b.opened.drop n := by
  induction n generalizing b with
  | zero => rfl
  | succ n ih => rw [closeMany, ih, opened_closeElement, List.drop_tail]

end Builder

/-- The tree of a source has the marks of the source. -/
theorem Tree.marks_ofSource (source : String) :
    marksAll (Tree.ofSource [] source).children = Lexeme.marksOf source.toList := by
  have read := @Builder.marks_foldl {} (Lexeme.ofSource source.toList)
  rw [← Builder.marks_closeMany, Builder.marks, Builder.opened_closeMany, List.drop_length] at read
  exact read

/-! ### What is read of a text -/

namespace Lexeme
open Text
variable {rest : List Char}

theorem marksOf_cons {c : Char} {s : List Char} {l : Lexeme} (first : next c s = (l, rest)) :
    marksOf (c :: s) = l.marks ++ marksOf rest := by
  rw [marksOf, ofSource, first, List.flatMap_cons]
  rfl

theorem marksOf_plain {c : Char} (plain : c ≠ '<') (s : List Char) :
    marksOf (c :: s) = marksOf s := by
  have skip : ∀ {c : Char} (s : List Char), c ≠ '<' →
      marksOf (c :: s) = marksOf (s.dropWhile fun d => !(d == '<')) := fun s plain =>
    marksOf_cons (next_text fun angle => absurd angle plain)
  rw [skip s plain]
  cases s with
  | nil => rfl
  | cons d s =>
    by_cases angle : d = '<'
    · rw [List.dropWhile_cons_of_neg (by simp [angle])]
    · rw [List.dropWhile_cons_of_pos (by simp [angle]), skip s angle]

theorem marksOf_text {s : List Char} (plain : '<' ∉ s) (rest : List Char) :
    marksOf (s ++ rest) = marksOf rest := by
  induction s with
  | nil => rfl
  | cons c s ih =>
    rw [List.mem_cons, not_or] at plain
    rw [List.cons_append, marksOf_plain (Ne.symm plain.1), ih plain.2]

/-! ### What is read of a start tag -/

theorem readAttributes_extends {read as : List Attribute} {s : List Char} {closed : Bool}
    (done : readAttributes read s = some (as, closed, rest)) : read <+: as := by
  fun_induction readAttributes read s with
  | case1 => cases done
  | case2 =>
    cases done
    exact List.prefix_rfl
  | case3 =>
    cases done
    exact List.prefix_rfl
  | case4 read s rest _ here ih => exact ih done
  | case5 read s c rest _ _ _ here r ih =>
    have longer := ih done
    split at longer
    · exact longer
    · exact (List.prefix_append _ _).trans longer

theorem eq_of_extends {α : Type} {read as : List α} {a b : α}
    (start : read ++ [a] <+: read ++ b :: as) : a = b :=
  (List.cons_prefix_cons.mp ((List.prefix_append_right_inj read).mp start)).1

/-- An attribute without a value takes what follows an equals sign for its value. -/
theorem readAttribute_taken {a : Attribute} {c d : Char} {s tail : List Char} (legible : a.Legible)
    (name : a.name.toList = c :: s) (ends : endsAttributeName d = true)
    (taken : (trimStart (d :: tail)).head? = some '=') :
    ∃ v after, readAttribute c (s ++ d :: tail) = (⟨a.name, some v⟩, after) := by
  obtain ⟨c', s', same, -, inside⟩ := legible.name
  rw [name] at same
  cases same
  have small := lowerAscii_of_small legible.small
  rw [name] at small
  obtain ⟨v, value⟩ : ∃ v, trimStart (d :: tail) = '=' :: v := by
    cases here : trimStart (d :: tail) with
    | nil =>
      rw [here] at taken
      cases taken
    | cons e v =>
      rw [here] at taken
      cases taken
      exact ⟨v, rfl⟩
  rw [readAttribute, takeUntil_append inside ends]
  dsimp only
  rw [small, value, ← name, String.ofList_toList]
  exact ⟨_, _, rfl⟩

theorem separated_of_readAttributes {read as : List Attribute} {closed : Bool} {after : List Char}
    (legible : ∀ a ∈ as, a.Legible) (once : ((read ++ as).map (·.name)).Nodup)
    (done : readAttributes read (as.flatMap Tree.writeAttribute ++ '>' :: rest) =
      some (read ++ as, closed, after)) : Attribute.Separated as := by
  induction as generalizing read with
  | nil => exact List.isChain_nil
  | cons a as ih =>
    obtain ⟨own, others⟩ := List.forall_mem_cons.mp legible
    obtain ⟨d, tail, follows, ends, next⟩ := tail_of_attribute others rest
    have ends := endsAttributeName_of_endsTagName ends
    have fresh : read.any (·.name == a.name) = false := by
      rw [List.any_eq_false]
      intro b mem same
      rw [List.map_append, List.nodup_append] at once
      exact once.2.2 b.name (List.mem_map_of_mem mem) a.name (by simp) (by simpa using same)
    rw [List.flatMap_cons, List.append_assoc, follows] at done
    by_cases taken : a.value = none ∧ (trimStart (d :: tail)).head? = some '='
    · -- the value that is read is not in the list
      obtain ⟨c, s, name, starts, -⟩ := own.name
      obtain ⟨v, after', got⟩ := readAttribute_taken own name ends taken.2
      have here : trimStart (Tree.writeAttribute a ++ d :: tail) = c :: (s ++ d :: tail) := by
        rw [Tree.writeAttribute, taken.1, name]
        simp only [List.append_nil, List.cons_append]
        exact trimStart_of_not_blank (of_endsTagName starts).1
      rw [readAttributes_cons here (of_endsTagName starts).2.1 (of_endsTagName starts).2.2, got,
        fresh, if_neg Bool.false_ne_true] at done
      have valued := taken.1
      rw [← eq_of_extends (readAttributes_extends done)] at valued
      cases valued
    · obtain ⟨c, after', here, starts, got⟩ :=
        readAttribute_write own ends fun bare same => taken ⟨bare, same⟩
      rw [readAttributes_cons here (of_endsTagName starts).2.1 (of_endsTagName starts).2.2, got,
        show read.any (·.name == a.requoted.name) = false from fresh,
        if_neg Bool.false_ne_true] at done
      dsimp only at done
      rw [eq_of_extends (readAttributes_extends done), ← follows,
        List.append_cons read a as] at done
      refine List.isChain_cons.mpr ⟨fun b mem bare same => taken ⟨bare, ?_⟩, ih others ?_ done⟩
      · rw [next, Option.mem_def.mp mem, Option.bind_some, same]
        rfl
      · rwa [← List.append_cons]

theorem marks_started (e : Element) (rest : List Char) : (started e rest).1.marks = [.element e] := by
  rw [started]
  split
  · rfl
  · split
    · rfl
    · rfl

/-- A start tag gives one element. If that is the one that was written, it is separated. -/
theorem element_of_startTag? {e : Element} {l : Lexeme} {after : List Char} (legible : e.Legible)
    (read : startTag? (e.name.toList ++ (e.attributes.flatMap Tree.writeAttribute ++ '>' :: rest)) =
      some (l, after)) : ∃ e', l.marks = [.element e'] ∧ (e' = e → e.Separated) := by
  obtain ⟨d, tail, follows, ends, -⟩ := tail_of_attribute legible.attributes rest
  rw [startTag?, follows, takeUntil_append legible.name ends] at read
  dsimp only at read
  rw [← follows] at read
  split at read
  · cases read
  · next as closed rest done =>
    refine ⟨⟨String.ofList (lowerAscii e.name.toList), as⟩, ?_, fun same => ?_⟩
    · split at read
      · cases read
        rfl
      · split at read
        · cases read
          rfl
        · cases read
          rfl
    · have whole : e.attributes = as := by rw [← same]
      rw [← whole] at done
      exact separated_of_readAttributes legible.attributes
        (show (([] ++ e.attributes).map Attribute.name).Nodup from legible.once) done

/-- A start tag that gives its own element is read as it stands. -/
theorem faithful_of_marksOf {e : Element} {more : List Content} (legible : e.Legible)
    (read : marksOf (Tree.writeStartTag e ++ rest) = .element e :: more) :
    e.Separated ∧ e.requoted = e ∧ marksOf (started e rest).2 = more := by
  have separated : e.Separated := by
    obtain ⟨s, tag, next⟩ := next_writeStartTag legible rest
    rw [tag] at read
    cases found : startTag? _ with
    | none =>
      rw [found] at next
      rw [marksOf_cons next, marksOf, ofSource] at read
      cases read
    | some r =>
      obtain ⟨l, after⟩ := r
      rw [found] at next
      obtain ⟨e', marks, own⟩ := element_of_startTag? legible found
      rw [marksOf_cons next, marks] at read
      exact own (Content.element.inj (List.cons.inj read).1)
  obtain ⟨s, tag, next⟩ := next_startTag legible separated rest
  have split : Lexeme.next '<' s = ((started e.requoted rest).1, (started e.requoted rest).2) := next
  rw [tag, marksOf_cons split, marks_started] at read
  have whole : e.requoted = e := Content.element.inj (List.cons.inj read).1
  rw [whole] at read
  exact ⟨separated, whole, (List.cons.inj read).2⟩

end Lexeme

/-! ### Trees that are read back -/

/-- The start tag of the element is read as it stands. -/
structure Element.Faithful (e : Element) : Prop where
  separated : e.Separated
  requoted : e.requoted = e

namespace Tree
open Lexeme

mutual

/-- Where a tree is read from its own text, its start tags are read as they stand. -/
theorem faithful_of_write {t : Tree} (shaped : t.Shaped ('<' ∉ ·.toList) Element.Legible)
    {rest : List Char} {more : List Content} (read : marksOf (t.write ++ rest) = t.marks ++ more) :
    (∀ e ∈ t.elements, e.Faithful) ∧ marksOf rest = more := by
  cases t with
  | node c ts =>
    cases c with
    | root => exact shaped.elim
    | text s =>
      obtain ⟨rfl, -, plain⟩ := shaped
      rw [write, marksOf_text plain] at read
      exact ⟨fun _ mem => absurd mem List.not_mem_nil, read⟩
    | comment s =>
      obtain ⟨rfl, absent⟩ := shaped
      have next := next_comment absent rest
      rw [write, List.append_assoc, List.append_assoc] at read
      exact ⟨fun _ mem => absurd mem List.not_mem_nil,
        (List.cons.inj ((marksOf_cons next).symm.trans read)).2⟩
    | directive s =>
      obtain ⟨rfl, unclosed, other⟩ := shaped
      have next := next_directive unclosed other rest
      rw [write, List.append_assoc, List.append_assoc] at read
      exact ⟨fun _ mem => absurd mem List.not_mem_nil,
        (List.cons.inj ((marksOf_cons next).symm.trans read)).2⟩
    | element e =>
      obtain ⟨legible, below⟩ := shaped
      -- the first mark that is read is the element, so its tag has been read to the end
      rw [write, List.append_assoc, marks_node rfl, List.cons_append] at read
      obtain ⟨separated, whole, read⟩ := faithful_of_marksOf legible read
      have own : e.Faithful := ⟨separated, whole⟩
      rw [started] at read
      split at below
      · next void =>
        rw [if_pos void, if_pos void, List.nil_append] at read
        subst below
        exact ⟨List.forall_mem_singleton.mpr own, read⟩
      · next filled =>
        rw [if_neg filled, if_neg filled, List.append_assoc] at read
        split at below
        · next verbatim =>
          obtain ⟨content, until_, -⟩ := @Builder.step_verbatim [] {} e ts
            ⟨legible, separated, rfl⟩ verbatim below rest
          rw [if_pos verbatim, until_] at read
          rcases enclosed_iff.mp below with rfl | ⟨s, rfl, -⟩
          · exact ⟨List.forall_mem_singleton.mpr own, read⟩
          · exact ⟨List.forall_mem_singleton.mpr own, read⟩
        · next other =>
          rw [if_neg other] at read
          obtain ⟨inner, read⟩ := faithful_of_writeAll below.1 read
          have close := next_endTag legible.name legible.small rest
          rw [writeEndTag] at read
          simp only [List.cons_append, List.append_assoc, List.nil_append] at read
          rw [marksOf_cons close] at read
          exact ⟨List.forall_mem_cons.mpr ⟨own, inner⟩, read⟩

theorem faithful_of_writeAll {ts : List Tree}
    (shaped : ShapedAll ('<' ∉ ·.toList) Element.Legible ts) {rest : List Char}
    {more : List Content} (read : marksOf (writeAll ts ++ rest) = marksAll ts ++ more) :
    (∀ e ∈ elementsAll ts, e.Faithful) ∧ marksOf rest = more := by
  cases ts with
  | nil => exact ⟨fun _ mem => absurd mem List.not_mem_nil, read⟩
  | cons t ts =>
    rw [writeAll, List.append_assoc, marksAll_cons, List.append_assoc] at read
    obtain ⟨first, read⟩ := faithful_of_write shaped.1 read
    obtain ⟨others, read⟩ := faithful_of_writeAll shaped.2 read
    refine ⟨?_, read⟩
    rw [elementsAll, contentsAll, List.filterMap_append, List.forall_mem_append]
    exact ⟨first, others⟩

end

/-- In a document that comes back from its own text, and whose texts hold no `<`, every start tag is
read as it stands. -/
theorem faithful_of_reread {ts : List Tree}
    (shaped : ShapedAll ('<' ∉ ·.toList) Element.Legible ts)
    (back : ofSource [] (node .root ts).html = node .root ts) :
    ∀ e ∈ elementsAll ts, e.Faithful := by
  have read := marks_ofSource (node .root ts).html
  rw [back, html, String.toList_ofList, write] at read
  refine (faithful_of_writeAll shaped
    (show marksOf (writeAll ts ++ []) = marksAll ts ++ [] from ?_)).1
  rw [List.append_nil, List.append_nil]
  exact read.symm

end Tree
end Stencil.Markup

namespace Stencil.Markup

/-! ### Outlines -/

def Attribute.outline (a : Attribute) : Attribute := { a with value := a.value.map fun _ => "" }

def Element.outline (e : Element) : Element :=
  { e with attributes := e.attributes.map Attribute.outline }

def Content.outline : Content → Content
  | .text _ => .text ""
  | .element e => .element e.outline
  | c => c

namespace Tree

mutual

/-- The tree with nothing in its texts and in the values of its attributes. -/
def outline : Tree → Tree
  | node c ts => node c.outline (outlineAll ts)

def outlineAll : List Tree → List Tree
  | [] => []
  | t :: ts => t.outline :: outlineAll ts

end

/-! ### Empty texts -/

def isEmptyText : Tree → Bool
  | node (.text s) _ => s.isEmpty
  | _ => false

mutual

/-- The tree without empty texts. -/
def compact : Tree → Tree
  | node c ts => node c (compactAll ts)

def compactAll : List Tree → List Tree
  | [] => []
  | t :: ts => if t.isEmptyText then compactAll ts else t.compact :: compactAll ts

end

theorem write_of_isEmptyText {t : Tree} (empty : t.isEmptyText = true) : t.write = [] := by
  cases t with
  | node c ts =>
    cases c with
    | text s =>
      rw [isEmptyText, String.isEmpty_iff] at empty
      rw [empty]
      rfl
    | root | element _ | comment _ | directive _ => cases empty

mutual

/-- An empty text is not written. -/
theorem write_compact (t : Tree) : t.compact.write = t.write := by
  cases t with
  | node c ts =>
    cases c with
    | root => rw [compact, write, write, writeAll_compactAll ts]
    | element e => rw [compact, write, write, writeAll_compactAll ts]
    | text _ | comment _ | directive _ => rfl

theorem writeAll_compactAll (ts : List Tree) : writeAll (compactAll ts) = writeAll ts := by
  cases ts with
  | nil => rfl
  | cons t ts =>
    rw [compactAll, writeAll]
    split
    · next empty => rw [write_of_isEmptyText empty, List.nil_append, writeAll_compactAll ts]
    · rw [writeAll, write_compact t, writeAll_compactAll ts]

end

theorem html_compact (t : Tree) : t.compact.html = t.html := by
  rw [html, html, write_compact]

theorem isText_of_isEmptyText {t : Tree} (empty : t.isEmptyText = true) : t.isText = true := by
  cases t with
  | node c ts => cases c <;> first | rfl | cases empty

theorem isText_compact (t : Tree) : t.compact.isText = t.isText := by
  cases t with
  | node c ts => cases c <;> rfl

/-- Beside a text that is taken out there are no texts. -/
theorem spaced_compactAll {ts : List Tree} (spaced : Spaced ts) : Spaced (compactAll ts) := by
  induction ts with
  | nil => exact List.isChain_nil
  | cons t ts ih =>
    obtain ⟨next, spaced⟩ := List.isChain_cons.mp spaced
    rw [compactAll]
    split
    · exact ih spaced
    · refine List.isChain_cons.mpr ⟨fun t' mem text => ?_, ih spaced⟩
      rw [isText_compact] at text
      cases ts with
      | nil => cases mem
      | cons t₂ ts =>
        have other := next t₂ rfl text
        rw [compactAll] at mem
        split at mem
        · next empty =>
          rw [isText_of_isEmptyText empty] at other
          cases other
        · cases mem
          rw [isText_compact, other]

end Tree

/-! ### Double quotes -/

theorem Attribute.requoted_eq_self {a : Attribute} :
    a.requoted = a ↔ ∀ v, a.value = some v → '"' ∉ v.toList := by
  obtain ⟨name, value⟩ := a
  cases value with
  | none => simp [requoted]
  | some v =>
    constructor
    · intro same w valued mem
      obtain rfl := Option.some.inj valued
      have quoted : String.ofList (Tree.quoteValue v.toList) = v :=
        Option.some.inj (congrArg Attribute.value same)
      rw [← quoted, String.toList_ofList] at mem
      exact Lexeme.not_mem_quoteValue _ mem
    · intro unquoted
      rw [requoted, Option.map_some, Tree.quoteValue_of_not_mem (unquoted v rfl),
        String.ofList_toList]

theorem Element.requoted_eq_self {e : Element} :
    e.requoted = e ↔ ∀ a ∈ e.attributes, a.requoted = a := by
  have unfolded : e.requoted = e ↔ e.attributes.map Attribute.requoted = e.attributes :=
    ⟨congrArg Element.attributes, fun same => congrArg (Element.mk e.name) same⟩
  rw [unfolded]
  exact ⟨fun same => List.map_inj_left.mp (same.trans (List.map_id _).symm),
    fun own => (List.map_congr_left own).trans (List.map_id _)⟩

end Stencil.Markup
