import Stencil.Proofs.Markup.Marks
import Stencil.Proofs.Markup.Offsets
/-!
A source as the pieces that its lexemes are read from. The pieces follow each other and make up the
source, and the nodes of its tree, its texts apart, come from the pieces in their order. Rules leave
out some of the nodes and change nothing else.
-/
namespace Stencil.Markup

/-- One lexeme of a source where it stands. -/
structure Cut where
  lexeme : Lexeme
  /-- The text that the lexeme is read from. -/
  text : List Char
  /-- What stands behind that text. -/
  rest : List Char

namespace Lexeme
open Text
variable {s : List Char}

/-- The pieces of a source. -/
def cuts : List Char → List Cut
  | [] => []
  | c :: s =>
    let r := next c s
    ⟨r.1, (c :: s).take (s.length + 1 - r.2.length), r.2⟩ :: cuts r.2
termination_by s => s.length
decreasing_by have := length_next_le c s; simp; omega

/-- A reader leaves an end of the text that it is given. -/
theorem next_suffix (c : Char) (s : List Char) : (next c s).2 <:+ c :: s := by
  obtain ⟨-, -, taken, text, -⟩ := nextAt?_lands (at_zero (c :: s))
  exact ⟨taken, text.symm⟩

theorem take_append_next (c : Char) (s : List Char) :
    (c :: s).take (s.length + 1 - (next c s).2.length) ++ (next c s).2 = c :: s := by
  obtain ⟨taken, text⟩ := next_suffix c s
  have size : s.length + 1 - (next c s).2.length = taken.length := by
    have := congrArg List.length text
    rw [List.length_append, List.length_cons] at this
    omega
  rw [size, ← text, List.take_left]

/-- The pieces make up the source. -/
theorem flatMap_text_cuts (s : List Char) : (cuts s).flatMap Cut.text = s := by
  fun_induction cuts s with
  | case1 => rfl
  | case2 c s r ih => rw [List.flatMap_cons, ih, take_append_next]

theorem map_lexeme_cuts (s : List Char) : (cuts s).map Cut.lexeme = ofSource s := by
  fun_induction cuts s with
  | case1 => rw [ofSource, List.map_nil]
  | case2 c s r ih => rw [List.map_cons, ih, ofSource]

/-- What a piece is read from, and how reading goes on behind it. -/
theorem cuts_split {before after : List Cut} {r : Cut} (split : cuts s = before ++ r :: after) :
    ∃ c t, r.text ++ r.rest = c :: t ∧ next c t = (r.lexeme, r.rest) ∧ after = cuts r.rest := by
  fun_induction cuts s generalizing before with
  | case1 => simp at split
  | case2 c s first =>
    rename_i ih
    cases before with
    | nil =>
      obtain ⟨rfl, rfl⟩ := List.cons.inj split
      exact ⟨c, s, take_append_next c s, rfl, rfl⟩
    | cons b before => exact ih (List.cons.inj split).2

theorem next_of_mem_cuts {r : Cut} (mem : r ∈ cuts s) :
    ∃ c t, r.text ++ r.rest = c :: t ∧ next c t = (r.lexeme, r.rest) := by
  obtain ⟨before, after, split⟩ := List.append_of_mem mem
  obtain ⟨c, t, text, read, -⟩ := cuts_split split
  exact ⟨c, t, text, read⟩

end Lexeme

/-! ### Nodes with what they hold verbatim -/

/-- What is left of a list where rules may leave something out. Without rules all is left. -/
structure Remains {α : Type} (rules : List IgnoreRule) (xs ys : List α) : Prop where
  sublist : xs.Sublist ys
  all : rules = [] → xs = ys

namespace Remains
variable {α β : Type} {rules : List IgnoreRule} {xs ys zs : List α}

theorem refl (xs : List α) : Remains rules xs xs := ⟨.refl xs, fun _ => rfl⟩

theorem trans (first : Remains rules xs ys) (second : Remains rules ys zs) :
    Remains rules xs zs :=
  ⟨first.sublist.trans second.sublist, fun none => (first.all none).trans (second.all none)⟩

theorem append_right (remains : Remains rules xs ys) (zs : List α) :
    Remains rules (xs ++ zs) (ys ++ zs) :=
  ⟨remains.sublist.append_right zs, fun none => by rw [remains.all none]⟩

theorem filterMap (remains : Remains rules xs ys) (f : α → Option β) :
    Remains rules (xs.filterMap f) (ys.filterMap f) :=
  ⟨remains.sublist.filterMap f, fun none => by rw [remains.all none]⟩

end Remains

/-- The node that a lexeme makes, if that is no text, with what the node holds verbatim. -/
def Lexeme.item? : Lexeme → Option (Content × List Char)
  | text _ => none
  | comment s => some (.comment s, [])
  | directive s => some (.directive s, [])
  | opening e => some (.element e, [])
  | leaf e => some (.element e, [])
  | verbatim e s => some (.element e, s.toList)
  | closing _ => none

/-! ### The first lexeme of a text -/

/-- The kinds of notes: comments, declarations and instructions. -/
inductive NoteKind where
  | comment
  | declaration
  | instruction
  deriving DecidableEq

namespace NoteKind

def opener : NoteKind → List Char
  | comment => "<!--".toList
  | declaration => "<!".toList
  | instruction => "<?".toList

def closer : NoteKind → List Char
  | comment => "-->".toList
  | declaration => ">".toList
  | instruction => ">".toList

/-- The lexeme of a note with the body. -/
def lexeme (body : String) : NoteKind → Lexeme
  | comment => .comment body
  | declaration => .directive body
  | instruction => .directive ("?" ++ body)

end NoteKind

/-- A first lexeme that makes a node other than a text is a note, which is read up to its closer, or
it starts with a letter behind `<`. -/
theorem Lexeme.next_cases {c : Char} {s rest : List Char} {l : Lexeme} (read : next c s = (l, rest)) :
    l.item? = none ∨
    (∃ (k : NoteKind) (t : List Char), c :: s = k.opener ++ t ∧
      l = k.lexeme (readBody k.closer t).1 ∧ rest = (readBody k.closer t).2 ∧
      (k = .declaration → Text.startsWith "--".toList t = false)) ∨
    ∃ a t, c = '<' ∧ s = a :: t ∧ a.isAlpha = true := by
  rw [next.eq_def] at read
  split at read
  · cases read
    exact .inl rfl
  · next angle =>
    rw [not_not] at angle
    subst angle
    split at read
    · next t =>
      cases read
      exact .inr (.inl ⟨.comment, t, rfl, rfl, rfl, fun same => absurd same (by decide)⟩)
    · split at read
      · cases read
        exact .inl rfl
      · cases read
        exact .inl rfl
    · next t apart =>
      cases read
      refine .inr (.inl ⟨.declaration, t, rfl, rfl, rfl, fun _ => ?_⟩)
      rw [Bool.eq_false_iff]
      intro starts
      obtain ⟨t', starts⟩ := Option.isSome_iff_exists.mp starts
      exact apart t' (Text.eq_append_of_dropPrefix? starts)
    · next t =>
      cases read
      exact .inr (.inl ⟨.instruction, t, rfl, rfl, rfl, fun same => absurd same (by decide)⟩)
    · next a t _ _ _ _ =>
      split at read
      · next letter => exact .inr (.inr ⟨a, t, rfl, rfl, letter⟩)
      · cases read
        exact .inl rfl
    · cases read
      exact .inl rfl

/-! ### Items of a tree -/

namespace Tree

/-- What a node adds to the list of items: nothing if it is a text. -/
def ownItem (ts : List Char) : Content → List (Content × List Char)
  | .text _ => []
  | .element e => [(.element e, if e.isVerbatim then ts else [])]
  | c => [(c, [])]

mutual

/-- The nodes that are no texts, in document order, each with what it holds verbatim. -/
def items : Tree → List (Content × List Char)
  | node c ts => ownItem (writeAll ts) c ++ itemsAll ts

def itemsAll : List Tree → List (Content × List Char)
  | [] => []
  | t :: ts => t.items ++ itemsAll ts

end

theorem itemsAll_append (ts ts' : List Tree) : itemsAll (ts ++ ts') = itemsAll ts ++ itemsAll ts' := by
  induction ts with
  | nil => rfl
  | cons t ts ih => rw [List.cons_append, itemsAll, ih, itemsAll, List.append_assoc]

theorem itemsAll_singleton (t : Tree) : itemsAll [t] = t.items := List.append_nil _

theorem items_text (s : String) (ts : List Tree) : (node (.text s) ts).items = itemsAll ts := rfl

theorem ownItem_element {e : Element} (plain : e.isVerbatim = false) (s : List Char) :
    ownItem s (.element e) = [(.element e, [])] := by
  rw [ownItem, if_neg (by simp [plain])]

end Tree

namespace Builder
variable {rules : List IgnoreRule} {b : Builder}

/-- What has been read besides text, in document order. -/
def items (b : Builder) : List (Content × List Char) :=
  b.opened.reverse.flatMap (fun o => Tree.itemsAll o.2.reverse ++ [(.element o.1, [])]) ++
    Tree.itemsAll b.siblings.reverse

theorem items_addText (s : String) : (b.addText s).items = b.items := by
  have joined : ∀ ts, Tree.itemsAll (joinText s ts).reverse = Tree.itemsAll ts.reverse := by
    intro ts
    rw [joinText.eq_def]
    split
    · rw [List.reverse_cons, List.reverse_cons, Tree.itemsAll_append, Tree.itemsAll_append,
        Tree.itemsAll_singleton, Tree.itemsAll_singleton, Tree.items_text, Tree.items_text]
    · rw [List.reverse_cons, Tree.itemsAll_append, Tree.itemsAll_singleton, Tree.items_text]
      exact List.append_nil _
  rw [addText]
  split
  · rfl
  · rw [items, items]
    dsimp only
    rw [joined]

theorem items_put (ts : List Tree) : (b.put ts).items = b.items ++ Tree.itemsAll ts := by
  rw [put, items, items]
  dsimp only
  rw [List.reverse_append, List.reverse_reverse, Tree.itemsAll_append, List.append_assoc]

theorem items_openElement (e : Element) :
    (b.openElement e).items = b.items ++ [(.element e, [])] := by
  rw [openElement, items, items, List.reverse_cons, List.flatMap_append, List.flatMap_singleton,
    ← List.append_assoc]
  exact List.append_nil _

/-- Closing an element that has just been opened puts it behind its siblings, or leaves it out. -/
theorem remains_enclose (rules : List IgnoreRule) (e : Element) (ts : List Tree) :
    Remains rules (((b.openElement e).put ts).closeElement rules).items
      (b.put [.node (.element e) ts]).items := by
  by_cases matched : rules.any (·.matches e) = true
  · have left : (((b.openElement e).put ts).closeElement rules).items = b.items := by
      simp [closeElement, put, openElement, matched, items]
    rw [left, items_put]
    refine ⟨List.sublist_append_left _ _, ?_⟩
    rintro rfl
    cases matched
  · rw [closeElement_put e ts (by simpa [Element.Stays] using matched)]
    exact .refl _

theorem remains_closeElement (formed : Formed rules b) :
    Remains rules (b.closeElement rules).items b.items := by
  obtain ⟨siblings, opened, dropped⟩ := b
  cases opened with
  | nil => exact .refl _
  | cons o outer =>
    obtain ⟨e, before⟩ := o
    obtain ⟨⟨holder, -⟩, -⟩ := List.forall_mem_cons.mp formed.opened
    have inner : (Builder.mk siblings ((e, before) :: outer) dropped) =
        ((Builder.mk before outer dropped).openElement e).put siblings.reverse := by
      rw [put, openElement, List.reverse_reverse, List.append_nil]
    rw [inner]
    have closed := remains_enclose (b := ⟨before, outer, dropped⟩) rules e siblings.reverse
    rwa [items_put, Tree.itemsAll_singleton, Tree.items, Tree.ownItem_element holder.plain,
      ← List.append_assoc, ← items_openElement, ← items_put] at closed

theorem remains_closeMany (formed : Formed rules b) (n : Nat) :
    Remains rules (b.closeMany rules n).items b.items := by
  induction n generalizing b with
  | zero => exact .refl _
  | succ n ih => exact (ih formed.closeElement).trans (remains_closeElement formed)

/-- An element with a text in it is put behind what has been read, or left out. -/
theorem remains_verbatim (rules : List IgnoreRule) (e : Element) (s : String) :
    Remains rules (b.step rules (.verbatim e s)).items
      (b.items ++ [(.element e, if e.isVerbatim then s.toList else [])]) := by
  by_cases empty : s = ""
  · have closed := remains_enclose (b := b) rules e []
    rw [items_put, Tree.itemsAll_singleton, Tree.items, Tree.writeAll, Tree.itemsAll,
      List.append_nil, Tree.ownItem] at closed
    rw [empty]
    exact closed
  · have closed := remains_enclose (b := b) rules e [.node (.text s) []]
    rw [items_put, Tree.itemsAll_singleton, Tree.items, Tree.writeAll, Tree.write, Tree.writeAll,
      List.append_nil, Tree.itemsAll_singleton, Tree.items_text, Tree.itemsAll, List.append_nil,
      Tree.ownItem] at closed
    rw [step, addText_eq_put empty rfl]
    exact closed

theorem remains_step (formed : Formed rules b) {l : Lexeme} (readable : l.Formed) :
    Remains rules (b.step rules l).items (b.items ++ l.item?.toList) := by
  have idle : b.items = b.items ++ Option.toList none := (List.append_nil _).symm
  cases l with
  | text s =>
    rw [step, items_addText]
    exact idle ▸ Remains.refl _
  | comment s =>
    exact (items_put (b := b) [.node (.comment s) []]).symm ▸ Remains.refl _
  | directive s =>
    exact (items_put (b := b) [.node (.directive s) []]).symm ▸ Remains.refl _
  | opening e =>
    rw [step, items_openElement]
    exact .refl _
  | leaf e =>
    have closed := remains_verbatim (b := b) rules e ""
    rwa [String.toList_empty, ite_self] at closed
  | verbatim e s =>
    have closed := remains_verbatim (b := b) rules e s
    rwa [if_pos readable.2.2.1] at closed
  | closing name =>
    rw [step, Lexeme.item?, ← idle]
    split
    · exact remains_closeMany formed _
    · exact .refl _

theorem remains_foldl (formed : Formed rules b) {ls : List Lexeme} (readable : ∀ l ∈ ls, l.Formed) :
    Remains rules (ls.foldl (step rules) b).items (b.items ++ ls.filterMap Lexeme.item?) := by
  induction ls generalizing b with
  | nil =>
    rw [List.foldl_nil, List.filterMap_nil, List.append_nil]
    exact .refl _
  | cons l ls ih =>
    obtain ⟨first, others⟩ := List.forall_mem_cons.mp readable
    have items : b.items ++ (l :: ls).filterMap Lexeme.item? =
        (b.items ++ l.item?.toList) ++ ls.filterMap Lexeme.item? := by
      rw [List.append_assoc, List.filterMap_cons]
      cases l.item? with
      | none => rfl
      | some p => rfl
    rw [List.foldl_cons, items]
    exact (ih (formed.step first) others).trans ((remains_step formed first).append_right _)

end Builder

/-- The nodes of a tree that are no texts come from the pieces of the source in their order. -/
theorem Tree.remains_itemsAll (rules : List IgnoreRule) (source : String) :
    Remains rules (itemsAll (Tree.ofSource rules source).children)
      ((Lexeme.cuts source.toList).filterMap (·.lexeme.item?)) := by
  have readable := Lexeme.formed_ofSource source.toList
  have formed : Builder.Formed rules _ := Builder.formed_foldl Builder.formed_empty readable
  have read := Builder.remains_foldl (show Builder.Formed rules {} from Builder.formed_empty) readable
  have closed := (Builder.remains_closeMany formed
    ((Lexeme.ofSource source.toList).foldl (Builder.step rules) {}).opened.length).trans read
  rw [Builder.items, Builder.opened_closeMany, List.drop_length, ← Lexeme.map_lexeme_cuts,
    List.filterMap_map] at closed
  rw [Lexeme.map_lexeme_cuts] at closed
  exact closed

end Stencil.Markup
