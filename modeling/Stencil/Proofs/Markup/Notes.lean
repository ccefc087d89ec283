import Stencil.Proofs.Markup.Cuts
/-!
Comments, declarations and instructions of a source, from what they are read to what is written of
them. Each of them that is ended comes back as it was, but for instructions: a node keeps the question
mark of an instruction as its first character, and is written as a declaration.
-/
namespace Stencil

namespace Text

/-- The parts stand in the text one after the other, apart from each other. -/
def InOrder : List (List Char) → List Char → Prop
  | [], _ => True
  | p :: ps, s => ∃ before after, s = before ++ p ++ after ∧ InOrder ps after

namespace InOrder
variable {ps qs : List (List Char)} {s t : List Char}

theorem behind (order : InOrder ps t) (s : List Char) : InOrder ps (s ++ t) := by
  cases ps with
  | nil => trivial
  | cons p ps =>
    obtain ⟨before, after, rfl, rest⟩ := order
    exact ⟨s ++ before, after, by simp only [List.append_assoc], rest⟩

theorem append (front : InOrder ps s) (back : InOrder qs t) : InOrder (ps ++ qs) (s ++ t) := by
  induction ps generalizing s with
  | nil => exact back.behind s
  | cons p ps ih =>
    obtain ⟨before, after, rfl, rest⟩ := front
    exact ⟨before, after ++ t, by simp only [List.append_assoc], ih rest⟩

theorem sublist (order : InOrder ps s) (fewer : qs.Sublist ps) : InOrder qs s := by
  induction fewer generalizing s with
  | slnil => trivial
  | cons p _ ih =>
    obtain ⟨before, after, rfl, rest⟩ := order
    exact (ih rest).behind _
  | cons_cons p _ ih =>
    obtain ⟨before, after, rfl, rest⟩ := order
    exact ⟨before, after, rfl, ih rest⟩

theorem self (s : List Char) : InOrder [s] s := ⟨[], [], by simp, trivial⟩

theorem flatten (ps : List (List Char)) : InOrder ps ps.flatten := by
  induction ps with
  | nil => trivial
  | cons p ps ih => exact (self p).append ih

end InOrder

end Text

namespace Markup
open Text

/-- A comment, a declaration or an instruction. -/
def Content.isNote : Content → Bool
  | .comment _ => true
  | .directive _ => true
  | _ => false

/-- A comment, a declaration or an instruction of a source: the node that it becomes, and its text. -/
structure Note where
  content : Content
  text : List Char

namespace Note

/-- The kind is told by the start of the text. Two hyphens make a declaration a comment. -/
def kind (n : Note) : NoteKind :=
  if startsWith NoteKind.comment.opener n.text then .comment
  else if startsWith NoteKind.instruction.opener n.text then .instruction
  else .declaration

/-- The text ends with a closer that stands behind its opener. -/
def Ended (n : Note) : Prop := ∃ body, n.text = n.kind.opener ++ body ++ n.kind.closer

/-- What is written of the node. -/
def written (n : Note) : List Char := (Tree.node n.content []).write

def ofCut? (r : Cut) : Option Note :=
  match r.lexeme with
  | .comment s => some ⟨.comment s, r.text⟩
  | .directive s => some ⟨.directive s, r.text⟩
  | _ => none

/-- The notes of a source. -/
def ofSource (s : List Char) : List Note := (Lexeme.cuts s).filterMap ofCut?

end Note

/-! ### Notes in the source -/

namespace NoteKind

/-- The node that a note of the kind becomes. -/
def content (body : String) : NoteKind → Content
  | comment => .comment body
  | declaration => .directive body
  | instruction => .directive ("?" ++ body)

end NoteKind

namespace Lexeme

theorem readBody_cases (closer s : List Char) :
    ∃ body tail, s = body ++ tail ++ (readBody closer s).2 ∧
      (readBody closer s).1 = String.ofList body ∧
      (tail = closer ∨ tail = [] ∧ cut? closer body = none) := by
  rw [readBody]
  cases found : cut? closer s with
  | none => exact ⟨s, [], by simp, rfl, .inr ⟨rfl, found⟩⟩
  | some r => exact ⟨r.1, closer, eq_append_of_cut? found, rfl, .inl rfl⟩

theorem item?_of_startTag? {s rest : List Char} {l : Lexeme}
    (read : startTag? s = some (l, rest)) : ∃ e held, l.item? = some (.element e, held) := by
  simp only [startTag?] at read
  split at read
  · cases read
  · split at read
    · cases read
      exact ⟨_, _, rfl⟩
    · split at read
      · cases read
        exact ⟨_, _, rfl⟩
      · cases read
        exact ⟨_, _, rfl⟩

/-- A note is read by its opener, up to its closer. -/
theorem next_note {c : Char} {s rest : List Char} {l : Lexeme} (read : next c s = (l, rest))
    {content : Content} (item : l.item? = some (content, [])) (note : content.isNote = true) :
    ∃ (k : NoteKind) (t : List Char), c :: s = k.opener ++ t ∧
      content = k.content (readBody k.closer t).1 ∧ rest = (readBody k.closer t).2 ∧
      (k = .declaration → startsWith "--".toList t = false) := by
  rcases next_cases read with none | ⟨k, t, opened, rfl, left, declared⟩ | ⟨a, t, rfl, rfl, letter⟩
  · rw [none] at item
    cases item
  · have own : (k.lexeme (readBody k.closer t).1).item? =
        some (k.content (readBody k.closer t).1, []) := by
      cases k <;> rfl
    rw [own] at item
    cases item
    exact ⟨k, t, opened, rfl, left, declared⟩
  · rw [next_letter letter] at read
    cases found : startTag? (a :: t) with
    | none =>
      rw [found] at read
      cases read
      cases item
    | some r =>
      rw [found] at read
      obtain ⟨e, held, element⟩ := item?_of_startTag? (found.trans (congrArg some read))
      cases element.symm.trans item
      cases note

end Lexeme

namespace Note
variable {n : Note} {s : List Char}

/-- The notes of a source stand in it one after the other. -/
theorem inOrder_texts (s : List Char) : InOrder ((ofSource s).map text) s := by
  have pieces := InOrder.flatten ((Lexeme.cuts s).map Cut.text)
  rw [← List.flatMap_def, Lexeme.flatMap_text_cuts] at pieces
  refine pieces.sublist ?_
  rw [ofSource]
  generalize Lexeme.cuts s = rs
  induction rs with
  | nil => exact .slnil
  | cons r rs ih =>
    rw [List.filterMap_cons, List.map_cons]
    cases note : ofCut? r with
    | none => exact ih.cons _
    | some n =>
      have own : n.text = r.text := by
        rw [ofCut?] at note
        split at note
        · cases note
          rfl
        · cases note
          rfl
        · cases note
      rw [List.map_cons, own]
      exact ih.cons_cons _

/-- What a note of a source is made of. Only a note at the end of the source may lack its closer. -/
theorem parts_of_mem (mem : n ∈ ofSource s) : ∃ (k : NoteKind) (body tail : List Char),
    n.text = k.opener ++ body ++ tail ∧ n.content = k.content (String.ofList body) ∧
      (tail = k.closer ∨ tail = [] ∧ cut? k.closer body = none) ∧
      (k = .declaration → startsWith "--".toList (body ++ tail) = false) := by
  obtain ⟨r, mem, note⟩ := List.mem_filterMap.mp mem
  obtain ⟨c, t, text, read⟩ := Lexeme.next_of_mem_cuts mem
  have item : r.lexeme.item? = some (n.content, []) ∧ n.content.isNote = true ∧ n.text = r.text := by
    rw [ofCut?] at note
    split at note
    · next kind =>
      cases note
      exact ⟨by rw [kind, Lexeme.item?], rfl, rfl⟩
    · next kind =>
      cases note
      exact ⟨by rw [kind, Lexeme.item?], rfl, rfl⟩
    · cases note
  obtain ⟨item, isNote, own⟩ := item
  obtain ⟨k, t, opened, content, rest, declared⟩ := Lexeme.next_note read item isNote
  obtain ⟨body, tail, whole, first, ending⟩ := Lexeme.readBody_cases k.closer t
  rw [← rest] at whole
  refine ⟨k, body, tail, ?_, by rw [content, first], ending, fun kind => ?_⟩
  · rw [opened, whole, ← List.append_assoc, List.append_cancel_right_eq, ← List.append_assoc]
      at text
    rw [own, text]
  · have plain := declared kind
    rw [Bool.eq_false_iff] at plain ⊢
    intro starts
    obtain ⟨u, starts⟩ := Option.isSome_iff_exists.mp starts
    refine plain ?_
    rw [whole, eq_append_of_dropPrefix? starts, List.append_assoc, startsWith, dropPrefix?_append]
    rfl

theorem kind_eq {k : NoteKind} {u : List Char} (text : n.text = k.opener ++ u)
    (declared : k = .declaration → startsWith "--".toList u = false) : n.kind = k := by
  rw [kind, text]
  cases k with
  | comment =>
    rw [startsWith, dropPrefix?_append]
    rfl
  | declaration =>
    have comment : startsWith NoteKind.comment.opener (NoteKind.declaration.opener ++ u) =
        startsWith "--".toList u := rfl
    rw [comment, declared rfl]
    rfl
  | instruction => rfl

/-- A note that is ended is written back, with an exclamation mark for a question mark that opens
it. -/
theorem written_eq (mem : n ∈ ofSource s) (ended : n.Ended) :
    n.written = if n.kind = .instruction then "<!".toList ++ n.text.tail else n.text := by
  obtain ⟨k, body, tail, text, content, ending, declared⟩ := parts_of_mem mem
  have kind : n.kind = k := kind_eq (text.trans (List.append_assoc ..)) declared
  have closed : tail = k.closer := by
    refine ending.resolve_right ?_
    rintro ⟨rfl, absent⟩
    obtain ⟨inner, ended⟩ := ended
    rw [text, kind, List.append_nil, List.append_assoc, List.append_cancel_left_eq] at ended
    rw [ended, ← List.append_nil (inner ++ k.closer)] at absent
    obtain ⟨_, _, found, -⟩ := exists_cut?_le k.closer inner []
    rw [found] at absent
    cases absent
  rw [written, content, text, closed, kind]
  cases k with
  | comment | declaration =>
    rw [NoteKind.content, Tree.write, String.toList_ofList (l := body), if_neg nofun]
    rfl
  | instruction =>
    rw [NoteKind.content, Tree.write, String.toList_append, String.toList_ofList (l := body),
      if_pos rfl]
    rfl

theorem written_iff (mem : n ∈ ofSource s) (ended : n.Ended) :
    n.written = n.text ↔ n.kind ≠ .instruction := by
  rw [written_eq mem ended]
  split
  · next kind =>
    refine iff_of_false (fun same => ?_) (not_not_intro kind)
    have size := congrArg List.length same
    rw [List.length_append, List.length_tail] at size
    change 2 + _ = _ at size
    omega
  · next kind => exact iff_of_true rfl kind

end Note

/-! ### Notes in the written tree -/

namespace Tree
variable {P : String → Prop} {Q : Element → Prop}

/-- The notes of a tree, each as it is written. -/
def notes (cs : List Content) : List (List Char) :=
  (cs.filter Content.isNote).map fun c => (node c []).write

mutual

theorem inOrder_write {t : Tree} (shaped : t.Shaped P Q) : InOrder (notes t.contents) t.write := by
  cases t with
  | node c ts =>
    cases c with
    | root => exact shaped.elim
    | text s =>
      obtain ⟨rfl, -⟩ := shaped
      trivial
    | comment s | directive s =>
      obtain ⟨rfl, -⟩ := shaped
      exact .self _
    | element e =>
      obtain ⟨-, below⟩ := shaped
      have inner : InOrder (notes (contentsAll ts))
          (if e.isVoid then [] else writeAll ts ++ writeEndTag e) := by
        split at below
        · rw [below]
          trivial
        · next filled =>
          have behind : InOrder [] (writeEndTag e) := trivial
          rw [if_neg filled, ← List.append_nil (notes _)]
          refine InOrder.append ?_ behind
          split at below
          · rcases enclosed_iff.mp below with rfl | ⟨s, rfl, -⟩
            · trivial
            · trivial
          · exact inOrder_writeAll below.1
      exact inner.behind _

theorem inOrder_writeAll {ts : List Tree} (shaped : ShapedAll P Q ts) :
    InOrder (notes (contentsAll ts)) (writeAll ts) := by
  cases ts with
  | nil => trivial
  | cons t ts =>
    rw [contentsAll, notes, List.filter_append, List.map_append]
    exact (inOrder_write shaped.1).append (inOrder_writeAll shaped.2)

end

/-- The node of an item, if it is a note. -/
def note? (item : Content × List Char) : Option Content :=
  if item.1.isNote then some item.1 else none

theorem filter_isNote (ts : List Char) (c : Content) :
    [c].filter Content.isNote = (ownItem ts c).filterMap note? := by
  cases c <;> rfl

mutual

theorem notes_of_items (t : Tree) :
    t.contents.filter Content.isNote = t.items.filterMap note? := by
  cases t with
  | node c ts =>
    rw [contents, items, ← List.singleton_append, List.filter_append, List.filterMap_append,
      filter_isNote (writeAll ts), notes_of_itemsAll ts]

theorem notes_of_itemsAll (ts : List Tree) :
    (contentsAll ts).filter Content.isNote = (itemsAll ts).filterMap note? := by
  cases ts with
  | nil => rfl
  | cons t ts =>
    rw [contentsAll, itemsAll, List.filter_append, List.filterMap_append, notes_of_items t,
      notes_of_itemsAll ts]

end

/-- The notes of a tree are those of its source, in their order. -/
theorem remains_notes (rules : List IgnoreRule) (source : String) :
    Remains rules ((Tree.ofSource rules source).contents.filter Content.isNote)
      ((Note.ofSource source.toList).map Note.content) := by
  have cut : ∀ r : Cut, (r.lexeme.item?.bind note?) = (Note.ofCut? r).map Note.content := by
    rintro ⟨l, t, rest⟩
    cases l <;> rfl
  have read := (remains_itemsAll rules source).filterMap note?
  rw [List.filterMap_filterMap, funext cut, ← List.map_filterMap, ← notes_of_itemsAll] at read
  obtain ⟨ts, whole, -⟩ := Tree.ofSource_built rules source
  rw [whole] at read ⊢
  exact read

/-- Each comment and each declaration that is ended and becomes a node comes back as it was, in its
place among the others. An instruction comes back as a declaration. -/
theorem notes_written_back_iff (rules : List IgnoreRule) (source : String) :
    ∃ notes : List Note,
      notes.Sublist (Note.ofSource source.toList) ∧
      (rules = [] → notes = Note.ofSource source.toList) ∧
      (Tree.ofSource rules source).contents.filter Content.isNote = notes.map Note.content ∧
      InOrder (notes.map Note.text) source.toList ∧
      InOrder (notes.map Note.written) (Tree.ofSource rules source).html.toList ∧
      ∀ n ∈ notes, n.Ended → (n.written = n.text ↔ n.kind ≠ .instruction) := by
  have remains := remains_notes rules source
  obtain ⟨kept, fewer, same, all⟩ : ∃ kept : List Note,
      kept.Sublist (Note.ofSource source.toList) ∧
      (Tree.ofSource rules source).contents.filter Content.isNote = kept.map Note.content ∧
      (rules = [] → kept = Note.ofSource source.toList) := by
    by_cases none : rules = []
    · exact ⟨_, .refl _, remains.all none, fun _ => rfl⟩
    · obtain ⟨kept, fewer, same⟩ := List.sublist_map_iff.mp remains.sublist
      exact ⟨kept, fewer, same, fun empty => absurd empty none⟩
  refine ⟨kept, fewer, all, same, (Note.inOrder_texts _).sublist (fewer.map _), ?_,
    fun n mem => Note.written_iff (fewer.subset mem)⟩
  obtain ⟨ts, whole, built, -⟩ := Tree.ofSource_built rules source
  rw [whole] at same ⊢
  have written : notes (contentsAll ts) = kept.map Note.written := by
    have same : (contentsAll ts).filter Content.isNote = kept.map Note.content := same
    rw [notes, same, List.map_map]
    rfl
  rw [html, write, String.toList_ofList (l := writeAll ts), ← written]
  exact inOrder_writeAll built

/-- The declaration at the top of a document comes back with an exclamation mark. -/
theorem instruction_written_as_declaration :
    let source := "<?xml version=\"1.0\"?><!-- a --><!DOCTYPE html><p>b</p>"
    let notes := Note.ofSource source.toList
    notes.map Note.text = ["<?xml version=\"1.0\"?>".toList, "<!-- a -->".toList,
        "<!DOCTYPE html>".toList] ∧
      notes.map Note.content = [.directive "?xml version=\"1.0\"?", .comment " a ",
        .directive "DOCTYPE html"] ∧
      (ofSource [] source).html = "<!?xml version=\"1.0\"?><!-- a --><!DOCTYPE html><p>b</p>" ∧
      ¬ "<?".toList <:+: (ofSource [] source).html.toList := by
  decide +kernel

end Tree
end Markup
end Stencil
