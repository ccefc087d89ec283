import Stencil.Proofs.Markup.Cuts
/-!
Elements whose content is taken as it stands, from the source. The content goes on to the first place
of `</` and the name, whatever follows it there, so it ends too early where a longer name starts with
that of the element.
-/
namespace Stencil.Markup
open Text

/-! ### End tags -/

namespace Lexeme
variable {name behind s : List Char}

/-- `</` and the name, in any ASCII case, start the text. -/
def ClosesAt (name s : List Char) : Prop :=
  ∃ n rest, s = '<' :: '/' :: (n ++ rest) ∧ lowerAscii n = name

/-- An end tag of the name starts the text: its name ends there, by a blank, a slash or `>`. -/
def EndTagAt (name s : List Char) : Prop :=
  ∃ n c rest, s = '<' :: '/' :: (n ++ c :: rest) ∧ lowerAscii n = name ∧ endsTagName c = true

theorem EndTagAt.closes (tag : EndTagAt name s) : ClosesAt name s := by
  obtain ⟨n, c, rest, text, same, -⟩ := tag
  exact ⟨n, c :: rest, text, same⟩

theorem not_closesAt_nil : ¬ ClosesAt name [] := by
  rintro ⟨n, rest, text, -⟩
  cases text

theorem dropEndTag?_eq_some_iff {rest : List Char} :
    dropEndTag? name s = some rest ↔ ∃ n, s = n ++ rest ∧ lowerAscii n = name := by
  induction name generalizing s with
  | nil =>
    rw [dropEndTag?, Option.some.injEq]
    constructor
    · rintro rfl
      exact ⟨[], rfl, rfl⟩
    · rintro ⟨n, rfl, same⟩
      rw [List.map_eq_nil_iff.mp same, List.nil_append]
  | cons a name ih =>
    cases s with
    | nil =>
      rw [dropEndTag?]
      refine iff_of_false (fun found => Option.some_ne_none _ found.symm) ?_
      rintro ⟨n, text, same⟩
      rw [(List.append_eq_nil_iff.mp text.symm).1] at same
      cases same
    | cons c s =>
      rw [dropEndTag?]
      split
      · next first =>
        rw [ih]
        constructor
        · rintro ⟨n, rfl, rfl⟩
          exact ⟨c :: n, rfl, congrArg (· :: lowerAscii n) first⟩
        · rintro ⟨n, text, same⟩
          cases n with
          | nil => cases same
          | cons d n =>
            exact ⟨n, (List.cons.inj text).2, (List.cons.inj same).2⟩
      · next first =>
        refine iff_of_false (fun found => Option.some_ne_none _ found.symm) ?_
        rintro ⟨n, text, same⟩
        cases n with
        | nil => cases same
        | cons d n =>
          rw [(List.cons.inj text).1] at first
          exact first (List.cons.inj same).1

theorem toLower_eq_slash (c : Char) : (c.toLower == '/') = (c == '/') :=
  apply_toLower (f := (· == '/')) (by decide) c

theorem dropEndTag?_eq_some_tag_iff {rest : List Char} :
    dropEndTag? ('<' :: '/' :: name) s = some rest ↔
      ∃ n, s = '<' :: '/' :: (n ++ rest) ∧ lowerAscii n = name := by
  rw [dropEndTag?_eq_some_iff]
  constructor
  · rintro ⟨n, rfl, same⟩
    obtain ⟨a, n, rfl, angle, same⟩ := List.map_eq_cons_iff.mp same
    obtain ⟨b, n, rfl, slash, same⟩ := List.map_eq_cons_iff.mp same
    have angle : a = '<' := by simpa [angle] using toLower_eq_angle a
    have slash : b = '/' := by simpa [slash] using toLower_eq_slash b
    exact ⟨n, by rw [angle, slash]; rfl, same⟩
  · rintro ⟨n, rfl, rfl⟩
    exact ⟨'<' :: '/' :: n, rfl, rfl⟩

theorem closesAt_iff : ClosesAt name s ↔ (dropEndTag? ('<' :: '/' :: name) s).isSome = true := by
  rw [Option.isSome_iff_exists, ClosesAt, exists_comm]
  exact exists_congr fun rest => dropEndTag?_eq_some_tag_iff.symm

theorem endTagAt_iff : EndTagAt name s ↔
    ((dropEndTag? ('<' :: '/' :: name) s).any (·.head?.any endsTagName)) = true := by
  rw [Option.any_eq_true]
  constructor
  · rintro ⟨n, c, rest, text, same, ends⟩
    exact ⟨c :: rest, dropEndTag?_eq_some_tag_iff.mpr ⟨n, text, same⟩, ends⟩
  · rintro ⟨rest, found, ends⟩
    obtain ⟨n, text, same⟩ := dropEndTag?_eq_some_tag_iff.mp found
    cases rest with
    | nil => cases ends
    | cons c rest => exact ⟨n, c, rest, text, same, ends⟩

instance (name s : List Char) : Decidable (ClosesAt name s) := decidable_of_iff _ closesAt_iff.symm

instance (name s : List Char) : Decidable (EndTagAt name s) := decidable_of_iff _ endTagAt_iff.symm

/-! ### Content -/

/-- What stands behind the tag that starts the text. -/
def behindTag (s : List Char) : List Char := (s.dropWhile (· ≠ '>')).drop 1

/-- The content that stands behind a start tag of the name, and the text behind its element: the
content goes on to the first end tag of the name, or to the end of the text. -/
inductive Delimits (name behind : List Char) : List Char → List Char → Prop
  | closed (i : Nat) (tag : EndTagAt name (behind.drop i))
      (first : ∀ j < i, ¬ EndTagAt name (behind.drop j)) :
      Delimits name behind (behind.take i) (behindTag (behind.drop i))
  | unclosed (none : ∀ j, ¬ EndTagAt name (behind.drop j)) : Delimits name behind behind []

/-- The first `</` with the name, if there is one, is an end tag. -/
def FirstCloserEnds (name behind : List Char) : Prop :=
  ∀ i, ClosesAt name (behind.drop i) → (∀ j < i, ¬ ClosesAt name (behind.drop j)) →
    EndTagAt name (behind.drop i)

theorem untilEndTag_spec (name s : List Char) :
    ∃ i ≤ s.length, untilEndTag ('<' :: '/' :: name) s = (s.take i, behindTag (s.drop i)) ∧
      (∀ j < i, ¬ ClosesAt name (s.drop j)) ∧ (ClosesAt name (s.drop i) ∨ i = s.length) := by
  induction s with
  | nil => exact ⟨0, le_rfl, rfl, fun j before => absurd before j.not_lt_zero, .inr rfl⟩
  | cons c s ih =>
    rw [untilEndTag]
    cases found : dropEndTag? ('<' :: '/' :: name) (c :: s) with
    | some rest =>
      have here : ClosesAt name ((c :: s).drop 0) := closesAt_iff.mpr (by rw [List.drop_zero, found]; rfl)
      refine ⟨0, Nat.zero_le _, ?_, fun j before => absurd before j.not_lt_zero, .inl here⟩
      obtain ⟨n, text, -⟩ := dropEndTag?_eq_some_tag_iff.mp found
      obtain ⟨rfl, rfl⟩ := List.cons.inj text
      rfl
    | none =>
      obtain ⟨i, bound, same, first, here⟩ := ih
      refine ⟨i + 1, Nat.succ_le_succ bound, ?_, fun j before => ?_, here.imp_right (congrArg (· + 1))⟩
      · dsimp only
        rw [same]
        rfl
      · cases j with
        | zero => simp [closesAt_iff, found]
        | succ j => exact first j (Nat.lt_of_succ_lt_succ before)

theorem ClosesAt.lt_length {j : Nat} (closes : ClosesAt name (s.drop j)) : j < s.length := by
  by_contra beyond
  rw [List.drop_eq_nil_of_le (Nat.le_of_not_lt beyond)] at closes
  exact not_closesAt_nil closes

/-- Content that is shorter than the text ends with an end tag. -/
theorem Delimits.endTagAt {x rest : List Char} (delimits : Delimits name behind x rest)
    (inside : x.length < behind.length) : EndTagAt name (behind.drop x.length) := by
  cases delimits with
  | closed i tag _ =>
    have place : min i behind.length = i := Nat.min_eq_left (Nat.le_of_lt tag.closes.lt_length)
    rwa [List.length_take, place]
  | unclosed _ => exact absurd inside (Nat.lt_irrefl _)

/-- Content ends where it should exactly if the first `</` with the name is an end tag. -/
theorem delimits_untilEndTag_iff (name s : List Char) :
    Delimits name s (untilEndTag ('<' :: '/' :: name) s).1 (untilEndTag ('<' :: '/' :: name) s).2 ↔
      FirstCloserEnds name s := by
  obtain ⟨i, bound, same, first, here⟩ := untilEndTag_spec name s
  have content : (s.take i).length = i := by rw [List.length_take, Nat.min_eq_left bound]
  rw [same]
  constructor
  · intro delimits k closes earlier
    -- the reader has stopped at the first closer
    have place : i = k := by
      rcases Nat.lt_trichotomy k i with before | same | after
      · exact absurd closes (first k before)
      · exact same.symm
      · rcases here with found | last
        · exact absurd found (earlier i after)
        · have := closes.lt_length
          omega
    have tag := delimits.endTagAt (by rw [content, place]; exact closes.lt_length)
    rwa [content, place] at tag
  · intro ends
    by_cases closes : ClosesAt name (s.drop i)
    · exact .closed i (ends i closes first) fun j before tag => first j before tag.closes
    · have last := here.resolve_left closes
      rw [last, List.take_length, List.drop_length]
      refine .unclosed fun j tag => ?_
      rcases Nat.lt_or_ge j i with before | after
      · exact first j before tag.closes
      · have := tag.closes.lt_length
        omega

end Lexeme

/-! ### Elements with such content -/

/-- An element of a source whose content is taken as it stands. -/
structure Verbatim where
  element : Element
  /-- The start tag is the whole element. -/
  closed : Bool
  /-- What stands behind the start tag. -/
  behind : List Char
  content : List Char
  /-- Where reading goes on. -/
  rest : List Char
  deriving DecidableEq

namespace Verbatim

/-- The start tag at the start of a text: its element, whether it is the whole element, and what
stands behind it. -/
def tag? : List Char → Option (Element × Bool × List Char)
  | '<' :: c :: s =>
    if c.isAlpha then
      let (name, after) := Lexeme.takeUntil Lexeme.endsTagName (c :: s)
      (Lexeme.readAttributes [] after).map fun r =>
        (⟨String.ofList (lowerAscii name), r.1⟩, r.2)
    else none
  | _ => none

def ofCut? (r : Cut) : Option Verbatim :=
  (tag? (r.text ++ r.rest)).bind fun (e, closed, behind) =>
    if e.isVerbatim then
      some ⟨e, closed, behind, (r.lexeme.item?.map Prod.snd).getD [], r.rest⟩
    else none

/-- The elements of a source whose content is taken as it stands. -/
def ofSource (s : List Char) : List Verbatim := (Lexeme.cuts s).filterMap ofCut?

/-- The element of an item, if its content is taken as it stands, with that content. -/
def item? (item : Content × List Char) : Option (Element × List Char) :=
  (item.1.element?.filter Element.isVerbatim).map fun e => (e, item.2)

open Lexeme

/-- The lexeme of a start tag, and what it leaves. -/
def begun (e : Element) (closed : Bool) (behind : List Char) : Lexeme × List Char :=
  if closed then (.leaf e, behind) else started e behind

theorem startTag?_eq {c : Char} (letter : c.isAlpha = true) (s : List Char) :
    startTag? (c :: s) = (tag? ('<' :: c :: s)).map fun r => begun r.1 r.2.1 r.2.2 := by
  rw [startTag?, tag?, if_pos letter]
  dsimp only
  cases readAttributes [] (takeUntil endsTagName (c :: s)).2 with
  | none => rfl
  | some r =>
    obtain ⟨as, closed, behind⟩ := r
    simp only [Option.map_some, begun, started, Element.endTag, String.toList_ofList]
    cases closed with
    | true => rfl
    | false =>
      rw [Bool.false_or, if_neg Bool.false_ne_true]
      split
      · rfl
      · split
        · rfl
        · rfl

/-- A text starts with a start tag and its element, or its first lexeme is no element. -/
theorem tag_or_other (c : Char) (s : List Char) :
    (∃ e closed behind, tag? (c :: s) = some (e, closed, behind) ∧
      next c s = begun e closed behind) ∨
    tag? (c :: s) = none ∧ (next c s).1.item?.bind item? = none := by
  by_cases tag : ∃ a t, c = '<' ∧ s = a :: t ∧ a.isAlpha = true
  · obtain ⟨a, t, rfl, rfl, letter⟩ := tag
    rw [next_letter letter, startTag?_eq letter]
    cases tag? ('<' :: a :: t) with
    | none => exact .inr ⟨rfl, rfl⟩
    | some r => exact .inl ⟨r.1, r.2.1, r.2.2, rfl, rfl⟩
  · refine .inr ⟨?_, ?_⟩
    · rw [tag?.eq_def]
      split
      · next a t same =>
        obtain ⟨rfl, rfl⟩ := List.cons.inj same
        exact if_neg fun letter => tag ⟨a, t, rfl, rfl, letter⟩
      · rfl
    · rcases Lexeme.next_cases (l := (next c s).1) rfl with none | ⟨k, t, -, note, -⟩ | letter
      · rw [none, Option.bind_none]
      · rw [note]
        cases k <;> rfl
      · exact absurd letter tag

theorem item?_begun (e : Element) (closed : Bool) (behind : List Char) :
    ∃ held, (begun e closed behind).1.item? = some (.element e, held) := by
  rw [begun, started]
  split
  · exact ⟨_, rfl⟩
  · split
    · exact ⟨_, rfl⟩
    · split
      · exact ⟨_, rfl⟩
      · exact ⟨_, rfl⟩

/-- The piece of an element whose content is taken as it stands is read as that element. -/
theorem item?_of_mem_cuts {s : List Char} {r : Cut} (mem : r ∈ cuts s) :
    r.lexeme.item?.bind item? = (ofCut? r).map fun v => (v.element, v.content) := by
  obtain ⟨c, t, text, read⟩ := next_of_mem_cuts mem
  rw [ofCut?, text]
  rcases tag_or_other c t with ⟨e, closed, behind, tag, started⟩ | ⟨tag, other⟩
  · obtain ⟨held, item⟩ := item?_begun e closed behind
    rw [← started, read] at item
    rw [tag, item, Option.bind_some, Option.bind_some, item?]
    dsimp only [Content.element?]
    cases verbatim : e.isVerbatim with
    | false => rw [Option.filter_some_neg (by simp [verbatim])]; rfl
    | true => rw [Option.filter_some_pos verbatim]; rfl
  · rw [tag]
    rw [read] at other
    exact other

theorem isVoid_of_isVerbatim {e : Element} (verbatim : e.isVerbatim = true) : e.isVoid = false := by
  have apart : ∀ n ∈ Element.verbatimNames, Element.voidNames.contains n = false := by decide
  exact apart e.name (List.contains_iff_mem.mp verbatim)

/-- Reading goes on behind the element, and its content ends where it should exactly if the first
`</` with the name of the element is an end tag. -/
theorem delimits_iff {s : List Char} {before after : List Cut} {r : Cut}
    (place : cuts s = before ++ r :: after) {v : Verbatim} (cut : ofCut? r = some v)
    (opened : v.closed = false) :
    after = cuts v.rest ∧ (Delimits v.element.name.toList v.behind v.content v.rest ↔
      FirstCloserEnds v.element.name.toList v.behind) := by
  obtain ⟨c, t, text, read, later⟩ := cuts_split place
  rw [ofCut?, text] at cut
  rcases tag_or_other c t with ⟨e, closed, behind, tag, begins⟩ | ⟨none, -⟩
  · rw [tag, Option.bind_some] at cut
    dsimp only at cut
    split at cut
    · next verbatim =>
      cases cut
      have opened : closed = false := opened
      rw [opened, read, begun, if_neg Bool.false_ne_true, started,
        if_neg (by simp [isVoid_of_isVerbatim verbatim]), if_pos verbatim] at begins
      obtain ⟨lexeme, rest⟩ := Prod.mk.inj begins
      refine ⟨later, ?_⟩
      dsimp only
      rw [lexeme, rest, Lexeme.item?, Option.map_some, Option.getD_some,
        String.toList_ofList (l := (untilEndTag e.endTag behind).1)]
      exact delimits_untilEndTag_iff _ _
    · cases cut
  · rw [none] at cut
    cases cut

end Verbatim

/-- The elements of a tree whose content is taken as it stands are those of its source, in their
order, each with its content. The content of such an element ends with the first end tag of its
name, or with the source, and reading goes on behind that tag, exactly if the first `</` with the
name is an end tag. -/
theorem Tree.verbatim_content_iff (rules : List IgnoreRule) (source : String) :
    Remains rules ((Tree.ofSource rules source).items.filterMap Verbatim.item?)
        ((Verbatim.ofSource source.toList).map fun v => (v.element, v.content)) ∧
      ∀ before r after, Lexeme.cuts source.toList = before ++ r :: after →
        ∀ v, Verbatim.ofCut? r = some v → v.closed = false →
          after = Lexeme.cuts v.rest ∧
            (Lexeme.Delimits v.element.name.toList v.behind v.content v.rest ↔
              Lexeme.FirstCloserEnds v.element.name.toList v.behind) := by
  refine ⟨?_, fun _ _ _ place _ cut opened => Verbatim.delimits_iff place cut opened⟩
  have read := (remains_itemsAll rules source).filterMap Verbatim.item?
  rw [List.filterMap_filterMap, List.filterMap_congr fun r mem => Verbatim.item?_of_mem_cuts mem,
    ← List.map_filterMap] at read
  obtain ⟨ts, whole, -⟩ := Tree.ofSource_built rules source
  rw [whole] at read ⊢
  exact read

/-- A tag of a longer name ends the content of a script, and the rest of it becomes text. -/
theorem Tree.longer_name_ends_script :
    let source := "<script>a</script-x>b</script>c"
    let v : Verbatim := ⟨⟨"script", []⟩, false, "a</script-x>b</script>c".toList, ['a'],
      "b</script>c".toList⟩
    (Lexeme.cuts source.toList).head?.map Verbatim.ofCut? = some (some v) ∧
      (Tree.ofSource [] source).html = "<script>a</script>bc" ∧
      Lexeme.Delimits "script".toList v.behind "a</script-x>b".toList ['c'] ∧
      ¬ Lexeme.Delimits "script".toList v.behind v.content v.rest := by
  intro source v
  have read : Lexeme.untilEndTag ('<' :: '/' :: "script".toList) v.behind = (v.content, v.rest) := by
    decide +kernel
  refine ⟨by decide +kernel, by decide +kernel,
    .closed 13 (by decide +kernel) (by decide +kernel), fun delimits => ?_⟩
  have ends := Lexeme.delimits_untilEndTag_iff "script".toList v.behind
  rw [read] at ends
  have tag := ends.mp delimits 1 (by decide +kernel) (by decide +kernel)
  revert tag
  decide +kernel

end Stencil.Markup
