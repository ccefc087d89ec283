import Stencil.Proofs.Markup.Scan
/-!
What lexemes of a source look like, whatever the source. Names end where they should and have no
capitals, attributes of an element have different names, and no content holds its own end.
-/
namespace Stencil

namespace Text

theorem dropPrefix?_append_right {p s r : List Char} (found : dropPrefix? p s = some r)
    (more : List Char) : dropPrefix? p (s ++ more) = some (r ++ more) := by
  rw [eq_append_of_dropPrefix? found, List.append_assoc, dropPrefix?_append]

/-- What stands before the first place of a pattern does not hold the pattern. -/
theorem cut?_eq_none_of_cut? {p s a b : List Char} (found : cut? p s = some (a, b))
    (filled : p ≠ []) : cut? p a = none := by
  induction s generalizing a with
  | nil =>
    rw [cut?, if_neg (by simpa using filled)] at found
    cases found
  | cons c s ih =>
    rw [cut?] at found
    split at found
    · cases found
      rw [cut?, if_neg (by simpa using filled)]
    · next missing =>
      obtain ⟨⟨a', b'⟩, later, same⟩ := Option.map_eq_some_iff.mp found
      cases same
      have here : dropPrefix? p (c :: a') = none := by
        rw [Option.eq_none_iff_forall_ne_some]
        intro r start
        have longer := dropPrefix?_append_right start (p ++ b)
        rw [List.cons_append, ← List.append_assoc, ← eq_append_of_cut? later, missing] at longer
        cases longer
      rw [cut?, here, ih later]
      rfl

theorem not_blank_of_trimStart {c : Char} {s rest : List Char} (here : trimStart s = c :: rest) :
    isBlank c = false := by
  have first := List.head?_dropWhile_not isBlank s
  rw [trimStart] at here
  rw [here] at first
  simpa using first

end Text

namespace Markup.Lexeme
open Text

/-! ### Attributes -/

theorem not_ends_of_mem_takeUntil {ends : Char → Bool} {s : List Char} {c : Char}
    (mem : c ∈ (takeUntil ends s).1) : ends c = false := by
  simpa using List.mem_takeWhile_imp (p := (fun c => !ends c)) mem

theorem legible_readAttribute {c : Char} (starts : endsTagName c = false) (s : List Char) :
    (readAttribute c s).1.Legible := by
  have name : (readAttribute c s).1.name =
      String.ofList (lowerAscii (c :: (takeUntil endsAttributeName s).1)) := by
    rw [readAttribute]
    dsimp only
    split
    · rfl
    · rfl
  constructor
  · refine ⟨c.toLower, lowerAscii (takeUntil endsAttributeName s).1, ?_, ?_, ?_⟩
    · rw [name, String.toList_ofList]
      rfl
    · rw [endsTagName_toLower, starts]
    · intro d mem
      obtain ⟨d, mem', rfl⟩ := List.mem_map.mp mem
      rw [endsAttributeName_toLower, not_ends_of_mem_takeUntil mem']
  · rw [name, String.toList_ofList]
    exact small_lowerAscii _

theorem legible_readAttributes {read as : List Attribute} {s rest : List Char} {closed : Bool}
    (done : readAttributes read s = some (as, closed, rest)) (legible : ∀ a ∈ read, a.Legible)
    (once : (read.map (·.name)).Nodup) :
    (∀ a ∈ as, a.Legible) ∧ (as.map (·.name)).Nodup := by
  fun_induction readAttributes read s with
  | case1 => cases done
  | case2 =>
    cases done
    exact ⟨legible, once⟩
  | case3 =>
    cases done
    exact ⟨legible, once⟩
  | case4 read s rest _ here ih => exact ih done legible once
  | case5 read s c rest close _ slash here r ih =>
    have starts : endsTagName c = false := by
      rw [endsTagName, not_blank_of_trimStart here, beq_false_of_ne slash, beq_false_of_ne close]
      rfl
    have own : r.1.Legible := legible_readAttribute starts rest
    refine ih done ?_ ?_
    · split
      · exact legible
      · exact List.forall_mem_append.mpr ⟨legible, List.forall_mem_singleton.mpr own⟩
    · split
      · exact once
      · next fresh =>
        rw [List.map_append, List.map_singleton, List.nodup_append]
        refine ⟨once, List.nodup_singleton _, fun name mem last other same => ?_⟩
        obtain ⟨a, mem', rfl⟩ := List.mem_map.mp mem
        rw [List.mem_singleton.mp other] at same
        exact fresh (List.any_eq_true.mpr ⟨a, mem', beq_iff_eq.mpr same⟩)

/-! ### Start tags -/

theorem dropEndTag?_append_right {name s r : List Char} (found : dropEndTag? name s = some r)
    (more : List Char) : dropEndTag? name (s ++ more) = some (r ++ more) := by
  fun_induction dropEndTag? name s with
  | case1 s =>
    cases found
    rw [dropEndTag?]
  | case2 => cases found
  | case3 name c s ih => rw [List.cons_append, dropEndTag?, if_pos rfl, ih found]
  | case4 => cases found

theorem untilEndTag_prefix (name s : List Char) : (untilEndTag name s).1 <+: s := by
  induction s with
  | nil => exact List.prefix_rfl
  | cons c s ih =>
    rw [untilEndTag]
    split
    · exact List.nil_prefix
    · exact List.cons_prefix_cons.mpr ⟨rfl, ih⟩

theorem not_hasEndTag_untilEndTag (name s : List Char) :
    hasEndTag name (untilEndTag name s).1 = false := by
  induction s with
  | nil => rfl
  | cons c s ih =>
    rw [untilEndTag]
    split
    · rfl
    · next missing =>
      obtain ⟨after, whole⟩ := untilEndTag_prefix name s
      have here : dropEndTag? name (c :: (untilEndTag name s).1) = none := by
        rw [Option.eq_none_iff_forall_ne_some]
        intro r start
        have longer := dropEndTag?_append_right start after
        rw [List.cons_append, whole, missing] at longer
        cases longer
      dsimp only
      rw [hasEndTag, here, ih]
      rfl

/-- What a lexeme of a source is like. -/
def Formed : Lexeme → Prop
  | text s => s ≠ ""
  | comment s => cut? "-->".toList s.toList = none
  | directive s => '>' ∉ s.toList ∧ dropPrefix? "--".toList s.toList = none
  | opening e => e.Legible ∧ e.isVoid = false ∧ e.isVerbatim = false
  | leaf e => e.Legible
  | verbatim e s => e.Legible ∧ e.isVoid = false ∧ e.isVerbatim = true ∧
      hasEndTag e.endTag s.toList = false
  | closing _ => True

theorem not_ends_of_letter {c : Char} (letter : c.isAlpha = true) : endsTagName c = false := by
  have range : (65 ≤ c.toNat ∧ c.toNat ≤ 90) ∨ (97 ≤ c.toNat ∧ c.toNat ≤ 122) := by
    simpa [Char.isAlpha, Char.isUpper, Char.isLower, UInt32.le_iff_toNat_le] using letter
  have solid : isBlank c = false := by
    simp [isBlank]
    omega
  have slash : c ≠ '/' := by
    rintro rfl
    cases letter
  have close : c ≠ '>' := by
    rintro rfl
    cases letter
  rw [endsTagName, solid, beq_false_of_ne slash, beq_false_of_ne close]
  rfl

theorem formed_startTag? {c : Char} {s rest : List Char} {l : Lexeme} (letter : c.isAlpha = true)
    (read : startTag? (c :: s) = some (l, rest)) : l.Formed := by
  have first := not_ends_of_letter letter
  have name : (takeUntil endsTagName (c :: s)).1 = c :: (takeUntil endsTagName s).1 := by
    rw [takeUntil, List.takeWhile_cons_of_pos (by simp [first])]
    rfl
  simp only [startTag?] at read
  split at read
  · cases read
  · next as closed after done =>
    obtain ⟨legible, once⟩ := legible_readAttributes done
      (fun _ mem => absurd mem List.not_mem_nil) List.nodup_nil
    have own : Element.Legible
        ⟨String.ofList (lowerAscii (takeUntil endsTagName (c :: s)).1), as⟩ := by
      refine ⟨?_, ?_, ?_, legible, once⟩
      · rw [String.toList_ofList, name]
        simpa [lowerAscii] using letter
      · intro d mem
        rw [String.toList_ofList] at mem
        obtain ⟨d, mem', rfl⟩ := List.mem_map.mp mem
        rw [endsTagName_toLower, not_ends_of_mem_takeUntil mem']
      · rw [String.toList_ofList]
        exact small_lowerAscii _
    split at read
    · cases read
      exact own
    · next filled =>
      rw [Bool.or_eq_true, not_or] at filled
      split at read
      · next verbatim =>
        cases read
        refine ⟨own, by simpa using filled.2, verbatim, ?_⟩
        rw [String.toList_ofList, Element.endTag, String.toList_ofList]
        exact not_hasEndTag_untilEndTag _ _
      · next other =>
        cases read
        exact ⟨own, by simpa using filled.2, by simpa using other⟩

/-! ### Lexemes -/

theorem formed_plain (c : Char) (s : List Char) : (text (String.ofList (c :: s))).Formed :=
  fun empty => by simpa using congrArg String.toList empty

theorem formed_readText (c : Char) (s : List Char) : (readText c s).1.Formed := formed_plain _ _

theorem readBody_spec (closer s : List Char) (filled : closer ≠ []) :
    ∃ body rest, readBody closer s = (String.ofList body, rest) ∧ cut? closer body = none ∧
      body <+: s := by
  cases found : cut? closer s with
  | none => exact ⟨s, [], by rw [readBody, found], found, List.prefix_rfl⟩
  | some r =>
    refine ⟨r.1, r.2, by rw [readBody, found], cut?_eq_none_of_cut? found filled, ?_⟩
    rw [eq_append_of_cut? found, List.append_assoc]
    exact List.prefix_append _ _

theorem formed_next (c : Char) (s : List Char) : (next c s).1.Formed := by
  rw [next.eq_def]
  split
  · exact formed_readText c s
  · split
    · next s =>
      obtain ⟨body, rest, read, absent, -⟩ := readBody_spec "-->".toList s (by decide)
      rw [read, Formed, String.toList_ofList (l := body)]
      exact absent
    · split
      · exact formed_plain _ _
      · trivial
    · next s other =>
      obtain ⟨body, rest, read, absent, after, rfl⟩ := readBody_spec ['>'] s (by decide)
      rw [cut?_singleton] at absent
      rw [read, Formed, String.toList_ofList (l := body)]
      refine ⟨not_mem_of_cutChar?_eq_none absent, ?_⟩
      rw [Option.eq_none_iff_forall_ne_some]
      intro r start
      refine other (r ++ after) ?_
      rw [eq_append_of_dropPrefix? start]
      rfl
    · next s =>
      obtain ⟨body, rest, read, absent, -⟩ := readBody_spec ['>'] s (by decide)
      rw [cut?_singleton] at absent
      rw [read, Formed, String.toList_append, String.toList_ofList (l := body)]
      refine ⟨fun mem => ?_, rfl⟩
      rcases List.mem_append.mp mem with sign | inside
      · exact absurd sign (by decide)
      · exact not_mem_of_cutChar?_eq_none absent inside
    · split
      · next letter =>
        cases read : startTag? _ with
        | none => exact formed_plain _ _
        | some r => exact formed_startTag? letter read
      · exact formed_readText _ _
    · exact formed_readText _ _

/-- All lexemes of a source are formed. -/
theorem formed_ofSource (s : List Char) : ∀ l ∈ ofSource s, l.Formed := by
  fun_induction ofSource s with
  | case1 => exact fun _ mem => absurd mem List.not_mem_nil
  | case2 c s r ih => exact List.forall_mem_cons.mpr ⟨formed_next c s, ih⟩

end Markup.Lexeme
end Stencil
