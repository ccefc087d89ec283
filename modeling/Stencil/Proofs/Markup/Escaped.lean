import Stencil.Markup.Tree
import Stencil.Proofs.Markup.Reference
/-!
What is escaped is read back. The references that stand for the characters of a text are read as these
characters, whatever else stands around them, and a value that is written with references for its
double quotes means what it has meant before.
-/
namespace Stencil.Markup

namespace Entity

/-! ### Escaped texts -/

theorem decode_reference {s rest : List Char} {c : Char} (found : reference? s = some (c, rest)) :
    decode ('&' :: s) = c :: decode rest := by
  rw [decode_ampersand, found]

section
variable {escape : Char → List Char}
  (each : ∀ c rest, decode (escape c ++ rest) = c :: decode rest)
include each

/-- A text whose characters are read back one by one is read back, whatever follows it. -/
theorem decode_flatMap (s rest : List Char) :
    decode (s.flatMap escape ++ rest) = s ++ decode rest := by
  induction s with
  | nil => rfl
  | cons c s ih => rw [List.flatMap_cons, List.append_assoc, each, ih, List.cons_append]

theorem decodeText_flatMap (s : String) :
    decodeText (String.ofList (s.toList.flatMap escape)) = s := by
  have whole := decode_flatMap each s.toList []
  rw [decode, List.append_nil, List.append_nil] at whole
  rw [decodeText, String.toList_ofList, whole, String.ofList_toList]

end

theorem decodeText_escapeText (s : String) : decodeText (escapeText s) = s := by
  refine decodeText_flatMap (fun c rest => ?_) s
  split
  · exact decode_reference rfl
  · exact decode_reference rfl
  · exact decode_reference rfl
  · next plain _ _ => exact decode_cons plain rest

theorem decodeText_escapeAttribute (s : String) : decodeText (escapeAttribute s) = s := by
  refine decodeText_flatMap (fun c rest => ?_) s
  split
  · exact decode_reference rfl
  · exact decode_reference rfl
  · next plain _ => exact decode_cons plain rest

end Entity

/-! ### Quoted values -/

namespace Tree
open Entity

theorem quoteValue_cons {c : Char} (other : c ≠ '"') (s : List Char) :
    quoteValue (c :: s) = c :: quoteValue s := by
  rw [quoteValue, List.flatMap_cons, if_neg other]
  rfl

theorem quoteValue_append (a b : List Char) :
    quoteValue (a ++ b) = quoteValue a ++ quoteValue b := List.flatMap_append

theorem quoteValue_of_not_mem {s : List Char} (unquoted : '"' ∉ s) : quoteValue s = s := by
  induction s with
  | nil => rfl
  | cons c s ih =>
    rw [List.mem_cons, not_or] at unquoted
    rw [quoteValue_cons (Ne.symm unquoted.1), ih unquoted.2]

/-- What stands in a quoted value before its first ampersand stands in the value. -/
theorem exists_of_quoteValue {a t s : List Char} (plain : '&' ∉ a) (quoted : quoteValue s = a ++ t) :
    ∃ rest, s = a ++ rest ∧ t = quoteValue rest := by
  induction a generalizing s with
  | nil => exact ⟨s, rfl, quoted.symm⟩
  | cons c a ih =>
    rw [List.mem_cons, not_or] at plain
    cases s with
    | nil => cases quoted
    | cons d s =>
      by_cases quote : d = '"'
      · subst quote
        exact absurd (List.cons.inj quoted).1 plain.1
      · rw [quoteValue_cons quote] at quoted
        obtain ⟨rfl, more⟩ := List.cons.inj quoted
        obtain ⟨rest, rfl, same⟩ := ih plain.2 more
        exact ⟨rest, rfl, same⟩

/-- The references of a quoted value are those of the value, with the rest quoted. -/
theorem reference?_quoteValue (s : List Char) : reference? (quoteValue s) =
    (reference? s).map fun (c, rest) => (c, quoteValue rest) := by
  refine Option.ext fun r => ?_
  obtain ⟨c, rest⟩ := r
  rw [Option.map_eq_some_iff]
  constructor
  · intro found
    obtain ⟨body, text, near, resolved⟩ := reference?_eq_some_iff.mp found
    have plain : '&' ∉ body ++ [';'] := by
      simpa using not_mem_of_resolve? resolved (x := '&') (by simp)
    obtain ⟨behind, rfl, rfl⟩ := exists_of_quoteValue (a := body ++ [';']) plain (by simpa using text)
    exact ⟨(c, behind), reference?_eq_some_iff.mpr ⟨body, by simp, near, resolved⟩, rfl⟩
  · rintro ⟨⟨c, rest⟩, found, same⟩
    cases same
    obtain ⟨body, rfl, near, resolved⟩ := reference?_eq_some_iff.mp found
    have unquoted := not_mem_of_resolve? resolved (x := '"') (by simp)
    refine reference?_eq_some_iff.mpr ⟨body, ?_, near, resolved⟩
    rw [quoteValue_append, quoteValue_of_not_mem unquoted, quoteValue_cons (by decide)]

theorem decode_quoteValue (s : List Char) : decode (quoteValue s) = decode s := by
  fun_induction decode s with
  | case1 => rw [quoteValue, List.flatMap_nil, decode]
  | case2 s c rest found ih =>
    rw [quoteValue_cons (by decide), decode_ampersand, reference?_quoteValue, found]
    exact congrArg (c :: ·) ih
  | case3 s missing ih =>
    rw [quoteValue_cons (by decide), decode_ampersand, reference?_quoteValue, missing]
    exact congrArg ('&' :: ·) ih
  | case4 c s other ih =>
    by_cases quote : c = '"'
    · subst quote
      exact (decode_reference rfl).trans (congrArg ('"' :: ·) ih)
    · rw [quoteValue_cons quote, decode_cons other, ih]

end Tree

/-- What has been escaped for a text or for an attribute is read as it was, and quoting a value for
its tag does not change what it is read as. -/
theorem Entity.written_text_read_back :
    (∀ s, decodeText (escapeAttribute s) = s ∧ decodeText (escapeText s) = s) ∧
      ∀ v : String, decodeText (String.ofList (Tree.quoteValue v.toList)) = decodeText v := by
  refine ⟨fun s => ⟨decodeText_escapeAttribute s, decodeText_escapeText s⟩, fun v => ?_⟩
  rw [decodeText, String.toList_ofList, Tree.decode_quoteValue, decodeText]

end Stencil.Markup
