import Stencil.Text.Blank
import Stencil.Text.Search
/-!
Tokens: places between double braces that a value is put into. Double braces inside a token belong
to it when they are paired. The first pair of opening braces that is never closed ends the search.
-/
namespace Stencil.Markup

structure Token where
  /-- The text between the braces without blanks at its ends. -/
  name : String
  /-- The whole token as written. -/
  raw : String
  deriving DecidableEq, Repr

namespace Token

/-- The text up to the braces that close the innermost of `depth` open pairs and all outer ones,
and the text after them. -/
def untilClosed : (depth : Nat) → List Char → Option (List Char × List Char)
  | _, [] => none
  | depth, '{' :: '{' :: s =>
    (untilClosed (depth + 1) s).map fun (body, rest) => ('{' :: '{' :: body, rest)
  | depth, '}' :: '}' :: s =>
    if depth ≤ 1 then some ([], s)
    else (untilClosed (depth - 1) s).map fun (body, rest) => ('}' :: '}' :: body, rest)
  | depth, c :: s => (untilClosed depth s).map fun (body, rest) => (c :: body, rest)

theorem length_of_untilClosed {depth : Nat} {s body rest : List Char}
    (h : untilClosed depth s = some (body, rest)) : rest.length < s.length := by
  fun_induction untilClosed depth s generalizing body with
  | case1 => simp at h
  | case2 depth s ih =>
    obtain ⟨⟨x, y⟩, hxy, he⟩ := Option.map_eq_some_iff.1 h
    simp only [Prod.mk.injEq] at he
    obtain ⟨_, rfl⟩ := he
    have := ih hxy
    simp; omega
  | case3 =>
    simp at h
    obtain ⟨_, rfl⟩ := h
    simp only [List.length_cons]
    omega
  | case4 depth s _ ih =>
    obtain ⟨⟨x, y⟩, hxy, he⟩ := Option.map_eq_some_iff.1 h
    simp only [Prod.mk.injEq] at he
    obtain ⟨_, rfl⟩ := he
    have := ih hxy
    simp; omega
  | case5 depth c s _ _ ih =>
    obtain ⟨⟨x, y⟩, hxy, he⟩ := Option.map_eq_some_iff.1 h
    simp only [Prod.mk.injEq] at he
    obtain ⟨_, rfl⟩ := he
    have := ih hxy
    simp; omega

/-- The token with a text between its braces. -/
def ofBody (body : List Char) : Token :=
  ⟨String.ofList (Text.trim body), String.ofList ('{' :: '{' :: body ++ ['}', '}'])⟩

/-- A text cut at its first token: the text before it, the token, and the text after it. -/
def first? (s : List Char) : Option (List Char × Token × List Char) :=
  match Text.cut? ['{', '{'] s with
  | none => none
  | some (before, s) => (untilClosed 1 s).map fun (body, rest) => (before, ofBody body, rest)

theorem length_of_first? {s before rest : List Char} {t : Token}
    (h : first? s = some (before, t, rest)) : rest.length < s.length := by
  simp only [first?] at h
  split at h
  · simp at h
  · rename_i hc
    obtain ⟨⟨x, y⟩, hxy, he⟩ := Option.map_eq_some_iff.1 h
    simp only [Prod.mk.injEq] at he
    obtain ⟨_, _, rfl⟩ := he
    have h1 := length_of_untilClosed hxy
    have h2 := Text.length_of_cut? hc
    omega

/-- The tokens of a text in their order. -/
def ofChars (s : List Char) : List Token :=
  match h : first? s with
  | none => []
  | some (_, t, rest) => t :: ofChars rest
termination_by s.length
decreasing_by exact length_of_first? h

def ofText (s : String) : List Token := ofChars s.toList

end Token
end Stencil.Markup
