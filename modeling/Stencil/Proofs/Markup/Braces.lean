import Stencil.Markup.Token
/-!
How tokens lie in a text. A token ends where its braces are closed, whatever follows it, and no two of
the tokens that a text is cut at overlap. Reading that starts at braces inside a token closes them
inside that token.
-/
namespace Stencil

namespace Text

/-- The pattern is not found before its first place. -/
theorem dropPrefix?_of_cut? {p s before after : List Char} (found : cut? p s = some (before, after))
    {x y : List Char} (ends : before = x ++ y) (proper : y ≠ []) :
    dropPrefix? p (y ++ p ++ after) = none := by
  induction s generalizing before x with
  | nil =>
    rw [cut?] at found
    split at found
    · cases found
      exact absurd (List.append_eq_nil_iff.mp ends.symm).2 proper
    · cases found
  | cons c s ih =>
    rw [cut?] at found
    split at found
    · cases found
      exact absurd (List.append_eq_nil_iff.mp ends.symm).2 proper
    · next missing =>
      obtain ⟨⟨a, b⟩, rest, same⟩ := Option.map_eq_some_iff.mp found
      cases same
      cases x with
      | nil =>
        have whole : c :: s = y ++ p ++ after := by
          rw [← List.nil_append y, ← ends, eq_append_of_cut? rest]
          rfl
        rw [← whole]
        exact missing
      | cons d x => exact ih rest (List.cons.inj ends).2

/-- The pattern begins in a text: it stands there, or the text ends with a beginning of it. -/
def beginsIn (p : List Char) : List Char → Bool
  | [] => false
  | c :: s => p.isPrefixOf (c :: s) || (c :: s).isPrefixOf p || beginsIn p s

/-- A pattern that does not begin in a text starts nowhere in it, whatever follows it. -/
theorem dropPrefix?_of_not_beginsIn {p a : List Char} (apart : beginsIn p a = false) (b : List Char)
    {x y : List Char} (ends : a = x ++ y) (proper : y ≠ []) : dropPrefix? p (y ++ b) = none := by
  induction x generalizing a with
  | nil =>
    rw [Option.eq_none_iff_forall_ne_some]
    intro rest starts
    obtain ⟨c, y, rfl⟩ := List.exists_cons_of_ne_nil proper
    rw [ends, List.nil_append, beginsIn, Bool.or_eq_false_iff, Bool.or_eq_false_iff] at apart
    -- Of two beginnings of one text, one is a beginning of the other.
    rcases List.prefix_or_prefix_of_prefix ⟨rest, (eq_append_of_dropPrefix? starts).symm⟩
      (List.prefix_append (c :: y) b) with whole | cutOff
    · exact Bool.false_ne_true (apart.1.1.symm.trans (List.isPrefixOf_iff_prefix.mpr whole))
    · exact Bool.false_ne_true (apart.1.2.symm.trans (List.isPrefixOf_iff_prefix.mpr cutOff))
  | cons c x ih =>
    rw [ends, List.cons_append, beginsIn, Bool.or_eq_false_iff] at apart
    exact ih apart.2 rfl

/-- A longer pattern starts nowhere else than its beginning does. -/
theorem dropPrefix?_append_eq_none {p s : List Char} (absent : dropPrefix? p s = none)
    (q : List Char) : dropPrefix? (p ++ q) s = none := by
  rw [Option.eq_none_iff_forall_ne_some]
  intro rest starts
  rw [eq_append_of_dropPrefix? starts, List.append_assoc, dropPrefix?_append] at absent
  cases absent

/-- Before the first double braces no double braces begin. -/
theorem beginsIn_of_cut? {s before after : List Char}
    (found : cut? ['{', '{'] s = some (before, after)) : beginsIn ['{', '{'] before = false := by
  have apart := fun x y => @dropPrefix?_of_cut? _ _ _ _ found x y
  clear found
  induction before with
  | nil => rfl
  | cons c before ih =>
    have here := apart [] (c :: before) rfl (List.cons_ne_nil _ _)
    rw [beginsIn, ih fun x y ends => apart (c :: x) y (by rw [ends]; rfl)]
    by_cases brace : c = '{'
    · subst brace
      cases before with
      | nil => cases here
      | cons d t =>
        have other : '{' ≠ d := by
          rintro rfl
          cases here
        simp [List.isPrefixOf, other, other.symm]
    · simp [List.isPrefixOf, brace, Ne.symm brace]

end Text

namespace Markup.Token
open Text

/-! ### Where a token ends -/

/-- A character that is not part of double braces belongs to the body. -/
theorem untilClosed_cons {c : Char} {s : List Char} (depth : Nat)
    (opens : ∀ t, c = '{' → s = '{' :: t → False) (closes : ∀ t, c = '}' → s = '}' :: t → False) :
    untilClosed depth (c :: s) = (untilClosed depth s).map fun (body, rest) => (c :: body, rest) := by
  rw [untilClosed.eq_def]
  split
  · next h => cases h
  · next h => cases h; exact (opens _ rfl rfl).elim
  · next h => cases h; exact (closes _ rfl rfl).elim
  · next h => cases h; rfl

theorem eq_append_of_untilClosed {depth : Nat} {s body rest : List Char}
    (h : untilClosed depth s = some (body, rest)) : s = body ++ '}' :: '}' :: rest := by
  fun_induction untilClosed depth s generalizing body with
  | case1 => cases h
  | case2 depth s ih =>
    obtain ⟨⟨b, r⟩, inner, same⟩ := Option.map_eq_some_iff.mp h
    cases same
    rw [ih inner]
    rfl
  | case3 => cases h; rfl
  | case4 depth s deep ih =>
    obtain ⟨⟨b, r⟩, inner, same⟩ := Option.map_eq_some_iff.mp h
    cases same
    rw [ih inner]
    rfl
  | case5 depth c s opens closes ih =>
    obtain ⟨⟨b, r⟩, inner, same⟩ := Option.map_eq_some_iff.mp h
    cases same
    rw [ih inner]
    rfl

/-- Where a token ends does not depend on what follows it. -/
theorem untilClosed_append {depth : Nat} {s body rest : List Char}
    (h : untilClosed depth s = some (body, rest)) (other : List Char) :
    untilClosed depth (body ++ '}' :: '}' :: other) = some (body, other) := by
  fun_induction untilClosed depth s generalizing body with
  | case1 => cases h
  | case2 depth s ih =>
    obtain ⟨⟨b, r⟩, inner, same⟩ := Option.map_eq_some_iff.mp h
    cases same
    rw [List.cons_append, List.cons_append, untilClosed, ih inner]
    rfl
  | case3 depth s shallow =>
    cases h
    rw [List.nil_append, untilClosed, if_pos shallow]
  | case4 depth s deep ih =>
    obtain ⟨⟨b, r⟩, inner, same⟩ := Option.map_eq_some_iff.mp h
    cases same
    rw [List.cons_append, List.cons_append, untilClosed, if_neg deep, ih inner]
    rfl
  | case5 depth c s opens closes ih =>
    obtain ⟨⟨b, r⟩, inner, same⟩ := Option.map_eq_some_iff.mp h
    cases same
    have text := eq_append_of_untilClosed inner
    rw [List.cons_append, untilClosed_cons depth, ih inner]
    · rfl
    -- The character behind `c` is the same one, be it of the body or a closing brace.
    · intro t brace starts
      cases b with
      | nil => cases starts
      | cons d b => exact opens _ brace (by rw [text, List.cons_append, (List.cons.inj starts).1])
    · intro t brace starts
      cases b with
      | nil => exact closes _ brace text
      | cons d b => exact closes _ brace (by rw [text, List.cons_append, (List.cons.inj starts).1])

/-! ### Reading that starts inside a token -/

/-- Reading with `depth` braces open ends before `rest` begins. -/
def EndsBefore (depth : Nat) (s rest : List Char) : Prop :=
  ∃ body' rest', untilClosed depth s = some (body', rest') ∧ rest <:+ rest'

section
variable {depth depth' : Nat} {s body rest : List Char}

theorem EndsBefore.double (inner : EndsBefore (depth + 1) s rest) :
    EndsBefore depth ('{' :: '{' :: s) rest := by
  obtain ⟨body', rest', found, behind⟩ := inner
  exact ⟨'{' :: '{' :: body', rest', by rw [untilClosed, found]; rfl, behind⟩

theorem EndsBefore.single {c : Char} (opens : ∀ t, c = '{' → s = '{' :: t → False)
    (closes : ∀ t, c = '}' → s = '}' :: t → False) (later : EndsBefore depth s rest) :
    EndsBefore depth (c :: s) rest := by
  obtain ⟨body', rest', found, behind⟩ := later
  exact ⟨c :: body', rest', by rw [untilClosed_cons depth opens closes, found]; rfl, behind⟩

/-- With fewer braces open the end is not found later. -/
theorem endsBefore_shallower (le : depth' ≤ depth) (h : untilClosed depth s = some (body, rest)) :
    EndsBefore depth' s rest := by
  fun_induction untilClosed depth s generalizing depth' body with
  | case1 => cases h
  | case2 depth s ih =>
    obtain ⟨⟨b, r⟩, inner, same⟩ := Option.map_eq_some_iff.mp h
    cases same
    exact (ih (Nat.succ_le_succ le) inner).double
  | case3 depth s shallow =>
    cases h
    exact ⟨[], rest, by rw [untilClosed, if_pos (Nat.le_trans le shallow)], List.suffix_rfl⟩
  | case4 depth s deep ih =>
    obtain ⟨⟨b, r⟩, inner, same⟩ := Option.map_eq_some_iff.mp h
    cases same
    by_cases closed : depth' ≤ 1
    · have text := eq_append_of_untilClosed inner
      refine ⟨[], s, by rw [untilClosed, if_pos closed], b ++ ['}', '}'], ?_⟩
      rw [text, List.append_assoc]
      rfl
    · obtain ⟨body', rest', found, behind⟩ := ih (Nat.sub_le_sub_right le 1) inner
      exact ⟨'}' :: '}' :: body', rest', by rw [untilClosed, if_neg closed, found]; rfl, behind⟩
  | case5 depth c s opens closes ih =>
    obtain ⟨⟨b, r⟩, inner, same⟩ := Option.map_eq_some_iff.mp h
    cases same
    exact (ih le inner).single opens closes

/-- Reading that is one opening brace behind, with fewer braces open, does not find the end later
either. -/
theorem endsBefore_behind (lt : depth' < depth) (h : untilClosed depth s = some (body, rest)) :
    EndsBefore depth' ('{' :: s) rest := by
  -- Unless another brace makes a pair with the one in front, both go on from the same place.
  have apart : (∀ t, s = '{' :: t → False) → EndsBefore depth' ('{' :: s) rest := fun single =>
    (endsBefore_shallower (Nat.le_of_lt lt) h).single (fun t _ starts => single t starts)
      fun _ brace _ => absurd brace (by decide)
  fun_induction untilClosed depth s generalizing depth' body with
  | case1 => cases h
  | case2 depth s ih =>
    obtain ⟨⟨b, r⟩, inner, same⟩ := Option.map_eq_some_iff.mp h
    cases same
    refine (ih (Nat.succ_lt_succ lt) inner fun single => ?_).double
    exact (endsBefore_shallower (Nat.le_of_lt (Nat.succ_lt_succ lt)) inner).single
      (fun t _ starts => single t starts) fun _ brace _ => absurd brace (by decide)
  | case3 => exact apart fun t starts => by cases starts
  | case4 => exact apart fun t starts => by cases starts
  | case5 depth c s opens closes ih =>
    obtain ⟨⟨b, r⟩, inner, same⟩ := Option.map_eq_some_iff.mp h
    cases same
    by_cases brace : c = '{'
    · subst brace
      exact (endsBefore_shallower lt inner).double
    · exact apart fun t starts => brace (List.cons.inj starts).1

/-- Reading that starts at double braces inside a token closes them inside the token. -/
theorem endsBefore_inside {x y : List Char} (h : untilClosed depth s = some (body, rest))
    (place : s = x ++ '{' :: '{' :: y) (inside : x.length < body.length) : EndsBefore 1 y rest := by
  fun_induction untilClosed depth s generalizing body x with
  | case1 => cases h
  | case2 depth s ih =>
    obtain ⟨⟨b, r⟩, inner, same⟩ := Option.map_eq_some_iff.mp h
    cases same
    rcases x with _ | ⟨_, _ | ⟨_, x⟩⟩
    · cases place
      exact endsBefore_shallower (Nat.le_add_left 1 depth) inner
    · -- The braces are the second one of a pair of the token and the one behind it.
      cases place
      obtain ⟨body', rest', found, behind⟩ := endsBefore_behind (Nat.succ_pos depth) inner
      rw [untilClosed] at found
      obtain ⟨⟨b', r'⟩, found, same⟩ := Option.map_eq_some_iff.mp found
      cases same
      exact ⟨b', rest', found, behind⟩
    · simp only [List.cons_append, List.cons.injEq] at place
      refine ih inner place.2.2 ?_
      simp only [List.length_cons] at inside
      omega
  | case3 => cases h; cases inside
  | case4 depth s deep ih =>
    obtain ⟨⟨b, r⟩, inner, same⟩ := Option.map_eq_some_iff.mp h
    cases same
    rcases x with _ | ⟨_, _ | ⟨_, x⟩⟩
    · cases place
    · cases place
    · simp only [List.cons_append, List.cons.injEq] at place
      refine ih inner place.2.2 ?_
      simp only [List.length_cons] at inside
      omega
  | case5 depth c s opens closes ih =>
    obtain ⟨⟨b, r⟩, inner, same⟩ := Option.map_eq_some_iff.mp h
    cases same
    cases x with
    | nil =>
      cases place
      exact (opens y rfl rfl).elim
    | cons d x =>
      refine ih inner (List.cons.inj place).2 ?_
      simpa using inside

end

/-! ### Texts cut at their tokens -/

/-- The body of a token: the braces behind it close the token, whatever follows them. -/
def Closed (body : List Char) : Prop :=
  ∀ rest, untilClosed 1 (body ++ '}' :: '}' :: rest) = some (body, rest)

theorem toList_raw (body : List Char) :
    (ofBody body).raw.toList = '{' :: '{' :: (body ++ ['}', '}']) := String.toList_ofList

theorem raw_append (body rest : List Char) :
    (ofBody body).raw.toList ++ rest = '{' :: '{' :: (body ++ '}' :: '}' :: rest) := by
  rw [toList_raw, List.cons_append, List.cons_append, List.append_assoc]
  rfl

/-- A token whose text starts in another token stands in that token. -/
theorem infix_of_starts {body body' x y rest left : List Char} (closed : Closed body)
    (closed' : Closed body') (ends : (ofBody body').raw.toList = x ++ y) (proper : y ≠ [])
    (starts : dropPrefix? (ofBody body).raw.toList (y ++ rest) = some left) :
    (ofBody body).raw.toList <:+: (ofBody body').raw.toList := by
  have text := eq_append_of_dropPrefix? starts
  rw [raw_append] at text
  obtain ⟨c, y, rfl⟩ := List.exists_cons_of_ne_nil proper
  obtain ⟨rfl, behind⟩ := List.cons.inj text
  change y ++ rest = '{' :: (body ++ '}' :: '}' :: left) at behind
  cases y with
  | nil =>
    have last := congrArg List.getLast? ends
    rw [List.getLast?_concat, toList_raw, ← List.cons_append, ← List.cons_append,
      show (['}', '}'] : List Char) = ['}'] ++ ['}'] from rfl, ← List.append_assoc,
      List.getLast?_concat] at last
    cases last
  | cons d y =>
    obtain ⟨rfl, closing⟩ := List.cons.inj behind
    change y ++ rest = body ++ '}' :: '}' :: left at closing
    have inside : x.length < ('{' :: '{' :: body').length := by
      have chars : ('{' :: '{' :: body') ++ ['}', '}'] = x ++ '{' :: '{' :: y := by
        rw [← ends, toList_raw]
        rfl
      rcases List.append_eq_append_iff.mp chars with ⟨z, -, closer⟩ | ⟨z, start, behind⟩
      · have brace : '{' ∈ ['}', '}'] := by
          rw [closer]
          simp
        exact absurd brace (by decide)
      · cases z with
        | nil => cases behind
        | cons d z =>
          rw [start, List.length_append, List.length_cons]
          omega
    have whole : untilClosed 0 (x ++ '{' :: '{' :: (y ++ rest)) =
        some ('{' :: '{' :: body', rest) := by
      have token := closed' rest
      rw [show x ++ '{' :: '{' :: (y ++ rest) = (x ++ '{' :: '{' :: y) ++ rest by simp, ← ends,
        raw_append, untilClosed, token]
      rfl
    obtain ⟨b, r, found, z, rfl⟩ := endsBefore_inside whole rfl inside
    rw [closing, closed] at found
    cases found
    refine ⟨x, z, ?_⟩
    rw [ends, List.append_assoc, raw_append]
    congr 3
    have same : y ++ rest = (body ++ '}' :: '}' :: z) ++ rest := by
      rw [closing, List.append_assoc]
      rfl
    exact (List.append_cancel_right same).symm

/-- A text cut at its tokens: what stands before each token, and what is left behind the last. -/
def cut (s : List Char) : List (List Char × Token) × List Char :=
  match _ : first? s with
  | none => ([], s)
  | some (before, t, rest) => (cut rest).map ((before, t) :: ·) id
termination_by s.length
decreasing_by exact length_of_first? ‹_›

theorem first?_eq_some {s before rest : List Char} {t : Token}
    (found : first? s = some (before, t, rest)) :
    beginsIn ['{', '{'] before = false ∧ s = before ++ t.raw.toList ++ rest ∧
      ∃ body, t = ofBody body ∧ Closed body := by
  rw [first?] at found
  split at found
  · cases found
  · next a b opened =>
    obtain ⟨⟨body, behind⟩, closes, same⟩ := Option.map_eq_some_iff.mp found
    cases same
    refine ⟨beginsIn_of_cut? opened, ?_, body, rfl, untilClosed_append closes⟩
    rw [eq_append_of_cut? opened, eq_append_of_untilClosed closes, List.append_assoc before _ rest,
      raw_append, List.append_assoc]
    rfl

theorem ofChars_eq (s : List Char) : ofChars s =
    match first? s with
    | none => []
    | some (_, t, rest) => t :: ofChars rest := by
  rw [ofChars]
  split
  · next none => rw [none]
  · next before t rest found => rw [found]

/-- The tokens of the text are those that it is cut at. -/
theorem map_cut (s : List Char) : (cut s).1.map (·.2) = ofChars s := by
  fun_induction cut s with
  | case1 s none => rw [ofChars_eq, none]; rfl
  | case2 s before t rest found ih => rw [ofChars_eq, found, Prod.map_fst, List.map_cons, ih]

/-- What stands before a token opens no braces, and the token ends where it closes its own. -/
theorem mem_cut {s before : List Char} {t : Token} (mem : (before, t) ∈ (cut s).1) :
    beginsIn ['{', '{'] before = false ∧ ∃ body, t = ofBody body ∧ Closed body := by
  fun_induction cut s with
  | case1 s none => cases mem
  | case2 s before' t' rest found ih =>
    rcases List.mem_cons.mp mem with same | later
    · cases same
      obtain ⟨still, -, token⟩ := first?_eq_some found
      exact ⟨still, token⟩
    · exact ih later

end Markup.Token
end Stencil
