import Stencil.Markup.Builder
import Stencil.Markup.Entity
import Stencil.Proofs.Markup.Braces
import Stencil.Proofs.Markup.Readable
import Stencil.Proofs.Markup.Offsets
import Stencil.Proofs.Markup.Reference
/-!
Tokens and character references found by offsets. The braces of a token are counted in the bytes of a
text, where no byte of a character outside ASCII is a brace. With the readers of markup these are all
that cut a source: none of them cuts inside a character, and none stops moving on.
-/
namespace Stencil.Markup
open Text

/-! ### Tokens -/

namespace Token

/-- The offset of the braces that close a token, from `index` on. -/
def closing? (bytes : List UInt8) (depth index : Nat) : Option Nat :=
  if index < bytes.length then
    if (utf8 ['{', '{']).isPrefixOf (bytes.drop index) then closing? bytes (depth + 1) (index + 2)
    else if (utf8 ['}', '}']).isPrefixOf (bytes.drop index) then
      if depth - 1 = 0 then some index else closing? bytes (depth - 1) (index + 2)
    else closing? bytes depth (index + 1)
  else none
termination_by bytes.length - index

/-- The tokens of a text. -/
def scan? (s : List Char) : Option (List Token) :=
  match find? ['{', '{'] s with
  | none => some []
  | some start =>
    match from? (start + 2) s with
    | none => none
    | some body =>
      match closing? (utf8 body) 1 0 with
      | none => some []
      | some stop =>
        match upTo? stop body, between? start (start + 2 + stop + 2) s,
            from? (start + 2 + stop + 2) s with
        | some name, some raw, some rest =>
          if utf8Size rest < utf8Size s then
            (scan? rest).map (⟨String.ofList (trim name), String.ofList raw⟩ :: ·)
          else none
        | _, _, _ => none
termination_by utf8Size s

theorem drop_utf8 (a s : List Char) : (utf8 (a ++ s)).drop (utf8Size a) = utf8 s := by
  rw [utf8_append, List.drop_left' (length_utf8 a)]

/-- Bytes outside ASCII are passed over one by one. -/
theorem closing?_skip {bytes bs rest : List UInt8} {index : Nat} (depth : Nat)
    (high : ∀ b ∈ bs, 128 ≤ b.toNat) (here : bytes.drop index = bs ++ rest) :
    closing? bytes depth index = closing? bytes depth (index + bs.length) := by
  induction bs generalizing index with
  | nil => rfl
  | cons b bs ih =>
    have more : index < bytes.length := by
      by_contra last
      rw [List.drop_eq_nil_of_le (Nat.le_of_not_lt last)] at here
      cases here
    have brace : ∀ c : Char, IsAscii c →
        (utf8 [c, c]).isPrefixOf (b :: (bs ++ rest)) = false := fun c ascii => by
      rw [utf8_cons_of_isAscii ascii]
      exact isPrefixOf_cons_of_high (toNat_ofNat_lt ascii) (high b List.mem_cons_self) _ _
    have behind : bytes.drop (index + 1) = bs ++ rest := by
      rw [← List.drop_drop, here]
      rfl
    rw [closing?, if_pos more, here, List.cons_append, brace '{' (by decide),
      brace '}' (by decide), if_neg Bool.false_ne_true, if_neg Bool.false_ne_true,
      ih (fun b mem => high b (List.mem_cons_of_mem _ mem)) behind, List.length_cons,
      Nat.add_right_comm, Nat.add_assoc]

section
variable {a s : List Char} {depth : Nat}

/-- One turn of the search, told by the characters. -/
theorem closing?_eq {c : Char} (s : List Char) : closing? (utf8 (a ++ c :: s)) depth (utf8Size a) =
    if startsWith ['{', '{'] (c :: s) then
      closing? (utf8 (a ++ c :: s)) (depth + 1) (utf8Size a + 2)
    else if startsWith ['}', '}'] (c :: s) then
      if depth - 1 = 0 then some (utf8Size a)
      else closing? (utf8 (a ++ c :: s)) (depth - 1) (utf8Size a + 2)
    else closing? (utf8 (a ++ c :: s)) depth (utf8Size a + c.utf8Size) := by
  have more : utf8Size a < (utf8 (a ++ c :: s)).length := by
    have positive := c.utf8Size_pos
    rw [length_utf8, utf8Size_append, utf8Size_cons]
    omega
  have starts : ∀ d, IsAscii d → (utf8 [d, d]).isPrefixOf (utf8 (c :: s)) =
      startsWith [d, d] (c :: s) := fun d ascii => isPrefixOf_utf8 (by simpa using ascii) _
  by_cases one : IsAscii c
  · have size : c.utf8Size = 1 := by
      rw [← String.length_utf8EncodeChar, utf8EncodeChar_of_isAscii one]
      rfl
    rw [closing?, if_pos more, drop_utf8, starts '{' (by decide), starts '}' (by decide), size]
  · have noBrace : ∀ d, IsAscii d → startsWith [d, d] (c :: s) = false := fun d ascii => by
      have other : d ≠ c := fun same => one (same ▸ ascii)
      exact startsWith_of_ne other _ _
    rw [noBrace '{' (by decide), noBrace '}' (by decide), if_neg Bool.false_ne_true,
      if_neg Bool.false_ne_true, ← String.length_utf8EncodeChar]
    exact closing?_skip depth (fun b mem => le_of_mem_utf8EncodeChar one mem)
      ((drop_utf8 a (c :: s)).trans (utf8_cons c s))

/-- What is found further on is found from here. -/
theorem closing?_onward {x : List Char}
    (further : closing? (utf8 ((a ++ x) ++ s)) depth (utf8Size (a ++ x)) =
      (untilClosed depth s).map fun r => utf8Size (a ++ x) + utf8Size r.1) :
    closing? (utf8 (a ++ (x ++ s))) depth (utf8Size a + utf8Size x) =
      ((untilClosed depth s).map fun (body, rest) => (x ++ body, rest)).map
        fun r => utf8Size a + utf8Size r.1 := by
  rw [← List.append_assoc, ← utf8Size_append, further, Option.map_map]
  congr 1
  funext r
  rw [Function.comp, utf8Size_append, utf8Size_append, Nat.add_assoc]

theorem closing?_utf8 (a s : List Char) (depth : Nat) :
    closing? (utf8 (a ++ s)) depth (utf8Size a) =
      (untilClosed depth s).map fun r => utf8Size a + utf8Size r.1 := by
  fun_induction untilClosed depth s generalizing a with
  | case1 depth =>
    rw [List.append_nil, closing?, if_neg (by rw [length_utf8]; exact Nat.lt_irrefl _)]
    rfl
  | case2 depth s ih =>
    rw [closing?_eq, show startsWith ['{', '{'] ('{' :: '{' :: s) = true from rfl, if_pos rfl]
    exact closing?_onward (ih (a ++ ['{', '{']))
  | case3 depth s shallow =>
    rw [closing?_eq, show startsWith ['{', '{'] ('}' :: '}' :: s) = false from rfl,
      show startsWith ['}', '}'] ('}' :: '}' :: s) = true from rfl, if_neg Bool.false_ne_true,
      if_pos rfl, if_pos (Nat.sub_eq_zero_of_le shallow)]
    rfl
  | case4 depth s deep ih =>
    rw [closing?_eq, show startsWith ['{', '{'] ('}' :: '}' :: s) = false from rfl,
      show startsWith ['}', '}'] ('}' :: '}' :: s) = true from rfl, if_neg Bool.false_ne_true,
      if_pos rfl, if_neg (by omega)]
    exact closing?_onward (ih (a ++ ['}', '}']))
  | case5 depth c s opens closes ih =>
    have noPair : ∀ d, (∀ t, c = d → s = d :: t → False) → startsWith [d, d] (c :: s) = false := by
      intro d apart
      rw [Bool.eq_false_iff]
      intro starts
      obtain ⟨t, starts⟩ := Option.isSome_iff_exists.mp starts
      obtain ⟨first, second⟩ := List.cons.inj (eq_append_of_dropPrefix? starts)
      exact apart t first second
    rw [closing?_eq, noPair '{' opens, noPair '}' closes, if_neg Bool.false_ne_true,
      if_neg Bool.false_ne_true, ← show utf8Size [c] = c.utf8Size from utf8Size_cons c []]
    exact closing?_onward (ih (a ++ [c]))

end

/-- The search finds where the first token of a text is closed. -/
theorem closing?_eq_untilClosed (s : List Char) :
    closing? (utf8 s) 1 0 = (untilClosed 1 s).map fun r => utf8Size r.1 := by
  simpa using closing?_utf8 [] s 1

/-- One turn of the scan, told by the characters. -/
theorem scan?_eq_first? (s : List Char) : scan? s =
    match first? s with
    | none => some []
    | some (_, t, rest) => (scan? rest).map (t :: ·) := by
  have found : find? ['{', '{'] s = (cut? ['{', '{'] s).map fun r => utf8Size r.1 :=
    offset?_utf8 (q := '{') (p := ['{']) (by simp [IsAscii]) s
  rw [scan?, first?, found]
  cases opened : cut? ['{', '{'] s with
  | none => rfl
  | some r =>
    obtain ⟨before, body⟩ := r
    have token : At s (utf8Size before) (['{', '{'] ++ body) := by
      rw [eq_append_of_cut? opened, List.append_assoc]
      exact at_append _ _
    have inner : At s (utf8Size before + 2) body := token.move
    simp only [Option.map_some, inner.from?, closing?_eq_untilClosed]
    cases closed : untilClosed 1 body with
    | none => rfl
    | some r =>
      obtain ⟨name, rest⟩ := r
      have text := eq_append_of_untilClosed closed
      have named : upTo? (utf8Size name) body = some name := by rw [text, upTo?_append]
      rw [text, show ['{', '{'] ++ (name ++ '}' :: '}' :: rest) =
        ('{' :: '{' :: name ++ ['}', '}']) ++ rest by simp] at token
      have whole : utf8Size before + 2 + utf8Size name + 2 =
          utf8Size before + utf8Size ('{' :: '{' :: name ++ ['}', '}']) := by
        rw [utf8Size_append, utf8Size_cons, utf8Size_cons, show '{'.utf8Size = 1 from rfl,
          show utf8Size ['}', '}'] = 2 from rfl]
        omega
      have shorter : utf8Size rest < utf8Size s := by
        have size := token.add_size
        rw [utf8Size_append, ← Nat.add_assoc, ← whole] at size
        omega
      simp only [Option.map_some, named, whole, token.between?, token.move.from?, if_pos shorter]
      rfl

theorem scan?_eq (s : List Char) : scan? s = some (ofChars s) := by
  fun_induction ofChars s with
  | case1 s none => rw [scan?_eq_first?, none]
  | case2 s before t rest found ih =>
    rw [scan?_eq_first?, found]
    dsimp only
    rw [ih, Option.map_some]

end Token

/-! ### Character references -/

namespace Entity

/-- The character of the reference at the start of a text, and the offset of its semicolon; nothing of
these if no reference stands there. -/
def referenceAt? (tail : List Char) : Option (Option (Char × Nat)) :=
  match (find? ";".toList tail).filter (· ≤ maxReach) with
  | none => some none
  | some stop => (between? 1 stop tail).map fun body => (resolve? body).map (·, stop)

/-- A text with its references replaced by their characters. -/
def scan? (s : List Char) : Option (List Char) :=
  match find? "&".toList s with
  | none => some s
  | some start =>
    match upTo? start s, from? start s with
    | some before, some tail =>
      match referenceAt? tail with
      | none => none
      | some reference =>
        let (c, width) := match reference with
          | some (c, stop) => (c, stop + 1)
          | none => ('&', 1)
        match from? width tail with
        | none => none
        | some rest =>
          if utf8Size rest < utf8Size s then (scan? rest).map (before ++ c :: ·) else none
    | _, _ => none
termination_by utf8Size s

theorem referenceAt?_eq (s : List Char) : ∃ reference, referenceAt? ('&' :: s) = some reference ∧
    match reference? s with
    | none => reference = none
    | some (c, rest) => ∃ stop, reference = some (c, stop) ∧ At ('&' :: s) (stop + 1) rest := by
  have found : find? ";".toList ('&' :: s) = (cutChar? ';' s).map fun r => 1 + utf8Size r.1 := by
    rw [show ";".toList = [';'] from rfl, find?_singleton (by decide), cutChar?,
      if_neg (by decide), Option.map_map]
    congr 1
    funext r
    exact utf8Size_cons '&' r.1
  rw [referenceAt?, found, reference?]
  cases cut : cutChar? ';' s with
  | none => exact ⟨none, rfl, rfl⟩
  | some r =>
    obtain ⟨body, rest⟩ := r
    have here : At ('&' :: s) 1 (body ++ ';' :: rest) := by
      rw [eq_append_of_cutChar? cut]
      exact at_append ['&'] _
    have behind : At ('&' :: s) (1 + utf8Size body + 1) rest := here.move.move (a := [';'])
    dsimp only [Option.map_some]
    by_cases near : 1 + utf8Size body ≤ maxReach
    · rw [Option.filter_some_pos (by simpa using near), if_pos near]
      dsimp only
      rw [here.between?]
      refine ⟨(resolve? body).map (·, 1 + utf8Size body), rfl, ?_⟩
      cases resolve? body with
      | none => rfl
      | some c => exact ⟨_, rfl, behind⟩
    · rw [Option.filter_some_neg (by simpa using near), if_neg near]
      exact ⟨none, rfl, rfl⟩

theorem decode_of_not_mem {s : List Char} (plain : '&' ∉ s) : decode s = s := by
  have whole := decode_append plain []
  rwa [decode, List.append_nil] at whole

/-- One turn of the scan, told by the characters. -/
theorem scan?_append {a : List Char} (plain : '&' ∉ a) (s : List Char) : scan? (a ++ '&' :: s) =
    match reference? s with
    | none => (scan? s).map (a ++ '&' :: ·)
    | some (c, rest) => (scan? rest).map (a ++ c :: ·) := by
  have found : find? "&".toList (a ++ '&' :: s) = some (utf8Size a) := by
    rw [show "&".toList = ['&'] from rfl, find?_singleton (by decide), cutChar?_append plain,
      Option.map_some]
  have here : At (a ++ '&' :: s) (utf8Size a) ('&' :: s) := at_append _ _
  -- What is left is shorter, whether one character has been read or a whole reference.
  have onward : ∀ c {width : Nat} {rest : List Char}, At ('&' :: s) width rest → 0 < width →
      (match from? width ('&' :: s) with
        | none => none
        | some rest =>
          if utf8Size rest < utf8Size (a ++ '&' :: s) then (scan? rest).map (a ++ c :: ·)
          else none) = (scan? rest).map (a ++ c :: ·) := by
    intro c width rest there positive
    have shorter : utf8Size rest < utf8Size (a ++ '&' :: s) := by
      have whole := (here.trans there).add_size
      omega
    rw [there.from?]
    dsimp only
    rw [if_pos shorter]
  obtain ⟨reference, read, lands⟩ := referenceAt?_eq s
  rw [scan?, found]
  simp only [upTo?_append, here.from?, read]
  cases own : reference? s with
  | none =>
    rw [own] at lands
    rw [lands]
    exact onward '&' (at_append ['&'] s) Nat.one_pos
  | some r =>
    obtain ⟨c, rest⟩ := r
    rw [own] at lands
    obtain ⟨stop, same, there⟩ := lands
    rw [same]
    exact onward c there (Nat.succ_pos stop)

theorem scan?_eq (s : List Char) : scan? s = some (decode s) := by
  induction size : s.length using Nat.strongRecOn generalizing s with
  | ind n ih =>
    cases cut : cutChar? '&' s with
    | none =>
      have found : find? "&".toList s = none := by
        rw [show "&".toList = ['&'] from rfl, find?_singleton (by decide), cut, Option.map_none]
      rw [scan?, found, decode_of_not_mem (not_mem_of_cutChar?_eq_none cut)]
    | some r =>
      obtain ⟨before, behind⟩ := r
      have shorter := length_of_cutChar? cut
      rw [eq_append_of_cutChar? cut, scan?_append (not_mem_of_cutChar? cut),
        decode_append (not_mem_of_cutChar? cut), decode_ampersand]
      cases own : reference? behind with
      | none =>
        dsimp only
        rw [ih _ (by omega) behind rfl, Option.map_some]
      | some r =>
        have shorter' := length_of_reference? own
        dsimp only
        rw [ih _ (by omega) r.2 rfl, Option.map_some]

end Entity

/-! ### All readers -/

/-- Reads a source by offsets. -/
def Source.readAt? (rules : List IgnoreRule) (source : String) : Option Source :=
  (Lexeme.lexemesAt? source.toList 0).map fun lexemes =>
    let b := (lexemes.foldl (Builder.step rules) {}).finish rules
    ⟨.node .root b.siblings.reverse, b.dropped.reverse⟩

/-- Markup, tokens and character references are read from every text: no offset that a reader cuts at
is behind the end or inside a character, every turn of a loop moves on, and what is read is what the
characters say. -/
theorem readers_cut_between_characters :
    (∀ s m n, ((between? m n s.toList).isSome ↔
      m ≤ n ∧ String.Pos.Raw.IsValid s ⟨m⟩ ∧ String.Pos.Raw.IsValid s ⟨n⟩) ∧
      ((from? n s.toList).isSome ↔ String.Pos.Raw.IsValid s ⟨n⟩) ∧
      ((upTo? n s.toList).isSome ↔ String.Pos.Raw.IsValid s ⟨n⟩)) ∧
    (∀ rules s, Source.readAt? rules s = some (Source.read rules s)) ∧
    (∀ s, Token.scan? s.toList = some (Token.ofText s)) ∧
    ∀ s, (Entity.scan? s.toList).map String.ofList = some (Entity.decodeText s) := by
  refine ⟨fun s m n => ⟨isSome_between? s m n, isSome_from? s n, isSome_upTo? s n⟩,
    fun rules s => ?_, fun s => Token.scan?_eq s.toList, fun s => ?_⟩
  · rw [Source.readAt?, Lexeme.lexemesAt?_eq (at_zero s.toList)]
    rfl
  · rw [Entity.scan?_eq]
    rfl

end Stencil.Markup
