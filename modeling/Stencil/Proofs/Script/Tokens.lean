import Mathlib
import Stencil.Script.Link
import Stencil.Script.Token
/-!
The kinds of the tokens of a text, from its start to its end. Where no bracket is open that would
change what a character means, what a text is read as does not depend on what stands before it, so
the tokens are found one after the other.
-/
namespace Stencil.Script.Lexing
open Link

/-- The text is read as tokens of these kinds, wherever it stands. -/
def Scans (s : List Char) (kinds : List TokenKind) : Prop :=
  ∀ fuel st place, st.brackets = [] → s.length < fuel →
    ∃ ts, tokens? fuel st place s = some ts ∧ ts.map Token.kind = kinds

/-- The text starts with a token of this kind. -/
def Takes (s : List Char) (kind : TokenKind) (rest : List Char) : Prop :=
  ∀ fuel st, st.brackets = [] → s.length < fuel →
    (token? fuel st s).map (fun r => (r.1, r.2.1.brackets, r.2.2)) = some (kind, [], rest)

/-- A character that stands between tokens. -/
def isGap (c : Char) : Bool := isLineEnd c || isSpace c

/-- A character that starts a token, but for a slash. -/
def isSolid (c : Char) : Bool := !isGap c && c != '/'

variable {c : Char} {g s rest : List Char} {kind : TokenKind} {kinds : List TokenKind}

/-! ### Between tokens -/

theorem skip_gap (gap : isGap c = true) (fuel : Nat) (newline : Bool) (s : List Char) :
    skip (fuel + 1) newline (c :: s) = skip fuel (newline || isLineEnd c) s := by
  have notSlash : c ≠ '/' := by
    rintro rfl
    revert gap
    decide
  rw [skip]
  · split
    · next ends => rw [ends, Bool.or_true]
    · next inside =>
      rw [isGap, Bool.eq_false_iff.mpr inside, Bool.false_or] at gap
      rw [if_pos gap, Bool.eq_false_iff.mpr inside, Bool.or_false]
  · exact fun _ slash => absurd slash notSlash
  · exact fun _ slash => absurd slash notSlash

theorem skip_solid (solid : isSolid c = true) (fuel : Nat) (newline : Bool) (s : List Char) :
    skip (fuel + 1) newline (c :: s) = some (newline, c :: s) := by
  rw [isSolid, isGap, Bool.and_eq_true, Bool.not_eq_true', Bool.or_eq_false_iff, bne_iff_ne]
    at solid
  obtain ⟨⟨inside, filled⟩, notSlash⟩ := solid
  rw [skip, if_neg (by simp [inside]), if_neg (by simp [filled])]
  · exact fun _ slash => absurd slash notSlash
  · exact fun _ slash => absurd slash notSlash

theorem skip_append (gap : g.all isGap = true) {fuel : Nat} (enough : g.length ≤ fuel)
    (newline : Bool) (s : List Char) :
    ∃ ends, skip fuel newline (g ++ s) = skip (fuel - g.length) ends s := by
  induction g generalizing fuel newline with
  | nil => exact ⟨newline, rfl⟩
  | cons c g ih =>
    obtain ⟨own, others⟩ := Bool.and_eq_true_iff.mp gap
    cases fuel with
    | zero => cases enough
    | succ fuel =>
      obtain ⟨ends, rest⟩ := ih others (Nat.le_of_succ_le_succ enough) (newline || isLineEnd c)
      refine ⟨ends, ?_⟩
      rw [List.cons_append, skip_gap own, rest, List.length_cons, Nat.succ_sub_succ]

/-- A text of gaps holds no token. -/
theorem scans_gap (gap : g.all isGap = true) : Scans g [] := by
  intro fuel st place empty enough
  obtain ⟨ends, rest⟩ := skip_append gap (Nat.le_of_lt enough) false []
  obtain ⟨fuel, rfl⟩ := Nat.exists_eq_succ_of_ne_zero (Nat.ne_of_gt (Nat.zero_lt_of_lt enough))
  obtain ⟨more, left⟩ := Nat.exists_eq_succ_of_ne_zero (Nat.sub_ne_zero_of_lt enough)
  rw [List.append_nil, left, skip] at rest
  refine ⟨[], ?_, rfl⟩
  rw [tokens?, rest]
  simp [empty]

/-- The tokens of a text are its first one and those of what that leaves. -/
theorem Scans.cons (more : Scans rest kinds) (gap : g.all isGap = true)
    (takes : Takes (c :: s) kind rest) (solid : isSolid c = true)
    (shorter : rest.length ≤ s.length) : Scans (g ++ c :: s) (kind :: kinds) := by
  intro fuel st place empty enough
  rw [List.length_append, List.length_cons] at enough
  obtain ⟨ends, skipped⟩ := skip_append gap (show g.length ≤ fuel by omega) false (c :: s)
  obtain ⟨left, left_eq⟩ : ∃ left, fuel - g.length = left + 1 := ⟨fuel - g.length - 1, by omega⟩
  rw [left_eq, skip_solid solid] at skipped
  obtain ⟨fuel, rfl⟩ : ∃ k, fuel = k + 1 := ⟨fuel - 1, by omega⟩
  obtain ⟨⟨kind', st', rest'⟩, token, same⟩ := Option.map_eq_some_iff.mp
    (takes (fuel + 1) st empty (by rw [List.length_cons]; omega))
  obtain ⟨own, empty', left⟩ : kind' = kind ∧ st'.brackets = [] ∧ rest' = rest := by simpa using same
  rw [own, left] at token
  let start := place + ((g ++ c :: s).length - (c :: s).length)
  let stop := start + ((c :: s).length - rest.length)
  obtain ⟨ts, tokens, rfl⟩ := more fuel st' stop empty' (by omega)
  refine ⟨⟨kind, start, stop, ends⟩ :: ts, ?_, rfl⟩
  rw [tokens?, skipped, Option.bind_eq_bind, Option.bind_some]
  dsimp only
  rw [token, Option.bind_eq_bind, Option.bind_some]
  dsimp only
  rw [tokens]
  rfl

/-! ### Names -/

/-- A character of an identifier. -/
def isNamePart (c : Char) : Bool := isIdentifierStart c || c.isDigit

/-- A character that ends a name. -/
def endsName (c : Char) : Bool := !continuesName c && c != '\\'

theorem toNat_lt_of_isNamePart (part : isNamePart c = true) : c.toNat < 128 := by
  simp only [isNamePart, isIdentifierStart, Char.isAlpha, Char.isUpper, Char.isLower, Char.isDigit,
    UInt32.le_iff_toNat_le, Bool.or_eq_true, Bool.and_eq_true, decide_eq_true_eq, beq_iff_eq] at part
  rcases part with ((letter | rfl) | rfl) | digit
  · rcases letter with capital | small
    · exact Nat.lt_of_le_of_lt capital.2 (by decide)
    · exact Nat.lt_of_le_of_lt small.2 (by decide)
  · decide
  · decide
  · exact Nat.lt_of_le_of_lt digit.2 (by decide)

/-- What holds of the characters of identifiers is found by looking at each of them. -/
theorem of_isNamePart {p : Char → Bool}
    (each : ∀ n ∈ List.range 128, isNamePart (Char.ofNat n) = true → p (Char.ofNat n) = true)
    (part : isNamePart c = true) : p c = true := by
  have own := each c.toNat (List.mem_range.mpr (toNat_lt_of_isNamePart part))
  rw [Char.ofNat_toNat] at own
  exact own part

theorem continuesName_of_isNamePart (part : isNamePart c = true) :
    continuesName c = true ∧ c ≠ '\\' := by
  have own := of_isNamePart (p := fun c => continuesName c && c != '\\') (by decide +kernel) part
  rwa [Bool.and_eq_true, bne_iff_ne] at own

theorem nameChars_append {n : List Char} {d : Char} (inside : ∀ c ∈ n, isNamePart c = true)
    (ends : endsName d = true) {fuel : Nat} (enough : n.length < fuel) :
    nameChars fuel false (n ++ d :: s) = some (n, false, d :: s) := by
  induction n generalizing fuel with
  | nil =>
    obtain ⟨fuel, rfl⟩ := Nat.exists_eq_succ_of_ne_zero (Nat.ne_of_gt enough)
    rw [endsName, Bool.and_eq_true, Bool.not_eq_true', bne_iff_ne] at ends
    rw [List.nil_append, nameChars]
    · simp [ends.1]
    · exact fun _ escape => absurd escape ends.2
  | cons c n ih =>
    obtain ⟨own, others⟩ := List.forall_mem_cons.mp inside
    obtain ⟨continues, plain⟩ := continuesName_of_isNamePart own
    obtain ⟨fuel, rfl⟩ := Nat.exists_eq_succ_of_ne_zero (Nat.ne_of_gt (Nat.zero_lt_of_lt enough))
    rw [List.cons_append, nameChars]
    · rw [if_neg Bool.false_ne_true, if_pos continues, ih others (Nat.lt_of_succ_lt_succ enough)]
      rfl
    · exact fun _ escape => absurd escape plain

/-- An identifier is one token. -/
theorem takes_word {d : Char} (name : isIdentifierStart c = true)
    (inside : ∀ c ∈ s, isNamePart c = true) (ends : endsName d = true) (rest : List Char) :
    Takes (c :: (s ++ d :: rest)) (.word (String.ofList (c :: s)) false) (d :: rest) := by
  intro fuel st empty enough
  have part : isNamePart c = true := by rw [isNamePart, name, Bool.true_or]
  have starts := of_isNamePart (p := fun c => !isIdentifierStart c || (startsName c &&
    c != '"' && c != '\'' && c != '\x60' && !c.isDigit && c != '.' && c != '#' && c != '\\'))
    (by decide +kernel) part
  simp only [name, Bool.not_true, Bool.false_or, Bool.and_eq_true, bne_iff_ne, Bool.not_eq_true']
    at starts
  obtain ⟨⟨⟨⟨⟨⟨⟨start, quote⟩, single⟩, tick⟩, digit⟩, dot⟩, hidden⟩, escape⟩ := starts
  obtain ⟨fuel, rfl⟩ : ∃ k, fuel = k + 1 := ⟨fuel - 1, by omega⟩
  have read : nameChars (fuel + 1) true (c :: (s ++ d :: rest)) = some (c :: s, false, d :: rest) := by
    rw [List.length_cons, List.length_append] at enough
    rw [nameChars]
    · rw [if_pos rfl, if_pos start, nameChars_append inside ends (by omega)]
      rfl
    · exact fun _ same => absurd same escape
  simp [token?, quote, single, tick, digit, dot, hidden, start, read, empty]

/-! ### Texts -/

theorem plain_of_isNamePart (part : isNamePart c = true) :
    c ≠ '"' ∧ c ≠ '\n' ∧ c ≠ '\r' ∧ c ≠ '\\' ∧ Units.ofChar c = [c.toNat] := by
  have own := of_isNamePart (p := fun c => c != '"' && c != '\n' && c != '\r' && c != '\\' &&
    Units.ofChar c == [c.toNat]) (by decide +kernel) part
  simp only [Bool.and_eq_true, bne_iff_ne, beq_iff_eq] at own
  obtain ⟨⟨⟨⟨quote, line⟩, turn⟩, escape⟩, units⟩ := own
  exact ⟨quote, line, turn, escape, units⟩

theorem stringUnits_append (inside : ∀ c ∈ s, isNamePart c = true) {fuel : Nat}
    (enough : s.length < fuel) (rest : List Char) :
    stringUnits '"' fuel (s ++ '"' :: rest) = some (s.map Char.toNat, rest) := by
  induction s generalizing fuel with
  | nil =>
    obtain ⟨fuel, rfl⟩ : ∃ k, fuel = k + 1 := ⟨fuel - 1, by omega⟩
    rfl
  | cons c s ih =>
    obtain ⟨own, others⟩ := List.forall_mem_cons.mp inside
    obtain ⟨quote, line, turn, escape, units⟩ := plain_of_isNamePart own
    obtain ⟨fuel, rfl⟩ : ∃ k, fuel = k + 1 := ⟨fuel - 1, by omega⟩
    rw [List.cons_append, stringUnits]
    · simp [quote, line, turn, units, ih others (Nat.lt_of_succ_lt_succ enough)]
    · exact fun same => absurd same escape

theorem chars_map_toNat (inside : ∀ c ∈ s, isNamePart c = true) :
    Units.chars (s.map Char.toNat) = s := by
  induction s with
  | nil => rfl
  | cons c s ih =>
    obtain ⟨own, others⟩ := List.forall_mem_cons.mp inside
    have small := toNat_lt_of_isNamePart own
    have same : Units.charOf c.toNat = c := by
      have below : ¬ Units.pairBase ≤ c.toNat := Nat.not_le_of_lt (Nat.lt_trans small (by decide))
      rw [Units.charOf, decide_eq_false below, Bool.false_and, if_neg Bool.false_ne_true,
        Char.ofNat_toNat]
    have low : Units.isHigh c.toNat = false := by
      rw [Units.isHigh, decide_eq_false (by omega), Bool.false_and]
    cases s with
    | nil => rw [List.map_singleton, Units.chars, same]
    | cons d s =>
      have later := ih others
      rw [List.map_cons] at later
      rw [List.map_cons, List.map_cons, Units.chars, low, Bool.false_and,
        if_neg Bool.false_ne_true, same, later]

/-- An identifier in quotes is one token. -/
theorem takes_text (inside : ∀ c ∈ s, isNamePart c = true) (rest : List Char) :
    Takes ('"' :: (s ++ '"' :: rest)) (.text (String.ofList s)) rest := by
  intro fuel st empty enough
  rw [List.length_cons, List.length_append] at enough
  simp [token?, stringUnits_append inside (show s.length < fuel by omega), Units.toText,
    chars_map_toNat inside, empty]

/-! ### Marks -/

/-- Marks that neither open nor close what changes how a text is read. -/
def plainMarks : List String := ["=", ".", "[", "]", ";"]

def markStarts : List Char := ['=', '.', '[', ']', ';']

theorem afterMark?_of_plain {m : String} (plain : m ∈ plainMarks) (st : State) : afterMark? m st =
    some { brackets := st.brackets, valueNext := m != "]", afterDot := m == "." } := by
  simp only [plainMarks, List.mem_cons, List.not_mem_nil, or_false] at plain
  rcases plain with rfl | rfl | rfl | rfl | rfl <;> rfl

theorem takes_mark {m : String} (read : mark? (c :: s) = some (m, rest)) (plain : m ∈ plainMarks)
    (sign : c ∈ markStarts) (apart : c = '.' → s.head?.any Char.isDigit = false) :
    Takes (c :: s) (.mark m) rest := by
  intro fuel st empty _
  have other : (c == '"' || c == '\'') = false ∧ (c == '\x60') = false ∧
      (c == '\x7d') = false ∧ c.isDigit = false ∧ (c == '#') = false ∧
      (startsName c || c == '\\') = false ∧ (c == '/') = false := by
    simp only [markStarts, List.mem_cons, List.not_mem_nil, or_false] at sign
    rcases sign with rfl | rfl | rfl | rfl | rfl <;> decide
  obtain ⟨quote, tick, brace, digit, hidden, name, slash⟩ := other
  have dotted : (c.isDigit || (c == '.' && s.head?.any Char.isDigit)) = false := by
    rw [digit, Bool.false_or, Bool.and_eq_false_iff]
    by_cases dot : c = '.'
    · exact .inr (apart dot)
    · exact .inl (by simp [dot])
  simp [token?, quote, tick, brace, dotted, hidden, name, slash, read, afterMark?_of_plain plain,
    empty]

/-! ### One token after the other -/

/-- A text that is an identifier. -/
def IsName : List Char → Prop
  | [] => False
  | c :: s => isIdentifierStart c = true ∧ s.all isNamePart = true

instance : DecidablePred IsName
  | [] => isFalse id
  | c :: s => inferInstanceAs
      (Decidable (isIdentifierStart c = true ∧ s.all isNamePart = true))

theorem isName_of_isIdentifier {name : String} (identifier : isIdentifier name = true) :
    IsName name.toList := by
  rw [isIdentifier] at identifier
  split at identifier
  · cases identifier
  · next c s text =>
    rw [text]
    exact Bool.and_eq_true_iff.mp identifier

theorem IsName.part {n : List Char} (name : IsName n) : ∀ c ∈ n, isNamePart c = true := by
  cases n with
  | nil => exact name.elim
  | cons c s =>
    exact List.forall_mem_cons.mpr ⟨by rw [isNamePart, name.1, Bool.true_or], List.all_eq_true.mp name.2⟩

theorem Scans.word {n : List Char} {d : Char} (more : Scans (d :: rest) kinds)
    (gap : g.all isGap = true) (name : IsName n) (ends : endsName d = true) :
    Scans (g ++ (n ++ d :: rest)) (.word (String.ofList n) false :: kinds) := by
  cases n with
  | nil => exact name.elim
  | cons c s =>
    have solid : isSolid c = true :=
      of_isNamePart (p := isSolid) (by decide +kernel) (name.part c List.mem_cons_self)
    exact more.cons gap (takes_word name.1 (List.all_eq_true.mp name.2) ends rest) solid (by simp)

theorem Scans.text {n : List Char} (more : Scans rest kinds) (gap : g.all isGap = true)
    (name : IsName n) :
    Scans (g ++ '"' :: (n ++ '"' :: rest)) (.text (String.ofList n) :: kinds) :=
  more.cons gap (takes_text name.part rest) (by decide) (by simp; omega)

theorem Scans.mark {m : String} (more : Scans rest kinds) (gap : g.all isGap = true)
    (read : mark? (c :: s) = some (m, rest)) (plain : m ∈ plainMarks) (sign : c ∈ markStarts)
    (apart : c = '.' → s.head?.any Char.isDigit = false) (shorter : rest.length ≤ s.length) :
    Scans (g ++ c :: s) (.mark m :: kinds) := by
  have solid : markStarts.all isSolid = true := by decide
  exact more.cons gap (takes_mark read plain sign apart) (List.all_eq_true.mp solid c sign) shorter

/-- What the tokens of a whole text are. -/
theorem ofText?_of_scans {source : String} (scans : Scans source.toList kinds)
    (plain : source.toList.head? ≠ some '#') :
    ∃ ts, Token.ofText? source = some ts ∧ ts.map Token.kind = kinds := by
  rw [Token.ofText?]
  split
  · next s text => exact absurd (by rw [text]; rfl) plain
  · exact scans _ {} 0 rfl (Nat.lt_succ_self _)

end Stencil.Script.Lexing
