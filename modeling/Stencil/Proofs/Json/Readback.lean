import Mathlib.Data.List.Nodup
import Mathlib.Tactic.IntervalCases
import Stencil.Json.Reader
import Stencil.Json.Writer
/-!
Reading back what has been written. Between writing and reading, a slash after an angle bracket may
get a backslash: angle brackets stand in strings only, and there a slash with a backslash is a
slash. What is read is exactly what has been written, unless it nests deeper than the reader allows.
-/
namespace Stencil

namespace Assoc
variable {α : Type}

theorem put_of_not_mem {es : Assoc α} {key : String} (absent : key ∉ es.keys) (value : α) :
    put key value es = es ++ [(key, value)] := by
  induction es with
  | nil => rfl
  | cons e es ih =>
    obtain ⟨other, rest⟩ := not_or.mp (mt List.mem_cons.mpr absent)
    rw [put, if_neg (Ne.symm other), ih rest, List.cons_append]

theorem putAll_of_distinct {es more : Assoc α} (distinct : Distinct (es ++ more)) :
    putAll es more = es ++ more := by
  induction more generalizing es with
  | nil => exact (List.append_nil es).symm
  | cons e more ih =>
    have first : e.1 ∉ es.keys := by
      rw [Distinct, keys, List.map_append, List.nodup_append] at distinct
      intro mem
      exact distinct.2.2 e.1 mem e.1 List.mem_cons_self rfl
    have step : putAll es (e :: more) = putAll (put e.1 e.2 es) more := rfl
    rw [List.append_cons] at distinct ⊢
    rw [step, put_of_not_mem first, ih distinct]

theorem ofList_of_distinct {es : Assoc α} (distinct : es.Distinct) : ofList es = es :=
  putAll_of_distinct distinct

end Assoc

namespace Json

/-! ### Slashes -/

/-- A text with a backslash before each slash that follows an angle bracket. An angle bracket may
stand before the text. -/
def escapeSlashes (angle : Bool) : List Char → List Char
  | [] => []
  | c :: s =>
    if angle && c == '/' then '\\' :: '/' :: escapeSlashes false s
    else c :: escapeSlashes (c == '<') s

theorem escapeSlashes_cons {c : Char} (slash : c ≠ '/') (angle : Bool) (s : List Char) :
    escapeSlashes angle (c :: s) = c :: escapeSlashes (c == '<') s := by
  rw [escapeSlashes, if_neg (by simp [slash])]

theorem length_le_escapeSlashes (angle : Bool) (s : List Char) :
    s.length ≤ (escapeSlashes angle s).length := by
  induction s generalizing angle with
  | nil => exact Nat.le_refl 0
  | cons c s ih =>
    rw [escapeSlashes]
    split
    · have := ih false
      simp only [List.length_cons]
      omega
    · have := ih (c == '<')
      simp only [List.length_cons]
      omega

theorem getLast?_escapeSlashes (angle : Bool) (s : List Char) {c : Char} (slash : c ≠ '/') :
    (escapeSlashes angle (s ++ [c])).getLast? = some c := by
  induction s generalizing angle with
  | nil =>
    rw [List.nil_append, escapeSlashes_cons slash]
    rfl
  | cons d s ih =>
    rw [List.cons_append, escapeSlashes]
    split
    · rw [List.getLast?_cons_cons, List.getLast?_cons, ih]
      rfl
    · rw [List.getLast?_cons, ih]
      rfl

/-- No end tag starts in the text, nor with an angle bracket before it. -/
theorem no_end_tag_escapeSlashes (angle : Bool) (s : List Char) :
    ¬ ['<', '/'] <:+: escapeSlashes angle s ∧
      (angle = true → (escapeSlashes angle s).head? ≠ some '/') := by
  induction s generalizing angle with
  | nil => exact ⟨by simp [escapeSlashes], by simp [escapeSlashes]⟩
  | cons c s ih =>
    rw [escapeSlashes]
    split
    · refine ⟨?_, by simp⟩
      rw [List.infix_cons_iff, List.infix_cons_iff]
      rintro (here | here | later)
      · cases (List.cons_prefix_cons.mp here).1
      · cases (List.cons_prefix_cons.mp here).1
      · exact (ih false).1 later
    · next kept =>
      refine ⟨?_, ?_⟩
      · rw [List.infix_cons_iff]
        rintro (here | later)
        · obtain ⟨rfl, rest⟩ := List.cons_prefix_cons.mp here
          have slash : (escapeSlashes true s).head? = some '/' := by
            obtain ⟨r, same⟩ := rest
            exact same ▸ rfl
          exact (ih true).2 rfl slash
        · exact (ih _).1 later
      · rintro rfl
        simpa using kept

/-! ### Strings -/

theorem hex4_plain {n : Nat} (control : n < 32) : ∀ c ∈ hex4 n, c ≠ '/' ∧ c ≠ '<' := by
  have plain : (hex4 n).all (fun c => c != '/' && c != '<') = true := by
    interval_cases n <;> rfl
  simpa using plain

theorem readHex4_hex4 {n : Nat} (control : n < 32) (s : List Char) :
    readHex4 (hex4 n ++ s) = some (n, s) := by
  interval_cases n <;> rfl

theorem escapeSlashes_append {p : List Char} (plain : ∀ c ∈ p, c ≠ '/' ∧ c ≠ '<') (s : List Char) :
    escapeSlashes false (p ++ s) = p ++ escapeSlashes false s := by
  induction p with
  | nil => rfl
  | cons c p ih =>
    obtain ⟨⟨slash, angle⟩, rest⟩ := List.forall_mem_cons.mp plain
    rw [List.cons_append, escapeSlashes_cons slash, beq_false_of_ne angle, ih rest]
    rfl

/-- A written character is an escape that stands for it, or it stands for itself. -/
theorem written_char (c : Char) (angle : Bool) (s : List Char) :
    (∃ e, escapeSlashes angle (writeChar c ++ s) = '\\' :: e ∧
      readEscape e = some (c, escapeSlashes false s)) ∨
    (escapeSlashes angle (writeChar c ++ s) = c :: escapeSlashes (c == '<') s ∧
      c ≠ '"' ∧ c ≠ '\\' ∧ ¬ c.toNat < 32) := by
  have escape : ∀ d, d ≠ '/' → d ≠ '<' →
      escapeSlashes angle (['\\', d] ++ s) = '\\' :: d :: escapeSlashes false s := by
    intro d slash bracket
    rw [List.cons_append, List.cons_append, List.nil_append, escapeSlashes_cons (by decide),
      escapeSlashes_cons slash, beq_false_of_ne bracket]
  unfold writeChar
  split
  · next same => exact .inl ⟨_, escape _ (by decide) (by decide), by rw [same]; rfl⟩
  split
  · next same => exact .inl ⟨_, escape _ (by decide) (by decide), by rw [same]; rfl⟩
  split
  · next same => exact .inl ⟨_, escape _ (by decide) (by decide), by rw [same]; rfl⟩
  split
  · next same => exact .inl ⟨_, escape _ (by decide) (by decide), by rw [same]; rfl⟩
  split
  · next same => exact .inl ⟨_, escape _ (by decide) (by decide), by rw [same]; rfl⟩
  split
  · next same => exact .inl ⟨_, escape _ (by decide) (by decide), by rw [same]; rfl⟩
  split
  · next same => exact .inl ⟨_, escape _ (by decide) (by decide), by rw [same]; rfl⟩
  split
  · next control =>
    refine .inl ⟨'u' :: (hex4 c.toNat ++ escapeSlashes false s), ?_, ?_⟩
    · rw [List.cons_append, List.cons_append, escapeSlashes_cons (by decide),
        escapeSlashes_cons (by decide)]
      exact congrArg ('\\' :: 'u' :: ·) (escapeSlashes_append (hex4_plain control) s)
    · have low : ¬ 0xD800 ≤ c.toNat := by omega
      have lower : ¬ 0xDC00 ≤ c.toNat := by omega
      simp [readEscape, readUnicode, readHex4_hex4 control, low, lower, Char.ofNat_toNat]
  · next quote slash _ _ _ _ _ control =>
    rw [List.singleton_append, escapeSlashes]
    split
    · next found =>
      obtain ⟨-, rfl⟩ : angle = true ∧ c = '/' := by simpa using found
      exact .inl ⟨_, rfl, rfl⟩
    · exact .inr ⟨rfl, quote, slash, control⟩

theorem readString_escaped (s : List Char) (angle : Bool) (rest : List Char) {fuel : Nat}
    (enough : s.length < fuel) :
    readString fuel (escapeSlashes angle (s.flatMap writeChar ++ '"' :: rest)) =
      some (s, escapeSlashes false rest) := by
  induction s generalizing angle fuel with
  | nil =>
    obtain ⟨fuel, rfl⟩ := Nat.exists_eq_succ_of_ne_zero (Nat.ne_of_gt enough)
    rw [List.flatMap_nil, List.nil_append, escapeSlashes_cons (by decide)]
    rfl
  | cons c s ih =>
    obtain ⟨fuel, rfl⟩ := Nat.exists_eq_succ_of_ne_zero (Nat.ne_of_gt (Nat.zero_lt_of_lt enough))
    have later : s.length < fuel := Nat.lt_of_succ_lt_succ enough
    rw [List.flatMap_cons, List.append_assoc]
    rcases written_char c angle (s.flatMap writeChar ++ '"' :: rest) with
      ⟨e, written, read⟩ | ⟨written, quote, slash, printable⟩
    · rw [written, readString]
      simp only [read, ih false later, bind, Option.bind, pure]
    · rw [written, readString.eq_def]
      dsimp only
      split
      · next none => cases none
      · next same => exact absurd (List.cons.inj same).1 quote
      · next same => exact absurd (List.cons.inj same).1 slash
      · next same =>
        cases same
        rw [if_neg printable]
        simp only [ih _ later, bind, Option.bind, pure]

theorem length_le_flatMap_writeChar (s : List Char) : s.length ≤ (s.flatMap writeChar).length := by
  induction s with
  | nil => exact Nat.le_refl 0
  | cons c s ih =>
    have one : 1 ≤ (writeChar c).length := by
      unfold writeChar
      repeat' split
      all_goals simp
    rw [List.flatMap_cons, List.length_append, List.length_cons]
    omega

theorem readText_escaped (s : String) (rest : List Char) :
    readText (escapeSlashes false (s.toList.flatMap writeChar ++ '"' :: rest)) =
      some (s, escapeSlashes false rest) := by
  have long := length_le_escapeSlashes false (s.toList.flatMap writeChar ++ '"' :: rest)
  have short := length_le_flatMap_writeChar s.toList
  rw [List.length_append] at long
  rw [readText, readString_escaped s.toList false rest (by omega), Option.map_some]
  dsimp only
  rw [String.ofList_toList]

/-! ### Values -/

mutual

/-- The value holds texts only, in lists and in objects none of which has a key twice. -/
def Textual : Json → Prop
  | null | bool _ | number _ => False
  | string _ => True
  | array items => TextualItems items
  | object entries => Assoc.Distinct entries ∧ TextualEntries entries

def TextualItems : List Json → Prop
  | [] => True
  | j :: rest => j.Textual ∧ TextualItems rest

def TextualEntries : List (String × Json) → Prop
  | [] => True
  | (_, j) :: rest => j.Textual ∧ TextualEntries rest

end

mutual

/-- How deep lists and objects stand in each other. -/
def depth : Json → Nat
  | null | bool _ | number _ | string _ => 0
  | array items => depthItems items + 1
  | object entries => depthEntries entries + 1

def depthItems : List Json → Nat
  | [] => 0
  | j :: rest => max j.depth (depthItems rest)

def depthEntries : List (String × Json) → Nat
  | [] => 0
  | (_, j) :: rest => max j.depth (depthEntries rest)

end

/-- A text starts with a sign that opens a string, a list or an object. -/
def Opens (s : List Char) : Prop :=
  s.head?.any fun c => c == '"' || c == '[' || c == '{'

theorem opens_writeChars {j : Json} (textual : j.Textual) : Opens j.writeChars := by
  cases j with
  | null | bool b | number n => cases textual
  | string s | array items | object entries => rfl

theorem Opens.escaped {s : List Char} (opens : Opens s) (more : List Char) :
    Opens (escapeSlashes false (s ++ more)) := by
  cases s with
  | nil => cases opens
  | cons c s =>
    rw [List.cons_append, escapeSlashes]
    exact opens

theorem Opens.skipBlanks_eq {s : List Char} (opens : Opens s) : skipBlanks s = s := by
  cases s with
  | nil => rfl
  | cons c s =>
    rw [skipBlanks, if_neg]
    rintro (rfl | rfl | rfl | rfl) <;> cases opens

theorem Opens.length_pos {s : List Char} (opens : Opens s) : 0 < s.length := by
  cases s with
  | nil => cases opens
  | cons c s => exact Nat.succ_pos _

theorem writeString_append (s : String) (rest : List Char) :
    writeString s ++ rest = '"' :: (s.toList.flatMap writeChar ++ '"' :: rest) := by
  rw [writeString, List.cons_append, List.cons_append, List.append_assoc, List.singleton_append]

theorem commaList_cons_append (t : List Char) (ts : List (List Char)) (close : Char)
    (rest : List Char) : commaList (t :: ts) ++ close :: rest =
      t ++ if ts = [] then close :: rest else ',' :: (commaList ts ++ close :: rest) := by
  cases ts with
  | nil => rfl
  | cons u ts => simp [commaList]

theorem length_commaList_cons (t : List Char) (ts : List (List Char)) :
    (commaList (t :: ts)).length =
      t.length + if ts = [] then 0 else (commaList ts).length + 1 := by
  cases ts with
  | nil => rfl
  | cons u ts => simp [commaList]

/-- The list is read from its bracket on. -/
theorem readValue_bracket {s : List Char} (opens : Opens s) (fuel room : Nat) :
    readValue (fuel + 1) (room + 1) ('[' :: s) =
      (readItems fuel room s).map fun (items, rest) => (array items, rest) := by
  rw [readValue]
  simp only [opens.skipBlanks_eq]
  split
  · cases opens
  · rfl

theorem readValue_brace {s : List Char} (opens : Opens s) (fuel room : Nat) :
    readValue (fuel + 1) (room + 1) ('{' :: s) =
      (readEntries fuel room s).map fun (es, rest) => (object (Assoc.ofList es), rest) := by
  rw [readValue]
  simp only [opens.skipBlanks_eq]
  split
  · cases opens
  · rfl

section
variable {fuel room : Nat} {s t : List Char} {j : Json}

theorem readItems_none (refused : readValue fuel room s = none) :
    readItems (fuel + 1) room s = none := by
  rw [readItems, refused]
  rfl

theorem readItems_close (read : readValue fuel room s = some (j, ']' :: t)) :
    readItems (fuel + 1) room s = some ([j], t) := by
  rw [readItems, read]
  rfl

theorem readItems_comma (read : readValue fuel room s = some (j, ',' :: t)) (opens : Opens t) :
    readItems (fuel + 1) room s =
      (readItems fuel room t).map fun (items, rest) => (j :: items, rest) := by
  have blank : skipBlanks (',' :: t) = ',' :: t := rfl
  rw [readItems, read]
  simp only [bind, Option.bind, blank, opens.skipBlanks_eq]
  cases readItems fuel room t <;> rfl

variable {key : String} {u : List Char}

theorem readEntries_none (text : readText s = some (key, ':' :: u)) (opens : Opens u)
    (refused : readValue fuel room u = none) : readEntries (fuel + 1) room ('"' :: s) = none := by
  have colon : skipBlanks (':' :: u) = ':' :: u := rfl
  rw [readEntries]
  simp only [bind, Option.bind, text, colon, opens.skipBlanks_eq, refused]

theorem readEntries_close (text : readText s = some (key, ':' :: u)) (opens : Opens u)
    (read : readValue fuel room u = some (j, '}' :: t)) :
    readEntries (fuel + 1) room ('"' :: s) = some ([(key, j)], t) := by
  have colon : skipBlanks (':' :: u) = ':' :: u := rfl
  have brace : skipBlanks ('}' :: t) = '}' :: t := rfl
  rw [readEntries]
  simp only [bind, Option.bind, text, colon, opens.skipBlanks_eq, read, brace]
  rfl

theorem readEntries_comma (text : readText s = some (key, ':' :: u)) (opens : Opens u)
    (read : readValue fuel room u = some (j, ',' :: t)) (next : Opens t) :
    readEntries (fuel + 1) room ('"' :: s) =
      (readEntries fuel room t).map fun (entries, rest) => ((key, j) :: entries, rest) := by
  have colon : skipBlanks (':' :: u) = ':' :: u := rfl
  have comma : skipBlanks (',' :: t) = ',' :: t := rfl
  rw [readEntries]
  simp only [bind, Option.bind, text, colon, opens.skipBlanks_eq, read, comma, next.skipBlanks_eq]
  cases readEntries fuel room t <;> rfl

end

mutual

theorem readValue_escaped {j : Json} (textual : j.Textual) (fuel room : Nat)
    (rest : List Char) (enough : j.writeChars.length ≤ fuel) :
    readValue fuel room (escapeSlashes false (j.writeChars ++ rest)) =
      if j.depth ≤ room then some (j, escapeSlashes false rest) else none := by
  obtain ⟨fuel, rfl⟩ : ∃ f, fuel = f + 1 :=
    Nat.exists_eq_add_one.mpr (Nat.lt_of_lt_of_le (opens_writeChars textual).length_pos enough)
  cases j with
  | null | bool b | number n => cases textual
  | string s =>
    rw [writeChars, writeString_append, escapeSlashes_cons (by decide), readValue]
    simp only [Char.reduceBEq, readText_escaped, Option.map_some, depth, Nat.zero_le, if_true]
  | array items =>
    have start : escapeSlashes false ((array items).writeChars ++ rest) =
        '[' :: escapeSlashes false (commaList (writeItems items) ++ ']' :: rest) := by
      rw [writeChars, List.cons_append, List.cons_append, List.append_assoc]
      rfl
    rw [writeChars, List.length_append, List.length_cons] at enough
    rw [start]
    cases room with
    | zero => rfl
    | succ room =>
      cases items with
      | nil => rfl
      | cons j items =>
        have opens : Opens (escapeSlashes false
            (commaList (writeItems (j :: items)) ++ ']' :: rest)) := by
          rw [writeItems, commaList_cons_append]
          exact (opens_writeChars textual.1).escaped _
        have short : (commaList (writeItems (j :: items))).length < fuel := by
          rw [List.length_singleton] at enough
          omega
        rw [readValue_bracket opens, readItems_escaped (by simp) textual fuel room rest short, depth]
        by_cases fits : depthItems (j :: items) ≤ room
        · rw [if_pos fits, if_pos (Nat.succ_le_succ fits)]
          rfl
        · rw [if_neg fits, if_neg (by omega)]
          rfl
  | object entries =>
    have start : escapeSlashes false ((object entries).writeChars ++ rest) =
        '{' :: escapeSlashes false (commaList (writeEntries entries) ++ '}' :: rest) := by
      rw [writeChars, List.cons_append, List.cons_append, List.append_assoc]
      rfl
    rw [writeChars, List.length_append, List.length_cons] at enough
    rw [start]
    cases room with
    | zero => rfl
    | succ room =>
      cases entries with
      | nil => rfl
      | cons e entries =>
        have opens : Opens (escapeSlashes false
            (commaList (writeEntries (e :: entries)) ++ '}' :: rest)) := by
          rw [writeEntries, commaList_cons_append]
          exact Opens.escaped (s := writeString e.1 ++ ':' :: e.2.writeChars) rfl _
        have short : (commaList (writeEntries (e :: entries))).length < fuel := by
          rw [List.length_singleton] at enough
          omega
        rw [readValue_brace opens, readEntries_escaped (by simp) textual.2 fuel room rest short, depth]
        by_cases fits : depthEntries (e :: entries) ≤ room
        · rw [if_pos fits, if_pos (Nat.succ_le_succ fits), Option.map_some]
          dsimp only
          rw [Assoc.ofList_of_distinct textual.1]
        · rw [if_neg fits, if_neg (by omega)]
          rfl

theorem readItems_escaped {items : List Json} (filled : items ≠ []) (textual : TextualItems items)
    (fuel room : Nat) (rest : List Char)
    (enough : (commaList (writeItems items)).length < fuel) :
    readItems fuel room (escapeSlashes false (commaList (writeItems items) ++ ']' :: rest)) =
      if depthItems items ≤ room then some (items, escapeSlashes false rest) else none := by
  obtain ⟨fuel, rfl⟩ : ∃ f, fuel = f + 1 := Nat.exists_eq_add_one.mpr (Nat.zero_lt_of_lt enough)
  cases items with
  | nil => exact absurd rfl filled
  | cons j items =>
    rw [writeItems, length_commaList_cons] at enough
    rw [writeItems, commaList_cons_append, depthItems]
    have head := fun more => readValue_escaped textual.1 fuel room more (by omega)
    by_cases fits : j.depth ≤ room
    · simp only [if_pos fits] at head
      cases items with
      | nil =>
        rw [depthItems, if_pos (Nat.max_le.mpr ⟨fits, Nat.zero_le _⟩)]
        exact readItems_close (head (']' :: rest))
      | cons k items =>
        rw [if_neg (by simp [writeItems])] at enough
        have later := readItems_escaped (by simp) textual.2 fuel room rest (by omega)
        have opens : Opens (escapeSlashes false
            (commaList (writeItems (k :: items)) ++ ']' :: rest)) := by
          rw [writeItems, commaList_cons_append]
          exact (opens_writeChars textual.2.1).escaped _
        have comma : ∀ more,
            readValue fuel room (escapeSlashes false (j.writeChars ++ ',' :: more)) =
              some (j, ',' :: escapeSlashes false more) := fun more => head (',' :: more)
        rw [if_neg (by simp [writeItems]), readItems_comma (comma _) opens, later]
        by_cases all : depthItems (k :: items) ≤ room
        · rw [if_pos all, if_pos (Nat.max_le.mpr ⟨fits, all⟩)]
          rfl
        · rw [if_neg all, if_neg fun most => all (Nat.max_le.mp most).2]
          rfl
    · rw [if_neg fun most => fits (Nat.max_le.mp most).1]
      exact readItems_none ((head _).trans (if_neg fits))

theorem readEntries_escaped {entries : List (String × Json)} (filled : entries ≠ [])
    (textual : TextualEntries entries) (fuel room : Nat) (rest : List Char)
    (enough : (commaList (writeEntries entries)).length < fuel) :
    readEntries fuel room
        (escapeSlashes false (commaList (writeEntries entries) ++ '}' :: rest)) =
      if depthEntries entries ≤ room then some (entries, escapeSlashes false rest) else none := by
  obtain ⟨fuel, rfl⟩ : ∃ f, fuel = f + 1 := Nat.exists_eq_add_one.mpr (Nat.zero_lt_of_lt enough)
  cases entries with
  | nil => exact absurd rfl filled
  | cons e entries =>
    obtain ⟨key, j⟩ := e
    rw [writeEntries, length_commaList_cons, List.length_append, List.length_cons] at enough
    have head := fun more => readValue_escaped textual.1 fuel room more (by omega)
    have opens := fun more => (opens_writeChars textual.1).escaped more
    have text : ∀ more, readText (escapeSlashes false (key.toList.flatMap writeChar ++
        '"' :: ':' :: (j.writeChars ++ more))) =
          some (key, ':' :: escapeSlashes false (j.writeChars ++ more)) :=
      fun more => readText_escaped key (':' :: (j.writeChars ++ more))
    have start : ∀ more, escapeSlashes false ((writeString key ++ ':' :: j.writeChars) ++ more) =
        '"' :: escapeSlashes false (key.toList.flatMap writeChar ++ '"' :: ':' ::
          (j.writeChars ++ more)) := by
      intro more
      rw [List.append_assoc, List.cons_append, writeString_append]
      rfl
    rw [writeEntries, commaList_cons_append, depthEntries, start]
    by_cases fits : j.depth ≤ room
    · simp only [if_pos fits] at head
      cases entries with
      | nil =>
        rw [depthEntries, if_pos (Nat.max_le.mpr ⟨fits, Nat.zero_le _⟩)]
        exact readEntries_close (text ('}' :: rest)) (opens _) (head ('}' :: rest))
      | cons k entries =>
        rw [if_neg (by simp [writeEntries])] at enough
        have later := readEntries_escaped (by simp) textual.2 fuel room rest (by omega)
        have next : Opens (escapeSlashes false
            (commaList (writeEntries (k :: entries)) ++ '}' :: rest)) := by
          rw [writeEntries, commaList_cons_append]
          exact Opens.escaped (s := writeString k.1 ++ ':' :: k.2.writeChars) rfl _
        have comma : ∀ more,
            readValue fuel room (escapeSlashes false (j.writeChars ++ ',' :: more)) =
              some (j, ',' :: escapeSlashes false more) := fun more => head (',' :: more)
        rw [if_neg (by simp [writeEntries]),
          readEntries_comma (text _) (opens _) (comma _) next, later]
        by_cases all : depthEntries (k :: entries) ≤ room
        · rw [if_pos all, if_pos (Nat.max_le.mpr ⟨fits, all⟩)]
          rfl
        · rw [if_neg all, if_neg fun most => all (Nat.max_le.mp most).2]
          rfl
    · rw [if_neg fun most => fits (Nat.max_le.mp most).1]
      exact readEntries_none (text _) (opens _) ((head _).trans (if_neg fits))

end

/-! ### Whole texts -/

/-- The value that a text writes, read with room for this many levels. -/
def readWithin (room : Nat) (s : String) : Option Json :=
  let s := s.toList
  match readValue (2 * s.length + 2) room (skipBlanks s) with
  | some (j, rest) => if (skipBlanks rest).isEmpty then some j else none
  | none => none

theorem read?_eq_readWithin (s : String) : read? s = readWithin maxDepth s := rfl

/-- A written value of texts is read back where there is room for its depth, and refused where there
is not. -/
theorem readWithin_escaped {j : Json} (textual : j.Textual) (room : Nat) :
    readWithin room (String.ofList (escapeSlashes false j.writeChars)) =
      if j.depth ≤ room then some j else none := by
  have opens : Opens (escapeSlashes false j.writeChars) := by
    simpa using (opens_writeChars textual).escaped []
  have long := length_le_escapeSlashes false j.writeChars
  have read := readValue_escaped textual (2 * (escapeSlashes false j.writeChars).length + 2)
    room [] (by omega)
  rw [List.append_nil] at read
  rw [readWithin, String.toList_ofList, opens.skipBlanks_eq, read]
  by_cases fits : j.depth ≤ room
  · rw [if_pos fits, if_pos fits]
    rfl
  · rw [if_neg fits, if_neg fits]

mutual

theorem depth_le_length (j : Json) : j.depth ≤ j.writeChars.length := by
  cases j with
  | null | bool b | number n | string s => exact Nat.zero_le _
  | array items =>
    have inside := depthItems_le_length items
    rw [depth, writeChars, List.length_append, List.length_cons]
    omega
  | object entries =>
    have inside := depthEntries_le_length entries
    rw [depth, writeChars, List.length_append, List.length_cons]
    omega

theorem depthItems_le_length (items : List Json) :
    depthItems items ≤ (commaList (writeItems items)).length := by
  cases items with
  | nil => exact Nat.le_refl 0
  | cons j items =>
    have head := depth_le_length j
    have tail := depthItems_le_length items
    rw [depthItems, writeItems, length_commaList_cons]
    cases items with
    | nil => exact Nat.max_le.mpr ⟨Nat.le_trans head (Nat.le_add_right _ _), Nat.zero_le _⟩
    | cons k items =>
      rw [if_neg (by simp [writeItems])]
      omega

theorem depthEntries_le_length (entries : List (String × Json)) :
    depthEntries entries ≤ (commaList (writeEntries entries)).length := by
  cases entries with
  | nil => exact Nat.le_refl 0
  | cons e entries =>
    have head := depth_le_length e.2
    have tail := depthEntries_le_length entries
    rw [depthEntries, writeEntries, length_commaList_cons, List.length_append, List.length_cons]
    cases entries with
    | nil =>
      simp only [depthEntries]
      omega
    | cons k entries =>
      rw [if_neg (by simp [writeEntries])]
      omega

end

/-- The value that a text writes, however deep it nests: each level takes a character at least. -/
def readAll (s : String) : Option Json := readWithin s.toList.length s

theorem readAll_escaped {j : Json} (textual : j.Textual) :
    readAll (String.ofList (escapeSlashes false j.writeChars)) = some j := by
  have deep := Nat.le_trans (depth_le_length j) (length_le_escapeSlashes false j.writeChars)
  rw [readAll, readWithin_escaped textual, String.toList_ofList, if_pos deep]

end Json
end Stencil
