import Mathlib
import Stencil.Proofs.Files.Path
import Stencil.Proofs.Markup.Shape
/-!
What the readers find in markup that has been written. Each of them is given the written form of what
it reads, followed by more text, and stops where the written form ends.
-/
namespace Stencil

namespace Text

/-! ### Small letters -/

/-- What does not tell a capital from its small letter. -/
theorem apply_toLower {β : Type} {f : Char → β}
    (capitals : ∀ n ∈ List.range' 65 26, f (Char.ofNat (n + 32)) = f (Char.ofNat n)) (c : Char) :
    f c.toLower = f c := by
  by_cases upper : c.isUpper
  · have bounds : c.toNat ∈ List.range' 65 26 := by
      simp only [Char.isUpper, UInt32.le_iff_toNat_le, decide_eq_true_eq] at upper
      rw [List.mem_range'_1]
      change 65 ≤ c.toNat ∧ c.toNat ≤ 90 at upper
      omega
    rw [Char.toLower_eq_of_isUpper upper, capitals _ bounds, Char.ofNat_toNat]
  · rw [Char.toLower_eq_of_not_isUpper upper]

theorem lowerAscii_of_small {s : List Char} (small : ∀ c ∈ s, c.isUpper = false) :
    lowerAscii s = s := by
  rw [lowerAscii, List.map_congr_left (g := id), List.map_id]
  intro c mem
  exact Char.toLower_eq_of_not_isUpper (by simp [small c mem])

theorem small_lowerAscii (s : List Char) : ∀ c ∈ lowerAscii s, c.isUpper = false := by
  intro c mem
  obtain ⟨d, -, rfl⟩ := List.mem_map.mp mem
  exact Char.isUpper_toLower_eq_false d

/-! ### Searching -/

theorem trim_of_not_blank {s : List Char} (solid : ∀ c ∈ s, isBlank c = false) : trim s = s := by
  have start : trimStart s = s := by
    cases s with
    | nil => rfl
    | cons c s => exact trimStart_of_not_blank (solid c List.mem_cons_self)
  have last : s.reverse.dropWhile isBlank = s.reverse := by
    cases turned : s.reverse with
    | nil => rfl
    | cons c r =>
      have mem : c ∈ s := List.mem_reverse.mp (turned ▸ List.mem_cons_self)
      rw [List.dropWhile_cons_of_neg (by simp [solid c mem])]
  rw [trim, start, trimEnd, last, List.reverse_reverse]

theorem cut?_singleton (c : Char) (s : List Char) : cut? [c] s = cutChar? c s := by
  induction s with
  | nil => rfl
  | cons d s ih =>
    rw [cut?, cutChar?, dropPrefix?, ih]
    by_cases same : c = d
    · rw [if_pos same, if_pos same.symm]
      rfl
    · rw [if_neg same, if_neg (Ne.symm same)]

/-- The end of a comment is found where it stands; hyphens before it are not taken for a part. -/
theorem cut?_commentEnd {s : List Char} (absent : cut? "-->".toList s = none) (rest : List Char) :
    cut? "-->".toList (s ++ ("-->".toList ++ rest)) = some (s, rest) := by
  change cut? ['-', '-', '>'] (s ++ '-' :: '-' :: '>' :: rest) = some (s, rest)
  change cut? ['-', '-', '>'] s = none at absent
  induction s with
  | nil => rfl
  | cons c s ih =>
    rw [cut?] at absent
    split at absent
    · cases absent
    · next here =>
      have later : cut? ['-', '-', '>'] s = none := by simpa using absent
      have skip : dropPrefix? ['-', '-', '>'] (c :: (s ++ '-' :: '-' :: '>' :: rest)) = none := by
        rcases s with _ | ⟨d, _ | ⟨e, s⟩⟩
        · simp [dropPrefix?]
        · simp [dropPrefix?]
        · simpa [dropPrefix?] using here
      rw [List.cons_append, cut?, skip, ih later]
      rfl

end Text

namespace Markup

/-! ### Characters -/

namespace Lexeme
open Text

theorem endsTagName_toLower (c : Char) : endsTagName c.toLower = endsTagName c :=
  apply_toLower (by decide) c

theorem endsAttributeName_toLower (c : Char) : endsAttributeName c.toLower = endsAttributeName c :=
  apply_toLower (by decide) c

theorem takeUntil_append {ends : Char → Bool} {s : List Char} {c : Char}
    (inside : ∀ d ∈ s, ends d = false) (stop : ends c = true) (rest : List Char) :
    takeUntil ends (s ++ c :: rest) = (s, c :: rest) := by
  have go : ∀ d ∈ s, (!ends d) = true := fun d mem => by simp [inside d mem]
  rw [takeUntil, List.takeWhile_append_of_pos go, List.dropWhile_append_of_pos go,
    List.takeWhile_cons_of_neg (by simp [stop]), List.dropWhile_cons_of_neg (by simp [stop]),
    List.append_nil]

theorem of_endsTagName {c : Char} (inside : endsTagName c = false) :
    isBlank c = false ∧ c ≠ '/' ∧ c ≠ '>' := by
  simpa [endsTagName, and_assoc] using inside

theorem endsAttributeName_of_endsTagName {c : Char} (ends : endsTagName c = true) :
    endsAttributeName c = true := by
  simp only [endsTagName, endsAttributeName, Bool.or_eq_true, beq_iff_eq] at ends ⊢
  tauto

/-! ### Attributes -/

theorem not_mem_quoteValue (s : List Char) : '"' ∉ Tree.quoteValue s := by
  rw [Tree.quoteValue, List.mem_flatMap]
  rintro ⟨c, -, mem⟩
  split at mem
  · exact absurd mem (by decide)
  · next other => exact other (List.mem_singleton.mp mem).symm

theorem attributeValue_quoted {v : List Char} (unquoted : '"' ∉ v) (rest : List Char) :
    attributeValue ('"' :: (v ++ '"' :: rest)) = (v, rest) := by
  rw [attributeValue, if_pos (.inl rfl), cutChar?_append unquoted]
  rfl

section
variable {a : Attribute} {c : Char} {s tail : List Char}

theorem readAttribute_valued {v : String} (legible : a.Legible) (name : a.name.toList = c :: s)
    (value : a.value = some v) :
    readAttribute c (s ++ '=' :: '"' :: (Tree.quoteValue v.toList ++ '"' :: tail)) =
      (a.requoted, tail) := by
  obtain ⟨c', s', same, -, inside⟩ := legible.name
  rw [name] at same
  cases same
  have small := lowerAscii_of_small legible.small
  rw [name] at small
  rw [readAttribute, takeUntil_append inside (by decide)]
  simp only [small, trimStart_of_not_blank (c := '=') (by decide),
    trimStart_of_not_blank (c := '"') (by decide), attributeValue_quoted (not_mem_quoteValue _)]
  rw [Attribute.requoted, value, ← name, String.ofList_toList]
  rfl

/-- An attribute without a value is read up to what ends its name, unless a value follows there. -/
theorem readAttribute_bare (legible : a.Legible) (name : a.name.toList = c :: s)
    (value : a.value = none) {d : Char} (ends : endsAttributeName d = true)
    (more : (trimStart (d :: tail)).head? ≠ some '=') :
    readAttribute c (s ++ d :: tail) = (a.requoted, d :: tail) := by
  obtain ⟨c', s', same, -, inside⟩ := legible.name
  rw [name] at same
  cases same
  have small := lowerAscii_of_small legible.small
  rw [name] at small
  rw [readAttribute, takeUntil_append inside ends]
  dsimp only
  rw [small]
  split
  · next found =>
    rw [found] at more
    exact absurd rfl more
  · rw [Attribute.requoted, value, ← name, String.ofList_toList]
    rfl

theorem readAttribute_write (legible : a.Legible) {d : Char} (ends : endsAttributeName d = true)
    (more : a.value = none → (trimStart (d :: tail)).head? ≠ some '=') :
    ∃ c after, trimStart (Tree.writeAttribute a ++ d :: tail) = c :: after ∧
      endsTagName c = false ∧ readAttribute c after = (a.requoted, d :: tail) := by
  obtain ⟨c, s, name, starts, -⟩ := legible.name
  have start : ∀ after, trimStart (' ' :: c :: after) = c :: after := fun after =>
    trimStart_of_not_blank (of_endsTagName starts).1
  cases value : a.value with
  | none =>
    refine ⟨c, _, ?_, starts, readAttribute_bare legible name value ends (more value)⟩
    rw [Tree.writeAttribute, value, name]
    simp only [List.append_nil, List.cons_append, start]
  | some v =>
    refine ⟨c, _, ?_, starts, readAttribute_valued legible name value⟩
    rw [Tree.writeAttribute, value, name]
    simp only [List.cons_append, List.append_assoc, List.nil_append, start]

theorem tail_of_attribute {as : List Attribute} (legible : ∀ a ∈ as, a.Legible)
    (rest : List Char) :
    ∃ d tail, as.flatMap Tree.writeAttribute ++ '>' :: rest = d :: tail ∧ endsTagName d = true ∧
      (trimStart (d :: tail)).head? = some ((as.head?.bind (·.name.toList.head?)).getD '>') := by
  cases as with
  | nil => exact ⟨'>', rest, rfl, by decide, by rw [trimStart_of_not_blank (by decide)]; rfl⟩
  | cons a as =>
    obtain ⟨c, s, name, starts, -⟩ := (legible a List.mem_cons_self).name
    rw [List.flatMap_cons, Tree.writeAttribute, name]
    refine ⟨' ', _, rfl, by decide, ?_⟩
    simp only [List.cons_append, List.head?_cons, Option.bind_some, name, Option.getD_some]
    exact congrArg List.head? (trimStart_of_not_blank (of_endsTagName starts).1)

end

section
variable {read : List Attribute} {s rest : List Char} {c : Char}

theorem readAttributes_end (here : trimStart s = '>' :: rest) :
    readAttributes read s = some (read, false, rest) := by
  rw [readAttributes.eq_def]
  split <;> simp_all

theorem readAttributes_cons (here : trimStart s = c :: rest) (slash : c ≠ '/') (close : c ≠ '>') :
    readAttributes read s = readAttributes
      (if read.any (·.name == (readAttribute c rest).1.name) then read
        else read ++ [(readAttribute c rest).1]) (readAttribute c rest).2 := by
  rw [readAttributes.eq_def]
  split
  · next found =>
    rw [here] at found
    cases found
  · next found =>
    rw [here] at found
    exact absurd (List.cons.inj found).1 close
  · next found =>
    rw [here] at found
    exact absurd (List.cons.inj found).1 slash
  · next found =>
    rw [here] at found
    exact absurd (List.cons.inj found).1 slash
  · next found =>
    rw [here] at found
    cases found
    rfl

/-- The attributes of a start tag are read back up to its end. -/
theorem readAttributes_write {as : List Attribute} (legible : ∀ a ∈ as, a.Legible)
    (separated : Attribute.Separated as) (once : (as.map (·.name)).Nodup)
    (fresh : ∀ a ∈ as, ∀ b ∈ read, b.name ≠ a.name) (rest : List Char) :
    readAttributes read (as.flatMap Tree.writeAttribute ++ '>' :: rest) =
      some (read ++ as.map Attribute.requoted, false, rest) := by
  induction as generalizing read with
  | nil => rw [List.flatMap_nil, List.nil_append, List.map_nil, List.append_nil,
      readAttributes_end (trimStart_of_not_blank (by decide))]
  | cons a as ih =>
    obtain ⟨own, others⟩ := List.forall_mem_cons.mp legible
    obtain ⟨out, once⟩ := List.nodup_cons.mp once
    obtain ⟨new, fresh⟩ := List.forall_mem_cons.mp fresh
    obtain ⟨first, separated⟩ := List.isChain_cons.mp separated
    obtain ⟨d, tail, follows, ends, next⟩ := tail_of_attribute others rest
    have apart : a.value = none → (trimStart (d :: tail)).head? ≠ some '=' := by
      intro bare same
      rw [next] at same
      cases as with
      | nil => exact absurd same (by decide)
      | cons b as =>
        obtain ⟨c, s, name, -⟩ := (others b List.mem_cons_self).name
        refine first b rfl bare ?_
        simpa [name] using same
    obtain ⟨c, after, here, starts, got⟩ :=
      readAttribute_write own (endsAttributeName_of_endsTagName ends) apart
    have unread : read.any (·.name == a.requoted.name) = false :=
      List.any_eq_false.mpr fun b mem => by simpa [Attribute.requoted] using new b mem
    rw [List.flatMap_cons, List.append_assoc, follows, readAttributes_cons here
      (of_endsTagName starts).2.1 (of_endsTagName starts).2.2, got, unread, ← follows, if_neg (by simp),
      ih others separated once ?_, List.map_cons, List.append_assoc, List.singleton_append]
    intro b mem b' mem'
    rcases List.mem_append.mp mem' with old | last
    · exact fresh b mem b' old
    · rw [List.mem_singleton.mp last]
      rintro same
      exact out (List.mem_map.mpr ⟨b, mem, same.symm⟩)

end

/-! ### Start tags -/

section
variable {e : Element} {rest : List Char}

/-- The lexeme that the start tag of an element is read back as, and what it leaves of the text
behind the tag. -/
def started (e : Element) (rest : List Char) : Lexeme × List Char :=
  if e.isVoid then (leaf e, rest)
  else if e.isVerbatim then
    (verbatim e (String.ofList (untilEndTag e.endTag rest).1), (untilEndTag e.endTag rest).2)
  else (opening e, rest)

theorem startTag?_write (legible : e.Legible) (separated : e.Separated) (rest : List Char) :
    startTag? (e.name.toList ++ (e.attributes.flatMap Tree.writeAttribute ++ '>' :: rest)) =
      some (started e.requoted rest) := by
  obtain ⟨d, tail, follows, ends, -⟩ := tail_of_attribute legible.attributes rest
  have read : readAttributes [] (e.attributes.flatMap Tree.writeAttribute ++ '>' :: rest) =
      some (e.attributes.map Attribute.requoted, false, rest) :=
    readAttributes_write legible.attributes separated legible.once
      (fun _ _ _ mem => absurd mem List.not_mem_nil) rest
  rw [startTag?, follows, takeUntil_append legible.name ends]
  dsimp only
  rw [← follows, read]
  have own : Element.mk e.name (e.attributes.map Attribute.requoted) = e.requoted := rfl
  simp only [lowerAscii_of_small legible.small, String.ofList_toList, Bool.false_or, own]
  rw [started]
  split
  · rfl
  · split
    · rfl
    · rfl

theorem next_letter {c : Char} {s : List Char} (letter : c.isAlpha = true) :
    next '<' (c :: s) = (startTag? (c :: s)).getD (text (String.ofList ('<' :: c :: s)), []) := by
  have other : ∀ d : Char, d.isAlpha = false → c ≠ d := by
    rintro d sign rfl
    rw [letter] at sign
    cases sign
  rw [next, if_neg (by simp)]
  · rw [if_pos letter]
  · exact fun _ same => absurd same (other '!' rfl)
  · exact other '/' rfl
  · exact other '!' rfl
  · exact other '?' rfl

theorem next_writeStartTag (legible : e.Legible) (rest : List Char) :
    ∃ s, Tree.writeStartTag e ++ rest = '<' :: s ∧ next '<' s =
      (startTag? (e.name.toList ++ (e.attributes.flatMap Tree.writeAttribute ++ '>' :: rest))).getD
        (text (String.ofList ('<' :: s)), []) := by
  have first := legible.first
  refine ⟨e.name.toList ++ (e.attributes.flatMap Tree.writeAttribute ++ '>' :: rest), ?_, ?_⟩
  · rw [Tree.writeStartTag]
    simp only [List.cons_append, List.append_assoc, List.nil_append]
  · cases name : e.name.toList with
    | nil =>
      rw [name] at first
      cases first
    | cons c s =>
      rw [name] at first
      simp only [List.head?_cons, Option.any_some] at first
      rw [List.cons_append, next_letter (by rw [Char.isAlpha, first, Bool.or_true])]

theorem next_startTag (legible : e.Legible) (separated : e.Separated) (rest : List Char) :
    ∃ s, Tree.writeStartTag e ++ rest = '<' :: s ∧ next '<' s = started e.requoted rest := by
  obtain ⟨s, tag, read⟩ := next_writeStartTag legible rest
  rw [startTag?_write legible separated rest] at read
  exact ⟨s, tag, read⟩

end

/-! ### End tags -/

theorem next_endTag {name : List Char} (inside : ∀ c ∈ name, endsTagName c = false)
    (small : ∀ c ∈ name, c.isUpper = false) (rest : List Char) :
    next '<' ('/' :: (name ++ '>' :: rest)) = (closing (String.ofList name), rest) := by
  have absent : '>' ∉ name := fun mem => absurd (inside _ mem) (by decide)
  have solid : ∀ c ∈ name, isBlank c = false := fun c mem => (of_endsTagName (inside c mem)).1
  rw [next, if_neg (by simp)]
  simp only [cutChar?_append absent, trim_of_not_blank solid, lowerAscii_of_small small]

section
variable {name s rest : List Char}

theorem dropEndTag?_append (small : ∀ c ∈ name, c.isUpper = false) (rest : List Char) :
    dropEndTag? name (name ++ rest) = some rest := by
  induction name with
  | nil => rw [List.nil_append, dropEndTag?]
  | cons c name ih =>
    obtain ⟨own, others⟩ := List.forall_mem_cons.mp small
    rw [List.cons_append, dropEndTag?, if_pos (Char.toLower_eq_of_not_isUpper (by simp [own])),
      ih others]

theorem toLower_eq_angle (c : Char) : (c.toLower == '<') = (c == '<') :=
  apply_toLower (f := (· == '<')) (by decide) c

/-- An end tag that starts in a text before a `<` ends before it. -/
theorem dropEndTag?_before_angle (plain : '<' ∉ name) (missing : dropEndTag? name s = none)
    (rest : List Char) : dropEndTag? name (s ++ '<' :: rest) = none := by
  induction name generalizing s with
  | nil =>
    rw [dropEndTag?] at missing
    cases missing
  | cons n name ih =>
    obtain ⟨first, plain⟩ := not_or.mp (mt List.mem_cons.mpr plain)
    cases s with
    | nil =>
      rw [List.nil_append, dropEndTag?, if_neg]
      exact fun same => first same
    | cons c s =>
      rw [dropEndTag?] at missing
      rw [List.cons_append, dropEndTag?]
      split
      · next same =>
        rw [if_pos same] at missing
        exact ih plain missing
      · rfl

theorem untilEndTag_append (plain : '<' ∉ name) (closed : '>' ∉ name)
    (small : ∀ c ∈ name, c.isUpper = false)
    (missing : hasEndTag ('<' :: name) s = false) (rest : List Char) :
    untilEndTag ('<' :: name) (s ++ '<' :: (name ++ '>' :: rest)) = (s, rest) := by
  induction s with
  | nil =>
    have here : dropEndTag? ('<' :: name) ('<' :: (name ++ '>' :: rest)) = some ('>' :: rest) := by
      rw [dropEndTag?, if_pos (by decide), dropEndTag?_append small]
    rw [List.nil_append, untilEndTag, here]
    dsimp only
    rw [List.dropWhile_append_of_pos fun c mem => by simpa using fun same : c = '>' => closed (same ▸ mem),
      List.dropWhile_cons_of_neg (by simp)]
    rfl
  | cons c s ih =>
    rw [hasEndTag, Bool.or_eq_false_iff, Option.isSome_eq_false_iff, Option.isNone_iff_eq_none]
      at missing
    obtain ⟨here, later⟩ := missing
    have skip : dropEndTag? ('<' :: name) (c :: (s ++ '<' :: (name ++ '>' :: rest))) = none := by
      rw [dropEndTag?] at here ⊢
      split
      · next same =>
        rw [if_pos same] at here
        exact dropEndTag?_before_angle plain here _
      · rfl
    rw [List.cons_append, untilEndTag, skip]
    dsimp only
    rw [ih later]

end

/-! ### Comments, declarations and texts -/

section
variable {s rest : List Char}

theorem next_comment (absent : cut? "-->".toList s = none) (rest : List Char) :
    next '<' ('!' :: '-' :: '-' :: (s ++ ("-->".toList ++ rest))) =
      (comment (String.ofList s), rest) := by
  rw [next, if_neg (by simp)]
  dsimp only
  rw [readBody, cut?_commentEnd absent]

theorem next_directive (unclosed : '>' ∉ s) (other : dropPrefix? "--".toList s = none)
    (rest : List Char) : next '<' ('!' :: (s ++ '>' :: rest)) = (directive (String.ofList s), rest) := by
  have found : readBody ['>'] (s ++ '>' :: rest) = (String.ofList s, rest) := by
    rw [readBody, cut?_singleton, cutChar?_append unclosed]
  rw [next, if_neg (by simp)]
  · rw [found]
  · intro s' same
    rcases s with _ | ⟨c, _ | ⟨d, s⟩⟩
    · simp at same
    · simp at same
    · obtain ⟨rfl, rest⟩ := List.cons.inj same
      obtain ⟨rfl, -⟩ := List.cons.inj rest
      cases other

theorem next_text {c : Char} (plain : c = '<' → ∀ d ∈ s.head?, opens d = false) :
    next c s = readText c s := by
  rw [next.eq_def]
  split
  · rfl
  · next angle =>
    have plain := plain (not_not.mp angle)
    cases s with
    | nil => rfl
    | cons d s =>
      have signs := plain d rfl
      simp only [opens, Bool.or_eq_false_iff, beq_eq_false_iff_ne, ne_eq] at signs
      obtain ⟨⟨⟨letter, slash⟩, bang⟩, question⟩ := signs
      simp [letter, bang]

end

end Lexeme
end Markup
end Stencil
