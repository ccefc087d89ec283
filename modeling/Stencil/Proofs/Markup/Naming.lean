import Stencil.Proofs.Markup.Reread
import Stencil.Proofs.Text.Bytes
/-!
How markup names a template. The grammar of custom names is told in characters, and names are
recognised by it, except that the bound on their length counts bytes. The id of a template may hold any
character outside ASCII, and a tag ends its name at any blank of Unicode. So an element can name a
template when there is no blank in the id; otherwise the part before the first blank is its name, and
what follows is read as attributes.
-/
namespace Stencil.Markup
open Text

/-! ### Characters of names -/

namespace Name

theorem isCustom_of_validate {id : String} (accepted : validate id = .ok ()) : isCustom id = true := by
  rw [validate] at accepted
  split at accepted
  · cases accepted
  · next free =>
    split at accepted
    · next formed => simpa [isCustom, formed] using free
    · cases accepted

/-- A custom name starts with a small letter and goes on with characters of names. -/
theorem chars_of_isCustom {name : String} (custom : isCustom name = true) :
    ∃ c s, name.toList = c :: s ∧ c.isLower = true ∧ ∀ d ∈ name.toList, isNameChar d = true := by
  rw [isCustom, Bool.and_eq_true, isWellFormed] at custom
  obtain ⟨formed, -⟩ := custom
  cases chars : name.toList with
  | nil => simp [chars] at formed
  | cons c s =>
    simp only [chars, Bool.and_eq_true, List.all_eq_true] at formed
    obtain ⟨⟨⟨-, letter⟩, -⟩, rest⟩ := formed
    refine ⟨c, s, rfl, letter, List.forall_mem_cons.mpr ⟨?_, rest⟩⟩
    simp [isNameChar, letter]

theorem isUpper_of_isNameChar {c : Char} (inside : isNameChar c = true) : c.isUpper = false := by
  by_contra upper
  -- the capitals are twenty-six characters, none of which may stand in a name
  have bounds : c.toNat ∈ List.range' 65 26 := by
    simp only [Bool.not_eq_false, Char.isUpper, UInt32.le_iff_toNat_le, decide_eq_true_eq] at upper
    rw [List.mem_range'_1]
    change 65 ≤ c.toNat ∧ c.toNat ≤ 90 at upper
    omega
  have capitals : ∀ n ∈ List.range' 65 26, isNameChar (Char.ofNat n) = false := by decide
  have out := capitals _ bounds
  rw [Char.ofNat_toNat, inside] at out
  cases out

theorem ne_of_isNameChar {c d : Char} (inside : isNameChar c = true) (out : isNameChar d = false) :
    c ≠ d := by
  rintro rfl
  rw [inside] at out
  cases out

/-- Of the characters of names only blanks end the name of a tag. -/
theorem endsTagName_of_isNameChar {c : Char} (inside : isNameChar c = true) :
    Lexeme.endsTagName c = isBlank c := by
  have slash : (c == '/') = false := beq_false_of_ne (ne_of_isNameChar inside (by decide))
  have close : (c == '>') = false := beq_false_of_ne (ne_of_isNameChar inside (by decide))
  rw [Lexeme.endsTagName, slash, close, Bool.or_false, Bool.or_false]

end Name

/-! ### Tags that hold names alone -/

namespace Lexeme
variable {p ends : Char → Bool} {c : Char} {s rest : List Char} {read : List Attribute}

theorem dropWhile_append_stop (stop : p c = false) :
    (s ++ c :: rest).dropWhile p = s.dropWhile p ++ c :: rest := by
  rw [List.dropWhile_append]
  split
  · next none => rw [List.isEmpty_iff.mp none, List.dropWhile_cons_of_neg (by simp [stop])]; rfl
  · rfl

theorem takeWhile_append_stop (stop : p c = false) :
    (s ++ c :: rest).takeWhile p = s.takeWhile p := by
  induction s with
  | nil => exact List.takeWhile_cons_of_neg (by simp [stop])
  | cons d s ih => rw [List.cons_append, List.takeWhile_cons, List.takeWhile_cons, ih]

/-- What ends a part ends it at the latest where one such character stands. -/
theorem takeUntil_append_stop (stop : ends c = true) (s rest : List Char) :
    takeUntil ends (s ++ c :: rest) = ((takeUntil ends s).1, (takeUntil ends s).2 ++ c :: rest) := by
  have stop : (!ends c) = false := by rw [stop]; rfl
  rw [takeUntil, takeWhile_append_stop stop, dropWhile_append_stop stop, takeUntil]

/-- Without equals signs all that stands before the end of a tag is names of attributes. -/
theorem readAttributes_names (plain : ∀ c ∈ s, c ≠ '=' ∧ c ≠ '/' ∧ c ≠ '>') (rest : List Char) :
    ∃ as, readAttributes read (s ++ '>' :: rest) = some (as, false, rest) ∧ (s = [] → as = read) := by
  induction length : s.length using Nat.strongRecOn generalizing s read with
  | ind n ih =>
    have trim : trimStart (s ++ '>' :: rest) = trimStart s ++ '>' :: rest :=
      dropWhile_append_stop (by decide)
    have kept : ∀ c ∈ trimStart s, c ≠ '=' ∧ c ≠ '/' ∧ c ≠ '>' := fun c mem =>
      plain c ((List.dropWhile_sublist isBlank).subset mem)
    have shorter := length_trimStart_le s
    cases start : trimStart s with
    | nil =>
      rw [start] at trim
      exact ⟨read, readAttributes_end trim, fun _ => rfl⟩
    | cons c t =>
      rw [start] at trim kept shorter
      obtain ⟨⟨-, slash, close⟩, others⟩ := List.forall_mem_cons.mp kept
      have after : ∀ d ∈ (takeUntil endsAttributeName t).2, d ≠ '=' ∧ d ≠ '/' ∧ d ≠ '>' :=
        fun d mem => others d ((List.dropWhile_sublist _).subset mem)
      -- behind the name of an attribute there is no equals sign, so it has no value
      have bare : (readAttribute c (t ++ '>' :: rest)).2 =
          (takeUntil endsAttributeName t).2 ++ '>' :: rest := by
        have value : ∀ v, trimStart ((takeUntil endsAttributeName t).2 ++ '>' :: rest) ≠
            '=' :: v := by
          intro v found
          rw [trimStart, dropWhile_append_stop (by decide)] at found
          have mem : '=' ∈ (takeUntil endsAttributeName t).2 := by
            refine (List.dropWhile_sublist isBlank).subset ?_
            cases first : (takeUntil endsAttributeName t).2.dropWhile isBlank with
            | nil => simp [first] at found
            | cons d u => simp [first] at found; simp [found.1]
          exact (after _ mem).1 rfl
        rw [readAttribute, takeUntil_append_stop (by decide)]
        dsimp only
        split
        · next v found => exact absurd found (value v)
        · rfl
      have less : (takeUntil endsAttributeName t).2.length < n := by
        have le := length_takeUntil_le endsAttributeName t
        simp only [List.length_cons] at shorter
        omega
      rw [List.cons_append] at trim
      obtain ⟨as, attributes, -⟩ := ih _ less after rfl
      refine ⟨as, by rw [readAttributes_cons trim slash close, bare, attributes], ?_⟩
      rintro rfl
      cases start

theorem takeUntil_congr {ends ends' : Char → Bool} (same : ∀ c ∈ s, ends c = ends' c) :
    takeUntil ends s = takeUntil ends' s := by
  rw [takeUntil, takeUntil]
  induction s with
  | nil => rfl
  | cons c s ih =>
    obtain ⟨own, others⟩ := List.forall_mem_cons.mp same
    obtain ⟨before, after⟩ := Prod.mk.inj (ih others)
    rw [List.takeWhile_cons, List.takeWhile_cons, List.dropWhile_cons, List.dropWhile_cons, own,
      before, after]

/-- A tag that holds an id has the part of it before the first blank for its name. -/
theorem startTag?_id (inside : ∀ c ∈ s, Name.isNameChar c = true) (rest : List Char) :
    ∃ as, startTag? (s ++ '>' :: rest) =
        some (started ⟨String.ofList (takeUntil isBlank s).1, as⟩ rest) ∧
      ((takeUntil isBlank s).2 = [] → as = []) := by
  have name : takeUntil endsTagName s = takeUntil isBlank s :=
    takeUntil_congr fun c mem => Name.endsTagName_of_isNameChar (inside c mem)
  have small : lowerAscii (takeUntil isBlank s).1 = (takeUntil isBlank s).1 :=
    lowerAscii_of_small fun c mem =>
      Name.isUpper_of_isNameChar (inside c ((List.takeWhile_sublist _).subset mem))
  have plain : ∀ c ∈ (takeUntil isBlank s).2, c ≠ '=' ∧ c ≠ '/' ∧ c ≠ '>' := by
    intro c mem
    have own := inside c ((List.dropWhile_sublist _).subset mem)
    exact ⟨Name.ne_of_isNameChar own (by decide), Name.ne_of_isNameChar own (by decide),
      Name.ne_of_isNameChar own (by decide)⟩
  obtain ⟨as, attributes, none⟩ : ∃ as,
      readAttributes [] ((takeUntil isBlank s).2 ++ '>' :: rest) = some (as, false, rest) ∧
        ((takeUntil isBlank s).2 = [] → as = []) := readAttributes_names plain rest
  refine ⟨as, ?_, none⟩
  rw [startTag?, takeUntil_append_stop (by decide), name]
  dsimp only
  rw [attributes]
  simp only [small, Bool.false_or]
  rw [started, Element.endTag, String.toList_ofList]
  split
  · rfl
  · split
    · rfl
    · rfl

/-- The content of an element ends at once where the tag begins with its name. -/
theorem untilEndTag_at {name : List Char} (small : ∀ c ∈ name, c.isUpper = false)
    (closed : '>' ∉ name ++ s) (rest : List Char) :
    untilEndTag ('<' :: '/' :: name) ('<' :: '/' :: (name ++ s ++ '>' :: rest)) = ([], rest) := by
  have whole : ∀ c ∈ '<' :: '/' :: name, c.isUpper = false :=
    List.forall_mem_cons.mpr ⟨rfl, List.forall_mem_cons.mpr ⟨rfl, small⟩⟩
  have found := dropEndTag?_append whole (s ++ '>' :: rest)
  have skip : ∀ c ∈ '/' :: (name ++ s), decide (c ≠ '>') = true := by
    intro c mem
    rcases List.mem_cons.mp mem with rfl | mem
    · rfl
    · exact decide_eq_true fun same => closed (same ▸ mem)
  rw [List.append_assoc, untilEndTag]
  simp only [List.cons_append] at found
  rw [found]
  dsimp only
  rw [← List.append_assoc, ← List.cons_append, List.dropWhile_append_of_pos skip,
    List.dropWhile_cons_of_neg (by simp)]
  rfl

end Lexeme

namespace Builder

/-- An element that is opened at the end of what is read has no content, whatever end tag follows. -/
theorem finish_closing (e : Element) (name : String) :
    ((({} : Builder).openElement e).step [] (.closing name)).finish [] =
      ({} : Builder).put [.node (.element e) []] := by
  have alone : (({} : Builder).openElement e).opened = [(e, [])] := rfl
  rw [step, alone, List.findIdx?_cons, List.findIdx?_nil]
  by_cases own : (e.name == name) = true
  · rw [if_pos own]
    rfl
  · rw [if_neg own]
    rfl

end Builder

/-! ### Ids in markup -/

namespace Name
variable {id : String}

/-- The part of a name before its first blank. -/
def beforeBlank (name : String) : String :=
  String.ofList (Lexeme.takeUntil isBlank name.toList).1

theorem beforeBlank_eq_self : beforeBlank id = id ↔ ∀ c ∈ id.toList, isBlank c = false := by
  rw [← String.toList_inj, beforeBlank, String.toList_ofList, Lexeme.takeUntil,
    List.takeWhile_eq_self_iff]
  simp only [Bool.not_eq_true']

/-- The end tag that closes an element by an id. -/
def closer (id : String) : List Char := '<' :: '/' :: (id.toList ++ ['>'])

/-- The markup that refers to a template by its id. -/
def reference (id : String) : String := "<" ++ id ++ "></" ++ id ++ ">"

theorem toList_reference (id : String) :
    (reference id).toList = '<' :: (id.toList ++ '>' :: closer id) := by
  simp [reference, closer]

theorem next_reference (custom : isCustom id = true) :
    ∃ as, Lexeme.next '<' (id.toList ++ '>' :: closer id) =
        Lexeme.started ⟨beforeBlank id, as⟩ (closer id) ∧ (beforeBlank id = id → as = []) := by
  obtain ⟨c, s, chars, letter, inside⟩ := chars_of_isCustom custom
  obtain ⟨as, tag, none⟩ := Lexeme.startTag?_id inside (closer id)
  have letter : c.isAlpha = true := by rw [Char.isAlpha, letter, Bool.or_true]
  have start := Lexeme.next_letter letter (s := s ++ '>' :: closer id)
  rw [← List.cons_append, ← chars, tag] at start
  refine ⟨as, start, fun whole => none ?_⟩
  rw [Lexeme.takeUntil, List.dropWhile_eq_nil_iff]
  simpa using beforeBlank_eq_self.mp whole

theorem reads_closer (closed : '>' ∉ id.toList) (b : Builder) :
    ∃ name, b.reads [] (closer id) = b.step [] (.closing name) := by
  have last : Lexeme.next '<' ('/' :: (id.toList ++ ['>'])) =
      (.closing (String.ofList (lowerAscii (trim id.toList))), []) := by
    rw [Lexeme.next, if_neg (by simp)]
    simp only [cutChar?_append closed]
  exact ⟨_, by rw [closer, Builder.reads_cons last, Builder.reads_nil]⟩

/-- Content that is taken as it stands ends at the closer, with nothing before or behind it. -/
theorem untilEndTag_closer (inside : ∀ c ∈ id.toList, isNameChar c = true)
    (closed : '>' ∉ id.toList) (as : List Attribute) :
    Lexeme.untilEndTag (Element.endTag ⟨beforeBlank id, as⟩) (closer id) = ([], []) := by
  have parts := List.takeWhile_append_dropWhile (p := (!isBlank ·)) (l := id.toList)
  have small : ∀ c ∈ id.toList.takeWhile (!isBlank ·), c.isUpper = false := fun c mem =>
    isUpper_of_isNameChar (inside c ((List.takeWhile_sublist _).subset mem))
  have ends := Lexeme.untilEndTag_at small (parts.symm ▸ closed) []
  rw [parts] at ends
  rw [Element.endTag, beforeBlank, String.toList_ofList]
  exact ends

/-- A reference is one element, and the part of the id before its first blank is its name. -/
theorem ofSource_reference (custom : isCustom id = true) :
    ∃ as, Tree.ofSource [] (reference id) =
        .node .root [.node (.element ⟨beforeBlank id, as⟩) []] ∧ (beforeBlank id = id → as = []) := by
  obtain ⟨c, s, -, -, inside⟩ := chars_of_isCustom custom
  have closed : '>' ∉ id.toList := fun mem => ne_of_isNameChar (inside _ mem) (by decide) rfl
  obtain ⟨as, first, none⟩ := next_reference custom
  have stays : Element.Stays [] ⟨beforeBlank id, as⟩ := rfl
  -- of the names before a blank some stand for void elements or for content taken as it stands
  have put : (({} : Builder).reads [] (reference id).toList).finish [] =
      ({} : Builder).put [.node (.element ⟨beforeBlank id, as⟩) []] := by
    rw [Lexeme.started] at first
    rw [toList_reference]
    split at first
    · obtain ⟨name, last⟩ := reads_closer closed
        (({} : Builder).put [.node (.element ⟨beforeBlank id, as⟩) []])
      have leaf : ({} : Builder).step [] (.leaf ⟨beforeBlank id, as⟩) =
          ({} : Builder).put [.node (.element ⟨beforeBlank id, as⟩) []] :=
        Builder.closeElement_put _ [] stays
      rw [Builder.reads_cons first, leaf, last]
      rfl
    · split at first
      · have verbatim : ({} : Builder).step [] (.verbatim ⟨beforeBlank id, as⟩ "") =
            ({} : Builder).put [.node (.element ⟨beforeBlank id, as⟩) []] :=
          Builder.closeElement_put _ [] stays
        rw [untilEndTag_closer inside closed as] at first
        rw [Builder.reads_cons first, Builder.reads_nil, String.ofList_nil, verbatim]
        rfl
      · obtain ⟨name, last⟩ := reads_closer closed
          (({} : Builder).openElement ⟨beforeBlank id, as⟩)
        rw [Builder.reads_cons first, Builder.step, last]
        exact Builder.finish_closing _ name
  have read := Tree.ofSource_eq [] (reference id).toList
  rw [String.ofList_toList, put] at read
  exact ⟨as, read, none⟩

/-- Markup refers to the template of an accepted id just when there is no blank in the id. Then the
reference is read as one element of that name, which stands for a component and has neither attributes
nor content. In any case it is one element without content, named by what stands before a blank. -/
theorem referable_iff_no_blank (accepted : validate id = .ok ()) :
    (∃ as, Tree.ofSource [] (reference id) =
        .node .root [.node (.element ⟨beforeBlank id, as⟩) []]) ∧
      ((Tree.ofSource [] (reference id) = .node .root [.node (.element ⟨id, []⟩) []] ∧
          (Element.mk id []).isCustom = true) ↔ ∀ c ∈ id.toList, isBlank c = false) := by
  have custom := isCustom_of_validate accepted
  obtain ⟨as, read, none⟩ := ofSource_reference custom
  refine ⟨⟨as, read⟩, ?_, fun solid => ⟨?_, custom⟩⟩
  · rintro ⟨own, -⟩
    rw [read, Tree.node.injEq, List.cons.injEq, Tree.node.injEq, Content.element.injEq,
      Element.mk.injEq] at own
    exact beforeBlank_eq_self.mp own.2.1.1.1
  · have whole := beforeBlank_eq_self.mpr solid
    rw [read, none whole, whole]

/-- A name with letters of another script has no blank in it. -/
theorem greek_referable :
    validate "math-α.1" = .ok () ∧
      Tree.ofSource [] (reference "math-α.1") =
        .node .root [.node (.element ⟨"math-α.1", []⟩) []] := by
  have accepted : validate "math-α.1" = .ok () := by decide +kernel
  exact ⟨accepted, ((referable_iff_no_blank accepted).2.mpr (by simp [isBlank])).1⟩

/-- A no-break space may stand in an id, but it ends the name of the tag. -/
theorem spaced_id_not_referable :
    validate "x-\u00a0y" = .ok () ∧
      Tree.ofSource [] (reference "x-\u00a0y") =
        .node .root [.node (.element ⟨"x-", [⟨"y", none⟩]⟩) []] ∧
      Tree.ofSource [] (reference "x-\u00a0y") ≠
        .node .root [.node (.element ⟨"x-\u00a0y", []⟩) []] := by
  decide +kernel

end Name
end Stencil.Markup

namespace Stencil.Markup.Name

/-- A character that the grammar lets follow the first letter. -/
def MayFollow (c : Char) : Prop :=
  ('a' ≤ c ∧ c ≤ 'z') ∨ ('0' ≤ c ∧ c ≤ '9') ∨ c = '.' ∨ c = '_' ∨ c = '-' ∨ 127 < c.toNat

/-- The grammar of custom names. -/
structure InGrammar (name : String) : Prop where
  filled : name ≠ ""
  short : name.length ≤ 256
  first : ∀ c ∈ name.toList.head?, 'a' ≤ c ∧ c ≤ 'z'
  hyphen : '-' ∈ name.toList
  others : ∀ c ∈ name.toList.tail, MayFollow c
  free : name ∉ reserved

section
variable {name : String}

theorem isLower_iff (c : Char) : c.isLower = true ↔ 'a' ≤ c ∧ c ≤ 'z' := by
  simp only [Char.isLower, Char.le_def, Bool.and_eq_true, decide_eq_true_eq]

theorem isNameChar_iff (c : Char) : isNameChar c = true ↔ MayFollow c := by
  simp only [isNameChar, MayFollow, Char.isLower, Char.isDigit, Char.le_def, Bool.or_eq_true,
    Bool.and_eq_true, decide_eq_true_eq, beq_iff_eq]
  tauto

/-- No name has fewer bytes than characters. -/
theorem length_le_utf8ByteSize (name : String) : name.length ≤ name.utf8ByteSize := by
  rw [← Text.utf8Size_toList, ← String.length_toList, Text.utf8Size_eq_sum,
    ← List.length_map (f := Char.utf8Size)]
  refine List.length_le_sum_of_one_le _ fun size mem => ?_
  obtain ⟨c, -, rfl⟩ := List.mem_map.mp mem
  exact c.utf8Size_pos

theorem isReserved_iff : isReserved name = true ↔ name ∈ reserved := List.contains_iff_mem

/-- The grammar without its list of names and its bound. -/
theorem isWellFormed_iff : isWellFormed name = true ↔
    name.utf8ByteSize ≤ maxBytes ∧ name ≠ "" ∧ (∀ c ∈ name.toList.head?, 'a' ≤ c ∧ c ≤ 'z') ∧
      '-' ∈ name.toList ∧ ∀ c ∈ name.toList.tail, MayFollow c := by
  have filled : name ≠ "" ↔ name.toList ≠ [] := by rw [ne_eq, ← String.toList_inj, String.toList_empty]
  rw [isWellFormed, filled]
  cases name.toList with
  | nil => simp
  | cons c s =>
    have letter : 'a' ≤ c ∧ c ≤ 'z' → c ≠ '-' := by
      rintro ⟨low, -⟩ rfl
      exact absurd low (by decide)
    simp only [Bool.and_eq_true, decide_eq_true_eq, isLower_iff, List.contains_iff_mem,
      List.all_eq_true, isNameChar_iff, List.head?_cons, Option.mem_def, Option.some.injEq,
      forall_eq', List.mem_cons, List.tail_cons, ne_eq, reduceCtorEq, not_false_eq_true, true_and]
    constructor
    · rintro ⟨⟨⟨fits, first⟩, hyphen⟩, others⟩
      exact ⟨fits, first, .inr hyphen, others⟩
    · rintro ⟨fits, first, hyphen, others⟩
      exact ⟨⟨⟨fits, first⟩, hyphen.resolve_left (Ne.symm (letter first))⟩, others⟩

theorem isCustom_iff : isCustom name = true ↔ InGrammar name ∧ name.utf8ByteSize ≤ maxBytes := by
  rw [isCustom, Bool.and_eq_true, isWellFormed_iff, Bool.not_eq_true', ← Bool.not_eq_true,
    isReserved_iff]
  constructor
  · rintro ⟨⟨fits, filled, first, hyphen, others⟩, free⟩
    exact ⟨⟨filled, (length_le_utf8ByteSize name).trans fits, first, hyphen, others, free⟩, fits⟩
  · rintro ⟨⟨filled, -, first, hyphen, others, free⟩, fits⟩
    exact ⟨⟨fits, filled, first, hyphen, others⟩, free⟩

theorem validate_eq_ok_iff : validate name = .ok () ↔ isCustom name = true := by
  refine ⟨isCustom_of_validate, fun custom => ?_⟩
  rw [isCustom, Bool.and_eq_true, Bool.not_eq_true'] at custom
  rw [validate, custom.2, if_neg Bool.false_ne_true, if_pos custom.1]

end

/-- A name is recognised as a custom one, and accepted as an id, just when the grammar has it and its
UTF-8 form has no more bytes than the grammar allows characters. -/
theorem recognised_iff_grammar (name : String) :
    (isCustom name = true ↔ InGrammar name ∧ name.utf8ByteSize ≤ 256) ∧
      (validate name = .ok () ↔ InGrammar name ∧ name.utf8ByteSize ≤ 256) :=
  ⟨isCustom_iff, validate_eq_ok_iff.trans isCustom_iff⟩

/-- A name whose letters, but for the first one, take two bytes each. -/
def greekName (n : Nat) : String := String.ofList ('x' :: '-' :: List.replicate n 'α')

theorem greekName_inGrammar {n : Nat} (short : n ≤ 254) : InGrammar (greekName n) := by
  have letters : (greekName n).toList = 'x' :: '-' :: List.replicate n 'α' := String.toList_ofList
  have free : ∀ r ∈ reserved, r.toList.head? ≠ some 'x' := by decide
  refine ⟨?_, ?_, ?_, ?_, ?_, fun mem => free _ mem (by rw [letters]; rfl)⟩
  · rw [ne_eq, ← String.toList_inj, letters]
    exact List.cons_ne_nil _ _
  · rw [← String.length_toList, letters, List.length_cons, List.length_cons, List.length_replicate]
    omega
  · rw [letters]
    rintro c ⟨⟩
    decide
  · rw [letters]
    exact List.mem_cons_of_mem _ List.mem_cons_self
  · intro c mem
    rw [letters, List.tail_cons] at mem
    rcases List.mem_cons.mp mem with rfl | mem
    · exact (isNameChar_iff _).mp (by decide)
    · rw [List.eq_of_mem_replicate mem]
      exact (isNameChar_iff _).mp (by decide)

theorem utf8ByteSize_greekName (n : Nat) : (greekName n).utf8ByteSize = 2 + 2 * n := by
  have sizes : ('x'.utf8Size, '-'.utf8Size, 'α'.utf8Size) = (1, 1, 2) := by decide
  simp only [Prod.mk.injEq] at sizes
  rw [← Text.utf8Size_toList, greekName, String.toList_ofList, Text.utf8Size_eq_sum, List.map_cons,
    List.map_cons, List.map_replicate, List.sum_cons, List.sum_cons, List.sum_replicate, sizes.1,
    sizes.2.1, sizes.2.2, smul_eq_mul]
  omega

/-- A name of one hundred and thirty characters that the grammar has, and that is not recognised. -/
theorem greekName_not_recognised :
    InGrammar (greekName 128) ∧ isCustom (greekName 128) = false ∧
      validate (greekName 128) ≠ .ok () := by
  have wide : ¬ isCustom (greekName 128) = true := by
    rw [isCustom_iff, utf8ByteSize_greekName]
    exact fun fits => absurd fits.2 (by decide)
  exact ⟨greekName_inGrammar (by decide), by simpa using wide, fun ok => wide (isCustom_of_validate ok)⟩

end Stencil.Markup.Name
