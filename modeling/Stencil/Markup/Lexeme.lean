import Stencil.Markup.Element
import Stencil.Text.Blank
import Stencil.Text.Search
/-!
The lexemes of markup. The source is cut from left to right: each lexeme is read from the text
that the lexemes before it left, and `lexemes` ends because every one of them takes a character.
-/
namespace Stencil.Markup

inductive Lexeme where
  | text (s : String)
  | comment (s : String)
  | directive (s : String)
  /-- A start tag of an element with content. -/
  | opening (e : Element)
  /-- A whole element without content: a void one, or one closed in its start tag. -/
  | leaf (e : Element)
  /-- A whole element whose content is taken as it stands. -/
  | verbatim (e : Element) (content : String)
  | closing (name : String)
  deriving DecidableEq, Repr

namespace Lexeme
open Text

/-- A character that ends the name in a start tag. -/
def endsTagName (c : Char) : Bool := isBlank c || c == '/' || c == '>'

/-- A character that ends the name of an attribute. -/
def endsAttributeName (c : Char) : Bool := isBlank c || c == '=' || c == '>' || c == '/'

/-- A character that ends a value without quotes. -/
def endsBareValue (c : Char) : Bool := isBlank c || c == '>'

/-- The characters up to the first one of a class, and the text from there. -/
def takeUntil (ends : Char → Bool) (s : List Char) : List Char × List Char :=
  (s.takeWhile (!ends ·), s.dropWhile (!ends ·))

theorem length_takeUntil_le (ends : Char → Bool) (s : List Char) :
    (takeUntil ends s).2.length ≤ s.length :=
  (List.dropWhile_sublist _).length_le

/-- The value of an attribute at the start of the text. A quote that is not closed takes all. -/
def attributeValue : List Char → List Char × List Char
  | [] => ([], [])
  | q :: s =>
    if q = '"' ∨ q = '\'' then (cutChar? q s).getD (s, [])
    else takeUntil endsBareValue (q :: s)

theorem length_attributeValue_le (s : List Char) : (attributeValue s).2.length ≤ s.length := by
  cases s with
  | nil => simp [attributeValue]
  | cons q s =>
    simp only [attributeValue]
    split
    · cases h : cutChar? q s with
      | none => simp
      | some r => have := length_of_cutChar? (a := r.1) (b := r.2) h; simp; omega
    · exact length_takeUntil_le _ _

/-- The attribute at the start of a text; its first character belongs to the name whatever it is. -/
def readAttribute (c : Char) (s : List Char) : Attribute × List Char :=
  let (more, after) := takeUntil endsAttributeName s
  let name := String.ofList (lowerAscii (c :: more))
  match trimStart after with
  | '=' :: v =>
    let (value, rest) := attributeValue (trimStart v)
    (⟨name, some (String.ofList value)⟩, rest)
  | _ => (⟨name, none⟩, after)

theorem length_readAttribute_le (c : Char) (s : List Char) :
    (readAttribute c s).2.length ≤ s.length := by
  have h := length_takeUntil_le endsAttributeName s
  have ht := length_trimStart_le (takeUntil endsAttributeName s).2
  simp only [readAttribute]
  split
  · rename_i v hv
    have h1 := length_attributeValue_le (trimStart v)
    have h2 := length_trimStart_le v
    rw [hv] at ht
    simp at ht ⊢
    omega
  · exact h

/-- The attributes of a start tag up to its end, whether the tag closes its element, and the text
after the tag. The first of two attributes with one name counts. There is no result for a tag that
is not ended. -/
def readAttributes (read : List Attribute) (s : List Char) :
    Option (List Attribute × Bool × List Char) :=
  match h : trimStart s with
  | [] => none
  | '>' :: rest => some (read, false, rest)
  | '/' :: '>' :: rest => some (read, true, rest)
  | '/' :: rest => readAttributes read rest
  | c :: rest =>
    let r := readAttribute c rest
    readAttributes (if read.any (·.name == r.1.name) then read else read ++ [r.1]) r.2
termination_by s.length
decreasing_by
  all_goals
    have ht := length_trimStart_le s
    rw [h] at ht
    simp only [List.length_cons] at ht
    first | omega | (have hr := length_readAttribute_le c rest; omega)

theorem length_of_readAttributes {read as : List Attribute} {s r : List Char} {b : Bool}
    (h : readAttributes read s = some (as, b, r)) : r.length < s.length := by
  fun_induction readAttributes read s with
  | case1 => simp at h
  | case2 read s rest hs =>
    have := length_trimStart_le s
    rw [hs] at this; simp at this h; obtain ⟨_, _, rfl⟩ := h; omega
  | case3 read s rest hs =>
    have := length_trimStart_le s
    rw [hs] at this; simp at this h; obtain ⟨_, _, rfl⟩ := h; omega
  | case4 read s rest _ hs ih =>
    have := length_trimStart_le s
    rw [hs] at this; simp at this; have := ih h; omega
  | case5 read s c rest _ _ _ hs r' ih =>
    have ht := length_trimStart_le s
    rw [hs] at ht; simp at ht
    have := ih h
    have hr := length_readAttribute_le c rest
    simp only [r'] at this
    omega

/-- What follows an end tag's opening with the name, in any ASCII case. -/
def dropEndTag? : (name : List Char) → List Char → Option (List Char)
  | [], s => some s
  | _ :: _, [] => none
  | n :: name, c :: s => if c.toLower = n then dropEndTag? name s else none

/-- Content up to the end tag of the name or the end of the text, and what follows that tag's `>`.
`name` is in small letters and starts with `</`. -/
def untilEndTag (name : List Char) : List Char → List Char × List Char
  | [] => ([], [])
  | c :: s =>
    match dropEndTag? name (c :: s) with
    | some _ => ([], (s.dropWhile (· ≠ '>')).drop 1)
    | none => let (content, rest) := untilEndTag name s; (c :: content, rest)

theorem length_untilEndTag_le (name s : List Char) : (untilEndTag name s).2.length ≤ s.length := by
  induction s with
  | nil => simp [untilEndTag]
  | cons c s ih =>
    simp only [untilEndTag]
    split
    · have := (List.dropWhile_sublist (· ≠ '>') (l := s)).length_le
      simp only [List.length_drop, List.length_cons]; omega
    · simp only [List.length_cons]; omega

/-- The lexeme that a start tag gives, from the text after its `<`. -/
def startTag? (s : List Char) : Option (Lexeme × List Char) :=
  let (name, after) := takeUntil endsTagName s
  match readAttributes [] after with
  | none => none
  | some (attributes, closed, rest) =>
    let e : Element := ⟨String.ofList (lowerAscii name), attributes⟩
    if closed || e.isVoid then some (leaf e, rest)
    else if e.isVerbatim then
      let (content, rest) := untilEndTag ('<' :: '/' :: lowerAscii name) rest
      some (verbatim e (String.ofList content), rest)
    else some (opening e, rest)

theorem length_of_startTag? {s r : List Char} {x : Lexeme} (h : startTag? s = some (x, r)) :
    r.length < s.length := by
  have ht := length_takeUntil_le endsTagName s
  simp only [startTag?] at h
  split at h
  · simp at h
  · rename_i as closed rest ha
    have hr := length_of_readAttributes ha
    split at h
    · simp at h; obtain ⟨_, rfl⟩ := h; omega
    · split at h
      · simp at h
        obtain ⟨_, rfl⟩ := h
        have := length_untilEndTag_le
          ('<' :: '/' :: lowerAscii (takeUntil endsTagName s).1) rest
        omega
      · simp at h; obtain ⟨_, rfl⟩ := h; omega

/-- Text up to the next `<`, which ends it even when it opens nothing. -/
def readText (c : Char) (s : List Char) : Lexeme × List Char :=
  let (more, rest) := takeUntil (· == '<') s
  (text (String.ofList (c :: more)), rest)

/-- Text between the place behind an opener and a closer; without the closer all is taken. -/
def readBody (closer s : List Char) : String × List Char :=
  match cut? closer s with
  | some (body, rest) => (String.ofList body, rest)
  | none => (String.ofList s, [])

theorem length_readBody_le (closer s : List Char) : (readBody closer s).2.length ≤ s.length := by
  simp only [readBody]
  split
  · rename_i h; have := length_of_cut? h; simp only; omega
  · simp

/-- The first lexeme of a text `c :: s`, and what it leaves. -/
def next (c : Char) (s : List Char) : Lexeme × List Char :=
  if c ≠ '<' then readText c s
  else match s with
    | '!' :: '-' :: '-' :: s =>
      let (body, rest) := readBody "-->".toList s
      (comment body, rest)
    | '/' :: tail =>
      match cutChar? '>' tail with
      | none => (text (String.ofList (c :: s)), [])
      | some (name, rest) => (closing (String.ofList (lowerAscii (trim name))), rest)
    | '!' :: s =>
      let (body, rest) := readBody ['>'] s
      (directive body, rest)
    | '?' :: s =>
      let (body, rest) := readBody ['>'] s
      (directive ("?" ++ body), rest)
    | a :: _ =>
      if a.isAlpha then (startTag? s).getD (text (String.ofList (c :: s)), [])
      else readText c s
    | [] => readText c s

theorem length_next_le (c : Char) (s : List Char) : (next c s).2.length ≤ s.length := by
  have ht : ∀ t : List Char, (readText c t).2.length ≤ t.length :=
    fun t => length_takeUntil_le (· == '<') t
  simp only [next]
  split
  · exact ht s
  · split
    · rename_i t; have := length_readBody_le "-->".toList t; simp only [List.length_cons]; omega
    · split
      · simp
      · rename_i h; have := length_of_cutChar? h; simp only [List.length_cons]; omega
    · rename_i t _; have := length_readBody_le ['>'] t; simp only [List.length_cons]; omega
    · rename_i t; have := length_readBody_le ['>'] t; simp only [List.length_cons]; omega
    · split
      · rename_i a t _ _ _ _ _
        cases h : startTag? (a :: t) with
        | none => simp
        | some r => have := length_of_startTag? (x := r.1) (r := r.2) h; simp at this ⊢; omega
      · exact ht _
    · exact ht _

/-- The lexemes of a source. -/
def ofSource : List Char → List Lexeme
  | [] => []
  | c :: s => let r := next c s; r.1 :: ofSource r.2
termination_by s => s.length
decreasing_by have := length_next_le c s; simp; omega

end Lexeme
end Stencil.Markup
