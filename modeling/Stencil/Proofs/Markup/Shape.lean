import Mathlib.Data.List.Chain
import Stencil.Markup.Builder
/-!
Trees that markup can write. Names are such that they end where they should, a text is followed by
something else than a text, content that is taken as it stands does not hold its own end tag, and
comments and declarations do not hold their own ends. What is asked of texts and of elements besides
is a parameter.
-/
namespace Stencil.Markup

/-! ### Quotes -/

/-- The attribute as it is read back: each double quote in its value has become a reference. -/
def Attribute.requoted (a : Attribute) : Attribute :=
  { a with value := a.value.map fun v => String.ofList (Tree.quoteValue v.toList) }

def Element.requoted (e : Element) : Element :=
  { e with attributes := e.attributes.map Attribute.requoted }

def Content.requoted : Content → Content
  | .element e => .element e.requoted
  | c => c

namespace Tree

mutual

/-- The tree with the double quotes in values of attributes written as references. -/
def requoted : Tree → Tree
  | node c ts => node c.requoted (requotedAll ts)

def requotedAll : List Tree → List Tree
  | [] => []
  | t :: ts => t.requoted :: requotedAll ts

end

theorem requotedAll_eq_map (ts : List Tree) : requotedAll ts = ts.map requoted := by
  induction ts with
  | nil => rfl
  | cons t ts ih => rw [requotedAll, ih, List.map_cons]

end Tree

/-! ### Texts -/

namespace Lexeme

/-- A character that makes the `<` before it the start of something else than text. -/
def opens (c : Char) : Bool := c.isAlpha || c == '/' || c == '!' || c == '?'

/-- No `<` in the text starts anything but text. -/
def idle : List Char → Bool
  | c :: d :: s => !(c == '<' && opens d) && idle (d :: s)
  | _ => true

/-- An end tag stands somewhere in the text, in any ASCII case. -/
def hasEndTag (name : List Char) : List Char → Bool
  | [] => false
  | c :: s => (dropEndTag? name (c :: s)).isSome || hasEndTag name s

end Lexeme

/-! ### Elements -/

/-- An attribute whose name ends where it should. A first character may be an equals sign. -/
structure Attribute.Legible (a : Attribute) : Prop where
  name : ∃ c s, a.name.toList = c :: s ∧ Lexeme.endsTagName c = false ∧
    ∀ d ∈ s, Lexeme.endsAttributeName d = false
  small : ∀ c ∈ a.name.toList, c.isUpper = false

/-- An element whose name and attributes end where they should. -/
structure Element.Legible (e : Element) : Prop where
  first : e.name.toList.head?.any Char.isLower = true
  name : ∀ c ∈ e.name.toList, Lexeme.endsTagName c = false
  small : ∀ c ∈ e.name.toList, c.isUpper = false
  attributes : ∀ a ∈ e.attributes, a.Legible
  once : (e.attributes.map (·.name)).Nodup

/-- No name that starts with an equals sign follows an attribute without a value, which would take
it for its value. -/
def Attribute.Separated (as : List Attribute) : Prop :=
  as.IsChain fun a a' => a.value = none → a'.name.toList.head? ≠ some '='

def Element.Separated (e : Element) : Prop := Attribute.Separated e.attributes

instance (e : Element) : Decidable e.Separated :=
  inferInstanceAs (Decidable (e.attributes.IsChain _))

def Element.endTag (e : Element) : List Char := '<' :: '/' :: e.name.toList

/-- No rule leaves the element out. -/
def Element.Stays (rules : List IgnoreRule) (e : Element) : Prop :=
  rules.any (·.matches e) = false

/-! ### Trees -/

namespace Tree

def isText : Tree → Bool
  | node (.text _) _ => true
  | _ => false

/-- No text follows a text. -/
def Spaced (ts : List Tree) : Prop := ts.IsChain fun t t' => t.isText = true → t'.isText = false

instance (ts : List Tree) : Decidable (Spaced ts) := inferInstanceAs (Decidable (ts.IsChain _))

/-- What an element whose content is taken as it stands may hold. -/
def Enclosed (e : Element) : List Tree → Prop
  | [] => True
  | [node (.text s) []] => s ≠ "" ∧ Lexeme.hasEndTag e.endTag s.toList = false
  | _ => False

theorem enclosed_iff {e : Element} {ts : List Tree} : Enclosed e ts ↔
    ts = [] ∨ ∃ s, ts = [node (.text s) []] ∧ s ≠ "" ∧ Lexeme.hasEndTag e.endTag s.toList = false := by
  rw [Enclosed.eq_def]
  split
  · simp
  · simp
  · next none other =>
    refine ⟨False.elim, ?_⟩
    rintro (empty | ⟨s, same, -⟩)
    · exact none empty
    · exact other s same

instance (e : Element) : (ts : List Tree) → Decidable (Enclosed e ts)
  | [] => isTrue trivial
  | [node (.text s) []] =>
    inferInstanceAs (Decidable (s ≠ "" ∧ Lexeme.hasEndTag e.endTag s.toList = false))
  | [node (.text _) (_ :: _)] => isFalse id
  | [node .root _] => isFalse id
  | [node (.element _) _] => isFalse id
  | [node (.comment _) _] => isFalse id
  | [node (.directive _) _] => isFalse id
  | _ :: _ :: _ => isFalse (by simp [Enclosed])

section
variable (P : String → Prop) (Q : Element → Prop)

mutual

/-- The tree is one that markup can write. Its elements meet `Q`, and its texts meet `P` unless they
are taken as they stand. -/
def Shaped : Tree → Prop
  | node .root _ => False
  | node (.text s) ts => ts = [] ∧ s ≠ "" ∧ P s
  | node (.comment s) ts => ts = [] ∧ Text.cut? "-->".toList s.toList = none
  | node (.directive s) ts => ts = [] ∧ '>' ∉ s.toList ∧ Text.dropPrefix? "--".toList s.toList = none
  | node (.element e) ts => Q e ∧
      if e.isVoid then ts = [] else if e.isVerbatim then Enclosed e ts else ShapedAll ts ∧ Spaced ts

def ShapedAll : List Tree → Prop
  | [] => True
  | t :: ts => t.Shaped ∧ ShapedAll ts

end

variable [DecidablePred P] [DecidablePred Q]

mutual

def decShaped : (t : Tree) → Decidable (t.Shaped P Q)
  | node .root _ => isFalse id
  | node (.text s) ts => inferInstanceAs (Decidable (ts = [] ∧ s ≠ "" ∧ P s))
  | node (.comment s) ts =>
    inferInstanceAs (Decidable (ts = [] ∧ Text.cut? "-->".toList s.toList = none))
  | node (.directive s) ts => inferInstanceAs (Decidable
      (ts = [] ∧ '>' ∉ s.toList ∧ Text.dropPrefix? "--".toList s.toList = none))
  | node (.element e) ts =>
    have := decShapedAll ts
    inferInstanceAs (Decidable (Q e ∧ if e.isVoid then ts = [] else
      if e.isVerbatim then Enclosed e ts else ShapedAll P Q ts ∧ Spaced ts))

def decShapedAll : (ts : List Tree) → Decidable (ShapedAll P Q ts)
  | [] => isTrue trivial
  | t :: ts =>
    have := decShaped t
    have := decShapedAll ts
    inferInstanceAs (Decidable (t.Shaped P Q ∧ ShapedAll P Q ts))

end

instance (ts : List Tree) : Decidable (ShapedAll P Q ts) := decShapedAll P Q ts

omit [DecidablePred P] [DecidablePred Q] in
theorem shapedAll_iff {ts : List Tree} : ShapedAll P Q ts ↔ ∀ t ∈ ts, t.Shaped P Q := by
  induction ts with
  | nil => simp [ShapedAll]
  | cons t ts ih => rw [ShapedAll, ih, List.forall_mem_cons]

end

mutual

/-- The texts that are not taken as they stand. -/
def texts : Tree → List String
  | node (.text s) _ => [s]
  | node (.element e) ts => if e.isVerbatim then [] else textsAll ts
  | node .root ts => textsAll ts
  | node (.comment _) ts => textsAll ts
  | node (.directive _) ts => textsAll ts

def textsAll : List Tree → List String
  | [] => []
  | t :: ts => t.texts ++ textsAll ts

end

def elements (t : Tree) : List Element := t.contents.filterMap Content.element?

def elementsAll (ts : List Tree) : List Element := (contentsAll ts).filterMap Content.element?

theorem contentsAll_append (ts ts' : List Tree) :
    contentsAll (ts ++ ts') = contentsAll ts ++ contentsAll ts' := by
  induction ts with
  | nil => rfl
  | cons t ts ih => rw [List.cons_append, contentsAll, ih, contentsAll, List.append_assoc]

theorem elementsAll_append (ts ts' : List Tree) :
    elementsAll (ts ++ ts') = elementsAll ts ++ elementsAll ts' := by
  rw [elementsAll, contentsAll_append, List.filterMap_append]
  rfl

section
variable {P P' : String → Prop} {Q Q' : Element → Prop}

mutual

/-- What holds of the texts and of the elements of a tree may be asked of them. -/
theorem Shaped.imp {t : Tree} (shaped : t.Shaped P Q) (text : ∀ s ∈ t.texts, P s → P' s)
    (element : ∀ e ∈ t.elements, Q e → Q' e) : t.Shaped P' Q' := by
  cases t with
  | node c ts =>
    cases c with
    | root => exact shaped
    | text s => exact ⟨shaped.1, shaped.2.1, text s (List.mem_singleton_self s) shaped.2.2⟩
    | comment s => exact shaped
    | directive s => exact shaped
    | element e =>
      obtain ⟨own, below⟩ := shaped
      refine ⟨element e List.mem_cons_self own, ?_⟩
      split at below
      · next void => rwa [if_pos void]
      · next filled =>
        rw [if_neg filled]
        split at below
        · next verbatim => rwa [if_pos verbatim]
        · next plain =>
          rw [if_neg plain]
          rw [texts, if_neg plain] at text
          exact ⟨ShapedAll.imp below.1 text fun e mem => element e (List.mem_cons_of_mem _ mem),
            below.2⟩

theorem ShapedAll.imp {ts : List Tree} (shaped : ShapedAll P Q ts)
    (text : ∀ s ∈ textsAll ts, P s → P' s) (element : ∀ e ∈ elementsAll ts, Q e → Q' e) :
    ShapedAll P' Q' ts := by
  cases ts with
  | nil => trivial
  | cons t ts =>
    rw [textsAll, List.forall_mem_append] at text
    rw [elementsAll, contentsAll, List.filterMap_append, List.forall_mem_append] at element
    exact ⟨Shaped.imp shaped.1 text.1 element.1, ShapedAll.imp shaped.2 text.2 element.2⟩

end

mutual

theorem Shaped.elements {t : Tree} (shaped : t.Shaped P Q) : ∀ e ∈ t.elements, Q e := by
  cases t with
  | node c ts =>
    cases c with
    | root => exact shaped.elim
    | text s | comment s | directive s =>
      obtain ⟨rfl, -⟩ := shaped
      exact fun _ mem => absurd mem List.not_mem_nil
    | element e =>
      obtain ⟨own, below⟩ := shaped
      refine List.forall_mem_cons.mpr ⟨own, ?_⟩
      split at below
      · rw [below]
        exact fun _ mem => absurd mem List.not_mem_nil
      · split at below
        · rcases enclosed_iff.mp below with rfl | ⟨s, rfl, -⟩
          · exact fun _ mem => absurd mem List.not_mem_nil
          · exact fun _ mem => absurd mem List.not_mem_nil
        · exact ShapedAll.elements below.1

theorem ShapedAll.elements {ts : List Tree} (shaped : ShapedAll P Q ts) :
    ∀ e ∈ elementsAll ts, Q e := by
  cases ts with
  | nil => exact fun _ mem => absurd mem List.not_mem_nil
  | cons t ts =>
    rw [elementsAll, contentsAll, List.filterMap_append]
    exact List.forall_mem_append.mpr ⟨Shaped.elements shaped.1, ShapedAll.elements shaped.2⟩

end

end

end Tree
end Stencil.Markup
