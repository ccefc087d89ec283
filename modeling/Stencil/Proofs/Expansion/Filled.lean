import Stencil.Proofs.Component.Values
import Stencil.Proofs.Markup.Marks
/-!
Templates that texts have been put into. Texts bring no markup: a template that comes back from its own
text keeps its elements, its comments and its declarations whatever the texts are, and what is written
of it is read back, up to texts that have become empty.
-/
namespace Stencil

namespace Text

theorem mem_replace {p : Char} {ps new s : List Char} {c : Char} (mem : c ∈ replace p ps new s) :
    c ∈ s ∨ c ∈ new := by
  fun_induction replace p ps new s with
  | case1 s missing => exact .inl mem
  | case2 s before after found ih =>
    rw [eq_append_of_cut? found]
    simp only [List.mem_append] at mem ⊢
    tauto

theorem mem_replaceText {pattern new s : String} {c : Char}
    (mem : c ∈ (replaceText pattern new s).toList) : c ∈ s.toList ∨ c ∈ new.toList := by
  rw [replaceText] at mem
  split at mem
  · exact .inl mem
  · rw [String.toList_ofList] at mem
    exact mem_replace mem

end Text

namespace Markup

namespace Entity

theorem angle_not_mem_escapeText (s : String) : '<' ∉ (escapeText s).toList := by
  rw [escapeText, String.toList_ofList, List.mem_flatMap]
  rintro ⟨c, -, mem⟩
  split at mem
  · exact absurd mem (by decide)
  · exact absurd mem (by decide)
  · exact absurd mem (by decide)
  · next other _ => exact other (List.mem_singleton.mp mem).symm

theorem quote_not_mem_escapeAttribute (s : String) : '"' ∉ (escapeAttribute s).toList := by
  rw [escapeAttribute, String.toList_ofList, List.mem_flatMap]
  rintro ⟨c, -, mem⟩
  split at mem
  · exact absurd mem (by decide)
  · exact absurd mem (by decide)
  · next other => exact other (List.mem_singleton.mp mem).symm

end Entity

/-! ### Values put into a template -/

/-- The attribute with values in the place of its tokens. -/
def Attribute.filled (values : Values) (a : Attribute) : Attribute :=
  { a with value := a.value.map fun v => Expansion.fillAttribute values (Token.ofText v) v }

def Element.filled (values : Values) (e : Element) : Element :=
  { e with attributes := e.attributes.map (·.filled values) }

/-- A text with values in the place of its tokens. -/
def filledText (values : Values) (raw : Bool) (s : String) : String :=
  String.join ((Expansion.pieces values (Token.ofText s) s.toList).map (·.text raw))

namespace Tree

mutual

/-- A template with its values. `raw` tells whether texts are taken as they are. -/
def filled (values : Values) (raw : Bool) : Tree → Tree
  | node (.text s) ts => node (.text (filledText values raw s)) (filledAll values false ts)
  | node (.element e) ts =>
    node (.element (e.filled values)) (filledAll values (Expansion.rawParents.contains e.name) ts)
  | node .root ts => node .root (filledAll values false ts)
  | node (.comment s) ts => node (.comment s) (filledAll values false ts)
  | node (.directive s) ts => node (.directive s) (filledAll values false ts)

def filledAll (values : Values) (raw : Bool) : List Tree → List Tree
  | [] => []
  | t :: ts => t.filled values raw :: filledAll values raw ts

end

mutual

/-- No text outside of scripts and styles holds a `<`, and no text in them holds a token. `raw` tells
whether the tree stands right in one of them. -/
def Harmless (raw : Bool) : Tree → Prop
  | node (.text s) _ => if raw then Token.ofText s = [] else '<' ∉ s.toList
  | node (.element e) ts => HarmlessAll (Expansion.rawParents.contains e.name) ts
  | node .root ts => HarmlessAll false ts
  | node (.comment _) ts => HarmlessAll false ts
  | node (.directive _) ts => HarmlessAll false ts

def HarmlessAll (raw : Bool) : List Tree → Prop
  | [] => True
  | t :: ts => t.Harmless raw ∧ HarmlessAll raw ts

end

mutual

def decHarmless (raw : Bool) : (t : Tree) → Decidable (t.Harmless raw)
  | node (.text s) _ =>
    inferInstanceAs (Decidable (if raw then Token.ofText s = [] else '<' ∉ s.toList))
  | node (.element e) ts => decHarmlessAll (Expansion.rawParents.contains e.name) ts
  | node .root ts => decHarmlessAll false ts
  | node (.comment _) ts => decHarmlessAll false ts
  | node (.directive _) ts => decHarmlessAll false ts

def decHarmlessAll (raw : Bool) : (ts : List Tree) → Decidable (HarmlessAll raw ts)
  | [] => isTrue trivial
  | t :: ts =>
    have := decHarmless raw t
    have := decHarmlessAll raw ts
    inferInstanceAs (Decidable (t.Harmless raw ∧ HarmlessAll raw ts))

end

instance (raw : Bool) (t : Tree) : Decidable (t.Harmless raw) := decHarmless raw t

end Tree

section
variable {values : Values}

/-! ### Attributes -/

theorem quote_not_mem_fillAttribute {tokens : List Token} {text : String} (unquoted : '"' ∉ text.toList) :
    '"' ∉ (Expansion.fillAttribute values tokens text).toList := by
  induction tokens generalizing text with
  | nil => exact unquoted
  | cons t tokens ih =>
    rw [Expansion.fillAttribute, List.foldl_cons]
    refine ih ?_
    split
    · exact fun mem => (Text.mem_replaceText mem).elim unquoted
        (Entity.quote_not_mem_escapeAttribute _)
    · exact unquoted

theorem Attribute.requoted_filled {a : Attribute} (own : a.requoted = a) :
    (a.filled values).requoted = a.filled values := by
  rw [requoted_eq_self] at own ⊢
  intro v valued
  obtain ⟨w, old, rfl⟩ := Option.map_eq_some_iff.mp valued
  exact quote_not_mem_fillAttribute (own w old)

theorem Attribute.outline_filled (a : Attribute) : (a.filled values).outline = a.outline := by
  rw [outline, outline, filled, Option.map_map]
  rfl

/-! ### Elements -/

/-- An element of a template. Written and read again, it is as it was. -/
structure Element.Steady (rules : List IgnoreRule) (e : Element) : Prop where
  plain : Builder.Plain rules e
  requoted : e.requoted = e

theorem Element.Steady.filled {rules : List IgnoreRule} {e : Element} (steady : e.Steady rules) :
    (e.filled values).Steady rules where
  plain := {
    legible := {
      first := steady.plain.legible.first
      name := steady.plain.legible.name
      small := steady.plain.legible.small
      attributes := fun a mem => by
        obtain ⟨b, here, rfl⟩ := List.mem_map.mp mem
        have own := steady.plain.legible.attributes b here
        exact ⟨own.name, own.small⟩
      once := by
        rw [Element.filled, List.map_map]
        exact steady.plain.legible.once }
    separated := by
      refine (List.isChain_map _).mpr (steady.plain.separated.imp fun a b apart bare => ?_)
      exact apart (Option.map_eq_none_iff.mp bare)
    stays := Builder.stays_map (fun _ => rfl) steady.plain.stays }
  requoted := by
    have own := Element.requoted_eq_self.mp steady.requoted
    refine Element.requoted_eq_self.mpr fun a mem => ?_
    obtain ⟨b, here, rfl⟩ := List.mem_map.mp mem
    exact Attribute.requoted_filled (own b here)

theorem Element.outline_filled (e : Element) : (e.filled values).outline = e.outline := by
  rw [outline, outline, filled, List.map_map]
  exact congrArg (Element.mk e.name) (List.map_congr_left fun a _ => a.outline_filled)

/-! ### Texts -/

theorem mem_of_literal {tokens : List Token} {s : List Char} {x : String} {c : Char}
    (piece : .literal x ∈ Expansion.pieces values tokens s) (mem : c ∈ x.toList) : c ∈ s := by
  induction tokens generalizing s with
  | nil =>
    rw [Expansion.pieces, List.mem_singleton, Expansion.Piece.literal.injEq] at piece
    rwa [piece, String.toList_ofList] at mem
  | cons t tokens ih =>
    rw [Expansion.pieces] at piece
    split at piece
    · exact ih piece
    · next before rest found =>
      rw [Text.eq_append_of_cut? found]
      rcases List.mem_cons.mp piece with own | piece
      · rw [Expansion.Piece.literal.inj own, String.toList_ofList] at mem
        exact List.mem_append_left _ (List.mem_append_left _ mem)
      · rcases List.mem_cons.mp piece with own | piece
        · split at own
          · cases own
          · rw [Expansion.Piece.literal.inj own] at mem
            exact List.mem_append_left _ (List.mem_append_right _ mem)
        · exact List.mem_append_right _ (ih piece)

theorem angle_not_mem_filledText {s : String} (plain : '<' ∉ s.toList) :
    '<' ∉ (filledText values false s).toList := by
  rw [filledText, String.toList_join, List.flatMap_map, List.mem_flatMap]
  rintro ⟨p, piece, mem⟩
  cases p with
  | literal x => exact plain (mem_of_literal piece mem)
  | value v => exact Entity.angle_not_mem_escapeText _ mem

theorem filledText_of_no_tokens {raw : Bool} {s : String} (none : Token.ofText s = []) :
    filledText values raw s = s := by
  rw [filledText, none, Expansion.pieces, List.map_singleton, Expansion.Piece.text,
    String.ofList_toList]
  exact String.empty_append

theorem Lexeme.idle_of_plain {s : List Char} (plain : '<' ∉ s) : idle s = true := by
  induction s with
  | nil => rfl
  | cons c s ih =>
    rw [List.mem_cons, not_or] at plain
    cases s with
    | nil => rfl
    | cons d s => rw [idle, ih plain.2, beq_false_of_ne (Ne.symm plain.1)]; rfl

theorem Lexeme.not_hasEndTag_of_plain {name s : List Char} (plain : '<' ∉ s) :
    hasEndTag ('<' :: name) s = false := by
  induction s with
  | nil => rfl
  | cons c s ih =>
    rw [List.mem_cons, not_or] at plain
    have other : c.toLower ≠ '<' := by
      have same := toLower_eq_angle c
      rw [beq_false_of_ne (Ne.symm plain.1), beq_eq_false_iff_ne] at same
      exact same
    rw [hasEndTag, dropEndTag?, if_neg other, ih plain.2]
    rfl

/-! ### Trees -/

namespace Tree
variable {rules : List IgnoreRule}

theorem filledAll_eq_map (raw : Bool) (ts : List Tree) :
    filledAll values raw ts = ts.map (·.filled values raw) := by
  induction ts with
  | nil => rfl
  | cons t ts ih => rw [filledAll, ih, List.map_cons]

mutual

theorem outline_filled (raw : Bool) (t : Tree) : (t.filled values raw).outline = t.outline := by
  cases t with
  | node c ts =>
    cases c with
    | element e =>
      rw [filled, outline, outline, outlineAll_filledAll _ ts, Content.outline, Content.outline,
        e.outline_filled]
    | text s =>
      rw [filled, outline, outline, outlineAll_filledAll false ts, Content.outline, Content.outline]
    | root | comment _ | directive _ =>
      rw [filled, outline, outline, outlineAll_filledAll false ts]

theorem outlineAll_filledAll (raw : Bool) (ts : List Tree) :
    outlineAll (filledAll values raw ts) = outlineAll ts := by
  cases ts with
  | nil => rfl
  | cons t ts =>
    rw [filledAll, outlineAll, outlineAll, outline_filled raw t, outlineAll_filledAll raw ts]

end

theorem isText_filled (raw : Bool) (t : Tree) : (t.filled values raw).isText = t.isText := by
  cases t with
  | node c ts => cases c <;> rfl

theorem spaced_filledAll (raw : Bool) {ts : List Tree} (spaced : Spaced ts) :
    Spaced (filledAll values raw ts) := by
  rw [filledAll_eq_map]
  refine (List.isChain_map _).mpr (spaced.imp fun t t' apart text => ?_)
  rw [isText_filled] at text ⊢
  exact apart text

theorem rawParents_of_not_verbatim {e : Element} (other : e.isVerbatim = false) :
    Expansion.rawParents.contains e.name = false := by
  have sub : ∀ name ∈ Expansion.rawParents, name ∈ Element.verbatimNames := by decide
  rw [Element.isVerbatim] at other
  by_contra raw
  rw [Bool.not_eq_false, List.contains_iff_mem] at raw
  rw [List.contains_iff_mem.mpr (sub _ raw)] at other
  cases other

mutual

theorem Harmless.texts {t : Tree} (harmless : t.Harmless false) : ∀ s ∈ t.texts, '<' ∉ s.toList := by
  cases t with
  | node c ts =>
    cases c with
    | text s => exact List.forall_mem_singleton.mpr harmless
    | element e =>
      rw [Tree.texts]
      split
      · exact fun _ mem => absurd mem List.not_mem_nil
      · next other =>
        rw [Harmless, rawParents_of_not_verbatim (by simpa using other)] at harmless
        exact HarmlessAll.texts harmless
    | root | comment _ | directive _ => exact HarmlessAll.texts (show HarmlessAll false ts from harmless)

theorem HarmlessAll.texts {ts : List Tree} (harmless : HarmlessAll false ts) :
    ∀ s ∈ textsAll ts, '<' ∉ s.toList := by
  cases ts with
  | nil => exact fun _ mem => absurd mem List.not_mem_nil
  | cons t ts =>
    exact List.forall_mem_append.mpr ⟨Harmless.texts harmless.1, HarmlessAll.texts harmless.2⟩

end

/-- Content that is taken as it stands does not come to hold its end tag. -/
theorem enclosed_filled {e : Element} {raw : Bool} {ts : List Tree} (enclosed : Enclosed e ts)
    (harmless : HarmlessAll raw ts) :
    Enclosed (e.filled values) (compactAll (filledAll values raw ts)) := by
  rcases enclosed_iff.mp enclosed with rfl | ⟨s, rfl, filled, missing⟩
  · trivial
  · have own := harmless.1
    rw [Harmless] at own
    rw [filledAll, filledAll, compactAll]
    split
    · trivial
    · next other =>
      refine ⟨fun empty => other (by rw [Tree.filled, isEmptyText, empty]; rfl), ?_⟩
      cases raw with
      | true => rwa [filledText_of_no_tokens own]
      | false => exact Lexeme.not_hasEndTag_of_plain (angle_not_mem_filledText own)

mutual

/-- A template that has its values can be written, unless it has become an empty text. -/
theorem shaped_filled {t : Tree} (shaped : t.Shaped ('<' ∉ ·.toList) (Element.Steady rules))
    (harmless : t.Harmless false) (full : (t.filled values false).isEmptyText = false) :
    (t.filled values false).compact.Shaped ('<' ∉ ·.toList) (Element.Steady rules) := by
  cases t with
  | node c ts =>
    cases c with
    | root => exact shaped.elim
    | text s =>
      obtain ⟨rfl, -, plain⟩ := shaped
      refine ⟨rfl, fun empty => ?_, angle_not_mem_filledText plain⟩
      rw [filled, isEmptyText, empty] at full
      cases full
    | comment s =>
      obtain ⟨rfl, absent⟩ := shaped
      exact ⟨rfl, absent⟩
    | directive s =>
      obtain ⟨rfl, unclosed, other⟩ := shaped
      exact ⟨rfl, unclosed, other⟩
    | element e =>
      obtain ⟨steady, below⟩ := shaped
      rw [Harmless] at harmless
      refine ⟨steady.filled, ?_⟩
      rw [show (e.filled values).isVoid = e.isVoid from rfl,
        show (e.filled values).isVerbatim = e.isVerbatim from rfl]
      split at below
      · next void =>
        rw [if_pos void, below]
        rfl
      · next hollow =>
        rw [if_neg hollow]
        split at below
        · next verbatim =>
          rw [if_pos verbatim]
          exact enclosed_filled below harmless
        · next other =>
          rw [rawParents_of_not_verbatim (by simpa using other)] at harmless ⊢
          rw [if_neg other]
          exact ⟨shapedAll_filledAll below.1 harmless,
            spaced_compactAll (spaced_filledAll false below.2)⟩

theorem shapedAll_filledAll {ts : List Tree}
    (shaped : ShapedAll ('<' ∉ ·.toList) (Element.Steady rules) ts)
    (harmless : HarmlessAll false ts) :
    ShapedAll ('<' ∉ ·.toList) (Element.Steady rules) (compactAll (filledAll values false ts)) := by
  cases ts with
  | nil => trivial
  | cons t ts =>
    have others := shapedAll_filledAll shaped.2 harmless.2
    rw [filledAll, compactAll]
    split
    · exact others
    · next full => exact ⟨shaped_filled shaped.1 harmless.1 (by simpa using full), others⟩

end

mutual

theorem requoted_of_shaped {P : String → Prop} {Q : Element → Prop}
    (quoted : ∀ e, Q e → e.requoted = e) {t : Tree} (shaped : t.Shaped P Q) : t.requoted = t := by
  cases t with
  | node c ts =>
    cases c with
    | root => exact shaped.elim
    | text s | comment s | directive s =>
      obtain ⟨rfl, -⟩ := shaped
      rfl
    | element e =>
      obtain ⟨own, below⟩ := shaped
      have inner : requotedAll ts = ts := by
        split at below
        · rw [below]
          rfl
        · split at below
          · rcases enclosed_iff.mp below with rfl | ⟨s, rfl, -⟩
            · rfl
            · rfl
          · exact requotedAll_of_shaped quoted below.1
      rw [requoted, inner, Content.requoted, quoted e own]

theorem requotedAll_of_shaped {P : String → Prop} {Q : Element → Prop}
    (quoted : ∀ e, Q e → e.requoted = e) {ts : List Tree} (shaped : ShapedAll P Q ts) :
    requotedAll ts = ts := by
  cases ts with
  | nil => rfl
  | cons t ts =>
    rw [requotedAll, requoted_of_shaped quoted shaped.1, requotedAll_of_shaped quoted shaped.2]

end

/-- A template that comes back from its own text comes back with its values as well, without the texts
that are empty then, as long as no rule leaves out one of its elements. -/
theorem reread_filled {t : Tree} (back : ofSource [] t.html = t) (harmless : t.Harmless false)
    (stay : ∀ e ∈ t.elements, e.Stays rules) :
    ofSource rules (t.filled values false).html = (t.filled values false).compact := by
  obtain ⟨ts, same, built, spaced⟩ := ofSource_built [] t.html
  obtain rfl : t = node .root ts := back.symm.trans same
  have plain : ∀ s ∈ textsAll ts, '<' ∉ s.toList := HarmlessAll.texts harmless
  have shaped : ShapedAll ('<' ∉ ·.toList) Element.Legible ts :=
    built.imp (fun s mem _ => plain s mem) fun _ _ kept => kept.legible
  have faithful := faithful_of_reread shaped back
  have steady : ShapedAll ('<' ∉ ·.toList) (Element.Steady rules) ts :=
    shaped.imp (fun _ _ own => own) fun e mem legible =>
      ⟨⟨legible, (faithful e mem).separated, stay e mem⟩, (faithful e mem).requoted⟩
  have filled : ShapedAll ('<' ∉ ·.toList) (Element.Steady rules)
      (compactAll (filledAll values false ts)) := shapedAll_filledAll steady harmless
  have written := ofSource_html
    (filled.imp (fun _ _ own => Lexeme.idle_of_plain own) fun _ _ own => own.plain)
    (spaced_compactAll (spaced_filledAll false spaced))
  rw [← html_compact]
  refine written.trans ?_
  rw [requoted, requotedAll_of_shaped (fun _ own => own.requoted) filled]
  rfl

end Tree
end
end Markup
end Stencil
