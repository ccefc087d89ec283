import Stencil.Proofs.Markup.Scan
/-!
Markup that has been written is read back. A tree that markup can write comes back from its text as it
was, with the double quotes in values of attributes as references; what stands before it and behind it
in the text does not change that. Canonical documents are such trees: their names hold nothing that a
tag is made of, and their texts start nothing.
-/
namespace Stencil.Markup

/-! ### Reading on -/

namespace Lexeme

theorem idle_of_append {s s' : List Char} (quiet : idle (s ++ s') = true) : idle s' = true := by
  induction s with
  | nil => exact quiet
  | cons c s ih =>
    refine ih ?_
    cases rest : s ++ s' with
    | nil => rfl
    | cons d r =>
      rw [List.cons_append, rest, idle, Bool.and_eq_true] at quiet
      exact quiet.2

theorem head_of_idle {c : Char} {s : List Char} (quiet : idle (c :: s) = true) (angle : c = '<') :
    ∀ d ∈ s.head?, opens d = false := by
  cases s with
  | nil => exact fun _ mem => absurd mem (by simp)
  | cons d s =>
    rw [idle, Bool.and_eq_true] at quiet
    simpa [angle] using quiet.1

end Lexeme

namespace Builder
variable {rules : List IgnoreRule} {b : Builder} {rest : List Char}

/-- The builder after text has been read. -/
def reads (rules : List IgnoreRule) (b : Builder) (s : List Char) : Builder :=
  (Lexeme.ofSource s).foldl (Builder.step rules) b

theorem reads_nil : b.reads rules [] = b := by
  rw [reads, Lexeme.ofSource]
  rfl

theorem reads_cons {c : Char} {s : List Char} {l : Lexeme} (first : Lexeme.next c s = (l, rest)) :
    b.reads rules (c :: s) = (b.step rules l).reads rules rest := by
  rw [reads, Lexeme.ofSource, first, List.foldl_cons]
  rfl

theorem joinText_joinText (s s' : String) (before : List Tree) :
    joinText s' (joinText s before) = joinText (s ++ s') before := by
  rw [joinText.eq_def s before, joinText.eq_def (s ++ s') before]
  split
  · rw [joinText, String.append_assoc]
  · rw [joinText]

theorem addText_of_ne {s : String} (filled : s ≠ "") :
    b.addText s = { b with siblings := joinText s b.siblings } := by
  rw [addText, if_neg (by simpa using filled)]

theorem addText_empty : b.addText "" = b := rfl

theorem addText_addText (s s' : String) : (b.addText s).addText s' = b.addText (s ++ s') := by
  by_cases none : s = ""
  · rw [none, addText_empty, String.empty_append]
  · by_cases none' : s' = ""
    · rw [none', addText_empty, String.append_empty]
    · have both : s ++ s' ≠ "" := by simp [none]
      rw [addText_of_ne none, addText_of_ne none', addText_of_ne both]
      simp only [joinText_joinText]

/-- The end, or a `<`. -/
def Stops (s : List Char) : Prop := ∀ c ∈ s.head?, c = '<'

theorem stops_append {s : List Char} (here : Stops s) (stops : Stops rest) :
    Stops (s ++ rest) := by
  cases s with
  | nil => exact stops
  | cons c s => exact here

theorem readText_append {c : Char} {s : List Char} (stops : Stops rest) :
    ∃ more after, s = more ++ after ∧
      Lexeme.readText c (s ++ rest) = (.text (String.ofList (c :: more)), after ++ rest) := by
  obtain ⟨more, after, rfl, go, here⟩ :
      ∃ more after, s = more ++ after ∧ (∀ d ∈ more, (!(d == '<')) = true) ∧ Stops after := by
    refine ⟨s.takeWhile fun d => !(d == '<'), s.dropWhile fun d => !(d == '<'),
      (List.takeWhile_append_dropWhile ..).symm, fun d mem =>
        List.mem_takeWhile_imp (p := fun d => !(d == '<')) mem, ?_⟩
    intro d mem
    have first := List.head?_dropWhile_not (fun d => !(d == '<')) s
    rw [Option.mem_def.mp mem] at first
    simpa using first
  refine ⟨more, after, rfl, ?_⟩
  have halt : Lexeme.takeUntil (· == '<') (after ++ rest) = ([], after ++ rest) := by
    have stops := stops_append here stops
    cases cut : after ++ rest with
    | nil => rfl
    | cons d r =>
      rw [cut] at stops
      rw [stops d rfl]
      rfl
  rw [Lexeme.takeUntil, Prod.mk.injEq] at halt
  rw [Lexeme.readText, Lexeme.takeUntil, List.append_assoc, List.takeWhile_append_of_pos go,
    List.dropWhile_append_of_pos go, halt.1, halt.2, List.append_nil]

theorem reads_text (b : Builder) {s : List Char} (quiet : Lexeme.idle s = true) (stops : Stops rest) :
    b.reads rules (s ++ rest) = (b.addText (String.ofList s)).reads rules rest := by
  cases s with
  | nil => rfl
  | cons c s =>
    obtain ⟨more, after, rfl, read⟩ := readText_append (c := c) (s := s) stops
    have plain : c = '<' → ∀ d ∈ (more ++ after ++ rest).head?, Lexeme.opens d = false := by
      intro angle d mem
      cases inner : more ++ after with
      | nil =>
        rw [inner] at mem
        rw [stops d mem]
        rfl
      | cons e r =>
        rw [inner] at mem quiet
        exact Lexeme.head_of_idle quiet angle d mem
    rw [List.cons_append, reads_cons ((Lexeme.next_text plain).trans read)]
    refine (reads_text _ (Lexeme.idle_of_append (s := c :: more) quiet) stops).trans ?_
    rw [step, addText_addText, ← String.ofList_append]
    rfl
termination_by s.length

/-! ### Reading a tree -/

/-- The builder with trees added behind the last sibling. -/
def put (b : Builder) (ts : List Tree) : Builder :=
  { b with siblings := ts.reverse ++ b.siblings }

theorem put_put (ts ts' : List Tree) : (b.put ts).put ts' = b.put (ts ++ ts') := by
  simp [put]

/-- The last sibling is a text. -/
def inText (b : Builder) : Bool := b.siblings.head?.any Tree.isText

theorem addText_eq_put {s : String} (filled : s ≠ "") (apart : b.inText = false) :
    b.addText s = b.put [.node (.text s) []] := by
  rw [addText_of_ne filled, put]
  rw [inText] at apart
  rw [joinText.eq_def]
  split
  · next same =>
    rw [same] at apart
    cases apart
  · rfl

theorem closeElement_put (e : Element) (ts : List Tree) (stays : e.Stays rules) :
    ((b.openElement e).put ts).closeElement rules = b.put [.node (.element e) ts] := by
  rw [Element.Stays] at stays
  simp [closeElement, put, openElement, stays]

theorem step_closing {e : Element} (ts : List Tree) (stays : e.Stays rules) :
    ((b.openElement e).put ts).step rules (.closing e.name) = b.put [.node (.element e) ts] := by
  have found : ((b.openElement e).put ts).opened.findIdx? (·.1.name == e.name) = some 0 := by
    simp [openElement, put, List.findIdx?_cons]
  rw [step, found]
  exact closeElement_put e ts stays

/-- What is asked of elements that are to be read back. -/
structure Plain (rules : List IgnoreRule) (e : Element) : Prop where
  legible : e.Legible
  separated : e.Separated
  stays : e.Stays rules

/-- Rules do not look at the values of attributes. -/
theorem stays_map {e : Element} {g : Attribute → Attribute} (named : ∀ a, (g a).name = a.name)
    (stays : e.Stays rules) : Element.Stays rules { e with attributes := e.attributes.map g } := by
  have attributes : Element.hasAttr { e with attributes := e.attributes.map g } = e.hasAttr := by
    funext name
    rw [Element.hasAttr, List.any_map]
    exact congrArg (e.attributes.any ·) (funext fun a => by rw [Function.comp, named])
  have same : ∀ r : IgnoreRule, r.matches { e with attributes := e.attributes.map g } =
      r.matches e := by
    intro r
    rw [IgnoreRule.matches, IgnoreRule.matches, attributes]
  rw [Element.Stays, ← stays]
  exact congrArg (rules.any ·) (funext same)

theorem stays_requoted {e : Element} (stays : e.Stays rules) : e.requoted.Stays rules :=
  stays_map (fun _ => rfl) stays

theorem angle_not_mem_verbatim {e : Element} (verbatim : e.isVerbatim = true) :
    '<' ∉ '/' :: e.name.toList := by
  rw [Element.isVerbatim, List.contains_iff_mem] at verbatim
  have names : ∀ name ∈ Element.verbatimNames, '<' ∉ '/' :: name.toList := by decide
  exact names _ verbatim

theorem step_verbatim {e : Element} {ts : List Tree} (plain : Plain rules e)
    (verbatim : e.isVerbatim = true) (enclosed : Tree.Enclosed e ts) (rest : List Char) :
    ∃ s, Lexeme.untilEndTag e.endTag (Tree.writeAll ts ++ (Tree.writeEndTag e ++ rest)) = (s, rest) ∧
      b.step rules (.verbatim e.requoted (String.ofList s)) =
        b.put [.node (.element e.requoted) (Tree.requotedAll ts)] := by
  have stays := stays_requoted plain.stays
  have closed : '>' ∉ '/' :: e.name.toList := by
    refine not_or.mpr ⟨by decide, fun mem => ?_⟩ ∘ List.mem_cons.mp
    exact absurd (plain.legible.name _ mem) (by decide)
  have small : ∀ c ∈ '/' :: e.name.toList, c.isUpper = false :=
    List.forall_mem_cons.mpr ⟨rfl, plain.legible.small⟩
  have until_ := fun s missing => Lexeme.untilEndTag_append (s := s)
    (angle_not_mem_verbatim verbatim) closed small missing rest
  have tag : Tree.writeEndTag e ++ rest = '<' :: (('/' :: e.name.toList) ++ '>' :: rest) := by
    rw [Tree.writeEndTag]
    simp only [List.cons_append, List.append_assoc, List.nil_append]
  rw [tag]
  rcases Tree.enclosed_iff.mp enclosed with rfl | ⟨s, rfl, filled, missing⟩
  · exact ⟨[], until_ [] rfl, closeElement_put _ [] stays⟩
  · refine ⟨s.toList, ?_, ?_⟩
    · rw [Tree.writeAll, Tree.writeAll, Tree.write, List.append_nil]
      exact until_ s.toList missing
    · rw [String.ofList_toList, step, addText_eq_put filled rfl]
      exact closeElement_put _ [.node (.text s) []] stays

theorem stops_angle (s : List Char) : Stops ('<' :: s) := fun _ mem => (Option.some.inj mem).symm

theorem stops_write {P : String → Prop} {Q : Element → Prop} {t : Tree} (shaped : t.Shaped P Q)
    (other : t.isText = false) (rest : List Char) : Stops (t.write ++ rest) := by
  cases t with
  | node c ts =>
    cases c with
    | root => exact shaped.elim
    | text s => cases other
    | comment s | directive s | element e =>
      rw [Tree.write]
      exact stops_angle _

theorem isText_requoted (t : Tree) : t.requoted.isText = t.isText := by
  cases t with
  | node c ts => cases c <;> rfl

theorem inText_put_singleton (t : Tree) : (b.put [t]).inText = t.isText := rfl

mutual

/-- A written tree is read back. -/
theorem reads_write {t : Tree} (shaped : t.Shaped (Lexeme.idle ·.toList = true) (Plain rules))
    (b : Builder) (rest : List Char) (apart : t.isText = true → b.inText = false)
    (stops : t.isText = true → Stops rest) :
    b.reads rules (t.write ++ rest) = (b.put [t.requoted]).reads rules rest := by
  cases t with
  | node c ts =>
    cases c with
    | root => exact shaped.elim
    | text s =>
      obtain ⟨rfl, filled, quiet⟩ := shaped
      rw [Tree.write, reads_text b quiet (stops rfl), String.ofList_toList,
        addText_eq_put filled (apart rfl)]
      rfl
    | comment s =>
      obtain ⟨rfl, absent⟩ := shaped
      have read := Lexeme.next_comment absent rest
      rw [Tree.write, List.append_assoc, List.append_assoc]
      exact (reads_cons read).trans (by rw [String.ofList_toList]; rfl)
    | directive s =>
      obtain ⟨rfl, unclosed, other⟩ := shaped
      have read := Lexeme.next_directive unclosed other rest
      rw [Tree.write, List.append_assoc, List.append_assoc]
      exact (reads_cons read).trans (by rw [String.ofList_toList]; rfl)
    | element e =>
      obtain ⟨plain, below⟩ := shaped
      have stays := stays_requoted plain.stays
      rw [Tree.write, List.append_assoc]
      split at below
      · next void =>
        rw [if_pos void, List.nil_append]
        obtain ⟨s, tag, read⟩ := Lexeme.next_startTag plain.legible plain.separated rest
        rw [Lexeme.started, if_pos (show e.requoted.isVoid = true from void)] at read
        rw [tag, reads_cons read, below]
        rw [step]
        exact congrArg (reads rules · rest) (closeElement_put _ [] stays)
      · next filled =>
        rw [if_neg filled, List.append_assoc]
        obtain ⟨s, tag, read⟩ := Lexeme.next_startTag plain.legible plain.separated
          (Tree.writeAll ts ++ (Tree.writeEndTag e ++ rest))
        rw [Lexeme.started, if_neg (show ¬ e.requoted.isVoid = true from filled)] at read
        split at below
        · next verbatim =>
          obtain ⟨content, until_, step⟩ := step_verbatim (b := b) plain verbatim below rest
          rw [if_pos (show e.requoted.isVerbatim = true from verbatim),
            show e.requoted.endTag = e.endTag from rfl, until_] at read
          rw [tag, reads_cons read, step]
          rfl
        · next other =>
          rw [if_neg (show ¬ e.requoted.isVerbatim = true from other)] at read
          have close := Lexeme.next_endTag plain.legible.name plain.legible.small rest
          -- the children are read into the element, where no text stands before them
          have inner := reads_writeAll below.1 below.2 (b.openElement e.requoted)
            (Tree.writeEndTag e ++ rest) (fun _ _ _ => rfl) fun _ _ _ => stops_angle _
          rw [tag, reads_cons read, step, inner, Tree.writeEndTag]
          simp only [List.cons_append, List.append_assoc, List.nil_append]
          rw [reads_cons close, String.ofList_toList]
          exact congrArg (reads rules · rest) (step_closing _ stays)

theorem reads_writeAll {ts : List Tree}
    (shaped : Tree.ShapedAll (Lexeme.idle ·.toList = true) (Plain rules) ts)
    (spaced : Tree.Spaced ts) (b : Builder) (rest : List Char)
    (apart : ∀ t ∈ ts.head?, t.isText = true → b.inText = false)
    (stops : ∀ t ∈ ts.getLast?, t.isText = true → Stops rest) :
    b.reads rules (Tree.writeAll ts ++ rest) = (b.put (Tree.requotedAll ts)).reads rules rest := by
  cases ts with
  | nil => rfl
  | cons t ts =>
    obtain ⟨next, spaced⟩ := List.isChain_cons.mp spaced
    have first : t.isText = true → Stops (Tree.writeAll ts ++ rest) := by
      intro text
      cases ts with
      | nil => exact stops t rfl text
      | cons t' ts =>
        rw [Tree.writeAll, List.append_assoc]
        exact stops_write shaped.2.1 (next t' rfl text) _
    have between : ∀ t' ∈ ts.head?, t'.isText = true → (b.put [t.requoted]).inText = false := by
      intro t' mem text
      rw [inText_put_singleton, isText_requoted]
      by_contra own
      rw [next t' mem (by simpa using own)] at text
      cases text
    have last : ∀ t' ∈ ts.getLast?, t'.isText = true → Stops rest := by
      intro t' mem
      cases ts with
      | nil => cases mem
      | cons t₂ ts => exact stops t' (by rwa [List.getLast?_cons_cons])
    rw [Tree.writeAll, List.append_assoc, reads_write shaped.1 b _ (apart t rfl) first,
      reads_writeAll shaped.2 spaced _ rest between last, put_put]
    rfl

end

end Builder

namespace Tree

theorem ofSource_eq (rules : List IgnoreRule) (s : List Char) : ofSource rules (String.ofList s) =
    node .root ((Builder.reads rules {} s).finish rules).siblings.reverse := by
  rw [ofSource, Source.read, String.toList_ofList]
  rfl

/-- A document that markup can write is read back, as long as no rule leaves out one of its
elements. -/
theorem ofSource_html {rules : List IgnoreRule} {ts : List Tree}
    (shaped : ShapedAll (Lexeme.idle ·.toList = true) (Builder.Plain rules) ts)
    (spaced : Spaced ts) : ofSource rules (node .root ts).html = (node .root ts).requoted := by
  have read := Builder.reads_writeAll shaped spaced {} [] (fun _ _ _ => rfl)
    fun _ _ _ _ mem => absurd mem (by simp)
  rw [List.append_nil, Builder.reads_nil] at read
  rw [html, write, ofSource_eq, read]
  simp [Builder.put, Builder.finish, Builder.closeMany, requoted, Content.requoted]

end Tree

end Stencil.Markup

namespace Stencil.Markup

/-- An attribute whose name holds nothing that a tag is made of. -/
structure Attribute.Canonical (a : Attribute) : Prop where
  filled : a.name ≠ ""
  name : ∀ c ∈ a.name.toList, Lexeme.endsAttributeName c = false
  small : ∀ c ∈ a.name.toList, c.isUpper = false

/-- An element whose name and attributes hold nothing that a tag is made of. -/
structure Element.Canonical (e : Element) : Prop where
  first : e.name.toList.head?.any Char.isLower = true
  name : ∀ c ∈ e.name.toList, Lexeme.endsTagName c = false
  small : ∀ c ∈ e.name.toList, c.isUpper = false
  attributes : ∀ a ∈ e.attributes, a.Canonical
  once : (e.attributes.map (·.name)).Nodup

instance (a : Attribute) : Decidable a.Canonical :=
  decidable_of_iff (a.name ≠ "" ∧ a.name.toList.all (!Lexeme.endsAttributeName ·) ∧
      a.name.toList.all (!Char.isUpper ·))
    (by simpa using ⟨fun h => ⟨h.1, h.2.1, h.2.2⟩, fun h => ⟨h.filled, h.name, h.small⟩⟩)

instance (e : Element) : Decidable e.Canonical :=
  decidable_of_iff (e.name.toList.head?.any Char.isLower = true ∧
      e.name.toList.all (!Lexeme.endsTagName ·) ∧ e.name.toList.all (!Char.isUpper ·) ∧
      (∀ a ∈ e.attributes, a.Canonical) ∧ (e.attributes.map (·.name)).Nodup)
    (by simpa using ⟨fun h => ⟨h.1, h.2.1, h.2.2.1, h.2.2.2.1, h.2.2.2.2⟩,
      fun h => ⟨h.first, h.name, h.small, h.attributes, h.once⟩⟩)

/-- A document of canonical elements. No text in it starts a tag, a comment or a declaration, and
none is empty or stands next to another one. -/
structure Tree.Canonical (t : Tree) : Prop where
  root : t.content = .root
  shaped : ShapedAll (Lexeme.idle ·.toList = true) Element.Canonical t.children
  spaced : Spaced t.children

theorem Attribute.Canonical.legible {a : Attribute} (canonical : a.Canonical) : a.Legible where
  name := by
    cases name : a.name.toList with
    | nil => exact absurd (String.toList_eq_nil_iff.mp name) canonical.filled
    | cons c s =>
      have inside := canonical.name
      rw [name, List.forall_mem_cons] at inside
      refine ⟨c, s, rfl, ?_, inside.2⟩
      by_contra ends
      rw [Lexeme.endsAttributeName_of_endsTagName (by simpa using ends)] at inside
      cases inside.1
  small := canonical.small

theorem Element.Canonical.plain {e : Element} (canonical : e.Canonical) :
    Builder.Plain [] e where
  legible := ⟨canonical.first, canonical.name, canonical.small,
    fun a mem => (canonical.attributes a mem).legible, canonical.once⟩
  separated := by
    refine (List.pairwise_of_forall_mem_list fun a _ a' mem' _ same => ?_).isChain
    have inside := (canonical.attributes a' mem').name '=' (List.mem_of_head? same)
    cases inside
  stays := rfl

/-- A canonical document is read back from what is written of it. -/
theorem Tree.canonical_read_back {t : Tree} (canonical : t.Canonical) :
    Tree.ofSource [] t.html = t.requoted := by
  cases t with
  | node c ts =>
    obtain ⟨rfl, shaped, spaced⟩ := canonical
    exact ofSource_html (shaped.imp (fun _ _ quiet => quiet) fun _ _ canonical => canonical.plain)
      spaced

/-- A document with one of each kind of node. -/
def Tree.notice : Tree :=
  .node .root [
    .node (.directive "DOCTYPE html") [],
    .node (.element ⟨"p", [⟨"class", some "a \"b\" <c>"⟩, ⟨"hidden", none⟩]⟩) [
      .node (.text "1 < 2 & 3") [],
      .node (.element ⟨"br", []⟩) [],
      .node (.comment " <i> ") [],
      .node (.element ⟨"x-note", [⟨"is", some ""⟩]⟩) []],
    .node (.text "\n") [],
    .node (.element ⟨"script", [⟨"defer", none⟩]⟩) [.node (.text "if (a<b) \"</p>\"") []]]

theorem Tree.notice_read_back :
    notice.Canonical ∧ Tree.ofSource [] notice.html = notice.requoted :=
  have canonical : notice.Canonical := ⟨rfl, by decide +kernel, by decide +kernel⟩
  ⟨canonical, Tree.canonical_read_back canonical⟩

end Stencil.Markup
