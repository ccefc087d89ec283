import Stencil.Proofs.Markup.Built
/-!
A source read with rules is the source read without any, filtered: what the rules match is taken out
with all below it, and texts that come to stand next to each other are put together. The two
readings are run side by side. They have the same elements open, and at every level the siblings of
the one are the filtered siblings of the other.
-/
namespace Stencil.Markup

namespace Tree

/-- A rule matches the element of the tree. -/
def matchedBy (rules : List IgnoreRule) (t : Tree) : Bool :=
  t.content.element?.any fun e => rules.any (·.matches e)

mutual

/-- The tree without the elements below its root that a rule matches, nor anything in them. -/
def without (rules : List IgnoreRule) : Tree → Tree
  | node c ts => node c (withoutAll rules ts)

def withoutAll (rules : List IgnoreRule) : List Tree → List Tree
  | [] => []
  | t :: ts =>
    if t.matchedBy rules then withoutAll rules ts else t.without rules :: withoutAll rules ts

end

/-- A tree before others. A text takes in the text right after it. -/
def before : Tree → List Tree → List Tree
  | node (.text s) below, node (.text s') _ :: others => node (.text (s ++ s')) below :: others
  | t, others => t :: others

mutual

/-- The tree with texts that are next to each other put together. -/
def merged : Tree → Tree
  | node c ts => node c (mergedAll ts)

def mergedAll : List Tree → List Tree
  | [] => []
  | t :: ts => t.merged.before (mergedAll ts)

end

/-! ### The other way round -/

/-- A tree after others. -/
def after : List Tree → Tree → List Tree
  | [], t => [t]
  | [x], t => x.before [t]
  | x :: y :: ts, t => x :: after (y :: ts) t

theorem before_nil (t : Tree) : t.before [] = [t] := by
  obtain ⟨c, ts⟩ := t
  cases c <;> rfl

theorem before_of_other {t : Tree} (other : t.isText = false) (ts : List Tree) :
    t.before ts = t :: ts := by
  obtain ⟨c, below⟩ := t
  cases c with
  | text s => cases other
  | root | element e | comment s | directive s => rfl

theorem before_cons_of_other {t x : Tree} (other : x.isText = false) (ts : List Tree) :
    t.before (x :: ts) = t :: x :: ts := by
  obtain ⟨c, below⟩ := t
  obtain ⟨d, inside⟩ := x
  cases c with
  | text s =>
    cases d with
    | text s' => cases other
    | root | element e | comment s' | directive s' => rfl
  | root | element e | comment s | directive s => rfl

theorem exists_text {t : Tree} (text : t.isText = true) : ∃ s below, t = node (.text s) below := by
  obtain ⟨c, below⟩ := t
  cases c with
  | text s => exact ⟨s, below, rfl⟩
  | root | element e | comment s | directive s => cases text

theorem after_append_singleton (ts : List Tree) (x t : Tree) :
    after (ts ++ [x]) t = ts ++ x.before [t] := by
  induction ts with
  | nil => rfl
  | cons y ts ih =>
    cases ts with
    | nil => rfl
    | cons z ts => rw [List.cons_append, List.cons_append, after, ← List.cons_append, ih]; rfl

theorem after_cons {x : Tree} {ts : List Tree} (filled : ts ≠ []) (t : Tree) :
    after (x :: ts) t = x :: after ts t := by
  cases ts with
  | nil => exact absurd rfl filled
  | cons y ts => rfl

/-- Of two texts at the end it makes no difference which is put in first. -/
theorem before_before_singleton (x y t : Tree) :
    x.before (y.before [t]) = after (x.before [y]) t := by
  cases hy : y.isText with
  | false =>
    rw [before_of_other hy, before_cons_of_other hy, before_cons_of_other hy]
    exact congrArg (x :: ·) (before_of_other hy [t]).symm
  | true =>
    obtain ⟨s', inside, rfl⟩ := exists_text hy
    cases hx : x.isText with
    | false =>
      rw [before_of_other hx, before_of_other hx]
      rfl
    | true =>
      obtain ⟨s, below, rfl⟩ := exists_text hx
      cases ht : t.isText with
      | false => rw [before_cons_of_other ht, before, before, after, before_cons_of_other ht]
      | true =>
        obtain ⟨s'', under, rfl⟩ := exists_text ht
        simp [before, after, String.append_assoc]

theorem before_after (x : Tree) (ts : List Tree) (t : Tree) :
    x.before (after ts t) = after (x.before ts) t := by
  cases ts with
  | nil => rw [before_nil]; rfl
  | cons y ts =>
    cases ts with
    | nil => exact before_before_singleton x y t
    | cons z ts =>
      rw [after_cons (List.cons_ne_nil z ts)]
      cases both : x.isText && y.isText with
      | false =>
        have apart : ∀ us, x.before (y :: us) = x :: y :: us := by
          intro us
          rcases Bool.and_eq_false_iff.mp both with hx | hy
          · exact before_of_other hx _
          · exact before_cons_of_other hy _
        rw [apart, apart]
        rfl
      | true =>
        rw [Bool.and_eq_true] at both
        obtain ⟨s, below, rfl⟩ := exists_text both.1
        obtain ⟨s', inside, rfl⟩ := exists_text both.2
        rfl

theorem mergedAll_append_singleton (ts : List Tree) (t : Tree) :
    mergedAll (ts ++ [t]) = after (mergedAll ts) t.merged := by
  induction ts with
  | nil => exact before_nil t.merged
  | cons x ts ih => rw [List.cons_append, mergedAll, ih, before_after, mergedAll]

theorem withoutAll_append (rules : List IgnoreRule) (ts ts' : List Tree) :
    withoutAll rules (ts ++ ts') = withoutAll rules ts ++ withoutAll rules ts' := by
  induction ts with
  | nil => rfl
  | cons t ts ih =>
    rw [List.cons_append, withoutAll, withoutAll, ih]
    split
    · rfl
    · rfl

end Tree

namespace Builder
open Stencil.Markup.Tree
variable {rules : List IgnoreRule} {b b' : Builder}

/-- Siblings, the last one first, with the rules at work. -/
def filtered (rules : List IgnoreRule) (ts : List Tree) : List Tree :=
  (mergedAll (withoutAll rules ts.reverse)).reverse

theorem filtered_cons_of_matched {t : Tree} (matched : t.matchedBy rules = true)
    (ts : List Tree) : filtered rules (t :: ts) = filtered rules ts := by
  rw [filtered, filtered, List.reverse_cons, withoutAll_append, withoutAll, if_pos matched,
    withoutAll, List.append_nil]

theorem filtered_cons {t : Tree} (kept : t.matchedBy rules = false) (ts : List Tree) :
    filtered rules (t :: ts) =
      (after (filtered rules ts).reverse (t.without rules).merged).reverse := by
  rw [filtered, filtered, List.reverse_cons, withoutAll_append, withoutAll,
    if_neg (by simp [kept]), withoutAll, mergedAll_append_singleton, List.reverse_reverse]

theorem filtered_cons_of_other {t : Tree} (kept : t.matchedBy rules = false)
    (other : t.isText = false) (ts : List Tree) :
    filtered rules (t :: ts) = (t.without rules).merged :: filtered rules ts := by
  have same : (t.without rules).merged.isText = false := by
    obtain ⟨c, below⟩ := t
    cases c with
    | text s => cases other
    | root | element e | comment s | directive s => rfl
  rw [filtered_cons kept]
  cases filtered rules ts with
  | nil => rfl
  | cons x us =>
    rw [List.reverse_cons, after_append_singleton, before_cons_of_other same]
    simp

theorem joinText_of_other {ts : List Tree} (other : ts.head?.all (!·.isText)) (s : String) :
    joinText s ts = .node (.text s) [] :: ts := by
  cases ts with
  | nil => rfl
  | cons x ts =>
    obtain ⟨c, below⟩ := x
    cases c with
    | text s' => cases other
    | root | element e | comment s' | directive s' => rfl

theorem joinText_eq_after (s : String) (ts : List Tree) :
    joinText s ts = (after ts.reverse (.node (.text s) [])).reverse := by
  cases ts with
  | nil => rfl
  | cons x ts =>
    rw [List.reverse_cons, after_append_singleton]
    cases text : x.isText with
    | false => rw [before_of_other text, joinText_of_other (by simp [text])]; simp
    | true =>
      obtain ⟨s', below, rfl⟩ := exists_text text
      simp [joinText, before]

theorem joinText_after (s t : String) (below ts : List Tree) :
    joinText s (after ts (.node (.text t) below)).reverse =
      (after ts (.node (.text (t ++ s)) below)).reverse := by
  induction ts using List.reverseRecOn with
  | nil => rfl
  | append_singleton ts x =>
    rw [after_append_singleton, after_append_singleton]
    cases text : x.isText with
    | false => simp [before_of_other text, joinText]
    | true =>
      obtain ⟨s', inside, rfl⟩ := exists_text text
      simp [before, joinText, String.append_assoc]

theorem filtered_joinText (s : String) (ts : List Tree) :
    filtered rules (joinText s ts) = joinText s (filtered rules ts) := by
  have kept : ∀ t below, (Tree.node (.text t) below).matchedBy rules = false := fun _ _ => rfl
  cases first : ts.head?.all (!·.isText) with
  | true => rw [joinText_of_other first, filtered_cons (kept s []), joinText_eq_after]; rfl
  | false =>
    cases ts with
    | nil => cases first
    | cons x ts =>
      obtain ⟨t, below, rfl⟩ := exists_text (t := x) (by simpa using first)
      rw [joinText, filtered_cons (kept _ _), filtered_cons (kept _ _)]
      exact (joinText_after s t _ _).symm

/-- The builder of a reading with rules beside the builder `b` of one without. -/
structure Filters (rules : List IgnoreRule) (b b' : Builder) : Prop where
  siblings : b'.siblings = filtered rules b.siblings
  opened : b'.opened = b.opened.map fun o => (o.1, filtered rules o.2)

theorem filters_empty : Filters rules {} {} := ⟨rfl, rfl⟩

theorem Filters.addText (filters : Filters rules b b') (s : String) :
    Filters rules (b.addText s) (b'.addText s) := by
  by_cases none : s = ""
  · rw [none]
    exact filters
  · rw [addText_of_ne none, addText_of_ne none]
    refine ⟨?_, filters.opened⟩
    rw [filters.siblings, filtered_joinText]

theorem Filters.add (filters : Filters rules b b') {c : Content} (plain : c.element? = none)
    (other : (Tree.node c []).isText = false) : Filters rules (b.add c) (b'.add c) := by
  refine ⟨?_, filters.opened⟩
  have kept : (Tree.node c []).matchedBy rules = false := by
    rw [matchedBy, content, plain]
    rfl
  rw [Builder.add, Builder.add, filtered_cons_of_other kept other, filters.siblings]
  rfl

theorem Filters.openElement (filters : Filters rules b b') (e : Element) :
    Filters rules (b.openElement e) (b'.openElement e) := by
  refine ⟨rfl, ?_⟩
  rw [Builder.openElement, Builder.openElement, List.map_cons, filters.siblings, filters.opened]

theorem Filters.closeElement (filters : Filters rules b b') :
    Filters rules (b.closeElement []) (b'.closeElement rules) := by
  obtain ⟨siblings, opened, dropped⟩ := b
  obtain ⟨siblings', opened', dropped'⟩ := b'
  obtain ⟨rfl, rfl⟩ := filters
  cases opened with
  | nil => exact ⟨rfl, rfl⟩
  | cons o outer =>
    obtain ⟨e, before⟩ := o
    have own : (Tree.node (.element e) siblings.reverse).matchedBy rules =
        rules.any (·.matches e) := rfl
    rw [Builder.closeElement, Builder.closeElement, List.map_cons]
    dsimp only
    rw [if_neg (by simp)]
    split
    · next matched =>
      refine ⟨?_, rfl⟩
      rw [filtered_cons_of_matched (own.trans matched)]
    · next kept =>
      refine ⟨?_, rfl⟩
      rw [filtered_cons_of_other (own.trans (by simpa using kept)) rfl]
      simp [filtered, without, merged]

theorem Filters.closeMany (filters : Filters rules b b') (n : Nat) :
    Filters rules (b.closeMany [] n) (b'.closeMany rules n) := by
  induction n generalizing b b' with
  | zero => exact filters
  | succ n ih => exact ih filters.closeElement

theorem Filters.step (filters : Filters rules b b') (l : Lexeme) :
    Filters rules (b.step [] l) (b'.step rules l) := by
  cases l with
  | text s => exact filters.addText s
  | comment s => exact filters.add rfl rfl
  | directive s => exact filters.add rfl rfl
  | opening e => exact filters.openElement e
  | leaf e => exact (filters.openElement e).closeElement
  | verbatim e s => exact ((filters.openElement e).addText s).closeElement
  | closing name =>
    have found : b'.opened.findIdx? (·.1.name == name) = b.opened.findIdx? (·.1.name == name) := by
      rw [filters.opened, List.findIdx?_map]
      rfl
    rw [Builder.step, Builder.step, found]
    split
    · exact filters.closeMany _
    · exact filters

theorem Filters.foldl (filters : Filters rules b b') (ls : List Lexeme) :
    Filters rules (ls.foldl (Builder.step []) b) (ls.foldl (Builder.step rules) b') := by
  induction ls generalizing b b' with
  | nil => exact filters
  | cons l ls ih => exact ih (filters.step l)

theorem Filters.finish (filters : Filters rules b b') :
    Filters rules (b.finish []) (b'.finish rules) := by
  have level : b'.opened.length = b.opened.length := by rw [filters.opened, List.length_map]
  rw [Builder.finish, Builder.finish, level]
  exact filters.closeMany _

end Builder

/-- Rules filter: a source has with them the tree that it has without them, less the elements that
they match and what is in those, with texts that then are next to each other put together. None of
the elements that are left is one that a rule matches. -/
theorem Tree.ofSource_filtered (rules : List IgnoreRule) (source : String) :
    Tree.ofSource rules source = ((Tree.ofSource [] source).without rules).merged ∧
      ∀ e ∈ (Tree.ofSource rules source).elements, ∀ r ∈ rules, r.matches e = false := by
  constructor
  · have start : Builder.Filters rules {} {} := Builder.filters_empty
    have run := start.foldl (Lexeme.ofSource source.toList)
    rw [Tree.ofSource, Source.read, Tree.ofSource, Source.read]
    dsimp only
    rw [run.finish.siblings, Builder.filtered, List.reverse_reverse]
    rfl
  · intro e mem r rule
    obtain ⟨ts, read, built, -⟩ := Tree.ofSource_built rules source
    rw [read] at mem
    have kept : e.Kept rules := built.elements e mem
    exact Bool.eq_false_iff.mpr fun matched =>
      Bool.eq_false_iff.mp kept.stays (List.any_eq_true.mpr ⟨r, rule, matched⟩)

end Stencil.Markup
