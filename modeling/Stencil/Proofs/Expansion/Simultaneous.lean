import Stencil.Proofs.Component.Payload
import Stencil.Proofs.Expansion.Preparing
import Stencil.Proofs.Markup.Braces
/-!
Values put into an attribute. The tokens of the attribute are replaced one after the other, each in
the whole text. That is the same as replacing all of them at once, each in its place, unless the text
of a token stands somewhere else as well when its turn comes: in another token, behind the last token,
or in a value that has been put in before.
-/
namespace Stencil

namespace Text

/-- A pattern that starts nowhere in the front of a text leaves the front as it is. -/
theorem replace_append {p : Char} {ps new a b : List Char}
    (absent : ∀ x y, a = x ++ y → y ≠ [] → dropPrefix? (p :: ps) (y ++ b) = none) :
    replace p ps new (a ++ b) = a ++ replace p ps new b := by
  induction a with
  | nil => rfl
  | cons c a ih =>
    have here : dropPrefix? (p :: ps) (c :: (a ++ b)) = none :=
      absent [] (c :: a) rfl (List.cons_ne_nil _ _)
    rw [List.cons_append, replace_cons here,
      ih fun x y ends => absent (c :: x) y (by rw [ends]; rfl)]
    rfl

theorem replace_of_absent {p : Char} {ps new s : List Char} (absent : ¬ (p :: ps) <:+: s) :
    replace p ps new s = s := by
  rw [replace]
  split
  · rfl
  · next before after found =>
    exact absurd ⟨before, after, (eq_append_of_cut? found).symm⟩ absent

end Text

namespace Expansion
open Markup Text

/-! ### Tokens in their places -/

/-- What stands in the place of a token: the value of its name, or the token itself if no value is
bound to the name. -/
def inPlace (values : Values) (t : Token) : List Char :=
  match Assoc.get? values t.name with
  | some v => (Entity.escapeAttribute v.plain).toList
  | none => t.raw.toList

/-- A text that has been cut at its tokens, with something put in the place of each. -/
def assemble (put : Token → List Char) : List (List Char × Token) → List Char → List Char
  | [], left => left
  | (before, t) :: parts, left => before ++ (put t ++ assemble put parts left)

/-- The text with its tokens replaced all at once, each in its place. -/
def filledInPlace (values : Values) (text : String) : String :=
  String.ofList (assemble (inPlace values) (Token.cut text.toList).1 (Token.cut text.toList).2)

/-- A text is made of what it is cut into. -/
theorem assemble_raw (s : List Char) :
    assemble (·.raw.toList) (Token.cut s).1 (Token.cut s).2 = s := by
  fun_induction Token.cut s with
  | case1 s none => rfl
  | case2 s before t rest found ih =>
    rw [Prod.map_fst, Prod.map_snd, assemble, id, ih, (Token.first?_eq_some found).2.1,
      List.append_assoc]

theorem assemble_congr {put put' : Token → List Char} {parts : List (List Char × Token)}
    {left : List Char} (same : ∀ t ∈ parts.map (·.2), put t = put' t) :
    assemble put parts left = assemble put' parts left := by
  induction parts with
  | nil => rfl
  | cons part parts ih =>
    rw [assemble, assemble, same part.2 List.mem_cons_self,
      ih fun t mem => same t (List.mem_cons_of_mem _ mem)]

/-! ### One token replaced everywhere -/

/-- What is put in the place of a token stays as it is while the text of a token with this body is
replaced by `new`, or it is that token. -/
inductive Settles (body new : List Char) (before after : List Char) : Prop where
  | replaced (own : before = (Token.ofBody body).raw.toList) (filled : after = new)
  | token {other : List Char} (closed : Token.Closed other)
      (own : before = (Token.ofBody other).raw.toList)
      (apart : ¬ (Token.ofBody body).raw.toList <:+: (Token.ofBody other).raw.toList)
      (stays : after = before)
  | value (apart : beginsIn (Token.ofBody body).raw.toList before = false) (stays : after = before)

theorem replace_assemble {body new : List Char} {put put' : Token → List Char}
    {parts : List (List Char × Token)} {left : List Char} (closed : Token.Closed body)
    (befores : ∀ part ∈ parts, beginsIn ['{', '{'] part.1 = false)
    (settles : ∀ part ∈ parts, Settles body new (put part.2) (put' part.2))
    (absent : ¬ (Token.ofBody body).raw.toList <:+: left) :
    replace '{' ('{' :: (body ++ ['}', '}'])) new (assemble put parts left) =
      assemble put' parts left := by
  rw [Token.toList_raw] at absent
  induction parts with
  | nil => exact replace_of_absent absent
  | cons part parts ih =>
    have rest := ih (fun p mem => befores p (List.mem_cons_of_mem _ mem))
      fun p mem => settles p (List.mem_cons_of_mem _ mem)
    have front : ∀ x y, part.1 = x ++ y → y ≠ [] →
        dropPrefix? ('{' :: '{' :: (body ++ ['}', '}']))
          (y ++ (put part.2 ++ assemble put parts left)) = none := fun x y ends proper =>
      dropPrefix?_append_eq_none
        (dropPrefix?_of_not_beginsIn (befores part List.mem_cons_self) _ ends proper) _
    rw [assemble, assemble, replace_append front]
    congr 1
    cases settles part List.mem_cons_self with
    | replaced own filled =>
      have starts := dropPrefix?_append ('{' :: '{' :: (body ++ ['}', '}']))
        (assemble put parts left)
      rw [own, filled, Token.toList_raw, replace_of_dropPrefix? starts, rest]
    | token closed' own apart stays =>
      rw [stays, replace_append fun x y ends proper => ?_, rest]
      rw [own] at ends
      rw [Option.eq_none_iff_forall_ne_some]
      intro behind starts
      rw [← Token.toList_raw] at starts
      exact apart (Token.infix_of_starts closed closed' ends proper starts)
    | value apart stays =>
      rw [Token.toList_raw] at apart
      rw [stays, replace_append fun x y => dropPrefix?_of_not_beginsIn apart _, rest]

/-! ### All tokens, one after the other -/

/-- A value is bound to the name of the token. -/
abbrev Bound (values : Values) (t : Token) : Prop := (Assoc.get? values t.name).isSome

/-- The text of a token stands nowhere else when its turn comes. -/
structure TokensApart (values : Values) (text : String) : Prop where
  /-- It stands in no other token, unless that one has been replaced before. -/
  inside : ∀ t ∈ Token.ofText text, Bound values t → ∀ u ∈ Token.ofText text,
    t.raw.toList <:+: u.raw.toList →
      u = t ∨ u ∈ (Token.ofText text).takeWhile (· ≠ t) ∧ Bound values u
  /-- It does not stand behind the last token. -/
  behind : ∀ t ∈ Token.ofText text, Bound values t →
    ¬ t.raw.toList <:+: (Token.cut text.toList).2
  /-- It does not begin in a value that has been put in before. -/
  later : (Token.ofText text).Pairwise fun t u => Bound values t → Bound values u →
    beginsIn u.raw.toList (inPlace values t) = false

/-- What stands in the place of a token when those of a list have been replaced. -/
def putSoFar (values : Values) (done : List Token) (t : Token) : List Char :=
  if t ∈ done then inPlace values t else t.raw.toList

theorem inPlace_of_unbound {values : Values} {t : Token} (unbound : ¬ Bound values t) :
    inPlace values t = t.raw.toList := by
  rw [Bound, Option.not_isSome_iff_eq_none] at unbound
  rw [inPlace, unbound]

theorem putSoFar_of_unbound {values : Values} {t : Token} (unbound : ¬ Bound values t)
    (done : List Token) : putSoFar values done t = t.raw.toList := by
  rw [putSoFar, inPlace_of_unbound unbound, ite_self]

/-- What comes before the first place of `t` comes before each place of it. -/
theorem mem_of_mem_takeWhile {done rest : List Token} {t u : Token}
    (mem : u ∈ (done ++ t :: rest).takeWhile (· ≠ t)) : u ∈ done := by
  induction done with
  | nil =>
    rw [List.nil_append, List.takeWhile_cons_of_neg (by simp)] at mem
    exact absurd mem List.not_mem_nil
  | cons d done ih =>
    rw [List.cons_append, List.takeWhile_cons] at mem
    split at mem
    · exact List.mem_cons.mpr ((List.mem_cons.mp mem).imp_right ih)
    · exact absurd mem List.not_mem_nil

section
variable {values : Values} {text : String}

/-- When the turn of a token comes, every part of the text settles. -/
theorem settles_of_apart (apart : TokensApart values text) {done rest : List Token} {t : Token}
    (order : Token.ofText text = done ++ t :: rest) {v : Value}
    (bound : Assoc.get? values t.name = some v) {body : List Char} (token : t = Token.ofBody body)
    {u : Token} (mem : u ∈ Token.ofText text) {other : List Char} (own : u = Token.ofBody other)
    (closed : Token.Closed other) :
    Settles body (Entity.escapeAttribute v.plain).toList (putSoFar values done u)
      (putSoFar values (done ++ [t]) u) := by
  have isBound : Bound values t := by rw [Bound, bound]; rfl
  by_cases replaced : u ∈ done ∧ Bound values u
  · obtain ⟨earlier, boundToo⟩ := replaced
    have later := apart.later
    rw [order] at later
    have begins := (List.pairwise_append.mp later).2.2 u earlier t List.mem_cons_self
    rw [token] at begins
    rw [putSoFar, putSoFar, if_pos earlier, if_pos (List.mem_append_left _ earlier)]
    exact .value (begins boundToo (token ▸ isBound)) rfl
  · by_cases same : u = t
    · have fresh : t ∉ done := fun mem => replaced ⟨same ▸ mem, same ▸ isBound⟩
      refine .replaced ?_ ?_
      · rw [same, putSoFar, if_neg fresh, token]
      · rw [same, putSoFar, if_pos (List.mem_append_right _ (List.mem_singleton_self t)), inPlace,
          bound]
    · have before : putSoFar values done u = u.raw.toList := by
        by_cases boundToo : Bound values u
        · rw [putSoFar, if_neg fun mem => replaced ⟨mem, boundToo⟩]
        · exact putSoFar_of_unbound boundToo _
      have after : putSoFar values (done ++ [t]) u = u.raw.toList := by
        by_cases boundToo : Bound values u
        · refine if_neg fun mem => ?_
          rcases List.mem_append.mp mem with mem | mem
          · exact replaced ⟨mem, boundToo⟩
          · exact same (List.mem_singleton.mp mem)
        · exact putSoFar_of_unbound boundToo _
      refine .token closed (by rw [before, own]) (fun inside => ?_) (by rw [before, after])
      rw [← token, ← own] at inside
      refine (apart.inside t (by rw [order]; simp) isBound u mem inside).elim same fun earlier =>
        replaced ⟨?_, earlier.2⟩
      rw [order] at earlier
      exact mem_of_mem_takeWhile earlier.1

/-- One turn: the token is replaced in its places and nowhere else. -/
theorem turn_of_apart (apart : TokensApart values text) {done rest : List Token} {t : Token}
    (order : Token.ofText text = done ++ t :: rest) :
    fillAttribute values [t] (String.ofList (assemble (putSoFar values done)
        (Token.cut text.toList).1 (Token.cut text.toList).2)) =
      String.ofList (assemble (putSoFar values (done ++ [t]))
        (Token.cut text.toList).1 (Token.cut text.toList).2) := by
  have tokens : (Token.cut text.toList).1.map (·.2) = Token.ofText text := Token.map_cut _
  have mem : t ∈ Token.ofText text := by rw [order]; simp
  rw [fillAttribute, List.foldl_cons, List.foldl_nil]
  cases bound : Assoc.get? values t.name with
  | none =>
    have unbound : ¬ Bound values t := by rw [Bound, bound]; exact Bool.false_ne_true
    refine congrArg String.ofList (assemble_congr fun u _ => ?_)
    by_cases same : u = t
    · rw [same, putSoFar_of_unbound unbound, putSoFar_of_unbound unbound]
    · refine if_congr ?_ rfl rfl
      rw [List.mem_append, List.mem_singleton, or_iff_left same]
  | some v =>
    have cutOut := mem
    rw [← tokens] at cutOut
    obtain ⟨⟨before, t⟩, part, rfl⟩ := List.mem_map.mp cutOut
    obtain ⟨-, body, token, closed⟩ := Token.mem_cut part
    have behind := apart.behind t mem (by rw [Bound, bound]; rfl)
    dsimp only at bound order token ⊢
    rw [token] at behind
    rw [replaceText, token, Token.toList_raw, String.toList_ofList, ← token]
    refine congrArg String.ofList (replace_assemble closed (fun part mem => (Token.mem_cut mem).1)
      (fun part mem => ?_) behind)
    obtain ⟨-, other, own, closed'⟩ := Token.mem_cut (show (part.1, part.2) ∈ _ from mem)
    have listed : part.2 ∈ Token.ofText text := tokens ▸ List.mem_map_of_mem mem
    exact settles_of_apart apart order bound token listed own closed'

theorem fillAttribute_of_apart (apart : TokensApart values text) :
    fillAttribute values (Token.ofText text) text = filledInPlace values text := by
  have turns : ∀ rest done : List Token, Token.ofText text = done ++ rest →
      fillAttribute values rest (String.ofList (assemble (putSoFar values done)
          (Token.cut text.toList).1 (Token.cut text.toList).2)) =
        String.ofList (assemble (putSoFar values (done ++ rest))
          (Token.cut text.toList).1 (Token.cut text.toList).2) := by
    intro rest
    induction rest with
    | nil =>
      intro done _
      rw [List.append_nil]
      rfl
    | cons t rest ih =>
      intro done order
      have turn := turn_of_apart apart order
      rw [fillAttribute, List.foldl_cons, List.foldl_nil] at turn
      have later := ih (done ++ [t]) (by rw [order, List.append_cons])
      rw [← List.append_cons] at later
      rw [fillAttribute, List.foldl_cons, turn]
      exact later
  have all := turns (Token.ofText text) [] rfl
  have start : assemble (putSoFar values []) (Token.cut text.toList).1 (Token.cut text.toList).2 =
      text.toList :=
    (assemble_congr fun t _ => if_neg List.not_mem_nil).trans (assemble_raw text.toList)
  rw [start, String.ofList_toList, List.nil_append] at all
  rw [all, filledInPlace]
  refine congrArg String.ofList (assemble_congr fun t mem => if_pos ?_)
  rwa [Token.map_cut] at mem

end

/-! ### The attribute of an element in the store -/

section
variable {values : Values} {s : Expansion} {node : NodeId} {name : String} {e : Element}
  {text : String}

/-- What putting values into an attribute leaves in the store. -/
theorem run_substituteAttribute (element : s.arena.element? node = some e)
    (attr : e.attr? name = some text) (tokens : List Token) :
    ∃ s', (substituteAttribute values ⟨node, name, tokens⟩).run s = .ok () s' ∧
      s'.arena.element? node = some (e.setAttr name (fillAttribute values tokens text)) ∧
      ∀ other, other ≠ node → s'.arena.node other = s.arena.node other := by
  obtain ⟨_, s', run⟩ := total_substituteAttribute values ⟨node, name, tokens⟩ s
  have touches := touches_substituteAttribute run
  refine ⟨s', run, ?_, fun other apart => ?_⟩
  · have here := congrArg (·.1) (touches.look node)
    rw [if_pos rfl, content_of_element? element, fillTouch, Sketch.fillSite, attr] at here
    change s'.arena.node node = _ at here
    rw [Arena.element?, Arena.content, here]
    rfl
  · have there := congrArg (·.1) (touches.look other)
    rw [if_neg apart] at there
    exact there

/-- Values are put into an attribute all at once, each in the places of its own tokens, if the text
of no token stands anywhere else when its turn comes. -/
theorem attribute_filled_in_place (element : s.arena.element? node = some e)
    (attr : e.attr? name = some text) (apart : TokensApart values text) :
    ∃ s', (substituteAttribute values ⟨node, name, Token.ofText text⟩).run s = .ok () s' ∧
      s'.arena.element? node = some (e.setAttr name (filledInPlace values text)) ∧
      ∀ other, other ≠ node → s'.arena.node other = s.arena.node other := by
  rw [← fillAttribute_of_apart apart]
  exact run_substituteAttribute element attr _

end

/-- An element with a `title`, alone in the store. -/
def titled (text : String) : Element := { name := "p", attributes := [⟨"title", some text⟩] }

def ofTitle (text : String) : Expansion := { arena := .ofTree (.node (.element (titled text)) []) }

/-- A token in another one, a value with double braces, and a token without a value. -/
def nestedTitle : String := "{{ a }}{{ {{ b }} }} {{ b }} {{ a }} {{ c }}"

def nestedValues : Values :=
  [("a", .list [.text "{{ x }}", .text "&\""]), ("{{ b }}", .text "n"), ("b", .text "{{ x }}")]

/-- The tokens of the text, in their order. -/
def nestedTokens : List Token :=
  [⟨"a", "{{ a }}"⟩, ⟨"{{ b }}", "{{ {{ b }} }}"⟩, ⟨"b", "{{ b }}"⟩, ⟨"a", "{{ a }}"⟩,
    ⟨"c", "{{ c }}"⟩]

theorem nestedTitle_apart : TokensApart nestedValues nestedTitle := by
  have tokens : Token.ofText nestedTitle = nestedTokens := by cbv
  have left : (Token.cut nestedTitle.toList).2 = [] := by cbv
  constructor
  · rw [tokens]
    decide
  · rw [tokens, left]
    decide
  · rw [tokens]
    decide

theorem nestedTitle_filled_in_place :
    ∃ s', (substituteAttribute nestedValues ⟨0, "title", Token.ofText nestedTitle⟩).run
        (ofTitle nestedTitle) = .ok () s' ∧
      s'.arena.element? 0 =
        some (titled "{{ x }}&amp;&quot;n {{ x }} {{ x }}&amp;&quot; {{ c }}") := by
  have element : (ofTitle nestedTitle).arena.element? 0 = some (titled nestedTitle) := rfl
  have title : (titled nestedTitle).attr? "title" = some nestedTitle := rfl
  obtain ⟨s', run, here, -⟩ := attribute_filled_in_place element title nestedTitle_apart
  have filled : filledInPlace nestedValues nestedTitle =
      "{{ x }}&amp;&quot;n {{ x }} {{ x }}&amp;&quot; {{ c }}" := by cbv
  rw [filled] at here
  exact ⟨s', run, here⟩

/-- A value that holds the text of a later token: what has been put in is filled once more. -/
def echoTitle : String := "{{ a }} {{ b }}"

def echoValues : Values := [("a", .text "{{ b }}"), ("b", .text "x")]

theorem value_filled_once_more :
    (∃ s', (substituteAttribute echoValues ⟨0, "title", Token.ofText echoTitle⟩).run
        (ofTitle echoTitle) = .ok () s' ∧ s'.arena.element? 0 = some (titled "x x")) ∧
      filledInPlace echoValues echoTitle = "{{ b }} x" := by
  constructor
  · have element : (ofTitle echoTitle).arena.element? 0 = some (titled echoTitle) := rfl
    have title : (titled echoTitle).attr? "title" = some echoTitle := rfl
    have filled : fillAttribute echoValues (Token.ofText echoTitle) echoTitle = "x x" := by cbv
    obtain ⟨s', run, here, -⟩ := run_substituteAttribute element title (Token.ofText echoTitle)
    rw [filled] at here
    exact ⟨s', run, here⟩
  · cbv

end Expansion
end Stencil
