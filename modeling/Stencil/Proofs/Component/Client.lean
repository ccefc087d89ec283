import Stencil.Component.Client
import Stencil.Proofs.Markup.Reread
/-!
The script of a page stays inside its element. Whatever the behaviors, the helpers and the short
form hold, no end tag of a script is left in the text, so markup that encloses it in a script
element is read back as that element with exactly that text.
-/
namespace Stencil

namespace Text

theorem startsWith_iff {p s : List Char} : startsWith p s = true ↔ p <+: s := by
  rw [startsWith, Option.isSome_iff_exists]
  constructor
  · rintro ⟨r, found⟩
    exact ⟨r, (eq_append_of_dropPrefix? found).symm⟩
  · rintro ⟨r, rfl⟩
    exact ⟨r, dropPrefix?_append p r⟩

end Text

namespace Markup.Lexeme
open Text

theorem isSome_dropEndTag?_iff {name s : List Char} :
    (dropEndTag? name s).isSome = true ↔ name <+: lowerAscii s := by
  induction name generalizing s with
  | nil => simp [dropEndTag?]
  | cons n name ih =>
    cases s with
    | nil => simp [dropEndTag?, lowerAscii]
    | cons c s =>
      rw [dropEndTag?, lowerAscii, List.map_cons, List.cons_prefix_cons]
      split
      · next same => rw [ih, lowerAscii, and_iff_right same.symm]
      · next other => simp [Ne.symm other]

/-- An end tag stands in a text where its small letters stand in the small letters of the text. -/
theorem hasEndTag_iff {name s : List Char} (filled : name ≠ []) :
    hasEndTag name s = true ↔ name <:+: lowerAscii s := by
  induction s with
  | nil => simpa [hasEndTag, lowerAscii] using filled
  | cons c s ih =>
    rw [hasEndTag, Bool.or_eq_true, isSome_dropEndTag?_iff, ih, lowerAscii, List.map_cons,
      List.infix_cons_iff]
    rfl

end Markup.Lexeme

namespace Bundle
open Text Markup

/-! ### End tags -/

theorem caseless_eq_toLower {c : Char} (short : c.toLower ≠ '\u017f') :
    caseless c = c.toLower := by
  rw [caseless, if_neg]
  rintro rfl
  exact short rfl

theorem eq_angle_of_toLower {c : Char} (angle : '<' = c.toLower) : c = '<' := by
  simpa [← angle] using (Lexeme.toLower_eq_angle c).symm

theorem eq_angle_of_caseless {c : Char} (angle : '<' = caseless c) : c = '<' := by
  rw [caseless] at angle
  split at angle
  · cases angle
  · exact eq_angle_of_toLower angle

/-- A text of which each end tag of a script has got a backslash keeps all its characters. -/
theorem sublist_openTags (s : List Char) : s.Sublist (openTags s) := by
  induction s with
  | nil => exact List.Sublist.slnil
  | cons c s ih =>
    rw [openTags]
    split
    · next found =>
      rw [eq_angle_of_caseless (List.cons_prefix_cons.mp (startsWith_iff.mp found)).1]
      exact (ih.cons _).cons_cons _
    · exact ih.cons_cons c

/-- What starts an opened text, and holds no angle bracket, starts the text itself. -/
theorem prefix_of_openTags {p s : List Char} (plain : '<' ∉ p) (short : '\u017f' ∉ p)
    (start : p <+: lowerAscii (openTags s)) : p <+: s.map caseless := by
  induction p generalizing s with
  | nil => exact List.nil_prefix
  | cons a p ih =>
    obtain ⟨noAngle, plain⟩ := not_or.mp (mt List.mem_cons.mpr plain)
    obtain ⟨noLong, short⟩ := not_or.mp (mt List.mem_cons.mpr short)
    cases s with
    | nil => exact start
    | cons c s =>
      rw [openTags] at start
      split at start
      · exact absurd (List.cons_prefix_cons.mp start).1.symm noAngle
      · obtain ⟨same, start⟩ := List.cons_prefix_cons.mp start
        rw [List.map_cons, caseless_eq_toLower (same ▸ Ne.symm noLong), ← same]
        exact List.cons_prefix_cons.mpr ⟨rfl, ih plain short start⟩

/-- No end tag of a script is left, and opening one makes no other. -/
theorem no_endTag_openTags (s : List Char) :
    ¬ "</script".toList <:+: lowerAscii (openTags s) := by
  change ¬ '<' :: '/' :: "script".toList <:+: lowerAscii (openTags s)
  induction s with
  | nil => decide
  | cons c s ih =>
    rw [openTags]
    split
    · intro found
      -- the backslash stands between the two first characters of an end tag
      rcases List.infix_cons_iff.mp found with here | later
      · cases (List.cons_prefix_cons.mp (List.cons_prefix_cons.mp here).2).1
      · rcases List.infix_cons_iff.mp later with here | later
        · cases (List.cons_prefix_cons.mp here).1
        · exact ih later
    · next missing =>
      intro found
      rcases List.infix_cons_iff.mp found with here | later
      · obtain ⟨angle, rest⟩ := List.cons_prefix_cons.mp here
        obtain rfl := eq_angle_of_toLower angle
        refine missing (startsWith_iff.mpr (List.cons_prefix_cons.mpr ⟨rfl, ?_⟩))
        exact prefix_of_openTags (by decide) (by decide) rest
      · exact ih later

/-! ### The whole script -/

/-- The script before its end tags are opened: what has been assembled, in its short form if there
is one. -/
def draft (minify : Option (String → Option String)) (modules : List ClientModule)
    (instances : List ClientInstance) : String :=
  let whole := assemble ((modules.map fun m => trimmed m.helpers).filter (!·.isEmpty))
    (distinct (modules.flatMap (·.imports))) instances
  (minify.bind (· whole)).getD whole

section
variable {minify : Option (String → Option String)} {modules : List ClientModule}
  {instances : List ClientInstance} {b : Bundle} {logs : List LogEntry}

theorem source_eq (made : ofInstances minify modules instances = some (b, logs)) :
    b.source.toList = openTags (draft minify modules instances).toList := by
  rw [ofInstances] at made
  split at made
  · cases made
  · cases minify with
    | none =>
      simp only [Option.some.injEq, Prod.mk.injEq] at made
      rw [← made.1]
      exact String.toList_ofList
    | some shorten =>
      simp only at made
      rw [draft, Option.bind_some]
      split at made
      · next short =>
        simp only [Option.some.injEq, Prod.mk.injEq] at made
        rw [← made.1, short]
        exact String.toList_ofList
      · next failed =>
        simp only [Option.some.injEq, Prod.mk.injEq] at made
        rw [← made.1, failed]
        exact String.toList_ofList

end

/-! ### Reading it back -/

/-- An element of scripts around a text. -/
def enclosed (source : String) : Markup.Tree :=
  .node (.element ⟨"script", []⟩) (if source = "" then [] else [.node (.text source) []])

theorem textContent_enclosed (source : String) : (enclosed source).textContent = source := by
  rw [enclosed]
  split
  · next empty =>
    rw [empty]
    decide
  · exact String.empty_append

theorem html_enclosed (source : String) :
    (Markup.Tree.node .root [enclosed source]).html = "<script>" ++ source ++ "</script>" := by
  rw [enclosed]
  split
  · next empty =>
    rw [empty]
    decide
  · refine String.toList_injective ?_
    have filled : (Element.mk "script" []).isVoid = false := by decide
    simp [Tree.html, Tree.write, Tree.writeAll, Tree.writeStartTag, Tree.writeEndTag, filled]

theorem requoted_enclosed (source : String) : (enclosed source).requoted = enclosed source := by
  rw [enclosed]
  split
  · rfl
  · rfl

/-- Markup that encloses a text without an end tag of a script is read as one element of scripts. -/
theorem ofSource_enclosed {rules : List IgnoreRule} {source : String}
    (stays : Element.Stays rules ⟨"script", []⟩)
    (missing : Lexeme.hasEndTag "</script".toList source.toList = false) :
    Tree.ofSource rules ("<script>" ++ source ++ "</script>") = .node .root [enclosed source] := by
  have plain : Builder.Plain rules ⟨"script", []⟩ := by
    have canonical : Element.Canonical ⟨"script", []⟩ := by decide
    exact ⟨canonical.plain.legible, canonical.plain.separated, stays⟩
  have held : Tree.Enclosed ⟨"script", []⟩
      (if source = "" then [] else [.node (.text source) []]) := by
    split
    · trivial
    · next filled => exact ⟨filled, missing⟩
  have shaped : Tree.ShapedAll (Lexeme.idle ·.toList = true) (Builder.Plain rules)
      [enclosed source] := ⟨⟨plain, held⟩, trivial⟩
  rw [← html_enclosed, Tree.ofSource_html shaped (List.isChain_singleton _)]
  rw [Tree.requoted, Tree.requotedAll, Tree.requotedAll, requoted_enclosed]
  rfl

/-- The script of a page closes no element of scripts, and markup that encloses it is read as one
such element with the script as its text. Nothing of the script is lost on the way. -/
theorem source_read_back {minify : Option (String → Option String)} {modules : List ClientModule}
    {instances : List ClientInstance} {b : Bundle} {logs : List LogEntry}
    (made : ofInstances minify modules instances = some (b, logs)) :
    (draft minify modules instances).toList.Sublist b.source.toList ∧
    ¬ "</script".toList <:+: lowerAscii b.source.toList ∧
    ∀ rules, Element.Stays rules ⟨"script", []⟩ → ∃ ts,
      Tree.ofSource rules ("<script>" ++ b.source ++ "</script>") =
        .node .root [.node (.element ⟨"script", []⟩) ts] ∧
      (Markup.Tree.node (.element ⟨"script", []⟩) ts).textContent = b.source := by
  have closes : ¬ "</script".toList <:+: lowerAscii b.source.toList :=
    source_eq made ▸ no_endTag_openTags _
  have missing : Lexeme.hasEndTag "</script".toList b.source.toList = false := by
    rwa [← Bool.not_eq_true, Lexeme.hasEndTag_iff (by decide)]
  exact ⟨source_eq made ▸ sublist_openTags _, closes, fun rules stays =>
    ⟨_, ofSource_enclosed stays missing, textContent_enclosed b.source⟩⟩

/-- A behavior that ends a script in parts, which a short form may join. -/
def closer : ClientInstance where
  context := "c0"
  template := "x-closer"
  source := "script() \x7b return '</scr' + 'ipt>'; \x7d"
  values := []
  refs := []

theorem closer_read_back :
    let minify := fun _ : String => some "a='</scr</Script>';b='</\u017fcript>'"
    let b : Bundle := ⟨"a='</scr<\\/Script>';b='<\\/\u017fcript>'", false, true⟩
    ofInstances (some minify) [] [closer] = some (b, []) ∧
    ¬ "</script".toList <:+: lowerAscii b.source.toList ∧
    ∃ ts, Tree.ofSource [] ("<script>" ++ b.source ++ "</script>") =
        .node .root [.node (.element ⟨"script", []⟩) ts] ∧
      (Markup.Tree.node (.element ⟨"script", []⟩) ts).textContent = b.source := by
  intro minify b
  have made : ofInstances (some minify) [] [closer] = some (b, []) := by decide
  obtain ⟨-, closes, read⟩ := source_read_back made
  exact ⟨made, closes, read [] rfl⟩

end Bundle
end Stencil
