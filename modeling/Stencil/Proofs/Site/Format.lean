import Stencil.Component.Library
import Stencil.Proofs.Files.Lexical
import Stencil.Site.Config
/-!
The format of a page and the extension of its file. Files are picked by their extension in any ASCII
case; the format wants it in small letters. Both agree just on the paths that end in an extension
written as the format wants it, and on those that are no Markdown.
-/
namespace Stencil

/-- Extensions of pages in Markdown. -/
def markdownExtensions : List String := ["md", "markdown"]

theorem isWord_of_mem {ext : String} (mem : ext ∈ markdownExtensions) :
    IsWord ext ∧ 2 ≤ ext.toList.length := by
  rcases List.mem_pair.mp mem with rfl | rfl
  · exact ⟨by simp [IsWord], by decide⟩
  · exact ⟨by simp [IsWord], by decide⟩

namespace Markup.Page

/-- The format that the path of a record tells. -/
def formatOf (path : FilePath) : PageFormat :=
  (path.extension?.bind PageFormat.ofExtension?).getD .html

/-- A page of the path is read in the format, whatever it holds. -/
def ReadAs (format : PageFormat) (path : FilePath) : Prop :=
  ∀ rules content, ofRecord rules ⟨path, content⟩ = ofSource rules format content

/-- The formats differ: Markdown makes a paragraph of a letter. -/
theorem ofSource_ne : ofSource [] .html "a" ≠ ofSource [] .markdown "a" := by
  intro same
  have counts := congrArg (·.toOption.map (·.document.tree.children.length)) same
  revert counts
  decide +kernel

theorem readAs_iff {format : PageFormat} {path : FilePath} :
    ReadAs format path ↔ formatOf path = format := by
  constructor
  · intro reads
    have same : ofSource [] (formatOf path) "a" = ofSource [] format "a" := reads [] "a"
    cases told : formatOf path <;> cases format
    · rfl
    · rw [told] at same
      exact absurd same ofSource_ne
    · rw [told] at same
      exact absurd same.symm ofSource_ne
    · rfl
  · rintro rfl rules content
    rfl

theorem ofExtension?_eq_markdown_iff {ext : String} :
    PageFormat.ofExtension? ext = some .markdown ↔ ext ∈ markdownExtensions := by
  rw [PageFormat.ofExtension?]
  split
  · next html =>
    refine ⟨nofun, fun mem => ?_⟩
    have apart : ∀ x ∈ markdownExtensions, ["html", "htm"].contains x = false := by decide
    rw [apart ext mem] at html
    cases html
  · split
    · next mem => exact iff_of_true rfl (List.contains_iff_mem.mp mem)
    · next other => exact iff_of_false nofun fun mem => other (List.contains_iff_mem.mpr mem)

theorem formatOf_eq_markdown_iff {path : FilePath} :
    formatOf path = .markdown ↔ ∃ ext ∈ markdownExtensions, path.extension? = some ext := by
  rw [formatOf]
  constructor
  · intro told
    cases own : path.extension? with
    | none => rw [own] at told; cases told
    | some ext =>
      rw [own, Option.bind_some] at told
      cases format : PageFormat.ofExtension? ext with
      | none => rw [format] at told; cases told
      | some f =>
        rw [format, Option.getD_some] at told
        rw [told] at format
        exact ⟨ext, ofExtension?_eq_markdown_iff.mp format, rfl⟩
  · rintro ⟨ext, mem, own⟩
    rw [own, Option.bind_some, ofExtension?_eq_markdown_iff.mpr mem, Option.getD_some]

/-- A path is read as Markdown when it ends in an extension as the format wants it. -/
theorem readAs_markdown_iff (p : String) :
    ReadAs .markdown (.ofText p) ↔ ∃ ext ∈ markdownExtensions, EndsIn ext p := by
  rw [readAs_iff, formatOf_eq_markdown_iff]
  exact exists_congr fun ext => and_congr_right fun mem =>
    extension?_ofText_iff (isWord_of_mem mem).1

/-- Such a path has an extension of Markdown for the search of files as well. -/
theorem hasExtension_of_readAs {p : String} (reads : ReadAs .markdown (.ofText p)) :
    Path.hasExtension p markdownExtensions = true := by
  obtain ⟨ext, mem, ends⟩ := (readAs_markdown_iff p).mp reads
  obtain ⟨word, long⟩ := isWord_of_mem mem
  exact Path.hasExtension_iff.mpr ⟨ext, Path.extension?_of_endsIn word long ends, ext, mem, rfl⟩

/-- The format and the extension in any case tell the same of a path just when it is no path in
Markdown, or ends in the extension in small letters behind a character of the name. -/
theorem formats_agree_iff (p : String) :
    (ReadAs .markdown (.ofText p) ↔ Path.hasExtension p markdownExtensions = true) ↔
      (Path.hasExtension p markdownExtensions = true → ∃ ext ∈ markdownExtensions, EndsIn ext p) := by
  rw [← readAs_markdown_iff]
  exact ⟨Iff.mpr, fun reads => ⟨hasExtension_of_readAs, reads⟩⟩

/-- A page whose extension is in capitals is picked and read as HTML. -/
theorem capitals_read_as_html :
    Path.hasExtension "README.MD" pageExtensions = true ∧
      Path.hasExtension "README.MD" markdownExtensions = true ∧
      ReadAs .html (.ofText "README.MD") ∧ ¬ ReadAs .markdown (.ofText "README.MD") := by
  have told : formatOf (.ofText "README.MD") = .html := by decide +kernel
  refine ⟨by decide +kernel, by decide +kernel, readAs_iff.mpr told, fun reads => ?_⟩
  rw [readAs_iff, told] at reads
  cases reads

end Markup.Page

end Stencil
