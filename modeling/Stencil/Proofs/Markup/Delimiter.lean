import Mathlib.Data.List.TakeWhile
import Stencil.Markup.Frontmatter
import Stencil.Proofs.Files.Place
/-!
The block of document values, line by line. The block is searched for by three hyphens at the start of
a text and behind a line break, whatever follows them there. A reader of lines that takes a line for a
delimiter only when nothing but blanks follows its hyphens finds the same block just when the lines
that the search stops at are delimiters.
-/
namespace Stencil

namespace Text

/-- Lines, each with the line break before it. -/
def broken (ls : List (List Char)) : List Char := ls.flatMap ('\n' :: ·)

/-- Lines with a line break between them. -/
def unlines (ls : List (List Char)) : List Char := List.intercalate ['\n'] ls

variable {p r l s x y : List Char} {ls : List (List Char)}

theorem broken_splitOn (s : List Char) : broken (splitOn '\n' s) = '\n' :: s := by
  induction s using split_induction '\n' with
  | whole s absent => rw [splitOn_of_not_mem absent]; simp [broken]
  | cut a b absent ih =>
    rw [splitOn_append absent, broken, List.flatMap_cons]
    change '\n' :: a ++ broken (splitOn '\n' b) = _
    rw [ih, List.cons_append]

theorem broken_cons_eq (l : List Char) (ls : List (List Char)) :
    broken (l :: ls) = '\n' :: unlines (l :: ls) := by
  induction ls generalizing l with
  | nil => simp [broken, unlines]
  | cons k ls ih =>
    rw [unlines, List.intercalate_cons_cons, broken, List.flatMap_cons]
    change '\n' :: l ++ broken (k :: ls) = _
    rw [ih, unlines, List.cons_append, List.append_assoc, List.singleton_append]

/-- The line break before the first line is a blank. -/
theorem trimStart_broken (ls : List (List Char)) : trimStart (broken ls) = trimStart (unlines ls) := by
  cases ls with
  | nil => rfl
  | cons l ls =>
    rw [broken_cons_eq, trimStart, List.dropWhile_cons_of_pos (by decide), trimStart]

theorem trimStart_append_of_blank (blank : x.all isBlank = true) (y : List Char) :
    trimStart (x ++ y) = trimStart y :=
  List.dropWhile_append_of_pos (List.all_eq_true.mp blank)

theorem trimStart_append_of_not_blank (solid : x.all isBlank = false) (y : List Char) :
    trimStart (x ++ y) = trimStart x ++ y := by
  rw [trimStart, List.dropWhile_append]
  split
  · next none =>
    rw [List.isEmpty_iff, List.dropWhile_eq_nil_iff, ← List.all_eq_true, solid] at none
    cases none
  · rfl

/-- The first line that is not blank decides where a text starts. -/
theorem trimStart_lines (ls : List (List Char)) : trimStart (broken ls) =
    match ls.dropWhile (·.all isBlank) with
    | [] => []
    | first :: rest => trimStart first ++ broken rest := by
  induction ls with
  | nil => rfl
  | cons l ls ih =>
    rw [broken, List.flatMap_cons, List.cons_append, trimStart,
      List.dropWhile_cons_of_pos (by decide), List.dropWhile_cons]
    change trimStart (l ++ broken ls) = _
    cases blank : l.all isBlank with
    | true => rw [trimStart_append_of_blank blank, ih]; rfl
    | false => rw [trimStart_append_of_not_blank blank]; rfl

/-! ### Searching at the starts of lines -/

theorem dropPrefix?_append_broken (line : '\n' ∉ p) (l : List Char) (ls : List (List Char)) :
    dropPrefix? p (l ++ broken ls) = (dropPrefix? p l).map (· ++ broken ls) := by
  induction p generalizing l with
  | nil => rfl
  | cons c p ih =>
    rw [List.mem_cons, not_or] at line
    cases l with
    | nil =>
      rw [List.nil_append]
      cases ls with
      | nil => rfl
      | cons k ls => simp only [broken_cons_eq, dropPrefix?, if_neg (Ne.symm line.1), Option.map_none]
    | cons d l =>
      rw [List.cons_append, dropPrefix?, dropPrefix?]
      split
      · exact ih line.2 l
      · rfl

theorem cut?_of_not_mem (absent : '\n' ∉ x) : cut? ('\n' :: p) x = none := by
  induction x with
  | nil => rfl
  | cons d x ih =>
    rw [List.mem_cons, not_or] at absent
    rw [cut?, dropPrefix?, if_neg absent.1, ih absent.2]
    rfl

/-- Up to a line break nothing is found that starts with one. -/
theorem cut?_append_break (absent : '\n' ∉ x) (s : List Char) : cut? ('\n' :: p) (x ++ '\n' :: s) =
    (cut? ('\n' :: p) ('\n' :: s)).map fun (a, b) => (x ++ a, b) := by
  induction x with
  | nil => simp
  | cons d x ih =>
    rw [List.mem_cons, not_or] at absent
    rw [List.cons_append, cut?, dropPrefix?, if_neg absent.1, ih absent.2, Option.map_map]
    rfl

theorem cut?_break (line : '\n' ∉ p) (l : List Char) (ls : List (List Char)) :
    cut? ('\n' :: p) ('\n' :: (l ++ broken ls)) =
      match dropPrefix? p l with
      | some r => some ([], r ++ broken ls)
      | none => (cut? ('\n' :: p) (l ++ broken ls)).map fun (a, b) => ('\n' :: a, b) := by
  rw [cut?, dropPrefix?, if_pos rfl, dropPrefix?_append_broken line]
  cases dropPrefix? p l with
  | none => rfl
  | some r => rfl

/-- Behind a line break a pattern is not found when no line starts with it. -/
theorem cut?_lines_eq_none (line : '\n' ∉ p) (plain : ∀ l ∈ ls, '\n' ∉ l)
    (other : ∀ l ∈ ls, dropPrefix? p l = none) (absent : '\n' ∉ x) :
    cut? ('\n' :: p) (x ++ broken ls) = none := by
  induction ls generalizing x with
  | nil => rw [broken, List.flatMap_nil, List.append_nil]; exact cut?_of_not_mem absent
  | cons l ls ih =>
    obtain ⟨own, others⟩ := List.forall_mem_cons.mp plain
    obtain ⟨miss, misses⟩ := List.forall_mem_cons.mp other
    have here : broken (l :: ls) = '\n' :: (l ++ broken ls) := rfl
    rw [here, cut?_append_break absent, cut?_break line, miss, ih others misses own]
    rfl

/-- Behind a line break a pattern is found in the first line that starts with it. -/
theorem cut?_lines_eq_some {before after : List (List Char)} (line : '\n' ∉ p)
    (plain : ∀ l ∈ before, '\n' ∉ l) (other : ∀ l ∈ before, dropPrefix? p l = none)
    (found : dropPrefix? p l = some r) (absent : '\n' ∉ x) :
    cut? ('\n' :: p) (x ++ broken (before ++ l :: after)) =
      some (x ++ broken before, r ++ broken after) := by
  induction before generalizing x with
  | nil =>
    have here : broken (l :: after) = '\n' :: (l ++ broken after) := rfl
    rw [List.nil_append, here, cut?_append_break absent, cut?_break line, found]
    rfl
  | cons k before ih =>
    obtain ⟨own, others⟩ := List.forall_mem_cons.mp plain
    obtain ⟨miss, misses⟩ := List.forall_mem_cons.mp other
    have here : broken (k :: before ++ l :: after) = '\n' :: (k ++ broken (before ++ l :: after)) :=
      rfl
    rw [here, cut?_append_break absent, cut?_break line, miss, ih others misses own]
    rfl

/-- A first part that is found ends there where all before it is passed over. -/
theorem takeWhile_first {P : List Char → Bool} {before after : List (List Char)}
    (pass : ∀ k ∈ before, P k = false) (stop : P l = true) :
    (before ++ l :: after).takeWhile (!P ·) = before ∧
      (before ++ l :: after).dropWhile (!P ·) = l :: after := by
  have go : ∀ k ∈ before, (!P k) = true := fun k mem => by rw [pass k mem]; rfl
  have halt : ¬ (!P l) = true := by rw [stop]; exact Bool.false_ne_true
  rw [List.takeWhile_append_of_pos go, List.dropWhile_append_of_pos go,
    List.takeWhile_cons_of_neg (p := (!P ·)) halt, List.dropWhile_cons_of_neg (p := (!P ·)) halt,
    List.append_nil]
  exact ⟨rfl, rfl⟩

end Text

namespace Markup.Frontmatter
open Text

/-- Three hyphens. -/
def hyphens : List Char := "---".toList

/-- The line is three hyphens, up to blanks at its end. -/
def isDelimiter (line : List Char) : Bool := trimEnd line == hyphens

/-- The source cut at its block by its lines. The block opens at the first line that is not blank and
closes at the next delimiter. -/
def splitByLines (source : String) : Except FrontmatterError (Option (String × String)) :=
  match (splitOn '\n' source.toList).dropWhile (·.all isBlank) with
  | [] => .ok none
  | first :: rest =>
    if isDelimiter first then
      match rest.dropWhile (!isDelimiter ·) with
      | [] => .error .unclosed
      | _ :: after =>
        .ok (some (String.ofList (trim (unlines (rest.takeWhile (!isDelimiter ·)))),
          String.ofList (trimStart (unlines after))))
    else .ok none

/-- The values and the content of a source that is cut at its block. -/
def withValues {Values : Type} (empty : Values) (read : String → Option Values) (source : String) :
    Option (String × String) → Except FrontmatterError (Option Values × String)
  | none => .ok (none, source)
  | some (block, rest) =>
    if block.isEmpty then .ok (some empty, rest)
    else
      match read block with
      | some values => .ok (some values, rest)
      | none => .error .invalidYaml

/-- The values of a block that the lines tell, and the content after it. -/
def extractByLines {Values : Type} (empty : Values) (read : String → Option Values)
    (source : String) : Except FrontmatterError (Option Values × String) :=
  (splitByLines source).bind (withValues empty read source)

/-- The lines that the search for a block stops at are delimiters: the first line that is not blank,
if hyphens start it, and the first line after it that hyphens start. -/
def Delimited (source : String) : Prop :=
  ∀ first rest, (splitOn '\n' source.toList).dropWhile (·.all isBlank) = first :: rest →
    startsWith hyphens (trimStart first) = true →
      isDelimiter first = true ∧
        ∀ line ∈ rest.find? (startsWith hyphens), isDelimiter line = true

theorem extract_eq {Values : Type} (empty : Values) (read : String → Option Values)
    (source : String) :
    extract empty read source = (split source).bind (withValues empty read source) := by
  rw [extract]
  cases split source with
  | error e => rfl
  | ok cut =>
    rcases cut with _ | ⟨block, rest⟩
    · rfl
    · change (if block.isEmpty then _ else _) = withValues empty read source (some (block, rest))
      rw [withValues]
      split
      · rfl
      · cases read block <;> rfl

/-! ### Delimiters -/

theorem isDelimiter_iff {line : List Char} :
    isDelimiter line = true ↔ ∃ r, dropPrefix? hyphens line = some r ∧ r.all isBlank = true := by
  rw [isDelimiter, beq_iff_eq]
  constructor
  · intro same
    have parts := List.takeWhile_append_dropWhile (p := isBlank) (l := line.reverse)
    have whole : line = hyphens ++ (line.reverse.takeWhile isBlank).reverse := by
      rw [← same, trimEnd, ← List.reverse_append, parts, List.reverse_reverse]
    refine ⟨_, by rw [whole]; exact dropPrefix?_append _ _, List.all_eq_true.mpr fun c mem => ?_⟩
    exact List.mem_takeWhile_imp (List.mem_reverse.mp mem)
  · rintro ⟨r, found, blank⟩
    have go : ∀ c ∈ r.reverse, isBlank c = true := fun c mem =>
      List.all_eq_true.mp blank c (List.mem_reverse.mp mem)
    rw [eq_append_of_dropPrefix? found, trimEnd, List.reverse_append,
      List.dropWhile_append_of_pos go]
    rfl

/-- A delimiter starts with its hyphens. -/
theorem trimStart_of_isDelimiter {line : List Char} (delimiter : isDelimiter line = true) :
    trimStart line = line := by
  obtain ⟨r, found, -⟩ := isDelimiter_iff.mp delimiter
  rw [eq_append_of_dropPrefix? found]
  exact trimStart_of_not_blank (by decide)

theorem startsWith_of_isDelimiter {line : List Char} (delimiter : isDelimiter line = true) :
    startsWith hyphens line = true := by
  obtain ⟨r, found, -⟩ := isDelimiter_iff.mp delimiter
  rw [startsWith, found]
  rfl

theorem isDelimiter_eq_false {line : List Char} (other : startsWith hyphens line = false) :
    isDelimiter line = false := by
  by_contra delimiter
  rw [Bool.not_eq_false] at delimiter
  rw [startsWith_of_isDelimiter delimiter] at other
  cases other

/-- A line that is none is none behind its blanks either. -/
theorem isDelimiter_eq_false_of_trimStart {line : List Char}
    (other : dropPrefix? hyphens (trimStart line) = none) : isDelimiter line = false := by
  by_contra delimiter
  rw [Bool.not_eq_false] at delimiter
  have starts := startsWith_of_isDelimiter delimiter
  rw [startsWith, ← trimStart_of_isDelimiter delimiter, other] at starts
  cases starts

/-- What follows the hyphens of a line that is no delimiter is not blank. -/
theorem all_isBlank_eq_false {line r : List Char} (found : dropPrefix? hyphens line = some r)
    (other : isDelimiter line = false) : r.all isBlank = false := by
  by_contra blank
  rw [Bool.not_eq_false] at blank
  rw [isDelimiter_iff.mpr ⟨r, found, blank⟩] at other
  cases other

theorem all_isBlank_of_isDelimiter {line r : List Char}
    (found : dropPrefix? hyphens line = some r) (delimiter : isDelimiter line = true) :
    r.all isBlank = true := by
  obtain ⟨r', found', blank⟩ := isDelimiter_iff.mp delimiter
  rw [found] at found'
  cases found'
  exact blank

/-! ### What the search finds, told by lines -/

section
variable {source : String} {first l x r : List Char} {before rest after : List (List Char)}

theorem trimStart_source (source : String) : trimStart source.toList =
    match (splitOn '\n' source.toList).dropWhile (·.all isBlank) with
    | [] => []
    | first :: rest => trimStart first ++ broken rest := by
  rw [← trimStart_lines, broken_splitOn, trimStart, trimStart, List.dropWhile_cons_of_pos (by decide)]

theorem split_of_blank (blank : (splitOn '\n' source.toList).dropWhile (·.all isBlank) = []) :
    split source = .ok none := by
  rw [split, trimStart_source, blank]
  rfl

theorem split_of_other
    (lines : (splitOn '\n' source.toList).dropWhile (·.all isBlank) = first :: rest)
    (other : dropPrefix? hyphens (trimStart first) = none) : split source = .ok none := by
  have line : '\n' ∉ hyphens := by decide
  rw [split, trimStart_source, lines]
  dsimp only
  rw [show "---".toList = hyphens from rfl, dropPrefix?_append_broken line, other]
  rfl

theorem split_of_opened
    (lines : (splitOn '\n' source.toList).dropWhile (·.all isBlank) = first :: rest)
    (opened : dropPrefix? hyphens (trimStart first) = some x) :
    split source = match cut? ('\n' :: hyphens) (x ++ broken rest) with
      | none => .error .unclosed
      | some (block, after) =>
        .ok (some (String.ofList (trim block), String.ofList (trimStart after))) := by
  have line : '\n' ∉ hyphens := by decide
  rw [split, trimStart_source, lines]
  dsimp only
  rw [show "---".toList = hyphens from rfl, dropPrefix?_append_broken line, opened]
  rfl

/-- Neither the lines nor what is cut off one of them hold a line break. -/
theorem plain_lines
    (lines : (splitOn '\n' source.toList).dropWhile (·.all isBlank) = first :: rest)
    (opened : dropPrefix? hyphens (trimStart first) = some x) :
    '\n' ∉ x ∧ ∀ l ∈ rest, '\n' ∉ l := by
  have plain : ∀ l ∈ first :: rest, '\n' ∉ l := by
    intro l mem
    rw [← lines] at mem
    exact not_mem_splitOn ((List.dropWhile_sublist _).subset mem)
  obtain ⟨own, others⟩ := List.forall_mem_cons.mp plain
  refine ⟨fun mem => own ?_, others⟩
  refine (List.dropWhile_sublist isBlank).subset ?_
  change '\n' ∈ trimStart first
  rw [eq_append_of_dropPrefix? opened]
  exact List.mem_append_right _ mem

theorem split_of_unclosed
    (lines : (splitOn '\n' source.toList).dropWhile (·.all isBlank) = first :: rest)
    (opened : dropPrefix? hyphens (trimStart first) = some x)
    (none : ∀ l ∈ rest, startsWith hyphens l = false) : split source = .error .unclosed := by
  obtain ⟨absent, plain⟩ := plain_lines lines opened
  have other : ∀ l ∈ rest, dropPrefix? hyphens l = Option.none := fun l mem => by
    simpa [startsWith] using none l mem
  rw [split_of_opened lines opened, cut?_lines_eq_none (by decide) plain other absent]

theorem split_of_closed
    (lines : (splitOn '\n' source.toList).dropWhile (·.all isBlank) =
      first :: (before ++ l :: after))
    (opened : dropPrefix? hyphens (trimStart first) = some x)
    (pass : ∀ k ∈ before, startsWith hyphens k = false) (closed : dropPrefix? hyphens l = some r) :
    split source = .ok (some (String.ofList (trim (x ++ broken before)),
      String.ofList (trimStart (r ++ broken after)))) := by
  obtain ⟨absent, plain⟩ := plain_lines lines opened
  have other : ∀ k ∈ before, dropPrefix? hyphens k = none := fun k mem => by
    simpa [startsWith] using pass k mem
  have plain' : ∀ k ∈ before, '\n' ∉ k := fun k mem => plain k (List.mem_append_left _ mem)
  rw [split_of_opened lines opened, cut?_lines_eq_some (by decide) plain' other closed absent]

/-! ### What the lines tell -/

theorem splitByLines_of_other
    (lines : (splitOn '\n' source.toList).dropWhile (·.all isBlank) = first :: rest)
    (other : isDelimiter first = false) : splitByLines source = .ok none := by
  rw [splitByLines, lines]
  dsimp only
  rw [other]
  rfl

theorem splitByLines_of_unclosed
    (lines : (splitOn '\n' source.toList).dropWhile (·.all isBlank) = first :: rest)
    (opened : isDelimiter first = true) (none : ∀ l ∈ rest, isDelimiter l = false) :
    splitByLines source = .error .unclosed := by
  have pass : rest.dropWhile (!isDelimiter ·) = [] :=
    List.dropWhile_eq_nil_iff.mpr fun l mem => by rw [none l mem]; rfl
  rw [splitByLines, lines]
  dsimp only
  rw [opened, pass]
  rfl

theorem splitByLines_of_closed
    (lines : (splitOn '\n' source.toList).dropWhile (·.all isBlank) =
      first :: (before ++ l :: after))
    (opened : isDelimiter first = true) (pass : ∀ k ∈ before, isDelimiter k = false)
    (closed : isDelimiter l = true) :
    splitByLines source = .ok (some (String.ofList (trim (unlines before)),
      String.ofList (trimStart (unlines after)))) := by
  obtain ⟨taken, left⟩ := takeWhile_first pass closed
  rw [splitByLines, lines]
  dsimp only
  rw [opened, taken, left]
  rfl

end

/-- Where the search stops at delimiters, it finds what the lines tell. -/
theorem split_eq_splitByLines {source : String} (delimited : Delimited source) :
    split source = splitByLines source := by
  cases lines : (splitOn '\n' source.toList).dropWhile (·.all isBlank) with
  | nil =>
    rw [split_of_blank lines, splitByLines, lines]
  | cons first rest =>
    cases opened : dropPrefix? hyphens (trimStart first) with
    | none =>
      rw [split_of_other lines opened,
        splitByLines_of_other lines (isDelimiter_eq_false_of_trimStart opened)]
    | some x =>
      obtain ⟨delimiter, closes⟩ := delimited first rest lines (by rw [startsWith, opened]; rfl)
      have blank : x.all isBlank = true := by
        rw [trimStart_of_isDelimiter delimiter] at opened
        exact all_isBlank_of_isDelimiter opened delimiter
      cases found : rest.find? (startsWith hyphens) with
      | none =>
        have none : ∀ l ∈ rest, startsWith hyphens l = false := by
          simpa using List.find?_eq_none.mp found
        rw [split_of_unclosed lines opened none,
          splitByLines_of_unclosed lines delimiter fun l mem => isDelimiter_eq_false (none l mem)]
      | some l =>
        obtain ⟨-, before, after, rfl, pass⟩ := List.find?_eq_some_iff_append.mp found
        have closed := closes l found
        obtain ⟨r, cut, blank'⟩ := isDelimiter_iff.mp closed
        have pass : ∀ k ∈ before, startsWith hyphens k = false := by simpa using pass
        rw [split_of_closed lines opened pass cut,
          splitByLines_of_closed lines delimiter (fun k mem => isDelimiter_eq_false (pass k mem))
            closed,
          trim, trimStart_append_of_blank blank, trimStart_broken,
          trimStart_append_of_blank blank', trimStart_broken, trim]

/-! ### Where the search stops elsewhere -/

section
variable {Values : Type} {empty : Values} {source : String} {first x l r : List Char}
  {before rest after : List (List Char)}

/-- When every block has values, a source with a block gives values and the content after it. -/
theorem bind_withValues (empty : Values) (source block content : String) :
    (Except.ok (some (block, content))).bind (withValues empty (fun _ => some empty) source) =
      .ok (some empty, content) := by
  change withValues empty (fun _ => some empty) source (some (block, content)) = _
  rw [withValues]
  exact ite_self _

/-- A source that the search finds opened is not one without a block. -/
theorem extract_ne_of_opened
    (lines : (splitOn '\n' source.toList).dropWhile (·.all isBlank) = first :: rest)
    (opened : dropPrefix? hyphens (trimStart first) = some x) :
    extract empty (fun _ => some empty) source ≠ .ok (none, source) := by
  rw [extract_eq, split_of_opened lines opened]
  cases cut? ('\n' :: hyphens) (x ++ broken rest) with
  | none => exact fun same => nomatch same
  | some cut =>
    obtain ⟨block, after⟩ := cut
    dsimp only
    rw [bind_withValues]
    exact fun same => nomatch same

/-- The content that starts inside a line is longer than the one behind a later line. -/
theorem trimStart_ne_of_later (solid : r.all isBlank = false) (before : List (List Char))
    (l : List Char) (after : List (List Char)) :
    trimStart (r ++ broken (before ++ l :: after)) ≠ trimStart (unlines after) := by
  have later : broken (before ++ l :: after) = broken before ++ '\n' :: (l ++ broken after) := by
    rw [broken, List.flatMap_append, List.flatMap_cons, List.cons_append]
    rfl
  have shorter := length_trimStart_le (broken after)
  intro same
  have lengths := congrArg List.length same
  rw [trimStart_append_of_not_blank solid, ← trimStart_broken, later] at lengths
  simp only [List.length_append, List.length_cons] at lengths
  omega

/-- A line that hyphens start and that is no delimiter closes the block for the search alone. -/
theorem extract_ne_of_closed
    (lines : (splitOn '\n' source.toList).dropWhile (·.all isBlank) =
      first :: (before ++ l :: rest))
    (opened : isDelimiter first = true) (pass : ∀ k ∈ before, startsWith hyphens k = false)
    (closed : startsWith hyphens l = true) (other : isDelimiter l = false) :
    extract empty (fun _ => some empty) source ≠
      extractByLines empty (fun _ => some empty) source := by
  obtain ⟨x, openedBy, -⟩ := isDelimiter_iff.mp opened
  rw [← trimStart_of_isDelimiter opened] at openedBy
  obtain ⟨r, cut⟩ := Option.isSome_iff_exists.mp closed
  rw [extract_eq, split_of_closed lines openedBy pass cut, extractByLines, bind_withValues]
  have passed : ∀ k ∈ before ++ [l], isDelimiter k = false := by
    intro k mem
    rcases List.mem_append.mp mem with mem | mem
    · exact isDelimiter_eq_false (pass k mem)
    · rw [List.mem_singleton.mp mem]; exact other
  have whole : before ++ l :: rest = (before ++ [l]) ++ rest := by
    rw [List.append_assoc, List.singleton_append]
  rw [whole] at lines
  cases found : rest.find? isDelimiter with
  | none =>
    have none : ∀ k ∈ rest, isDelimiter k = false := by
      simpa using List.find?_eq_none.mp found
    rw [splitByLines_of_unclosed lines opened fun k mem =>
      (List.mem_append.mp mem).elim (passed k) (none k)]
    exact fun same => nomatch same
  | some d =>
    obtain ⟨delimiter, mid, after, rfl, pass'⟩ := List.find?_eq_some_iff_append.mp found
    have pass' : ∀ k ∈ mid, isDelimiter k = false := by simpa using pass'
    rw [← List.append_assoc] at lines
    rw [splitByLines_of_closed lines opened
      (fun k mem => (List.mem_append.mp mem).elim (passed k) (pass' k)) delimiter, bind_withValues]
    intro same
    injection same with same
    injection same with _ same
    exact trimStart_ne_of_later (all_isBlank_eq_false cut other) mid d after
      (String.ofList_injective same)

end

/-- The search for a block reads it by its lines, whatever reads the values, just when the lines that
it stops at are delimiters. -/
theorem extract_by_lines_iff {Values : Type} (empty : Values) (source : String) :
    (∀ read, extract empty read source = extractByLines empty read source) ↔ Delimited source := by
  constructor
  · intro same first rest lines starts
    obtain ⟨x, opened⟩ := Option.isSome_iff_exists.mp starts
    have delimiter : isDelimiter first = true := by
      by_contra other
      rw [Bool.not_eq_true] at other
      refine extract_ne_of_opened lines opened ((same fun _ => some empty).trans ?_)
      rw [extractByLines, splitByLines_of_other lines other]
      rfl
    refine ⟨delimiter, fun l found => ?_⟩
    by_contra other
    rw [Bool.not_eq_true] at other
    obtain ⟨closed, before, after, rfl, pass⟩ := List.find?_eq_some_iff_append.mp found
    have pass : ∀ k ∈ before, startsWith hyphens k = false := by simpa using pass
    exact extract_ne_of_closed lines delimiter pass closed other (same _)
  · intro delimited read
    rw [extract_eq, split_eq_splitByLines delimited, extractByLines]

/-- A longer rule at the top of a page opens a block that nothing closes. -/
theorem rule_opens_block :
    extract () (fun _ => none) "----\n\n# Notes\n" = .error .unclosed ∧
      extractByLines () (fun _ => none) "----\n\n# Notes\n" = .ok (none, "----\n\n# Notes\n") :=
  ⟨by decide +kernel, by decide +kernel⟩

end Markup.Frontmatter
end Stencil
