import Mathlib.Data.List.Induction
import Stencil.Proofs.Files.Straight
/-!
Paths from the root taken apart by their text alone. The parent of a path is the path without its last
component, and the normal form of a path spells the place that its components lead to. Extensions read
from a path in two ways. The extension of a record is told by its text, in which backslashes part names;
the one of a file is told by its last component. Both are told by how the text of the path ends.
-/
namespace Stencil.Path

/-! ### The path above a path -/

theorem significant_le_length (ps : List String) : significant ps ≤ ps.length := by
  induction ps using List.reverseRecOn with
  | nil => exact Nat.le_refl 0
  | append_singleton ps last ih =>
    rw [significant_concat, List.length_append, List.length_singleton]
    split
    · exact Nat.le_refl _
    · exact Nat.le_succ_of_le ih

theorem trimParts_concat (ps : List String) (last : String) :
    trimParts (ps ++ [last]) =
      if (component? (ps.length == 0) last).isSome then ps ++ [last] else trimParts ps := by
  rw [trimParts, significant_concat]
  split
  · exact List.take_of_length_le (by simp)
  · exact List.take_append_of_le_length (significant_le_length ps)

/-- Of parts behind a slash nothing is left if none is a component; otherwise the last one that is
left is the last component. -/
theorem trimParts_slash (ps : List String) :
    (trimParts ("" :: ps) = [] ∧ ps.filterMap (component? false) = []) ∨
      ∃ before last c, trimParts ("" :: ps) = "" :: (before ++ [last]) ∧ before ++ [last] <+: ps ∧
        component? false last = some c ∧
        ps.filterMap (component? false) = before.filterMap (component? false) ++ [c] := by
  induction ps using List.reverseRecOn with
  | nil => exact .inl ⟨rfl, rfl⟩
  | append_singleton ps last ih =>
    have trimmed : trimParts ("" :: (ps ++ [last])) =
        if (component? false last).isSome then "" :: (ps ++ [last]) else trimParts ("" :: ps) :=
      trimParts_concat ("" :: ps) last
    rw [trimmed, List.filterMap_append]
    cases is : component? false last with
    | some c =>
      refine .inr ⟨ps, last, c, if_pos rfl, List.prefix_rfl, is, ?_⟩
      rw [List.filterMap_cons_some is, List.filterMap_nil]
    | none =>
      rw [List.filterMap_cons_none is, List.filterMap_nil, List.append_nil,
        if_neg (by simp)]
      rcases ih with ⟨trimmed, none⟩ | ⟨before, behind, c, trimmed, front, own, comps⟩
      · exact .inl ⟨trimmed, none⟩
      · exact .inr ⟨before, behind, c, trimmed, front.trans (List.prefix_append _ _), own, comps⟩

theorem parent?_slash (q : String) :
    (parts q = [] ∧ parent? ("/" ++ q) = none) ∨ (parts q ≠ [] ∧
      ∃ d, parent? ("/" ++ q) = some ("/" ++ d) ∧ parts d = (parts q).dropLast) := by
  have absolute : isAbsolute ("/" ++ q) := isAbsolute_iff.mpr ⟨q, rfl⟩
  rw [parent?, splitLast?, segments_slash]
  rcases trimParts_slash (segments q) with
    ⟨trimmed, none⟩ | ⟨before, last, c, trimmed, front, -, comps⟩
  · exact .inl ⟨none, by rw [trimmed]; rfl⟩
  · refine .inr ⟨by rw [parts, comps]; simp, ?_⟩
    have above : (parts q).dropLast = before.filterMap (component? false) := by
      rw [parts, comps, List.dropLast_concat]
    have reversed : ("" :: (before ++ [last])).reverse = last :: ("" :: before).reverse := by simp
    rw [trimmed, reversed, above]
    simp only [Option.map_some, List.reverse_reverse]
    rcases trimParts_slash before with
      ⟨trimmed, none⟩ | ⟨before', last', c', trimmed, front', is, comps'⟩
    · refine ⟨"", ?_, by rw [none, parts_empty]⟩
      rw [trimmed]
      dsimp only
      rw [if_pos absolute]
      rfl
    · refine ⟨ofSegments (before' ++ [last']), ?_, ?_⟩
      · rw [trimmed]
        exact congrArg some (String.intercalate_cons_of_ne_nil (by simp))
      · have absent : ∀ part ∈ before' ++ [last'], '/' ∉ part.toList := fun part mem =>
          not_mem_of_mem_segments (front.subset (List.mem_append_left _ (front'.subset mem)))
        rw [parts, segments_ofSegments_of_noSlash (by simp) absent, comps', List.filterMap_append,
          List.filterMap_cons_some is, List.filterMap_nil]

section
variable {p d : String}

/-- The path above a path from the root has all components but the last. Only the root has none. -/
theorem parent?_of_isAbsolute (absolute : isAbsolute p) (proper : components p ≠ [.root]) :
    ∃ d, parent? p = some d ∧ isAbsolute d ∧ components d = (components p).dropLast := by
  obtain ⟨q, rfl⟩ := isAbsolute_iff.mp absolute
  rw [components_slash] at proper ⊢
  rcases parent?_slash q with ⟨none, -⟩ | ⟨filled, d, found, above⟩
  · exact absurd (by rw [none]) proper
  · refine ⟨_, found, isAbsolute_iff.mpr ⟨d, rfl⟩, ?_⟩
    rw [components_slash, above, List.dropLast_cons_of_ne_nil filled]

theorem parent?_of_root (root : components p = [.root]) : parent? p = none := by
  obtain ⟨q, rfl⟩ := isAbsolute_iff.mp (isAbsolute_of_components root)
  rw [components_slash] at root
  exact (parent?_slash q).elim And.right fun above => absurd (List.cons.inj root).2 above.1

theorem isAbsolute_of_parent? (absolute : isAbsolute p) (found : parent? p = some d) :
    isAbsolute d := by
  obtain ⟨q, rfl⟩ := isAbsolute_iff.mp absolute
  rcases parent?_slash q with ⟨-, none⟩ | ⟨-, d', found', -⟩
  · rw [none] at found
    cases found
  · rw [found'] at found
    cases found
    exact isAbsolute_iff.mpr ⟨d', rfl⟩

theorem isAbsolute_of_mem_ancestors (absolute : isAbsolute p) (mem : d ∈ ancestors p) :
    isAbsolute d := by
  rw [ancestors] at mem
  generalize (segments p).length = count at mem
  induction count generalizing p with
  | zero =>
    rw [ancestorsTo, List.mem_singleton] at mem
    rwa [mem]
  | succ count ih =>
    rw [ancestorsTo] at mem
    rcases List.mem_cons.mp mem with rfl | above
    · exact absolute
    · cases found : parent? p with
      | none =>
        rw [found] at above
        exact absurd above List.not_mem_nil
      | some up =>
        rw [found] at above
        exact ih (isAbsolute_of_parent? absolute found) above

theorem isAbsolute_join_right (absolute : isAbsolute d) (p : String) : isAbsolute (join d p) := by
  by_cases own : isAbsolute p
  · rwa [join, if_pos own]
  · exact (isAbsolute_join (Bool.eq_false_iff.mpr own)).trans absolute

/-! ### The normal form of a path -/

theorem walk_append (place : List String) (cs ds : List Component) :
    walk place (cs ++ ds) = walk (walk place cs) ds := List.foldl_append

/-- The path from the root along names. -/
def ofNames (names : List String) : String := "/" ++ ofSegments names

/-- The path spells its place: it has neither `.` nor `..`. -/
def IsPlain (p : String) : Prop := ∃ names, (∀ n ∈ names, IsName n) ∧ p = ofNames names

theorem isAbsolute_ofNames (names : List String) : isAbsolute (ofNames names) :=
  isAbsolute_iff.mpr ⟨_, rfl⟩

/-- Behind a slash a path has the components that it has alone, but for the root and a dot that
leads it. -/
theorem components_eq (p : String) : components p = .root :: parts p ∨
    components p = .current :: parts p ∨ components p = parts p := by
  by_cases absolute : isAbsolute p
  · exact .inl (components_of_isAbsolute absolute)
  · right
    rw [components, parts]
    cases cut : segments p with
    | nil => exact .inr rfl
    | cons first rest =>
      dsimp only
      rw [if_neg absolute]
      by_cases dot : first = "."
      · rw [dot]
        exact .inl rfl
      · right
        have same : component? true first = component? false first := by
          rw [component?, component?, if_neg dot, if_neg dot]
        rw [same]
        cases is : component? false first with
        | none => exact (List.filterMap_cons_none is).symm
        | some c => exact (List.filterMap_cons_some is).symm

theorem walk_components (place : List String) (p : String) :
    walk place (components p) = walk place (parts p) := by
  rcases components_eq p with same | same | same
  · rw [same]
    rfl
  · rw [same]
    rfl
  · rw [same]

theorem isName_of_mem_components {n p : String} (mem : .normal n ∈ components p) : IsName n := by
  have inside : .normal n ∈ parts p := by
    rcases components_eq p with same | same | same
    · rw [same] at mem
      exact (List.mem_cons.mp mem).resolve_left (by simp)
    · rw [same] at mem
      exact (List.mem_cons.mp mem).resolve_left (by simp)
    · rwa [same] at mem
  exact isName_of_part inside

theorem normalize_of_isAbsolute (absolute : isAbsolute p) :
    normalize p = ofNames (walk [] (components p)) := by
  have forwards : walk [] (components p) = (components p).foldl step (List.reverse []) := rfl
  rw [normalize, if_pos absolute, forwards]
  -- The names are gathered backwards.
  refine congrArg ("/" ++ ofSegments ·) (List.foldl_hom List.reverse fun names c => ?_).symm
  cases c with
  | root | current => rfl
  | parent => exact List.dropLast_reverse
  | normal n => exact List.reverse_cons.symm

theorem isPlain_normalize (absolute : isAbsolute p) : IsPlain (normalize p) :=
  ⟨_, isName_walk (fun _ => isName_of_mem_components) (fun _ mem => absurd mem List.not_mem_nil),
    normalize_of_isAbsolute absolute⟩

end

theorem ofNames_concat (before : List String) (last : String) :
    ofNames (before ++ [last]) = "/" ++ String.join (before.map (· ++ "/")) ++ last := by
  rw [ofNames, ofSegments_concat, String.append_assoc]

/-- A name with an extension of two characters or more. -/
theorem isName_append {stem ext : String} (long : 2 ≤ ext.toList.length)
    (noSlash : '/' ∉ ext.toList) (plain : '/' ∉ stem.toList) : IsName (stem ++ "." ++ ext) := by
  have chars : (stem ++ "." ++ ext).toList = stem.toList ++ '.' :: ext.toList := by
    rw [String.toList_append, String.toList_append, List.append_assoc]
    rfl
  have length : 3 ≤ (stem ++ "." ++ ext).toList.length := by
    rw [chars, List.length_append, List.length_cons]
    omega
  refine ⟨?_, ?_, ?_, ?_⟩
  · intro same
    simp [same] at length
  · intro same
    simp [same] at length
  · intro same
    simp [same] at length
  · rw [chars, List.mem_append, List.mem_cons]
    rintro (inside | dot | inside)
    · exact plain inside
    · cases dot
    · exact noSlash inside

section
variable {p : String}

theorem IsPlain.isAbsolute (plain : IsPlain p) : isAbsolute p := by
  obtain ⟨names, -, rfl⟩ := plain
  exact isAbsolute_ofNames names

theorem IsPlain.extended (plain : IsPlain p) {ext : String} (long : 2 ≤ ext.toList.length)
    (noSlash : '/' ∉ ext.toList) : IsPlain (p ++ "." ++ ext) := by
  obtain ⟨names, named, rfl⟩ := plain
  cases names using List.reverseRecOn with
  | nil =>
    refine ⟨["" ++ "." ++ ext], fun n mem => ?_, ?_⟩
    · rw [List.mem_singleton.mp mem]
      exact isName_append long noSlash List.not_mem_nil
    · rw [String.empty_append]
      rfl
  | append_singleton before last =>
    refine ⟨before ++ [last ++ "." ++ ext], fun n mem => ?_, ?_⟩
    · rcases List.mem_append.mp mem with mem | mem
      · exact named n (List.mem_append_left _ mem)
      · rw [List.mem_singleton.mp mem]
        exact isName_append long noSlash
          (named last (List.mem_append_right _ (List.mem_singleton_self last))).noSlash
    · rw [ofNames_concat, ofNames_concat]
      simp only [String.append_assoc]

/-- A name below a directory. -/
theorem IsPlain.join (plain : IsPlain p) {n : String} (name : IsName n) : IsPlain (join p n) := by
  obtain ⟨names, named, rfl⟩ := plain
  refine ⟨names ++ [n], fun m mem => ?_, ?_⟩
  · rcases List.mem_append.mp mem with mem | mem
    · exact named m mem
    · rwa [List.mem_singleton.mp mem]
  · have relative : Path.isAbsolute n = false := isAbsolute_ofSegments name []
    rw [Path.join, relative, if_neg (by simp)]
    cases names using List.reverseRecOn with
    | nil => rfl
    | append_singleton before last =>
      have own := named last (List.mem_append_right _ (List.mem_singleton_self last))
      obtain ⟨chars, c, text⟩ := (List.eq_nil_or_concat last.toList).resolve_left fun none =>
        own.nonempty (String.toList_eq_nil_iff.mp none)
      have behind : (ofNames (before ++ [last])).toList.getLast? = some c := by
        rw [ofNames_concat, String.toList_append, text, List.concat_eq_append,
          ← List.append_assoc, List.getLast?_concat]
      have noSlash : c ≠ '/' := by
        rintro rfl
        exact own.noSlash (by rw [text]; simp)
      have filled : (ofNames (before ++ [last])).isEmpty = false := by
        rw [Bool.eq_false_iff]
        intro empty
        rw [String.isEmpty_iff.mp empty] at behind
        cases behind
      rw [filled, behind, if_neg (by simpa using noSlash), ofNames_concat, ofNames_concat]
      simp [String.append_assoc]

end

end Stencil.Path

namespace Stencil

/-! ### The last place of a character -/

namespace FilePath
open Text

variable {c : Char} {s a b t : List Char}

theorem cutLast?_append (absent : c ∉ b) (a : List Char) :
    cutLast? c (a ++ c :: b) = some (a, b) := by
  have turned : (a ++ c :: b).reverse = b.reverse ++ c :: a.reverse := by simp
  rw [cutLast?, turned, cutChar?_append (by simpa using absent)]
  simp

theorem cutLast?_of_not_mem (absent : c ∉ s) : cutLast? c s = none := by
  rw [cutLast?, cutChar?_of_not_mem (by simpa using absent)]
  rfl

/-- A text that holds a character is cut at its last place. -/
theorem last_place (c : Char) (s : List Char) : c ∉ s ∨ ∃ a b, s = a ++ c :: b ∧ c ∉ b := by
  induction s with
  | nil => exact .inl List.not_mem_nil
  | cons d s ih =>
    rcases ih with absent | ⟨a, b, rfl, absent⟩
    · by_cases same : d = c
      · exact .inr ⟨[], s, by rw [same]; rfl, absent⟩
      · rw [List.mem_cons, not_or]
        exact .inl ⟨Ne.symm same, absent⟩
    · exact .inr ⟨d :: a, b, rfl, absent⟩

/-- What stands behind the last slash, if there is one. -/
def nameOf (s : List Char) : List Char := ((cutLast? '/' s).map Prod.snd).getD s

theorem nameOf_of_not_mem (absent : '/' ∉ s) : nameOf s = s := by
  rw [nameOf, cutLast?_of_not_mem absent]
  rfl

theorem nameOf_slash (absent : '/' ∉ b) (a : List Char) : nameOf (a ++ '/' :: b) = b := by
  rw [nameOf, cutLast?_append absent]
  rfl

theorem nameOf_append (absent : '/' ∉ t) (s : List Char) : nameOf (s ++ t) = nameOf s ++ t := by
  rcases last_place '/' s with none | ⟨a, b, rfl, none⟩
  · rw [nameOf_of_not_mem none, nameOf_of_not_mem (by simp [none, absent])]
  · rw [List.append_assoc, List.cons_append, nameOf_slash none, nameOf_slash (by simp [none, absent])]

theorem nameOf_spec (s : List Char) : '/' ∉ nameOf s ∧ ∃ front, s = front ++ nameOf s := by
  rcases last_place '/' s with none | ⟨a, b, rfl, none⟩
  · rw [nameOf_of_not_mem none]
    exact ⟨none, [], rfl⟩
  · rw [nameOf_slash none]
    exact ⟨none, a ++ ['/'], by simp⟩

/-- The dots that are taken away before a path are not of its name. -/
theorem nameOf_dropDots (s : List Char) : nameOf (dropDots s) = nameOf s := by
  fun_induction dropDots s with
  | case1 s ih =>
    rw [ih]
    rcases last_place '/' s with none | ⟨a, b, rfl, none⟩
    · rw [nameOf_of_not_mem none]
      exact (nameOf_slash none ['.']).symm
    · rw [nameOf_slash none]
      exact (nameOf_slash none ('.' :: '/' :: a)).symm
  | case2 s => rfl

theorem filename_ofText (p : String) : (ofText p).filename.toList = nameOf (slashed p).toList := by
  rw [← nameOf_dropDots, ofText, nameOf]
  split
  · next found => rw [found]; exact String.toList_ofList
  · next none => rw [none]; exact String.toList_ofList

/-- A name ends in a text behind a character of its own just when the whole path does. -/
theorem nameOf_eq_append_iff (absent : '/' ∉ t) : (∃ stem, nameOf s = stem ++ t ∧ stem ≠ []) ↔
    ∃ front c, s = front ++ c :: t ∧ c ≠ '/' := by
  constructor
  · rintro ⟨stem, same, filled⟩
    obtain ⟨plain, front, whole⟩ := nameOf_spec s
    rcases List.eq_nil_or_concat' stem with rfl | ⟨before, c, rfl⟩
    · exact absurd rfl filled
    · refine ⟨front ++ before, c, ?_, ?_⟩
      · rw [whole, same]
        simp only [List.append_assoc, List.singleton_append]
      · rintro rfl
        exact plain (by rw [same]; simp)
  · rintro ⟨front, c, rfl, other⟩
    refine ⟨nameOf front ++ [c], ?_, by simp⟩
    rw [nameOf_append (by simp [absent, Ne.symm other]), List.append_assoc, List.singleton_append]

theorem extension?_eq_some_iff {path : FilePath} {ext : String} (undotted : '.' ∉ ext.toList) :
    path.extension? = some ext ↔
      ∃ stem, path.filename.toList = stem ++ '.' :: ext.toList ∧ stem ≠ [] := by
  rw [extension?]
  constructor
  · intro found
    rcases last_place '.' path.filename.toList with none | ⟨a, b, whole, none⟩
    · rw [cutLast?_of_not_mem none] at found
      cases found
    · rw [whole, cutLast?_append none] at found
      dsimp only at found
      split at found
      · cases found
      · next filled =>
        obtain rfl := Option.some.inj found
        exact ⟨a, by rw [whole, String.toList_ofList], by simpa using filled⟩
  · rintro ⟨stem, whole, filled⟩
    rw [whole, cutLast?_append undotted]
    dsimp only
    rw [if_neg (by simpa using filled), String.ofList_toList]

end FilePath

/-- No character of the text parts a path or a name. -/
def IsWord (ext : String) : Prop := ∀ c ∈ ext.toList, c ≠ '.' ∧ c ≠ '/' ∧ c ≠ '\\'

/-- The text ends in a dot and the extension, and a character before them is no slash of either
kind. -/
def EndsIn (ext p : String) : Prop :=
  ∃ front c, p.toList = front ++ c :: '.' :: ext.toList ∧ c ≠ '/' ∧ c ≠ '\\'

section
variable {p ext : String}

theorem IsWord.undotted (word : IsWord ext) : '.' ∉ ext.toList := fun mem => (word _ mem).1 rfl

theorem IsWord.noSlash (word : IsWord ext) : '/' ∉ '.' :: ext.toList := by
  rw [List.mem_cons, not_or]
  exact ⟨by decide, fun mem => (word _ mem).2.1 rfl⟩

/-- A character of a path, with a slash for a backslash. -/
def turned (c : Char) : Char := if c = '\\' then '/' else c

theorem turned_eq_iff {c d : Char} (other : d ≠ '/') : turned c = d ↔ c = d ∧ d ≠ '\\' := by
  rw [turned]
  split
  · next back =>
    subst back
    exact ⟨fun same => absurd same.symm other, fun ⟨same, straight⟩ => absurd same.symm straight⟩
  · next straight => exact ⟨fun same => ⟨same, same ▸ straight⟩, And.left⟩

theorem map_turned_eq_iff {s t : List Char} (plain : ∀ c ∈ t, c ≠ '/' ∧ c ≠ '\\') :
    s.map turned = t ↔ s = t := by
  induction t generalizing s with
  | nil => exact List.map_eq_nil_iff
  | cons d t ih =>
    obtain ⟨⟨other, straight⟩, plain⟩ := List.forall_mem_cons.mp plain
    cases s with
    | nil => exact ⟨nofun, nofun⟩
    | cons c s =>
      rw [List.map_cons, List.cons.injEq, List.cons.injEq, turned_eq_iff other, ih plain,
        and_iff_left straight]

/-- Turning backslashes leaves a text that neither kind of slash is in. -/
theorem slashed_eq_append_iff {t : List Char} (plain : ∀ c ∈ t, c ≠ '/' ∧ c ≠ '\\') :
    (∃ front c, (FilePath.slashed p).toList = front ++ c :: t ∧ c ≠ '/') ↔
      ∃ front c, p.toList = front ++ c :: t ∧ c ≠ '/' ∧ c ≠ '\\' := by
  have chars : (FilePath.slashed p).toList = p.toList.map turned := String.toList_ofList
  rw [chars]
  constructor
  · rintro ⟨front, d, same, other⟩
    obtain ⟨before, rest, whole, -, back⟩ := List.map_eq_append_iff.mp same
    obtain ⟨c, behind, rfl, own, later⟩ := List.map_eq_cons_iff.mp back
    obtain ⟨rfl, straight⟩ := (turned_eq_iff other).mp own
    rw [(map_turned_eq_iff plain).mp later] at whole
    exact ⟨before, c, whole, other, straight⟩
  · rintro ⟨front, c, whole, other, straight⟩
    refine ⟨front.map turned, c, ?_, other⟩
    rw [whole, List.map_append, List.map_cons, (map_turned_eq_iff plain).mpr rfl,
      (turned_eq_iff other).mpr ⟨rfl, straight⟩]

/-- The extension of a record is how the text of its path ends. -/
theorem extension?_ofText_iff (word : IsWord ext) :
    (FilePath.ofText p).extension? = some ext ↔ EndsIn ext p := by
  have plain : ∀ c ∈ '.' :: ext.toList, c ≠ '/' ∧ c ≠ '\\' :=
    List.forall_mem_cons.mpr ⟨by decide, fun c mem => (word c mem).2⟩
  rw [FilePath.extension?_eq_some_iff word.undotted, FilePath.filename_ofText,
    FilePath.nameOf_eq_append_iff word.noSlash, slashed_eq_append_iff plain, EndsIn]

end

/-! ### The extension of a path -/

namespace Path

variable {p last ext : String}

theorem splitName_of_chars {stem : List Char} (chars : last.toList = stem ++ '.' :: ext.toList)
    (filled : stem ≠ []) (undotted : '.' ∉ ext.toList) :
    splitName last = (String.ofList stem, some ext) := by
  have turned : last.toList.reverse = ext.toList.reverse ++ '.' :: stem.reverse := by
    rw [chars]
    simp
  rw [splitName, turned, Text.cutChar?_append (by simpa using undotted)]
  dsimp only
  rw [if_neg (by simpa using filled), List.reverse_reverse, List.reverse_reverse,
    String.ofList_toList]

theorem segments_concat (p : String) :
    ∃ before, segments p = before ++ [String.ofList (FilePath.nameOf p.toList)] := by
  rcases FilePath.last_place '/' p.toList with none | ⟨a, b, whole, none⟩
  · refine ⟨[], ?_⟩
    rw [segments, Text.splitOn_of_not_mem none, FilePath.nameOf_of_not_mem none]
    rfl
  · refine ⟨(Text.splitOn '/' a).map String.ofList, ?_⟩
    rw [segments, whole, Text.splitOn_append_sep, Text.splitOn_of_not_mem none,
      FilePath.nameOf_slash none, List.map_append]
    rfl

/-- A path that ends in an extension has it. -/
theorem extension?_of_endsIn (word : IsWord ext) (long : 2 ≤ ext.toList.length)
    (ends : EndsIn ext p) : extension? p = some ext := by
  obtain ⟨front, c, whole, other, -⟩ := ends
  obtain ⟨stem, own, filled⟩ :=
    (FilePath.nameOf_eq_append_iff word.noSlash).mpr ⟨front, c, whole, other⟩
  obtain ⟨before, parts⟩ := segments_concat p
  obtain ⟨noSlash, -⟩ := FilePath.nameOf_spec p.toList
  rw [own] at parts noSlash
  have same : String.ofList (stem ++ '.' :: ext.toList) = String.ofList stem ++ "." ++ ext := by
    apply String.toList_injective
    simp
  have name : IsName (String.ofList (stem ++ '.' :: ext.toList)) := by
    rw [same]
    refine isName_append long (fun mem => (word _ mem).2.1 rfl) fun mem => noSlash ?_
    rw [String.toList_ofList] at mem
    exact List.mem_append_left _ mem
  rw [extension?, fileName?_of_segments parts name, Option.bind_some, if_neg name.notParent,
    splitName_of_chars String.toList_ofList filled word.undotted]

theorem hasExtension_iff {extensions : List String} : hasExtension p extensions = true ↔
    ∃ ext, extension? p = some ext ∧
      ∃ x ∈ extensions, Text.lowerAscii x.toList = Text.lowerAscii ext.toList := by
  rw [hasExtension, Option.any_eq_true]
  simp only [List.any_eq_true, beq_iff_eq]

end Path

end Stencil
