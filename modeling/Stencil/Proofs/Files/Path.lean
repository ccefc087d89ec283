import Stencil.Files.Enumerate
/-!
Paths that names make up. Their components are the names again, and the path of a record is the path
with backslashes turned, unless a dot leads it.
-/
namespace Stencil

namespace Text

theorem cutChar?_of_not_mem {c : Char} {s : List Char} (absent : c ∉ s) : cutChar? c s = none := by
  induction s with
  | nil => rfl
  | cons d s ih =>
    rw [List.mem_cons, not_or] at absent
    rw [cutChar?, if_neg (Ne.symm absent.1), ih absent.2]
    rfl

theorem cutChar?_append {c : Char} {a : List Char} (absent : c ∉ a) (b : List Char) :
    cutChar? c (a ++ c :: b) = some (a, b) := by
  induction a with
  | nil => simp [cutChar?]
  | cons d a ih =>
    rw [List.mem_cons, not_or] at absent
    rw [List.cons_append, cutChar?, if_neg (Ne.symm absent.1), ih absent.2]
    rfl

theorem not_mem_of_cutChar? {c : Char} {s a b : List Char} (found : cutChar? c s = some (a, b)) :
    c ∉ a := by
  induction s generalizing a b with
  | nil => cases found
  | cons d s ih =>
    rw [cutChar?] at found
    split at found
    · obtain ⟨rfl, -⟩ := Prod.mk.inj (Option.some.inj found)
      exact List.not_mem_nil
    · next other =>
      obtain ⟨⟨x, y⟩, later, same⟩ := Option.map_eq_some_iff.mp found
      obtain ⟨rfl, rfl⟩ := Prod.mk.inj same
      rw [List.mem_cons, not_or]
      exact ⟨Ne.symm other, ih later⟩

theorem not_mem_of_cutChar?_eq_none {c : Char} {s : List Char} (missing : cutChar? c s = none) :
    c ∉ s := by
  induction s with
  | nil => exact List.not_mem_nil
  | cons d s ih =>
    rw [cutChar?] at missing
    split at missing
    · cases missing
    · next other =>
      exact fun mem => (List.mem_cons.mp mem).elim (fun same => other same.symm)
        (ih (by simpa using missing))

theorem splitOn_of_not_mem {c : Char} {s : List Char} (absent : c ∉ s) : splitOn c s = [s] := by
  rw [splitOn.eq_def]
  split
  · rfl
  · next before after found =>
    rw [cutChar?_of_not_mem absent] at found
    cases found

theorem splitOn_append {c : Char} {a : List Char} (absent : c ∉ a) (b : List Char) :
    splitOn c (a ++ c :: b) = a :: splitOn c b := by
  rw [splitOn.eq_def]
  split
  · next none =>
    rw [cutChar?_append absent] at none
    cases none
  · next before after found =>
    rw [cutChar?_append absent] at found
    cases found
    rfl

theorem splitOn_intercalate {c : Char} {parts : List (List Char)} (some : parts ≠ [])
    (absent : ∀ p ∈ parts, c ∉ p) : splitOn c (List.intercalate [c] parts) = parts := by
  induction parts with
  | nil => exact absurd rfl some
  | cons p parts ih =>
    have here := absent p List.mem_cons_self
    cases parts with
    | nil => rw [List.intercalate_singleton, splitOn_of_not_mem here]
    | cons q parts =>
      rw [List.intercalate_cons_cons, List.append_assoc, List.singleton_append,
        splitOn_append here, ih (by simp) fun r mem => absent r (List.mem_cons_of_mem _ mem)]

/-- The first part starts as the text does. -/
theorem splitOn_cons {c d : Char} (other : d ≠ c) (s : List Char) :
    ∃ part rest, splitOn c (d :: s) = (d :: part) :: rest := by
  rw [splitOn.eq_def]
  split
  · exact ⟨s, [], rfl⟩
  · next before after found =>
    rw [cutChar?, if_neg other] at found
    obtain ⟨⟨a, b⟩, -, same⟩ := Option.map_eq_some_iff.mp found
    cases same
    exact ⟨a, _, rfl⟩

end Text

namespace Path

/-- A name that a directory can hold. -/
structure IsName (n : String) : Prop where
  nonempty : n ≠ ""
  notCurrent : n ≠ "."
  notParent : n ≠ ".."
  noSlash : '/' ∉ n.toList

theorem IsName.component? {n : String} (h : IsName n) (leading : Bool) :
    component? leading n = some (.normal n) := by
  rw [Path.component?, if_neg h.nonempty, if_neg h.notCurrent, if_neg h.notParent]

theorem toList_ofSegments (names : List String) :
    (ofSegments names).toList = List.intercalate ['/'] (names.map String.toList) := by
  rw [ofSegments, String.toList_intercalate]
  rfl

theorem segments_ofSegments_of_noSlash {parts : List String} (some : parts ≠ [])
    (absent : ∀ part ∈ parts, '/' ∉ part.toList) : segments (ofSegments parts) = parts := by
  rw [segments, toList_ofSegments, Text.splitOn_intercalate (by simpa using some)]
  · rw [List.map_map]
    exact List.map_id'' (fun n => String.ofList_toList) parts
  · intro p mem
    obtain ⟨part, inside, rfl⟩ := List.mem_map.mp mem
    exact absent part inside

theorem segments_ofSegments {names : List String} (some : names ≠ [])
    (plain : ∀ n ∈ names, IsName n) : segments (ofSegments names) = names :=
  segments_ofSegments_of_noSlash some fun n mem => (plain n mem).noSlash

theorem head_ofSegments {n : String} (h : IsName n) (names : List String) :
    (ofSegments (n :: names)).toList.head? = n.toList.head? := by
  have nonempty : n.toList ≠ [] := by
    intro empty
    exact h.nonempty (String.toList_eq_nil_iff.mp empty)
  rw [toList_ofSegments, List.map_cons]
  cases names with
  | nil => rw [List.map_nil, List.intercalate_singleton]
  | cons q names =>
    rw [List.map_cons, List.intercalate_cons_cons, List.append_assoc, List.head?_append]
    cases chars : n.toList with
    | nil => exact absurd chars nonempty
    | cons c cs => rfl

theorem isAbsolute_ofSegments {n : String} (h : IsName n) (names : List String) :
    isAbsolute (ofSegments (n :: names)) = false := by
  rw [isAbsolute, head_ofSegments h]
  cases chars : n.toList with
  | nil => rfl
  | cons c cs =>
    have other : c ≠ '/' := by
      rintro rfl
      exact h.noSlash (by rw [chars]; exact List.mem_cons_self)
    simpa using other

theorem filterMap_component? {leading : Bool} {names : List String}
    (plain : ∀ n ∈ names, IsName n) :
    names.filterMap (component? leading) = names.map .normal := by
  induction names with
  | nil => rfl
  | cons n names ih =>
    rw [List.filterMap_cons, (plain n List.mem_cons_self).component?, List.map_cons,
      ih fun m mem => plain m (List.mem_cons_of_mem _ mem)]

theorem components_ofSegments {names : List String} (some : names ≠ [])
    (plain : ∀ n ∈ names, IsName n) : components (ofSegments names) = names.map .normal := by
  rw [components, segments_ofSegments some plain]
  cases names with
  | nil => exact absurd rfl some
  | cons n names =>
    have head := plain n List.mem_cons_self
    dsimp only
    rw [isAbsolute_ofSegments head, if_neg (by simp), head.component?,
      filterMap_component? fun m mem => plain m (List.mem_cons_of_mem _ mem)]
    rfl

/-- A path that a dot leads is hidden. -/
theorem isExcluded_of_dot {p : String} (dot : p.toList.head? = some '.') (exclude : List String) :
    isExcluded p exclude = true := by
  obtain ⟨s, chars⟩ : ∃ s, p.toList = '.' :: s := by
    cases chars : p.toList with
    | nil => simp [chars] at dot
    | cons c s =>
      rw [chars] at dot
      cases dot
      exact ⟨s, rfl⟩
  obtain ⟨part, rest, split⟩ := Text.splitOn_cons (c := '/') (d := '.') (by decide) s
  have relative : isAbsolute p = false := by
    rw [isAbsolute, dot]
    decide
  rw [isExcluded, crosses, components, segments, chars, split, List.map_cons]
  dsimp only
  rw [relative, if_neg (by simp), List.any_append]
  have head : (String.ofList ('.' :: part)).toList.head? = some '.' := by
    rw [String.toList_ofList]
    rfl
  have nonempty : String.ofList ('.' :: part) ≠ "" := by
    intro empty
    rw [empty] at head
    cases head
  rw [component?, if_neg nonempty]
  split
  · rfl
  · split
    · rfl
    · simp [Component.text]

end Path

namespace FilePath

theorem dropDots_of_head {s : List Char} (head : s.head? ≠ some '.') : dropDots s = s := by
  rw [dropDots.eq_def]
  split
  · exact absurd rfl head
  · rfl

theorem head_slashed {p : String} (head : p.toList.head? ≠ some '.') :
    (slashed p).toList.head? ≠ some '.' := by
  rw [slashed, String.toList_ofList, List.head?_map]
  intro dot
  obtain ⟨c, first, turned⟩ := Option.map_eq_some_iff.mp dot
  split at turned
  · cases turned
  · rw [turned] at first
    exact head first

theorem slashed_slashed (p : String) : slashed (slashed p) = slashed p := by
  apply String.toList_injective
  rw [slashed, slashed, String.toList_ofList, String.toList_ofList, List.map_map]
  refine List.map_congr_left fun c _ => ?_
  by_cases back : c = '\\'
  · simp [back]
  · simp [back]

theorem ofText_slashed (p : String) : ofText (slashed p) = ofText p := by
  rw [ofText, ofText, slashed_slashed]

theorem pathname_ofText {p : String} (head : p.toList.head? ≠ some '.') :
    (ofText p).pathname = slashed p := by
  rw [ofText, dropDots_of_head (head_slashed head)]
  split
  · exact String.ofList_toList
  · exact String.ofList_toList

/-- The path that a change names is the path of the record. -/
theorem pathname_ofText_slashed {p : String} (head : p.toList.head? ≠ some '.') :
    (ofText (slashed p)).pathname = slashed p := by
  rw [ofText_slashed, pathname_ofText head]

end FilePath
end Stencil
