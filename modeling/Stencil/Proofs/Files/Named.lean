import Stencil.Proofs.Files.Listing
/-!
Paths of files whose names hold no backslash. Such a path is the path of the record, it tells the
names again, and it ends in the extension that is replaced in the path of the output.
-/
namespace Stencil

namespace Text

/-- A text is cut at its last separator in one way. -/
theorem eq_of_append_sep {c : Char} {a a' b b' : List Char} (absent : c ∉ b) (absent' : c ∉ b')
    (same : a ++ c :: b = a' ++ c :: b') : a = a' ∧ b = b' := by
  have turned : b.reverse ++ c :: a.reverse = b'.reverse ++ c :: a'.reverse := by
    simpa using congrArg List.reverse same
  have cut := congrArg (cutChar? c) turned
  rw [cutChar?_append (by simpa using absent), cutChar?_append (by simpa using absent')] at cut
  obtain ⟨back, front⟩ := Prod.mk.inj (Option.some.inj cut)
  exact ⟨List.reverse_injective front, List.reverse_injective back⟩

end Text

namespace Path

theorem ofSegments_injective {names names' : List String} (plain : ∀ n ∈ names, IsName n)
    (plain' : ∀ n ∈ names', IsName n) (proper : names ≠ []) (proper' : names' ≠ [])
    (same : ofSegments names = ofSegments names') : names = names' := by
  rw [← segments_ofSegments proper plain, same, segments_ofSegments proper' plain']

theorem ofSegments_concat (before : List String) (last : String) :
    ofSegments (before ++ [last]) = String.join (before.map (· ++ "/")) ++ last := by
  induction before with
  | nil => rfl
  | cons b before ih =>
    have cut : ofSegments (b :: (before ++ [last])) = b ++ "/" ++ ofSegments (before ++ [last]) :=
      String.intercalate_cons_of_ne_nil (by simp)
    rw [List.cons_append, cut, ih, List.map_cons, String.join_cons]
    simp only [String.append_assoc]

theorem mem_ofSegments {names : List String} {c : Char} (mem : c ∈ (ofSegments names).toList) :
    c = '/' ∨ ∃ n ∈ names, c ∈ n.toList := by
  induction names with
  | nil => simp [ofSegments] at mem
  | cons n names ih =>
    by_cases single : names = []
    · rw [single, ofSegments, String.intercalate_singleton] at mem
      exact .inr ⟨n, List.mem_cons_self, mem⟩
    · have cut : ofSegments (n :: names) = n ++ "/" ++ ofSegments names :=
        String.intercalate_cons_of_ne_nil single
      rw [cut, String.toList_append, String.toList_append, List.mem_append, List.mem_append] at mem
      rcases mem with (own | slash) | later
      · exact .inr ⟨n, List.mem_cons_self, own⟩
      · exact .inl (List.mem_singleton.mp slash)
      · rcases ih later with slash | ⟨m, inside, here⟩
        · exact .inl slash
        · exact .inr ⟨m, List.mem_cons_of_mem _ inside, here⟩

section
variable {before : List String} {last stem ext : String}

theorem significant_concat (parts : List String) (last : String) :
    significant (parts ++ [last]) =
      if (component? (parts.length == 0) last).isSome then parts.length + 1
      else significant parts := by
  rw [significant, List.zipIdx_append, List.foldl_append, significant]
  simp

theorem splitLast?_of_segments {p : String} (parts : segments p = before ++ [last])
    (own : IsName last) : splitLast? p = some (before, last) := by
  have is : ∀ leading, (component? leading last).isSome := fun leading => by
    rw [own.component?]
    rfl
  rw [splitLast?, parts, trimParts, significant_concat, if_pos (is _),
    List.take_of_length_le (by simp)]
  simp

theorem fileName?_of_segments {p : String} (parts : segments p = before ++ [last])
    (own : IsName last) : fileName? p = some last := by
  rw [fileName?, splitLast?_of_segments parts own]
  dsimp only
  rw [own.component?]

theorem splitLast?_ofSegments (plain : ∀ n ∈ before ++ [last], IsName n) :
    splitLast? (ofSegments (before ++ [last])) = some (before, last) :=
  splitLast?_of_segments (segments_ofSegments (by simp) plain)
    (plain last (List.mem_append_right _ (List.mem_singleton_self _)))

theorem fileName?_ofSegments (plain : ∀ n ∈ before ++ [last], IsName n) :
    fileName? (ofSegments (before ++ [last])) = some last :=
  fileName?_of_segments (segments_ofSegments (by simp) plain)
    (plain last (List.mem_append_right _ (List.mem_singleton_self _)))

theorem of_splitName (cut : splitName last = (stem, some ext)) :
    last = stem ++ "." ++ ext ∧ stem ≠ "" ∧ '.' ∉ ext.toList := by
  rw [splitName] at cut
  split at cut
  · cases cut
  · next ext' stem' found =>
    split at cut
    · cases cut
    · next filled =>
      obtain ⟨rfl, same⟩ := Prod.mk.inj cut
      obtain rfl := Option.some.inj same
      refine ⟨String.toList_injective ?_, ?_, ?_⟩
      · have chars := Text.eq_append_of_cutChar? found
        rw [← List.reverse_reverse last.toList, chars]
        simp
      · simpa using filled
      · simpa using Text.not_mem_of_cutChar? found

/-- A path of names that has an extension, and what replacing the extension gives. -/
theorem withExtension_ofSegments (plain : ∀ n ∈ before ++ [last], IsName n)
    (visible : last.toList.head? ≠ some '.') (cut : splitName last = (stem, some ext))
    (new : String) : withExtension (ofSegments (before ++ [last])) new =
      ofSegments (before ++ [stem ++ "." ++ new]) := by
  obtain ⟨same, filled, -⟩ := of_splitName cut
  have other : stem ≠ "." := by
    rintro rfl
    rw [same] at visible
    exact visible (by simp)
  rw [withExtension, splitLast?_ofSegments plain, fileName?_ofSegments plain]
  dsimp only
  rw [cut]
  dsimp only
  rw [if_neg (by simp [other]), ofSegments_concat]
  simp only [String.append_assoc]

/-- A name with another extension is a name. -/
theorem IsName.renamed (name : IsName last) (cut : splitName last = (stem, some ext)) {new : String}
    (long : 1 < new.length) (noSlash : '/' ∉ new.toList) : IsName (stem ++ "." ++ new) := by
  obtain ⟨same, -, -⟩ := of_splitName cut
  have longer : 2 < (stem ++ "." ++ new).length := by
    simp only [String.length_append]
    have dot : ".".length = 1 := by decide
    omega
  refine ⟨?_, ?_, ?_, fun slash => name.noSlash ?_⟩
  · intro short
    rw [short] at longer
    exact absurd longer (by decide)
  · intro short
    rw [short] at longer
    exact absurd longer (by decide)
  · intro short
    rw [short] at longer
    exact absurd longer (by decide)
  · rw [same]
    have inside : '/' ∈ stem.toList := by simpa [noSlash] using slash
    simp [inside]

end

end Path

/-! ### Records -/

theorem slashed_of_plain {p : String} (plain : '\\' ∉ p.toList) : FilePath.slashed p = p := by
  rw [FilePath.slashed, List.map_congr_left (g := id), List.map_id, String.ofList_toList]
  intro c mem
  have other : c ≠ '\\' := fun back => plain (back ▸ mem)
  exact if_neg other

/-- A name that no backslash parts. -/
structure PlainName (n : String) : Prop extends Path.IsName n where
  noBackslash : '\\' ∉ n.toList

instance (n : String) : Decidable (PlainName n) :=
  decidable_of_iff (n ≠ "" ∧ n ≠ "." ∧ n ≠ ".." ∧ '/' ∉ n.toList ∧ '\\' ∉ n.toList)
    ⟨fun ⟨nonempty, here, above, slash, back⟩ => ⟨⟨nonempty, here, above, slash⟩, back⟩,
      fun ⟨⟨nonempty, here, above, slash⟩, back⟩ => ⟨nonempty, here, above, slash, back⟩⟩

theorem slashed_ofSegments {names : List String} (plain : ∀ n ∈ names, PlainName n) :
    FilePath.slashed (Path.ofSegments names) = Path.ofSegments names := by
  refine slashed_of_plain fun back => ?_
  rcases Path.mem_ofSegments back with slash | ⟨n, mem, inside⟩
  · cases slash
  · exact (plain n mem).noBackslash inside

section
variable {extensions exclude names names' : List String}

theorem recordPath_of_plain (plain : ∀ n ∈ names, PlainName n)
    (listed : isListed extensions exclude names) : recordPath names = Path.ofSegments names := by
  rw [recordPath_of_listed (fun n mem => (plain n mem).toIsName) listed, slashed_ofSegments plain]

/-- Files that are read have paths of their own. -/
theorem recordPath_injective (plain : ∀ n ∈ names, PlainName n)
    (plain' : ∀ n ∈ names', PlainName n) (listed : isListed extensions exclude names)
    (listed' : isListed extensions exclude names')
    (same : recordPath names = recordPath names') : names = names' := by
  rw [recordPath_of_plain plain listed, recordPath_of_plain plain' listed'] at same
  exact Path.ofSegments_injective (fun n mem => (plain n mem).toIsName)
    (fun n mem => (plain' n mem).toIsName) (proper_of_listed listed) (proper_of_listed listed') same

end

end Stencil
