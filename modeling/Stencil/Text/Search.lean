/-!
Search in text: a pattern is found at its first place, and what stands before and after it is
given back. A found place never lengthens the text, so a scanner that goes on after it ends.
-/
namespace Stencil.Text

/-- What follows the pattern when the text starts with it. -/
def dropPrefix? : List Char → List Char → Option (List Char)
  | [], s => some s
  | _ :: _, [] => none
  | p :: ps, c :: cs => if p = c then dropPrefix? ps cs else none

/-- The text starts with the pattern. -/
def startsWith (pattern s : List Char) : Bool := (dropPrefix? pattern s).isSome

/-- The text before and after the first place of the pattern. -/
def cut? (pattern : List Char) : List Char → Option (List Char × List Char)
  | [] => if pattern.isEmpty then some ([], []) else none
  | c :: cs =>
    match dropPrefix? pattern (c :: cs) with
    | some rest => some ([], rest)
    | none => (cut? pattern cs).map fun (before, after) => (c :: before, after)

/-- The pattern stands somewhere in the text. -/
def contains (pattern s : List Char) : Bool := (cut? pattern s).isSome

theorem eq_append_of_dropPrefix? {p s r : List Char} (h : dropPrefix? p s = some r) :
    s = p ++ r := by
  induction p generalizing s with
  | nil => simp_all [dropPrefix?]
  | cons a p ih =>
    cases s with
    | nil => simp [dropPrefix?] at h
    | cons c s =>
      simp only [dropPrefix?] at h
      split at h
      · subst_vars; simp [ih h]
      · simp at h

theorem dropPrefix?_append (p r : List Char) : dropPrefix? p (p ++ r) = some r := by
  induction p with
  | nil => rfl
  | cons a p ih => simp [dropPrefix?, ih]

theorem eq_append_of_cut? {p s a b : List Char} (h : cut? p s = some (a, b)) :
    s = a ++ p ++ b := by
  induction s generalizing a b with
  | nil =>
    simp only [cut?] at h
    split at h <;> simp_all
  | cons c s ih =>
    simp only [cut?] at h
    split at h
    · rename_i rest hr
      simp only [Option.some.injEq, Prod.mk.injEq] at h
      obtain ⟨rfl, rfl⟩ := h
      simpa using eq_append_of_dropPrefix? hr
    · obtain ⟨⟨x, y⟩, hxy, h⟩ := Option.map_eq_some_iff.1 h
      simp only [Prod.mk.injEq] at h
      obtain ⟨rfl, rfl⟩ := h
      simp [ih hxy]

theorem length_of_cut? {p s a b : List Char} (h : cut? p s = some (a, b)) :
    s.length = a.length + p.length + b.length := by
  rw [eq_append_of_cut? h]; simp; omega

/-- A pattern is found no later than it stands anywhere. -/
theorem exists_cut?_le (p a b : List Char) :
    ∃ x rest, cut? p (a ++ p ++ b) = some (x, rest) ∧ x.length ≤ a.length := by
  induction a with
  | nil =>
    refine ⟨[], b, ?_, Nat.le_refl 0⟩
    rw [List.nil_append]
    cases p with
    | nil => cases b <;> rfl
    | cons c p => rw [List.cons_append, cut?, ← List.cons_append, dropPrefix?_append]
  | cons c a ih =>
    rw [List.cons_append, List.cons_append, cut?]
    cases dropPrefix? p (c :: (a ++ p ++ b)) with
    | some rest => exact ⟨[], rest, rfl, Nat.zero_le _⟩
    | none =>
      obtain ⟨x, rest, found, le⟩ := ih
      rw [found]
      exact ⟨c :: x, rest, rfl, Nat.succ_le_succ le⟩

theorem length_of_dropPrefix? {p s r : List Char} (h : dropPrefix? p s = some r) :
    s.length = p.length + r.length := by
  rw [eq_append_of_dropPrefix? h]; simp

/-- Every place of a pattern, from left to right and without overlap, gives way to `new`. -/
def replace (p : Char) (ps new : List Char) (s : List Char) : List Char :=
  match h : cut? (p :: ps) s with
  | none => s
  | some (before, after) => before ++ new ++ replace p ps new after
termination_by s.length
decreasing_by have := length_of_cut? h; simp at this; omega

/-- `replace` on strings; a pattern without characters changes nothing. -/
def replaceText (pattern new s : String) : String :=
  match pattern.toList with
  | [] => s
  | p :: ps => String.ofList (replace p ps new.toList s.toList)

/-- The text before and after the first place of one character. -/
def cutChar? (c : Char) : List Char → Option (List Char × List Char)
  | [] => none
  | d :: s => if d = c then some ([], s) else (cutChar? c s).map fun (a, b) => (d :: a, b)

theorem eq_append_of_cutChar? {c : Char} {s a b : List Char} (h : cutChar? c s = some (a, b)) :
    s = a ++ c :: b := by
  induction s generalizing a b with
  | nil => simp [cutChar?] at h
  | cons d s ih =>
    simp only [cutChar?] at h
    split at h
    · simp only [Option.some.injEq, Prod.mk.injEq] at h
      obtain ⟨rfl, rfl⟩ := h
      simp_all
    · obtain ⟨⟨x, y⟩, hxy, h⟩ := Option.map_eq_some_iff.1 h
      simp only [Prod.mk.injEq] at h
      obtain ⟨rfl, rfl⟩ := h
      simp [ih hxy]

theorem length_of_cutChar? {c : Char} {s a b : List Char} (h : cutChar? c s = some (a, b)) :
    s.length = a.length + 1 + b.length := by
  rw [eq_append_of_cutChar? h]; simp; omega

/-- Text in its parts between the places of a character. -/
def splitOn (c : Char) (s : List Char) : List (List Char) :=
  match h : cutChar? c s with
  | none => [s]
  | some (before, after) => before :: splitOn c after
termination_by s.length
decreasing_by have := length_of_cutChar? h; omega

/-- ASCII capitals made small; all other characters stay. -/
def lowerAscii (s : List Char) : List Char := s.map Char.toLower

/-- Size in bytes of the UTF-8 form. -/
def utf8Size (s : List Char) : Nat := s.foldl (fun n c => n + c.utf8Size) 0

end Stencil.Text
