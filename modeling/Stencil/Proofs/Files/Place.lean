import Stencil.Proofs.Files.Path
/-!
Where paths lead. Cleaning a path keeps its components, and the place that a path below a directory
leads to is the place of the directory with the names behind it.
-/
namespace Stencil

namespace Text

/-- A text is cut at its first separator, and what stands behind it further. -/
theorem split_induction {motive : List Char → Prop} (c : Char) (whole : ∀ s, c ∉ s → motive s)
    (cut : ∀ a b, c ∉ a → motive b → motive (a ++ c :: b)) (s : List Char) : motive s := by
  induction n : s.length using Nat.strongRecOn generalizing s with
  | ind n ih =>
    by_cases mem : c ∈ s
    · obtain ⟨a, b, rfl, absent⟩ := List.eq_append_cons_of_mem mem
      refine cut a b absent (ih b.length ?_ b rfl)
      rw [← n, List.length_append, List.length_cons]
      omega
    · exact whole s mem

theorem splitOn_append_sep (c : Char) (a b : List Char) :
    splitOn c (a ++ c :: b) = splitOn c a ++ splitOn c b := by
  induction a using split_induction c with
  | whole a absent => rw [splitOn_append absent, splitOn_of_not_mem absent, List.singleton_append]
  | cut a a' absent ih =>
    rw [List.append_assoc, List.cons_append, splitOn_append absent, splitOn_append absent, ih,
      List.cons_append]

theorem not_mem_splitOn {c : Char} {s part : List Char} (mem : part ∈ splitOn c s) : c ∉ part := by
  induction s using split_induction c with
  | whole s absent =>
    rw [splitOn_of_not_mem absent, List.mem_singleton] at mem
    rwa [mem]
  | cut a b absent ih =>
    rw [splitOn_append absent] at mem
    rcases List.mem_cons.mp mem with rfl | mem
    · exact absent
    · exact ih mem

end Text

namespace Path

/-- The components of what stands behind a slash. -/
def parts (p : String) : List Component := (segments p).filterMap (component? false)

theorem parts_empty : parts "" = [] := by
  rw [parts, segments, String.toList_empty, Text.splitOn_of_not_mem List.not_mem_nil]
  rfl

theorem parts_append (a b : String) : parts (a ++ "/" ++ b) = parts a ++ parts b := by
  have cut : (a ++ "/" ++ b).toList = a.toList ++ '/' :: b.toList := by
    rw [String.toList_append, String.toList_append, List.append_assoc]
    rfl
  rw [parts, segments, cut, Text.splitOn_append_sep, List.map_append, List.filterMap_append]
  rfl

theorem parts_slash (p : String) : parts ("/" ++ p) = parts p := by
  have h := parts_append "" p
  rwa [String.empty_append, parts_empty, List.nil_append] at h

theorem isAbsolute_iff {p : String} : isAbsolute p ↔ ∃ q, p = "/" ++ q := by
  rw [isAbsolute]
  constructor
  · intro head
    cases chars : p.toList with
    | nil => simp [chars] at head
    | cons c s =>
      simp only [chars, List.head?_cons, Option.some_beq_some, beq_iff_eq] at head
      refine ⟨String.ofList s, String.toList_injective ?_⟩
      rw [chars, head, String.toList_append, String.toList_ofList, String.toList_ofList]
      rfl
  · rintro ⟨q, rfl⟩
    rw [String.toList_append]
    rfl

theorem segments_slash (p : String) : segments ("/" ++ p) = "" :: segments p := by
  have slash : ("/" ++ p).toList = [] ++ '/' :: p.toList := by
    rw [String.toList_append]
    rfl
  rw [segments, slash, Text.splitOn_append List.not_mem_nil, List.map_cons]
  rfl

theorem components_slash (p : String) : components ("/" ++ p) = .root :: parts p := by
  rw [components, segments_slash]
  dsimp only
  rw [if_pos (isAbsolute_iff.mpr ⟨p, rfl⟩)]
  rfl

theorem not_mem_of_mem_segments {p part : String} (mem : part ∈ segments p) :
    '/' ∉ part.toList := by
  obtain ⟨chars, cut, rfl⟩ := List.mem_map.mp mem
  rw [String.toList_ofList]
  exact Text.not_mem_splitOn cut

/-- What components behind a slash are: names and steps up. -/
theorem part_cases {p : String} {c : Component} (mem : c ∈ parts p) :
    c = .parent ∨ ∃ n, IsName n ∧ c = .normal n := by
  obtain ⟨part, inside, is⟩ := List.mem_filterMap.mp mem
  rw [component?] at is
  split at is
  · cases is
  · next nonempty =>
    split at is
    · cases is
    · next notCurrent =>
      split at is
      · exact .inl (Option.some.inj is).symm
      · next notParent =>
        exact .inr ⟨part, ⟨nonempty, notCurrent, notParent, not_mem_of_mem_segments inside⟩,
          (Option.some.inj is).symm⟩

theorem parts_text {c : Component} (part : c = .parent ∨ ∃ n, IsName n ∧ c = .normal n) :
    parts c.text = [c] := by
  rcases part with rfl | ⟨n, name, rfl⟩
  · have noSlash : '/' ∉ ['.', '.'] := by decide
    show (segments "..").filterMap (component? false) = _
    rw [segments, show "..".toList = ['.', '.'] from rfl, Text.splitOn_of_not_mem noSlash]
    rfl
  · show (segments n).filterMap (component? false) = _
    rw [segments, Text.splitOn_of_not_mem name.noSlash, List.map_singleton, String.ofList_toList,
      filterMap_component? (by simpa using name)]
    rfl

theorem parts_ofSegments {cs : List Component}
    (plain : ∀ c ∈ cs, c = .parent ∨ ∃ n, IsName n ∧ c = .normal n) :
    parts (ofSegments (cs.map Component.text)) = cs := by
  induction cs with
  | nil => exact parts_empty
  | cons c cs ih =>
    have head := parts_text (plain c List.mem_cons_self)
    have tail := ih fun d mem => plain d (List.mem_cons_of_mem _ mem)
    cases cs with
    | nil => simpa [ofSegments] using head
    | cons d cs =>
      have cut : ofSegments ((c :: d :: cs).map Component.text) =
          c.text ++ "/" ++ ofSegments ((d :: cs).map Component.text) := by
        simp [ofSegments, String.intercalate_cons_cons]
      rw [cut, parts_append, head, tail]
      rfl

theorem filterMap_kept? {cs : List Component}
    (plain : ∀ c ∈ cs, c = .parent ∨ ∃ n, IsName n ∧ c = .normal n) :
    cs.filterMap Component.kept? = cs.map Component.text := by
  induction cs with
  | nil => rfl
  | cons c cs ih =>
    rw [List.filterMap_cons, List.map_cons, ih fun d mem => plain d (List.mem_cons_of_mem _ mem)]
    rcases plain c List.mem_cons_self with rfl | ⟨n, -, rfl⟩
    · rfl
    · rfl

theorem leadingSlashes_slash (q : String) :
    leadingSlashes ("/" ++ q) = "/" ++ "" ∨ leadingSlashes ("/" ++ q) = "/" ++ "/" := by
  rw [leadingSlashes]
  split
  · exact .inl rfl
  · exact .inr rfl
  · exact .inl rfl
  · next single =>
    refine absurd ?_ (single q.toList)
    rw [String.toList_append]
    rfl

/-- Cleaning a path from the root keeps its components. -/
theorem components_clean {p : String} (absolute : isAbsolute p) :
    components (clean p) = components p := by
  obtain ⟨q, rfl⟩ := isAbsolute_iff.mp absolute
  have plain : ∀ c ∈ parts q, c = .parent ∨ ∃ n, IsName n ∧ c = .normal n := fun c => part_cases
  have names : (components ("/" ++ q)).filterMap Component.kept? =
      (parts q).map Component.text := by
    rw [components_slash, List.filterMap_cons]
    exact filterMap_kept? plain
  have kept := parts_ofSegments plain
  have ended : ∀ b : Bool, parts (ofSegments ((parts q).map Component.text) ++
      if b then "/" else "") = parts q := by
    intro b
    cases b with
    | false => simpa using kept
    | true =>
      have h := parts_append (ofSegments ((parts q).map Component.text)) ""
      rwa [String.append_empty, parts_empty, List.append_nil, kept] at h
  rw [clean, names, String.append_assoc]
  rcases leadingSlashes_slash q with one | two
  · rw [one, String.append_assoc, components_slash, String.empty_append, ended, components_slash]
  · rw [two, String.append_assoc, components_slash, parts_slash, ended, components_slash]

/-! ### Below a directory -/

theorem go_eq_some {ds cs rest : List Component} :
    below?.go ds cs = some rest ↔ cs = ds ++ rest := by
  induction ds generalizing cs with
  | nil => simp [below?.go]
  | cons d ds ih =>
    cases cs with
    | nil => simp [below?.go]
    | cons c cs =>
      rw [below?.go, List.cons_append, List.cons.injEq]
      split
      · next same => simp [ih, same]
      · next other => simp [Ne.symm other]

theorem below?_eq_some {dir p : String} {rest : List Component} :
    below? dir p = some rest ↔ components p = components dir ++ rest := go_eq_some

/-- The place that one component leads to. -/
def step (place : List String) : Component → List String
  | .normal n => place ++ [n]
  | .parent => place.dropLast
  | _ => place

/-- The place that components lead to when every directory on the way is there. -/
def walk (place : List String) (cs : List Component) : List String := cs.foldl step place

theorem walk_names (place names : List String) :
    walk place (names.map .normal) = place ++ names := by
  induction names generalizing place with
  | nil => exact (List.append_nil place).symm
  | cons n names ih =>
    rw [List.map_cons, walk, List.foldl_cons, ← walk, ih, step, List.append_assoc,
      List.singleton_append]

theorem isAbsolute_of_components {p : String} {cs : List Component}
    (root : components p = .root :: cs) : isAbsolute p := by
  have noRoot : ∀ (b : Bool) (part : String), component? b part ≠ some .root := by
    intro b part is
    rw [component?] at is
    split at is
    · cases is
    · split at is
      · split at is
        · cases is
        · cases is
      · split at is
        · cases is
        · cases is
  cases absolute : isAbsolute p with
  | true => rfl
  | false =>
    rw [components] at root
    split at root
    · cases root
    · next first rest _ =>
      have mem : Component.root ∈
          (component? true first).toList ++ rest.filterMap (component? false) := by
        rw [absolute, if_neg (by simp)] at root
        rw [root]
        exact List.mem_cons_self
      rcases List.mem_append.mp mem with mem | mem
      · exact absurd (Option.mem_toList.mp mem) (noRoot true first)
      · obtain ⟨part, -, is⟩ := List.mem_filterMap.mp mem
        exact absurd is (noRoot false part)

end Path

namespace FileTree
variable {t t' : FileTree}

/-! ### Following paths -/

theorem follow_cons {place x : List String} {c : Path.Component} {cs : List Path.Component} :
    t.follow place (c :: cs) = .at x ↔
      t.hasDirectory place ∧ t.follow (Path.step place c) cs = .at x := by
  rw [follow.eq_def]
  by_cases here : t.hasDirectory place
  · cases c <;> simp [here, Path.step]
  · simp only [here, Bool.false_eq_true, if_false, false_and, iff_false]
    split
    · simp
    · simp

theorem follow_at {place x : List String} {cs : List Path.Component}
    (way : t.follow place cs = .at x) : x = Path.walk place cs := by
  induction cs generalizing place with
  | nil =>
    cases way
    rfl
  | cons c cs ih => exact ih (follow_cons.mp way).2

theorem follow_append {place x : List String} {cs ds : List Path.Component}
    (way : t.follow place (cs ++ ds) = .at x) :
    t.follow place cs = .at (Path.walk place cs) ∧ t.follow (Path.walk place cs) ds = .at x := by
  induction cs generalizing place with
  | nil => exact ⟨rfl, way⟩
  | cons c cs ih =>
    obtain ⟨here, rest⟩ := follow_cons.mp way
    exact ⟨follow_cons.mpr ⟨here, (ih rest).1⟩, (ih rest).2⟩

/-- A path that can be followed can be followed where more directories are. -/
theorem follow_mono (more : ∀ d, t.hasDirectory d → t'.hasDirectory d) {place x : List String}
    {cs : List Path.Component} (way : t.follow place cs = .at x) : t'.follow place cs = .at x := by
  induction cs generalizing place with
  | nil => exact way
  | cons c cs ih =>
    obtain ⟨here, rest⟩ := follow_cons.mp way
    exact follow_cons.mpr ⟨more _ here, ih rest⟩

theorem way_eq_at {p : String} {place : List String} : t.way p = .at place ↔
    p ≠ "" ∧ t.follow [] (Path.components (t.absolute p)) = .at place ∧
      (namesDirectory p → t.hasDirectory place) := by
  rw [way]
  by_cases empty : p = ""
  · simp [empty]
  · rw [if_neg (by simpa using empty)]
    cases leads : t.follow [] (Path.components (t.absolute p)) with
    | missing => simp
    | blocked => simp
    | «at» x =>
      dsimp only
      split
      · next wanting =>
        simp only [Bool.and_eq_true, Bool.not_eq_true'] at wanting
        constructor
        · intro is
          split at is
          · cases is
          · cases is
        · rintro ⟨-, same, directory⟩
          cases same
          rw [directory wanting.1] at wanting
          cases wanting.2
      · next fine =>
        constructor
        · intro same
          cases same
          refine ⟨empty, rfl, fun names => ?_⟩
          simpa [names] using fine
        · rintro ⟨-, same, -⟩
          exact same

theorem way_mono (more : ∀ d, t.hasDirectory d → t'.hasDirectory d)
    (current : t'.current = t.current) {p : String} {place : List String}
    (way : t.way p = .at place) : t'.way p = .at place := by
  obtain ⟨nonempty, leads, directory⟩ := way_eq_at.mp way
  refine way_eq_at.mpr ⟨nonempty, ?_, fun names => more _ (directory names)⟩
  rw [absolute, current]
  exact follow_mono more leads

theorem isAbsolute_absolute (h : Path.isAbsolute t.current) (p : String) :
    Path.isAbsolute (t.absolute p) := by
  rw [absolute, Path.join]
  split
  · next own => exact own
  · obtain ⟨q, same⟩ := Path.isAbsolute_iff.mp h
    rw [same]
    split
    · exact Path.isAbsolute_iff.mpr ⟨q ++ p, by rw [String.append_assoc]⟩
    · exact Path.isAbsolute_iff.mpr ⟨q ++ "/" ++ p, by
        rw [String.append_assoc, String.append_assoc, String.append_assoc]⟩

/-- The place that a path leads to when every directory on the way is there. -/
def placeOf (t : FileTree) (p : String) : List String :=
  Path.walk [] (Path.components (t.absolute p))

theorem way_at {p : String} {place : List String} (way : t.way p = .at place) :
    place = t.placeOf p :=
  follow_at (way_eq_at.mp way).2.1

theorem isFile_iff {p : String} :
    t.isFile p ↔ t.way p = .at (t.placeOf p) ∧ (t.content? (t.placeOf p)).isSome := by
  rw [isFile]
  constructor
  · intro file
    split at file
    · next place leads =>
      have here := way_at leads
      rw [← here]
      exact ⟨leads, file⟩
    · cases file
  · rintro ⟨leads, file⟩
    rw [leads]
    exact file

theorem readText?_eq_some {p s : String} : t.readText? p = some s ↔
    t.way p = .at (t.placeOf p) ∧ t.content? (t.placeOf p) = some (.text s) := by
  rw [readText?]
  constructor
  · intro read
    split at read
    · next place leads =>
      have here := way_at leads
      rw [← here]
      split at read
      · next content =>
        cases read
        exact ⟨leads, content⟩
      · cases read
    · cases read
  · rintro ⟨leads, content⟩
    rw [leads]
    dsimp only
    rw [content]

section
variable {root p : String} {names : List String}

theorem components_below (h : Path.isAbsolute t.current) (nonempty : p ≠ "")
    (below : Path.below? root (t.cleanPath p) = some (names.map .normal)) :
    Path.components (t.absolute p) = Path.components root ++ names.map .normal := by
  have comps := Path.below?_eq_some.mp below
  rwa [cleanPath, if_neg (by simpa using nonempty),
    Path.components_clean (isAbsolute_absolute h p)] at comps

/-- What stands between a directory and a path below it are names. -/
theorem isName_of_below (h : Path.isAbsolute t.current) (nonempty : p ≠ "")
    (below : Path.below? root (t.cleanPath p) = some (names.map .normal)) :
    ∀ n ∈ names, Path.IsName n := by
  intro n mem
  have inside : Path.Component.normal n ∈ Path.components (t.absolute p) := by
    rw [components_below h nonempty below]
    exact List.mem_append_right _ (List.mem_map_of_mem mem)
  obtain ⟨q, same⟩ := Path.isAbsolute_iff.mp (isAbsolute_absolute h p)
  rw [same, Path.components_slash] at inside
  rcases List.mem_cons.mp inside with is | inside
  · cases is
  · rcases Path.part_cases inside with is | ⟨m, name, is⟩
    · cases is
    · cases is
      exact name

/-- A directory that an absolute path is below is absolute itself. -/
theorem absolute_of_below (h : Path.isAbsolute t.current) (nonempty : p ≠ "")
    (below : Path.below? root (t.cleanPath p) = some (names.map .normal)) :
    Path.isAbsolute root := by
  have comps := components_below h nonempty below
  obtain ⟨q, same⟩ := Path.isAbsolute_iff.mp (isAbsolute_absolute h p)
  rw [same, Path.components_slash] at comps
  cases own : Path.components root with
  | nil =>
    rw [own, List.nil_append] at comps
    cases names with
    | nil => cases comps
    | cons n names => cases comps
  | cons c cs =>
    rw [own, List.cons_append] at comps
    obtain ⟨rfl, -⟩ := List.cons.inj comps
    exact Path.isAbsolute_of_components own

theorem placeOf_below (h : Path.isAbsolute t.current) (nonempty : p ≠ "")
    (below : Path.below? root (t.cleanPath p) = some (names.map .normal)) :
    t.placeOf p = t.placeOf root ++ names := by
  have fromRoot : t.absolute root = root := by
    rw [absolute, Path.join, if_pos (absolute_of_below h nonempty below)]
  rw [placeOf, placeOf, components_below h nonempty below, fromRoot, Path.walk, List.foldl_append]
  exact Path.walk_names _ names

/-- A directory is there when a path below it can be followed. -/
theorem way_root (h : Path.isAbsolute t.current) (proper : names ≠ [])
    (below : Path.below? root (t.cleanPath p) = some (names.map .normal)) {place : List String}
    (way : t.way p = .at place) :
    t.way root = .at (t.placeOf root) ∧ t.hasDirectory (t.placeOf root) := by
  obtain ⟨nonempty, leads, -⟩ := way_eq_at.mp way
  have fromRoot := absolute_of_below h nonempty below
  have plain : t.absolute root = root := by rw [absolute, Path.join, if_pos fromRoot]
  rw [components_below h nonempty below] at leads
  obtain ⟨toRoot, further⟩ := follow_append leads
  rw [placeOf, plain]
  have inside : t.hasDirectory (Path.walk [] (Path.components root)) := by
    cases names with
    | nil => exact absurd rfl proper
    | cons n names => exact (follow_cons.mp further).1
  refine ⟨way_eq_at.mpr ⟨?_, ?_, fun _ => inside⟩, inside⟩
  · rintro rfl
    cases fromRoot
  · rwa [plain]

end

end FileTree
end Stencil
