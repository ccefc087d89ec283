import Mathlib
import Stencil.Proofs.Files.Lexical
import Stencil.Script.Link
/-!
The modules that imports name. An import by place, relative or from the root, names a module by the
place that its text leads to, whoever imports it; what it finds is a file that is there, under its
plain path. Imports that follow one another never leave such files.
-/
namespace Stencil.Script.Link
open Stencil.Path

/-- The specifier tells a place: it is relative, or starts at the root. -/
def TellsPlace (name : String) : Prop := isRelative name ∨ isAbsolute name

/-- The names that lead to the target of an import. -/
def targetNames (importer name : String) : List String :=
  walk [] (if isAbsolute name then components name
    else (components importer).dropLast ++ components name)

theorem isName_targetNames (importer name : String) :
    ∀ n ∈ targetNames importer name, IsName n := by
  refine isName_walk (fun n mem => ?_) fun n mem => absurd mem List.not_mem_nil
  split at mem
  · exact isName_of_mem_components mem
  · rcases List.mem_append.mp mem with mem | mem
    · exact isName_of_mem_components (List.dropLast_subset _ mem)
    · exact isName_of_mem_components mem

theorem isAbsolute_of_isRelative {name : String} (relative : isRelative name) :
    isAbsolute name = false := by
  have dotted : name.toList.head? = some '.' := by
    rw [isRelative, Bool.or_eq_true_iff, Bool.or_eq_true_iff, Bool.or_eq_true_iff] at relative
    rcases relative with ((here | up) | here) | up
    · obtain ⟨rest, starts⟩ := Option.isSome_iff_exists.mp here
      rw [Text.eq_append_of_dropPrefix? starts]
      rfl
    · obtain ⟨rest, starts⟩ := Option.isSome_iff_exists.mp up
      rw [Text.eq_append_of_dropPrefix? starts]
      rfl
    · rw [beq_iff_eq.mp here]
      rfl
    · rw [beq_iff_eq.mp up]
      rfl
  rw [isAbsolute, dotted]
  rfl

/-- The modules that the compiler makes are not named by a place. -/
theorem not_tellsPlace_of_made {name : String} (made : name = hostModule ∨ name = pluginModule) :
    ¬ TellsPlace name := by
  rw [TellsPlace]
  rcases made with rfl | rfl
  · decide
  · decide

/-! ### The file of a path -/

/-- What holds of a path from the root and of all paths that are tried for it. -/
structure KeptByLookup (P : String → Prop) : Prop where
  absolute : ∀ {p}, P p → isAbsolute p
  normal : ∀ {p}, isAbsolute p → P (normalize p)
  extended : ∀ {p ext}, P p → ext ∈ extensions → P (p ++ "." ++ ext)
  index : ∀ {root}, P root → P (join root "index")

theorem keptByLookup_isAbsolute : KeptByLookup fun p => isAbsolute p where
  absolute := id
  normal absolute := (isPlain_normalize absolute).isAbsolute
  extended {p ext} absolute _ := by
    obtain ⟨q, rfl⟩ := isAbsolute_iff.mp absolute
    exact isAbsolute_iff.mpr ⟨q ++ "." ++ ext, by simp only [String.append_assoc]⟩
  index absolute := isAbsolute_join_right absolute _

theorem keptByLookup_isPlain : KeptByLookup IsPlain where
  absolute := IsPlain.isAbsolute
  normal := isPlain_normalize
  extended {p ext} plain mem := by
    have fits : 2 ≤ ext.toList.length ∧ '/' ∉ ext.toList := by
      revert ext
      decide
    exact plain.extended fits.1 fits.2
  index plain := plain.join ⟨by decide, by decide, by decide, by decide⟩

section
variable {P : String → Prop} {t : FileTree} {path root m : String}

theorem file?_eq_some (kept : KeptByLookup P) (own : P path) (found : file? t path = some m) :
    P m ∧ t.isFile m := by
  refine ⟨?_, List.find?_some found⟩
  rcases List.mem_cons.mp (List.mem_of_find?_eq_some found) with rfl | mem
  · exact own
  · obtain ⟨ext, listed, rfl⟩ := List.mem_map.mp mem
    exact kept.extended own listed

theorem directoryFile?_eq_some (kept : KeptByLookup P) (own : P root)
    (found : directoryFile? t root = some m) : P m ∧ t.isFile m := by
  rw [directoryFile?, Option.or_eq_some_iff] at found
  rcases found with named | ⟨-, index⟩
  · obtain ⟨key, -, named⟩ := List.exists_of_findSome?_eq_some named
    obtain ⟨entry, -, named⟩ := Option.bind_eq_some_iff.mp named
    exact file?_eq_some kept (kept.normal (isAbsolute_join_right (kept.absolute own) entry)) named
  · exact file?_eq_some kept (kept.index own) index

theorem target?_eq_some (kept : KeptByLookup P) (own : P path) (found : target? t path = some m) :
    P m ∧ t.isFile m := by
  rw [target?] at found
  split at found
  · next file =>
    cases found
    exact file?_eq_some kept own file
  · split at found
    · exact directoryFile?_eq_some kept own found
    · cases found

end

theorem package?_eq_some {t : FileTree} {dir name m : String} (absolute : isAbsolute dir)
    (found : package? t dir name = some m) : isAbsolute m ∧ t.isFile m := by
  have kept := keptByLookup_isAbsolute
  rw [package?] at found
  obtain ⟨root, first, found⟩ := Option.bind_eq_some_iff.mp found
  obtain ⟨d, above, rfl⟩ := List.mem_map.mp (List.mem_of_find?_eq_some first)
  have fromRoot : ∀ p q, isAbsolute (join (join d p) q) := fun p q =>
    isAbsolute_join_right (isAbsolute_join_right (isAbsolute_of_mem_ancestors absolute above) p) q
  split at found
  · exact target?_eq_some kept (kept.normal (isAbsolute_join_right (fromRoot _ _) _)) found
  · exact directoryFile?_eq_some kept (fromRoot _ _) found

/-! ### The module of an import -/

section
variable {t : FileTree} {importer name m : String}

/-- An import that tells a place names what its target stands for. Only the root, which is in no
directory, imports nothing. -/
theorem resolve?_of_tellsPlace (absolute : isAbsolute importer) (place : TellsPlace name) :
    resolve? t importer name = if components importer = [.root] then none
      else target? t (ofNames (targetNames importer name)) := by
  have notMade : (name == hostModule || name == pluginModule) = false := by
    rw [Bool.eq_false_iff]
    intro made
    refine not_tellsPlace_of_made ?_ place
    simpa using made
  rw [resolve?, notMade, absolute]
  simp only [Bool.false_eq_true, if_false, Bool.not_true]
  by_cases root : components importer = [.root]
  · rw [if_pos root, parent?_of_root root, Option.bind_none]
  · obtain ⟨dir, parent, fromRoot, above⟩ := parent?_of_isAbsolute absolute root
    rw [if_neg root, parent, Option.bind_some]
    rcases place with relative | rooted
    · have notRooted := isAbsolute_of_isRelative relative
      have joined : isAbsolute (join dir name) := (isAbsolute_join notRooted).trans fromRoot
      have leads : walk [] (components (join dir name)) = targetNames importer name := by
        rw [targetNames, notRooted, if_neg (by simp), ← above, walk_append, walk_components,
          walk_components, walk_components, parts_join notRooted, walk_append]
      rw [if_pos relative, normalize_of_isAbsolute joined, leads]
    · have notRelative : isRelative name = false := by
        rw [Bool.eq_false_iff]
        intro relative
        rw [isAbsolute_of_isRelative relative] at rooted
        cases rooted
      rw [notRelative, if_neg (by simp), if_pos rooted, normalize_of_isAbsolute rooted,
        targetNames, if_pos rooted]

/-- What is imported is a file that is there, under a path from the root, or a module that the
compiler makes. -/
theorem resolve?_eq_some (absolute : isAbsolute importer) (found : resolve? t importer name = some m) :
    (m = hostModule ∨ m = pluginModule) ∨ isAbsolute m ∧ t.isFile m := by
  have kept := keptByLookup_isAbsolute
  rw [resolve?] at found
  split at found
  · next made =>
    cases found
    exact .inl (by simpa using made)
  · right
    rw [absolute] at found
    simp only [Bool.not_true, Bool.false_eq_true, if_false] at found
    obtain ⟨dir, parent, found⟩ := Option.bind_eq_some_iff.mp found
    have fromRoot := isAbsolute_of_parent? absolute parent
    split at found
    · next relative =>
      have joined : isAbsolute (join dir name) :=
        (isAbsolute_join (isAbsolute_of_isRelative relative)).trans fromRoot
      exact target?_eq_some kept (kept.normal joined) found
    · split at found
      · next rooted => exact target?_eq_some kept (kept.normal rooted) found
      · exact package?_eq_some fromRoot found

/-- One module imports another. -/
def Imports (t : FileTree) (importer m : String) : Prop := ∃ name, resolve? t importer name = some m

theorem not_isAbsolute_of_made (made : m = hostModule ∨ m = pluginModule) :
    isAbsolute m = false := by
  rcases made with rfl | rfl
  · rfl
  · rfl

/-- Imports that follow one another stay within files that are there. -/
theorem reached_of_imports {start : String} (absolute : isAbsolute start)
    (chain : Relation.ReflTransGen (Imports t) start m) :
    m = start ∨ (m = hostModule ∨ m = pluginModule) ∨ isAbsolute m ∧ t.isFile m := by
  induction chain with
  | refl => exact .inl rfl
  | tail _ imports ih =>
    obtain ⟨name, found⟩ := imports
    right
    rcases ih with rfl | made | ⟨fromRoot, -⟩
    · exact resolve?_eq_some absolute found
    · rw [resolve?, not_isAbsolute_of_made made] at found
      split at found
      · next own =>
        cases found
        exact .inl (by simpa using own)
      · cases found
    · exact resolve?_eq_some fromRoot found

end

/-- A path from the root to something in a directory. -/
def IsImporter (p : String) : Prop := isAbsolute p ∧ components p ≠ [.root]

/-- The module of an import that tells a place depends on nothing but the names of its target, so
imports with one target name one module. It is a file that is there, under its plain path, and
whatever is imported from there on is such a file or a module that the compiler makes. -/
theorem modules_by_place (t : FileTree) :
    (∀ importer name, IsImporter importer → TellsPlace name →
      resolve? t importer name = target? t (ofNames (targetNames importer name))) ∧
    (∀ importer importer' name name', IsImporter importer → IsImporter importer' →
      TellsPlace name → TellsPlace name' →
      targetNames importer name = targetNames importer' name' →
      resolve? t importer name = resolve? t importer' name') ∧
    (∀ importer name m, isAbsolute importer → TellsPlace name →
      resolve? t importer name = some m → IsPlain m ∧ t.isFile m) ∧
    ∀ start m, isAbsolute start → Relation.ReflTransGen (Imports t) start m →
      m = start ∨ (m = hostModule ∨ m = pluginModule) ∨ isAbsolute m ∧ t.isFile m := by
  have byTarget : ∀ importer name, IsImporter importer → TellsPlace name →
      resolve? t importer name = target? t (ofNames (targetNames importer name)) :=
    fun importer name own place => by rw [resolve?_of_tellsPlace own.1 place, if_neg own.2]
  refine ⟨byTarget, ?_, ?_, fun start m absolute chain => reached_of_imports absolute chain⟩
  · intro importer importer' name name' own own' place place' same
    rw [byTarget importer name own place, byTarget importer' name' own' place', same]
  · intro importer name m absolute place found
    rw [resolve?_of_tellsPlace absolute place] at found
    split at found
    · cases found
    · exact target?_eq_some keptByLookup_isPlain ⟨_, isName_targetNames importer name, rfl⟩ found

/-- A directory whose manifest leads out of it. -/
def library : FileTree where
  directories := [["lib"], ["lib", "math"], ["cards"]]
  files := [(["lib", "math", "package.json"], .text "\x7b\"main\": \"./../format\"\x7d"),
    (["lib", "format.js"], .text "")]

theorem target_library_math : target? library "/lib/math" = some "/lib/format.js" := by
  have noFile : file? library "/lib/math" = none := by cbv
  have directory : library.isDirectory "/lib/math" = true := by cbv
  have place : join "/lib/math" "package.json" = "/lib/math/package.json" := by decide
  have comps : components (library.absolute "/lib/math/package.json") =
      [.root, .normal "lib", .normal "math", .normal "package.json"] := by cbv
  have noSlash : FileTree.namesDirectory "/lib/math/package.json" = false := by cbv
  have way : library.way "/lib/math/package.json" = .at ["lib", "math", "package.json"] :=
    FileTree.way_eq_at.mpr ⟨by decide, by rw [comps]; decide, by rw [noSlash]; decide⟩
  have text : library.readText? "/lib/math/package.json" =
      some "\x7b\"main\": \"./../format\"\x7d" := by
    rw [FileTree.readText?, way]
    rfl
  have manifest : Json.read? "\x7b\"main\": \"./../format\"\x7d" =
      some (.object [("main", .string "./../format")]) := by cbv
  have noModule : manifestText? (some (.object [("main", .string "./../format")])) "module" =
      none := rfl
  have main : manifestText? (some (.object [("main", .string "./../format")])) "main" =
      some "./../format" := rfl
  have entry : normalize (join "/lib/math" "./../format") = "/lib/format" := by
    rw [show join "/lib/math" "./../format" = "/lib/math/./../format" by decide]
    cbv
  have file : file? library "/lib/format" = some "/lib/format.js" := by cbv
  simp only [target?, noFile, directory, if_true, directoryFile?, place, text, Option.bind_some,
    manifest, List.findSome?_cons, noModule, main, Option.bind_none, entry, file, Option.some_or]

theorem library_math_by_place :
    resolve? library "/lib/a.js" "./math" = some "/lib/format.js" ∧
      resolve? library "/cards/card.html" "../lib//x/../math/." = some "/lib/format.js" ∧
      IsPlain "/lib/format.js" ∧ library.isFile "/lib/format.js" := by
  obtain ⟨byTarget, same, plain, -⟩ := modules_by_place library
  have comps : components "/lib/a.js" = [.root, .normal "lib", .normal "a.js"] := by cbv
  have comps' : components "/cards/card.html" = [.root, .normal "cards", .normal "card.html"] := by
    cbv
  have steps : parts "../lib//x/../math/." =
      [.parent, .normal "lib", .normal "x", .parent, .normal "math"] := by cbv
  have own : IsImporter "/lib/a.js" := ⟨by decide, by rw [comps]; decide⟩
  have own' : IsImporter "/cards/card.html" := ⟨by decide, by rw [comps']; decide⟩
  have place : TellsPlace "./math" := .inl (by decide)
  have place' : TellsPlace "../lib//x/../math/." := .inl (by decide)
  have target : targetNames "/lib/a.js" "./math" = ["lib", "math"] := by cbv
  have target' : targetNames "/cards/card.html" "../lib//x/../math/." = ["lib", "math"] := by
    rw [targetNames, if_neg (by decide), comps', walk_append, walk_components, steps]
    decide
  have found : resolve? library "/lib/a.js" "./math" = some "/lib/format.js" := by
    rw [byTarget _ _ own place, target]
    exact target_library_math
  refine ⟨found, ?_, plain _ _ _ own.1 place found⟩
  rw [same _ "/lib/a.js" _ "./math" own' own place' place (target'.trans target.symm)]
  exact found

/-- The root is in no directory, so that it imports nothing. -/
theorem root_imports_nothing :
    resolve? library "/" "/lib/format.js" = none ∧
      resolve? library "/lib/a.js" "/lib/format.js" = some "/lib/format.js" ∧
      targetNames "/" "/lib/format.js" = targetNames "/lib/a.js" "/lib/format.js" := by
  have rooted : TellsPlace "/lib/format.js" := .inr (by decide)
  have comps : components "/lib/a.js" = [.root, .normal "lib", .normal "a.js"] := by cbv
  have target : ofNames (targetNames "/lib/a.js" "/lib/format.js") = "/lib/format.js" := by cbv
  have file : file? library "/lib/format.js" = some "/lib/format.js" := by cbv
  refine ⟨?_, ?_, by cbv⟩
  · rw [resolve?_of_tellsPlace (by decide) rooted, if_pos (by cbv)]
  · rw [resolve?_of_tellsPlace (by decide) rooted, if_neg (by rw [comps]; decide), target,
      target?, file]

end Stencil.Script.Link
