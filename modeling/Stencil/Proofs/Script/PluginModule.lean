import Mathlib.Data.List.Nodup
import Stencil.Proofs.Script.Reading
import Stencil.Proofs.Script.Tokens
import Stencil.Script.Sandbox
/-!
The module of plugins. Its text binds a name of its own besides the names of plugins. It is read
unless a plugin has that name, or a name that nothing can be stored in; where it is not read, no
script that asks for it runs.
-/
namespace Stencil.Script.Link
open Lexing Grammar

/-- The plugins that the module exports. -/
def exported (names : List String) : List String :=
  names.filter fun name => isIdentifier name && name != "default"

/-- The names that the text of the module binds. -/
def pluginBindings (names : List String) : List String := "plugins" :: exported names

/-- Names that can be bound side by side. -/
structure Bindable (names : List String) : Prop where
  distinct : names.Nodup
  free : ∀ name ∈ names, isUnbindable name = false

variable {names : List String} {name : String}

theorem isIdentifier_of_mem_exported (mem : name ∈ exported names) : isIdentifier name = true :=
  (Bool.and_eq_true_iff.mp (List.mem_filter.mp mem).2).1

/-! ### Its tokens -/

def word (s : String) : TokenKind := .word s false

/-- The tokens of the constant that holds the plugins. -/
def headKinds : List TokenKind :=
  [word "const", word "plugins", .mark "=", word "globalThis", .mark ".", word pluginsGlobal,
    .mark ";"]

/-- The tokens of the export of a plugin. -/
def exportKinds (name : String) : List TokenKind :=
  [word "export", word "const", word name, .mark "=", word "plugins", .mark "[", .text name,
    .mark "]", .mark ";"]

/-- The tokens of the default export. -/
def lastKinds : List TokenKind := [word "export", word "default", word "plugins", .mark ";"]

theorem quoted_of_isName (identifier : IsName name.toList) :
    (Text.quoted name).toList = '"' :: (name.toList ++ ['"']) := by
  have plain : ∀ c ∈ name.toList, Text.quotedChar c = [c] := by
    intro c mem
    have own := of_isNamePart (p := fun c => Text.quotedChar c == [c]) (by decide +kernel)
      (identifier.part c mem)
    exact beq_iff_eq.mp own
  rw [Text.quoted, String.toList_ofList, List.flatMap_def, List.map_congr_left plain,
    ← List.flatMap_def, List.flatMap_singleton']
  rfl

theorem scans_last : Scans ('\n' :: "export default plugins;\n".toList) lastKinds := by
  have ends : Scans ['\n'] [] := scans_gap (by decide)
  have closed : Scans [';', '\n'] _ :=
    ends.mark (g := []) (by decide) rfl (by decide) (by decide) nofun (by decide)
  have value : Scans " plugins;\n".toList _ :=
    closed.word (g := [' ']) (n := "plugins".toList) (by decide) (by decide) (by decide)
  have default : Scans " default plugins;\n".toList _ :=
    value.word (g := [' ']) (n := "default".toList) (by decide) (by decide) (by decide)
  exact default.word (g := ['\n']) (n := "export".toList) (by decide) (by decide) (by decide)

/-- The text of the export of a plugin, before another text. -/
def exportText (name : String) (rest : List Char) : List Char :=
  "export".toList ++ ' ' :: ("const".toList ++ ' ' :: (name.toList ++ ' ' :: '=' :: ' ' ::
    ("plugins".toList ++ '[' :: '"' :: (name.toList ++ '"' :: ']' :: ';' :: '\n' :: rest))))

theorem scans_export {rest : List Char} {kinds : List TokenKind} (more : Scans ('\n' :: rest) kinds)
    (identifier : IsName name.toList) :
    Scans ('\n' :: exportText name rest) (exportKinds name ++ kinds) := by
  have closed : Scans (';' :: '\n' :: rest) _ :=
    more.mark (g := []) (by decide) rfl (by decide) (by decide) nofun (by simp)
  have bracket : Scans (']' :: ';' :: '\n' :: rest) _ :=
    closed.mark (g := []) (by decide) rfl (by decide) (by decide) nofun (by simp)
  have text : Scans ('"' :: (name.toList ++ '"' :: ']' :: ';' :: '\n' :: rest)) _ :=
    bracket.text (g := []) (by decide) identifier
  have opened : Scans ('[' :: '"' :: (name.toList ++ '"' :: ']' :: ';' :: '\n' :: rest)) _ :=
    text.mark (g := []) (by decide) rfl (by decide) (by decide) nofun (by simp)
  have value : Scans (' ' :: ("plugins".toList ++ _)) _ :=
    opened.word (g := [' ']) (n := "plugins".toList) (by decide) (by decide) (by decide)
  have equals : Scans (' ' :: '=' :: ' ' :: ("plugins".toList ++ _)) _ :=
    value.mark (g := [' ']) (by decide) rfl (by decide) (by decide) nofun (by simp)
  have bound : Scans (' ' :: (name.toList ++ _)) _ :=
    equals.word (g := [' ']) (by decide) identifier (by decide)
  have const : Scans (' ' :: ("const".toList ++ _)) _ :=
    bound.word (g := [' ']) (n := "const".toList) (by decide) (by decide) (by decide)
  have exporting :=
    const.word (g := ['\n']) (n := "export".toList) (by decide) (by decide) (by decide)
  simp only [String.ofList_toList] at exporting
  exact exporting

/-- The text of all exports. -/
def exportsText (names : List String) : List Char :=
  names.foldr exportText "export default plugins;\n".toList

theorem scans_exports (identifiers : ∀ name ∈ names, IsName name.toList) :
    Scans ('\n' :: exportsText names) (names.flatMap exportKinds ++ lastKinds) := by
  induction names with
  | nil => exact scans_last
  | cons name names ih =>
    obtain ⟨own, others⟩ := List.forall_mem_cons.mp identifiers
    rw [List.flatMap_cons, List.append_assoc]
    exact scans_export (ih others) own

/-- The text of the constant that holds the plugins, before another text. -/
def headText (rest : List Char) : List Char :=
  "const".toList ++ ' ' :: ("plugins".toList ++ ' ' :: '=' :: ' ' :: ("globalThis".toList ++ '.' ::
    (pluginsGlobal.toList ++ ';' :: '\n' :: rest)))

theorem scans_head {rest : List Char} {kinds : List TokenKind} (more : Scans ('\n' :: rest) kinds) :
    Scans (headText rest) (headKinds ++ kinds) := by
  have closed : Scans (';' :: '\n' :: rest) _ :=
    more.mark (g := []) (by decide) rfl (by decide) (by decide) nofun (by simp)
  have member : Scans (pluginsGlobal.toList ++ ';' :: '\n' :: rest) _ :=
    closed.word (g := []) (n := pluginsGlobal.toList) (by decide) (by decide) (by decide)
  have dot : Scans ('.' :: (pluginsGlobal.toList ++ ';' :: '\n' :: rest)) _ :=
    member.mark (g := []) (by decide) rfl (by decide) (by decide) (fun _ => rfl) (by simp)
  have value : Scans (' ' :: ("globalThis".toList ++ _)) _ :=
    dot.word (g := [' ']) (n := "globalThis".toList) (by decide) (by decide) (by decide)
  have equals : Scans (' ' :: '=' :: ' ' :: ("globalThis".toList ++ _)) _ :=
    value.mark (g := [' ']) (by decide) rfl (by decide) (by decide) nofun (by simp)
  have bound : Scans (' ' :: ("plugins".toList ++ _)) _ :=
    equals.word (g := [' ']) (n := "plugins".toList) (by decide) (by decide) (by decide)
  exact bound.word (g := []) (n := "const".toList) (by decide) (by decide) (by decide)

theorem toList_export {quoted : String} (own : quoted.toList = '"' :: (name.toList ++ ['"']))
    (rest : List Char) : ("export const " ++ name ++ " = plugins[" ++ quoted ++ "];\n").toList ++
      rest = exportText name rest := by
  simp only [String.toList_append, own, List.append_assoc]
  rw [List.cons_append, List.append_assoc]
  rfl

theorem toList_exports (identifiers : ∀ name ∈ names, IsName name.toList) :
    (String.join (names.map fun name =>
      "export const " ++ name ++ " = plugins[" ++ Text.quoted name ++ "];\n")).toList ++
        "export default plugins;\n".toList = exportsText names := by
  rw [String.toList_join]
  induction names with
  | nil => rfl
  | cons name names ih =>
    obtain ⟨own, others⟩ := List.forall_mem_cons.mp identifiers
    rw [List.map_cons, List.flatMap_cons, List.append_assoc, ih others]
    exact toList_export (quoted_of_isName own) _

theorem toList_head {exports last : String} {rest : List Char}
    (own : exports.toList ++ last.toList = rest) :
    ("const plugins = globalThis." ++ pluginsGlobal ++ ";\n" ++ exports ++ last).toList =
      headText rest := by
  simp only [String.toList_append, List.append_assoc, own]
  rfl

theorem toList_pluginSource (names : List String) :
    (pluginSource names).toList = headText (exportsText (exported names)) :=
  toList_head (toList_exports fun _ mem => isName_of_isIdentifier (isIdentifier_of_mem_exported mem))

theorem scans_pluginSource (names : List String) : Scans (pluginSource names).toList
    (headKinds ++ ((exported names).flatMap exportKinds ++ lastKinds)) := by
  rw [toList_pluginSource]
  exact scans_head (scans_exports fun name mem =>
    isName_of_isIdentifier (isIdentifier_of_mem_exported mem))

/-! ### Its statements -/

def headStatement : Stmt :=
  .declare .const [.assign (.name "plugins") (.dot (.name "globalThis") pluginsGlobal)]

def exportStatement (name : String) : Stmt :=
  .declare .const [.assign (.name name) (.at (.name "plugins") (.text name))]

def lastStatement : Stmt := .declare .const [.assign (.name defaultVariable) (.name "plugins")]

def pluginExports (names : List String) : List Export :=
  names.map (fun name => .variable name name) ++ [.variable "default" defaultVariable]

/-- The module of plugins as a program. -/
def pluginProgram (names : List String) : Program where
  requests := []
  imports := []
  exports := pluginExports (exported names)
  body := headStatement :: ((exported names).map exportStatement ++ [lastStatement])

/-- What a reader has found. -/
def found (r : List Stmt × Unread) : Program where
  requests := r.2.requests
  imports := r.2.imports
  exports := r.2.exports
  body := r.1

theorem map_found_cons (s : Stmt) (r : Option (List Stmt × Unread)) :
    (r.map fun q => (s :: q.1, q.2)).map found =
      (r.map found).map fun p => { p with body := s :: p.body } := by
  cases r <;> rfl

section
variable {c : Unread} {p : Place}

theorem items_last (kinds : c.tokens.map Token.kind = lastKinds) (k : Nat) :
    (moduleItems (k + 9) p c).map found =
      some ⟨c.requests, c.imports, c.exports ++ pluginExports [], [lastStatement]⟩ := by
  simp only [lastKinds, List.map_eq_cons_iff, List.map_eq_nil_iff] at kinds
  obtain ⟨export', _, tokens, exporting, default', _, rfl, default, value, _, rfl, plugins, z, _, rfl,
    semicolon, rfl⟩ := kinds
  rw [moduleItems_export tokens exporting, exportItem_default rfl default,
    exportDefault_of_variable rfl plugins (by decide) semicolon, Option.bind_some,
    moduleItems_nil rfl]
  rfl

/-- The export of a plugin is read unless nothing can be stored in its name. -/
theorem exportItem_of_kinds {rest : List TokenKind} (export' : Token) {ts : List Token}
    (kinds : ts.map Token.kind = (exportKinds name).tail ++ rest) (k : Nat) :
    ∃ z ts', ts'.map Token.kind = rest ∧
      exportItem (k + 15) p (after c export' ts) = if isUnbindable name then none
        else some (exportStatement name,
          { after c z ts' with exports := c.exports ++ [.variable name name] }) := by
  simp only [exportKinds, List.tail_cons, List.cons_append, List.nil_append, List.map_eq_cons_iff]
    at kinds
  obtain ⟨const', _, rfl, const, name', _, rfl, own, equals', _, rfl, equals, plugins', _, rfl, plugins,
    bracket', _, rfl, bracket, text', _, rfl, text, closed', _, rfl, closed, z, ts', rfl, semicolon,
    rfl⟩ := kinds
  refine ⟨z, ts', rfl, ?_⟩
  have leading : Leading (after (after c export' (const' :: name' :: equals' :: plugins' ::
      bracket' :: text' :: closed' :: z :: ts')) equals'
        (plugins' :: bracket' :: text' :: closed' :: z :: ts')) :=
    ⟨⟨plugins', _, rfl, plugins ▸ .name (by decide)⟩, by simp [bracket, markOf]⟩
  have value := assignment_of_access (p := p) leading
    (access_entry (k := k) rfl plugins (by decide) bracket text closed (semicolon ▸ .semicolon))
    ⟨z, ts', rfl, semicolon ▸ .semicolon⟩
  have item := exportItem_of_assignment rfl const own equals value rfl rfl semicolon
  exact item

theorem items_exports (kinds : c.tokens.map Token.kind = names.flatMap exportKinds ++ lastKinds)
    (k : Nat) : (moduleItems (names.length + (k + 16)) p c).map found =
      if ∀ name ∈ names, isUnbindable name = false then
        some ⟨c.requests, c.imports, c.exports ++ pluginExports names,
          names.map exportStatement ++ [lastStatement]⟩
      else none := by
  induction names generalizing c with
  | nil =>
    rw [if_pos fun _ mem => absurd mem List.not_mem_nil]
    exact (Nat.zero_add (k + 16)).symm ▸ items_last kinds (k + 7)
  | cons name names ih =>
    rw [List.flatMap_cons, List.append_assoc] at kinds
    obtain ⟨export', ts, tokens, exporting, kinds⟩ := List.map_eq_cons_iff.mp kinds
    obtain ⟨z, ts', kinds, item⟩ := exportItem_of_kinds (c := c) (p := p) export' kinds
      (names.length + (k + 1))
    have more := ih (c := { after c z ts' with exports := c.exports ++ [.variable name name] }) kinds
    have fuel : (name :: names).length + (k + 16) = names.length + (k + 1) + 15 + 1 := by
      rw [List.length_cons]
      omega
    rw [fuel, moduleItems_export tokens exporting, item]
    cases unbindable : isUnbindable name with
    | true =>
      have refused : ¬ ∀ n ∈ name :: names, isUnbindable n = false := fun free => by
        simpa [unbindable] using free name List.mem_cons_self
      rw [if_neg refused]
      rfl
    | false =>
      rw [if_neg Bool.false_ne_true, Option.bind_some, map_found_cons, Nat.add_assoc, more]
      simp only [List.forall_mem_cons, unbindable, true_and]
      split
      · rw [Option.map_some, List.append_assoc]
        rfl
      · rfl

theorem items_module (kinds : c.tokens.map Token.kind =
      headKinds ++ ((exported names).flatMap exportKinds ++ lastKinds))
    (k : Nat) : (moduleItems ((exported names).length + (k + 17)) p c).map found =
      if ∀ name ∈ exported names, isUnbindable name = false then
        some ⟨c.requests, c.imports, c.exports ++ pluginExports (exported names),
          headStatement :: ((exported names).map exportStatement ++ [lastStatement])⟩
      else none := by
  simp only [headKinds, List.cons_append, List.nil_append, List.map_eq_cons_iff] at kinds
  obtain ⟨const', _, tokens, const, name', _, rfl, own, equals', _, rfl, equals, globals', _, rfl,
    globals, dot', _, rfl, dot, member', _, rfl, member, z, ts, rfl, semicolon, kinds⟩ := kinds
  have leading : Leading (after c equals' (globals' :: dot' :: member' :: z :: ts)) :=
    ⟨⟨globals', _, rfl, globals ▸ .name (by decide)⟩, by simp [dot, markOf]⟩
  have value := assignment_of_access (p := p) leading
    (access_member (k := (exported names).length + (k + 7)) rfl globals (by decide) dot member
      (semicolon ▸ .semicolon)) ⟨z, ts, rfl, semicolon ▸ .semicolon⟩
  have read := statement_of_assignment tokens const own equals value rfl rfl semicolon
  have statement : statement ((exported names).length + (k + 16)) p true c =
      some (headStatement, after c z ts) := read
  rw [show (exported names).length + (k + 17) = (exported names).length + (k + 16) + 1 from rfl,
    moduleItems_const tokens const, statement, Option.bind_some, map_found_cons,
    items_exports (c := after c z ts) kinds k]
  split
  · rfl
  · rfl

end

/-! ### Reading the module -/

theorem mem_exported_iff : name ∈ exported names ↔
    name ∈ names ∧ isIdentifier name = true ∧ name ≠ "default" := by
  rw [exported, List.mem_filter, Bool.and_eq_true, bne_iff_ne]

/-- The names that are bound are apart unless a plugin has the name of the constant. -/
theorem nodup_pluginBindings_iff (distinct : names.Nodup) :
    (pluginBindings names).Nodup ↔ "plugins" ∉ exported names := by
  have apart : (exported names).Nodup := distinct.filter _
  rw [pluginBindings, List.nodup_cons, and_iff_left apart]

theorem bindable_iff (distinct : names.Nodup) : Bindable (pluginBindings names) ↔
    ∀ name ∈ exported names, name ≠ "plugins" ∧ isUnbindable name = false := by
  constructor
  · intro bindable name mem
    refine ⟨?_, bindable.free name (List.mem_cons_of_mem _ mem)⟩
    rintro rfl
    exact (nodup_pluginBindings_iff distinct).mp bindable.distinct mem
  · intro each
    refine ⟨(nodup_pluginBindings_iff distinct).mpr fun mem => (each _ mem).1 rfl, ?_⟩
    exact List.forall_mem_cons.mpr ⟨by decide, fun name mem => (each name mem).2⟩

/-- The names that statements declare in their block. -/
def declared (body : List Stmt) : List String :=
  body.flatMap fun s => (lexicalNames s).map (·.1) ++ (functionOf? s).toList.map (·.1)

theorem declared_pluginProgram (names : List String) : declared (pluginProgram names).body =
    pluginBindings names ++ [defaultVariable] := by
  have each : ∀ ns : List String, declared (ns.map exportStatement ++ [lastStatement]) =
      ns ++ [defaultVariable] := by
    intro ns
    induction ns with
    | nil => rfl
    | cons n ns ih => exact congrArg (n :: ·) ih
  exact congrArg ("plugins" :: ·) (each (exported names))

theorem varNamesOf_pluginProgram (names : List String) :
    varNamesOf (pluginProgram names).body = [] := by
  have each : ∀ ns : List String, varNamesOf (ns.map exportStatement ++ [lastStatement]) = [] := by
    intro ns
    induction ns with
    | nil => rfl
    | cons n ns ih => exact ih
  exact each (exported names)

/-- A module that only exports variables and has no `var`. -/
theorem isModuleValid_iff_of_plain {p : Program} {given : List (String × String)}
    (imports : p.imports = []) (vars : varNamesOf p.body = [])
    (exports : p.exports = given.map fun x => .variable x.1 x.2) :
    isModuleValid p = true ↔ (declared p.body).Nodup ∧ (given.map Prod.fst).Nodup ∧
      ∀ x ∈ given, x.2 ∈ declared p.body := by
  rw [isModuleValid, vars, imports, exports, ← declared]
  simp [isDistinct, and_assoc, List.filterMap_map, Function.comp_def]

theorem isModuleValid_iff (distinct : names.Nodup) :
    isModuleValid (pluginProgram names) = true ↔ "plugins" ∉ exported names := by
  have apart : (exported names).Nodup := distinct.filter _
  have noStar : defaultVariable ∉ pluginBindings names := by
    rw [pluginBindings, List.mem_cons, not_or]
    exact ⟨by decide, fun mem => absurd (mem_exported_iff.mp mem).2.1 (by decide)⟩
  have noDefault : "default" ∉ exported names := fun mem => (mem_exported_iff.mp mem).2.2 rfl
  have exports : pluginExports (exported names) =
      ((exported names).map (fun name => (name, name)) ++ [("default", defaultVariable)]).map
        fun x => .variable x.1 x.2 := by
    rw [pluginExports, List.map_append, List.map_map]
    rfl
  rw [isModuleValid_iff_of_plain rfl (varNamesOf_pluginProgram names) exports,
    declared_pluginProgram, ← List.concat_eq_append, List.nodup_concat, and_iff_right noStar,
    nodup_pluginBindings_iff distinct, List.concat_eq_append]
  refine and_iff_left ⟨?_, ?_⟩
  · rw [List.map_append, List.map_map]
    change ((exported names).map id ++ ["default"]).Nodup
    rw [List.map_id, ← List.concat_eq_append, List.nodup_concat]
    exact ⟨noDefault, apart⟩
  · intro x mem
    rcases List.mem_append.mp mem with mem | mem
    · obtain ⟨name, bound, rfl⟩ := List.mem_map.mp mem
      exact List.mem_append_left _ (List.mem_cons_of_mem _ bound)
    · rw [List.mem_singleton.mp mem]
      exact List.mem_append_right _ (List.mem_singleton_self _)

theorem length_le_exportKinds (names : List String) :
    names.length ≤ (names.flatMap exportKinds).length := by
  induction names with
  | nil => exact Nat.le_refl _
  | cons name names ih =>
    rw [List.flatMap_cons, List.length_append, List.length_cons]
    change _ ≤ 9 + _
    omega

theorem exists_fuelFor {ts : List Token}
    (kinds : ts.map Token.kind = headKinds ++ ((exported names).flatMap exportKinds ++ lastKinds)) :
    ∃ k, fuelFor ts.length = (exported names).length + (k + 17) := by
  have size := congrArg List.length kinds
  rw [List.length_map, List.length_append, List.length_append] at size
  have := length_le_exportKinds (exported names)
  exact ⟨fuelFor ts.length - (exported names).length - 17, by rw [fuelFor]; omega⟩

/-- The module is read as its program if its names can be bound, and else not at all. -/
theorem ofText?_pluginSource (distinct : names.Nodup) :
    Program.ofText? true (pluginSource names) =
      if ∀ name ∈ exported names, name ≠ "plugins" ∧ isUnbindable name = false then
        some (pluginProgram names)
      else none := by
  have start : (pluginSource names).toList.head? ≠ some '#' := by
    rw [toList_pluginSource]
    change some 'c' ≠ some '#'
    decide
  obtain ⟨ts, tokens, kinds⟩ := ofText?_of_scans (scans_pluginSource names) start
  obtain ⟨k, fuel⟩ := exists_fuelFor kinds
  have read := items_module (c := { tokens := ts })
    (p := { source := (pluginSource names).toList.toArray, checksNames := true }) kinds k
  rw [← fuel] at read
  rw [Program.ofText?, tokens, Option.bind_eq_bind, Option.bind_some]
  dsimp only
  by_cases free : ∀ name ∈ exported names, isUnbindable name = false
  · rw [if_pos free] at read
    obtain ⟨r, items, same⟩ := Option.map_eq_some_iff.mp read
    have own : found r = pluginProgram names := same
    rw [items, Option.bind_eq_bind, Option.bind_some]
    change (if (true && !isModuleValid (found r)) = true then none else some (found r)) = _
    rw [own, Bool.true_and]
    by_cases absent : "plugins" ∉ exported names
    · rw [(isModuleValid_iff distinct).mpr absent, if_neg (by decide), if_pos]
      exact fun name mem => ⟨fun same => absent (same ▸ mem), free name mem⟩
    · rw [Bool.eq_false_iff.mpr (mt (isModuleValid_iff distinct).mp absent), Bool.not_false,
        if_pos rfl, if_neg]
      exact fun each => absent fun mem => (each _ mem).1 rfl
  · rw [if_neg free] at read
    rw [Option.map_eq_none_iff.mp read, if_neg fun each => free fun name mem => (each name mem).2]
    rfl

end Stencil.Script.Link

/-! ### Scripts that ask for it -/

namespace Stencil.Script.Module
variable {resolve : String → String → Option String} {source? : String → Option String}
  {name source : String} {us : List Module} {pending : List String} {u : Module}

theorem of_read? (read : read? resolve name source = some u) :
    u.name = name ∧ Program.ofText? true source = some u.program := by
  obtain ⟨program, text, read⟩ := Option.bind_eq_some_iff.mp read
  obtain ⟨links, -, read⟩ := Option.bind_eq_some_iff.mp read
  cases read
  exact ⟨rfl, text⟩

/-- A module that cannot be read is never passed over. -/
theorem complete?_eq_none (unread : (source? name).bind (read? resolve name) = none) (fuel : Nat)
    (absent : find? us name = none) (mem : name ∈ pending) :
    complete? resolve source? fuel us pending = none := by
  induction fuel generalizing us pending with
  | zero =>
    cases pending with
    | nil => cases mem
    | cons first rest => rfl
  | succ fuel ih =>
    cases pending with
    | nil => cases mem
    | cons first rest =>
      rw [complete?]
      split
      · next there =>
        refine ih absent ((List.mem_cons.mp mem).resolve_left ?_)
        rintro rfl
        rw [absent] at there
        cases there
      · cases read : (source? first).bind (read? resolve first) with
        | none =>
          cases text : source? first with
          | none => rfl
          | some source =>
            rw [text, Option.bind_some] at read
            simp [read]
        | some u =>
          obtain ⟨source, text, read'⟩ := Option.bind_eq_some_iff.mp read
          have other : first ≠ name := by
            rintro rfl
            rw [read] at unread
            cases unread
          have later : find? (us ++ [u]) name = none := by
            rw [find?, List.find?_append, show us.find? (·.name == name) = none from absent]
            simp [(of_read? read').1, other]
          rw [text]
          simp only [Option.bind_eq_bind, Option.bind_some, read']
          exact ih later (List.mem_append_left _ ((List.mem_cons.mp mem).resolve_left (Ne.symm other)))

/-- A request that is resolved is among the links that are made of the requests. -/
theorem mem_of_mapM_resolve {requests : List String} {request target : String}
    {links : List (String × String)}
    (made : (requests.mapM fun request => (resolve name request).map (request, ·)) = some links)
    (resolved : resolve name request = some target) (mem : request ∈ requests) :
    (request, target) ∈ links := by
  induction requests generalizing links with
  | nil => cases mem
  | cons first rest ih =>
    rw [List.mapM_cons] at made
    obtain ⟨link, own, made⟩ := Option.bind_eq_some_iff.mp made
    obtain ⟨others, more, made⟩ := Option.bind_eq_some_iff.mp made
    cases made
    rcases List.mem_cons.mp mem with rfl | mem
    · rw [resolved] at own
      cases own
      exact List.mem_cons_self
    · exact List.mem_cons_of_mem _ (ih more mem)

theorem mem_links_of_read? (read : read? resolve name source = some u) {request target : String}
    (asks : request ∈ u.program.requests) (resolved : resolve name request = some target) :
    target ∈ u.links.map (·.2) := by
  obtain ⟨program, -, read⟩ := Option.bind_eq_some_iff.mp read
  obtain ⟨links, made, read⟩ := Option.bind_eq_some_iff.mp read
  cases read
  exact List.mem_map_of_mem (mem_of_mapM_resolve made resolved asks)

open Link in
theorem findSome?_pluginExports {β : Type} {names : List String} {f : Export → Option β} {b : β}
    (own : f (.variable name name) = some b) (others : ∀ n, n ≠ name → f (.variable n n) = none)
    (mem : name ∈ names) : (pluginExports names).findSome? f = some b := by
  induction names with
  | nil => cases mem
  | cons n names ih =>
    rw [show pluginExports (n :: names) = .variable n n :: pluginExports names from rfl]
    by_cases same : n = name
    · rw [same, List.findSome?_cons_of_isSome (by rw [own]; rfl), own]
    · rw [List.findSome?_cons_of_isNone (by rw [others n same]; rfl)]
      exact ih ((List.mem_cons.mp mem).resolve_left (Ne.symm same))

open Link in
/-- Every plugin that is exported is found by the modules that import it. -/
theorem meaning?_plugin {names : List String} (there : find? us pluginModule = some u)
    (program : u.program = pluginProgram names) (mem : name ∈ exported names) (fuel : Nat) :
    meaning? us (fuel + 1) pluginModule name = some (.variable u.scope name) := by
  rw [meaning?, there]
  simp only [Option.bind_eq_bind, Option.bind_some, program, pluginProgram]
  rw [findSome?_pluginExports (b := .inl name) (if_pos BEq.rfl)
    (fun n other => if_neg (by simp [other])) mem]
  rfl

end Stencil.Script.Module

namespace Stencil.Script
open Link

/-- No script runs that asks for the module of plugins where that cannot be read. -/
theorem sandbox_eq_failure {s : Settings} {r : ScriptRequest} {root : Program}
    (unread : Program.ofText? true (pluginSource (s.methods.map (·.1))) = none)
    (text : Program.ofText? true r.source = some root) (asks : pluginModule ∈ root.requests)
    (elsewhere : r.path ≠ pluginModule) :
    sandbox s r = (.error (.exception "Error: a module cannot be read"), []) := by
  have absent : ((source? s.files (s.methods.map (·.1)) pluginModule).bind
      (Module.read? (resolve? s.files) pluginModule)) = none := by
    have source : source? s.files (s.methods.map (·.1)) pluginModule =
        some (pluginSource (s.methods.map (·.1))) := by
      rw [source?, if_neg (by decide), if_pos (by decide)]
    rw [source, Option.bind_some, Module.read?, unread]
    rfl
  have unlinked : Sandbox.modules? s r = none := by
    rw [Sandbox.modules?]
    cases read : Module.read? (resolve? s.files) r.path r.source with
    | none => rfl
    | some u =>
      obtain ⟨path, program⟩ := Module.of_read? read
      obtain rfl := Option.some.inj (program.symm.trans text)
      have mem := Module.mem_links_of_read? read asks
        (show resolve? s.files r.path pluginModule = some pluginModule by
          rw [resolve?, if_pos (by decide)])
      have other : Module.find? [u] pluginModule = none := by
        rw [Module.find?, List.find?_singleton, path]
        simp [elsewhere]
      exact Module.complete?_eq_none absent 100000 other mem
  rw [sandbox, unlinked]

end Stencil.Script

namespace Stencil.Script.Link
open Grammar
variable {names : List String}

/-- The module of plugins is read, and gives every plugin that it exports, exactly if no plugin that
it exports is named like its own constant or by a word that nothing can be stored in. With any other
plugin the whole module cannot be read, and no script that asks for it runs. -/
theorem pluginModule_links_iff (distinct : names.Nodup) :
    (Bindable (pluginBindings names) ↔
      ∀ name ∈ exported names, name ≠ "plugins" ∧ isUnbindable name = false) ∧
    (Bindable (pluginBindings names) →
      Program.ofText? true (pluginSource names) = some (pluginProgram names) ∧
      ∀ us u, Module.find? us pluginModule = some u → u.program = pluginProgram names →
        ∀ name ∈ exported names, ∀ fuel,
          Module.meaning? us (fuel + 1) pluginModule name = some (.variable u.scope name)) ∧
    (¬ Bindable (pluginBindings names) →
      Program.ofText? true (pluginSource names) = none ∧
      ∀ (s : Settings) (r : ScriptRequest) (root : Program), s.methods.map (·.1) = names →
        Program.ofText? true r.source = some root → pluginModule ∈ root.requests →
        r.path ≠ pluginModule →
        sandbox s r = (.error (.exception "Error: a module cannot be read"), [])) := by
  have bindable := bindable_iff distinct
  have read := ofText?_pluginSource distinct
  refine ⟨bindable, fun able => ⟨?_, fun us u there program name mem fuel =>
    Module.meaning?_plugin there program mem fuel⟩, fun unable => ?_⟩
  · rw [read, if_pos (bindable.mp able)]
  · rw [if_neg (mt bindable.mpr unable)] at read
    refine ⟨read, ?_⟩
    rintro s r root rfl text asks elsewhere
    exact sandbox_eq_failure read text asks elsewhere

/-- Plugins whose names are no identifiers are left out, and the module is read. -/
theorem pluginModule_of_slug : ["slug", "max-width", "default"].Nodup ∧
    exported ["slug", "max-width", "default"] = ["slug"] ∧
    Program.ofText? true (pluginSource ["slug", "max-width", "default"]) =
      some (pluginProgram ["slug", "max-width", "default"]) :=
  have distinct : ["slug", "max-width", "default"].Nodup := by decide
  have links := pluginModule_links_iff distinct
  ⟨distinct, by decide, (links.2.1 (links.1.mpr (by decide))).1⟩

/-- One plugin that is named like the constant, or by a reserved word, takes the module away. -/
theorem pluginModule_unread : ["plugins", "slug"].Nodup ∧
    pluginBindings ["plugins", "slug"] = ["plugins", "plugins", "slug"] ∧
    Program.ofText? true (pluginSource ["plugins", "slug"]) = none ∧
    isReserved "class" = true ∧ pluginBindings ["class"] = ["plugins", "class"] ∧
    Program.ofText? true (pluginSource ["class"]) = none := by
  refine ⟨by decide, by decide, ?_, by decide, by decide, ?_⟩
  · rw [ofText?_pluginSource (by decide), if_neg (by decide)]
  · rw [ofText?_pluginSource (by decide), if_neg (by decide)]

end Stencil.Script.Link
