import Stencil.Proofs.Component.Client
import Stencil.Proofs.Json.Readback
/-!
What is handed to behaviors reaches them. Values and texts are written into the script as JSON whose
slashes may be escaped, so they are read back as they were, and the script holds those texts as they
have been written: only helpers and behaviors can hold an end tag that has to be opened.
-/
namespace Stencil

namespace Text

theorem replace_of_dropPrefix? {p : Char} {ps new s rest : List Char}
    (found : dropPrefix? (p :: ps) s = some rest) :
    replace p ps new s = new ++ replace p ps new rest := by
  have cut : cut? (p :: ps) s = some ([], rest) := by
    cases s with
    | nil => cases found
    | cons c s => rw [cut?, found]
  rw [replace]
  split
  · next none => rw [cut] at none; cases none
  · next before after here =>
    rw [cut] at here
    cases here
    rfl

theorem replace_cons {p c : Char} {ps s : List Char}
    (missing : dropPrefix? (p :: ps) (c :: s) = none) (new : List Char) :
    replace p ps new (c :: s) = c :: replace p ps new s := by
  have cut : cut? (p :: ps) (c :: s) =
      (cut? (p :: ps) s).map fun r => (c :: r.1, r.2) := by rw [cut?, missing]
  rw [replace]
  conv_rhs => rw [replace]
  split
  · next none =>
    rw [cut, Option.map_eq_none_iff] at none
    split
    · rfl
    · next found => rw [none] at found; cases found
  · next before after here =>
    rw [cut] at here
    obtain ⟨⟨before', after'⟩, found, same⟩ := Option.map_eq_some_iff.mp here
    cases same
    split
    · next none => rw [found] at none; cases none
    · next found' =>
      rw [found] at found'
      cases found'
      rfl

end Text

namespace Value

mutual

/-- No bag of values in the value has a key twice. -/
def WellKeyed : Value → Prop
  | text _ | markup _ => True
  | component _ values => Assoc.Distinct values ∧ WellKeyedEntries values
  | list items => WellKeyedItems items

def WellKeyedItems : List Value → Prop
  | [] => True
  | v :: rest => v.WellKeyed ∧ WellKeyedItems rest

def WellKeyedEntries : List (String × Value) → Prop
  | [] => True
  | (_, v) :: rest => v.WellKeyed ∧ WellKeyedEntries rest

end

theorem keys_entriesToJson (values : List (String × Value)) :
    Assoc.keys (entriesToJson values) = Assoc.keys values := by
  induction values with
  | nil => rfl
  | cons e rest ih => exact congrArg (e.1 :: ·) ih

mutual

theorem textual_toJson {v : Value} (keyed : v.WellKeyed) : v.toJson.Textual := by
  cases v with
  | text s => trivial
  | markup s => exact ⟨List.nodup_singleton _, trivial, trivial⟩
  | component id values =>
    refine ⟨by simp [Assoc.Distinct, Assoc.keys, componentMark], trivial, ⟨?_, ?_⟩, trivial⟩
    · rw [Assoc.Distinct, keys_entriesToJson]
      exact keyed.1
    · exact textual_entriesToJson keyed.2
  | list items => exact textual_itemsToJson keyed

theorem textual_itemsToJson {items : List Value} (keyed : WellKeyedItems items) :
    Json.TextualItems (itemsToJson items) := by
  cases items with
  | nil => trivial
  | cons v rest => exact ⟨textual_toJson keyed.1, textual_itemsToJson keyed.2⟩

theorem textual_entriesToJson {values : List (String × Value)} (keyed : WellKeyedEntries values) :
    Json.TextualEntries (entriesToJson values) := by
  cases values with
  | nil => trivial
  | cons e rest => exact ⟨textual_toJson keyed.1, textual_entriesToJson keyed.2⟩

end

end Value

/-- No key stands twice in the bag or in one inside it. -/
def Values.WellKeyed (values : Values) : Prop :=
  Assoc.Distinct values ∧ Value.WellKeyedEntries values

theorem Values.textual_toJson {values : Values} (keyed : values.WellKeyed) :
    values.toJson.Textual := by
  refine ⟨?_, Value.textual_entriesToJson keyed.2⟩
  rw [Assoc.Distinct, Value.keys_entriesToJson]
  exact keyed.1

namespace Bundle
open Text

/-! ### Safe JSON -/

theorem escapeSlashes_of_head {s : List Char} (other : s.head? ≠ some '/') (angle : Bool) :
    Json.escapeSlashes angle s = Json.escapeSlashes false s := by
  cases s with
  | nil => rfl
  | cons c s =>
    have slash : c ≠ '/' := by simpa using other
    rw [Json.escapeSlashes_cons slash, Json.escapeSlashes_cons slash]

/-- Replacing end tags is putting backslashes before their slashes. -/
theorem replace_endTag (s : List Char) :
    replace '<' ['/'] ['<', '\\', '/'] s = Json.escapeSlashes false s := by
  match s with
  | [] =>
    rw [replace]
    rfl
  | [c] =>
    have missing : dropPrefix? ['<', '/'] [c] = none := by
      rw [dropPrefix?]
      split
      · rfl
      · rfl
    rw [replace_cons missing, replace_endTag []]
    rfl
  | c :: d :: s =>
    by_cases tag : c = '<' ∧ d = '/'
    · obtain ⟨rfl, rfl⟩ := tag
      have found : dropPrefix? ['<', '/'] ('<' :: '/' :: s) = some s := rfl
      rw [replace_of_dropPrefix? found, replace_endTag s]
      rfl
    · have missing : dropPrefix? ['<', '/'] (c :: d :: s) = none := by
        rw [Option.eq_none_iff_forall_ne_some]
        intro r found
        have same := eq_append_of_dropPrefix? found
        exact tag ⟨(List.cons.inj same).1, (List.cons.inj (List.cons.inj same).2).1⟩
      have first : Json.escapeSlashes false (c :: d :: s) =
          c :: Json.escapeSlashes (c == '<') (d :: s) := rfl
      rw [replace_cons missing, replace_endTag (d :: s), first]
      by_cases angle : c = '<'
      · rw [escapeSlashes_of_head (by simpa [angle] using tag) (c == '<')]
      · rw [beq_false_of_ne angle]

theorem toList_safe (s : String) : (safe s).toList = Json.escapeSlashes false s.toList := by
  have unfolded : safe s = String.ofList (replace '<' ['/'] ['<', '\\', '/'] s.toList) := rfl
  rw [unfolded, String.toList_ofList, replace_endTag]

theorem safe_write (j : Json) :
    safe j.write = String.ofList (Json.escapeSlashes false j.writeChars) := by
  rw [← String.ofList_toList (s := safe j.write), toList_safe, Json.write, String.toList_ofList]

theorem no_endTag_safe (s : String) : ¬ "</".toList <:+: (safe s).toList :=
  toList_safe s ▸ (Json.no_end_tag_escapeSlashes false s.toList).1

/-! ### Texts that stay as they are -/

/-- Opening end tags makes `t` of `s`, whatever comes after it. -/
def Becomes (s t : String) : Prop :=
  ∀ rest, openTags (s.toList ++ rest) = t.toList ++ openTags rest

theorem Becomes.append {s s' t t' : String} (first : Becomes s t) (second : Becomes s' t') :
    Becomes (s ++ s') (t ++ t') := by
  intro rest
  rw [String.toList_append, String.toList_append, List.append_assoc, first, second,
    List.append_assoc]

theorem becomes_empty : Becomes "" "" := fun _ => rfl

theorem becomes_join {α : Type} {f g : α → String} {as : List α}
    (each : ∀ a ∈ as, Becomes (f a) (g a)) :
    Becomes (String.join (as.map f)) (String.join (as.map g)) := by
  induction as with
  | nil => exact becomes_empty
  | cons a as ih =>
    obtain ⟨head, tail⟩ := List.forall_mem_cons.mp each
    have parts := head.append (ih tail)
    rwa [List.map_cons, List.map_cons, String.join_cons, String.join_cons]

theorem becomes_intercalate {sep : String} (stays : Becomes sep sep) {ss : List String}
    (each : ∀ s ∈ ss, Becomes s s) :
    Becomes (String.intercalate sep ss) (String.intercalate sep ss) := by
  induction ss with
  | nil => exact becomes_empty
  | cons s ss ih =>
    obtain ⟨head, tail⟩ := List.forall_mem_cons.mp each
    cases ss with
    | nil => rwa [String.intercalate_singleton]
    | cons t ss =>
      rw [String.intercalate_cons_cons]
      exact (head.append stays).append (ih tail)

theorem eq_slash_of_caseless {c : Char} (slash : '/' = caseless c) : c = '/' := by
  rw [caseless] at slash
  split at slash
  · cases slash
  · have same := apply_toLower (f := (· == '/')) (by decide) c
    simpa [← slash] using same.symm

/-- A text without the start of an end tag stays as it is. -/
theorem becomes_self {s : String} (missing : ¬ "</".toList <:+: s.toList)
    (last : s.toList.getLast? ≠ some '<') : Becomes s s := by
  intro rest
  generalize s.toList = t at missing last
  induction t with
  | nil => rfl
  | cons c t ih =>
    have later : ¬ "</".toList <:+: t := fun found => missing (List.infix_cons_iff.mpr (.inr found))
    have plain : ¬ startsWith "</script".toList ((c :: (t ++ rest)).map caseless) = true := by
      rw [startsWith_iff]
      change ¬ '<' :: '/' :: "script".toList <+: _
      intro start
      obtain ⟨angle, follows⟩ := List.cons_prefix_cons.mp start
      obtain rfl := eq_angle_of_caseless angle
      cases t with
      | nil => exact last rfl
      | cons d t =>
        obtain ⟨slash, -⟩ := List.cons_prefix_cons.mp follows
        obtain rfl := eq_slash_of_caseless slash
        exact missing (List.infix_cons_iff.mpr (.inl ⟨t, rfl⟩))
    rw [List.cons_append, openTags, if_neg plain]
    cases t with
    | nil => rfl
    | cons d t =>
      rw [ih later (by simpa using last)]
      rfl

theorem prefix_append_cons_iff {p a b : List Char} {c : Char} (apart : c ∉ p) :
    p <+: a ++ c :: b ↔ p <+: a := by
  refine ⟨fun start => ?_, fun start => start.trans (List.prefix_append a _)⟩
  induction p generalizing a with
  | nil => exact List.nil_prefix
  | cons e p ih =>
    obtain ⟨other, apart⟩ := not_or.mp (mt List.mem_cons.mpr apart)
    cases a with
    | nil => exact absurd (List.cons_prefix_cons.mp start).1.symm other
    | cons d a =>
      obtain ⟨same, start⟩ := List.cons_prefix_cons.mp start
      exact List.cons_prefix_cons.mpr ⟨same, ih apart start⟩

/-- No end tag reaches over a character that none holds. -/
theorem openTags_append {c : Char} (apart : caseless c ∉ "</script".toList) (a b : List Char) :
    openTags (a ++ c :: b) = openTags a ++ openTags (c :: b) := by
  induction a with
  | nil => rfl
  | cons d a ih =>
    have same : startsWith "</script".toList ((d :: (a ++ c :: b)).map caseless) =
        startsWith "</script".toList ((d :: a).map caseless) := by
      rw [Bool.eq_iff_iff, startsWith_iff, startsWith_iff, ← List.cons_append, List.map_append]
      exact prefix_append_cons_iff apart
    rw [List.cons_append, openTags, same, openTags, ih]
    split
    · rfl
    · rfl

/-- A text with its end tags opened. -/
def opened (s : String) : String := String.ofList (openTags s.toList)

theorem becomes_opened {sep : String} {c : Char} {after : List Char}
    (start : sep.toList = c :: after) (apart : caseless c ∉ "</script".toList)
    (stays : Becomes sep sep) (s : String) :
    Becomes (s ++ sep) (opened s ++ sep) := by
  intro rest
  rw [String.toList_append, String.toList_append, opened, String.toList_ofList, List.append_assoc,
    List.append_assoc, ← stays rest, start, List.cons_append, openTags_append apart]

/-! ### The whole script -/

/-- A script from its parts. -/
def layout (helpers imports : List String) (functions : List (String × String))
    (instances : List ClientInstance) : String :=
  String.join (imports.map fun i => "import " ++ literal i ++ ";\n") ++ "(() => \x7b\n" ++
    String.join (helpers.map (· ++ "\n")) ++ "const definitions = \x7b\x7d;\n" ++
    String.join (functions.map fun (id, f) =>
      "definitions[" ++ literal id ++ "] = (" ++ f ++ ");\n") ++
    String.join (instances.map call) ++ "\x7d)();\n"

theorem assemble_eq (helpers imports : List String) (instances : List ClientInstance) :
    assemble helpers imports instances = layout helpers imports (definitions instances) instances :=
  rfl

theorem becomes_constant {s : String} (plain : '<' ∉ s.toList) : Becomes s s := by
  refine becomes_self (fun found => plain ?_) (fun last => plain (List.mem_of_getLast? last))
  exact found.subset (List.mem_cons_self)

/-- Safe JSON stays as it is when it ends with the sign that closes it. -/
theorem becomes_safe {j : Json} {w : List Char} {c : Char} (closed : j.writeChars = w ++ [c])
    (slash : c ≠ '/') (angle : c ≠ '<') : Becomes (safe j.write) (safe j.write) := by
  refine becomes_self (no_endTag_safe _) ?_
  rw [toList_safe, Json.write, String.toList_ofList, closed, Json.getLast?_escapeSlashes _ _ slash]
  simpa using angle

theorem becomes_literal (t : String) : Becomes (literal t) (literal t) :=
  becomes_safe (j := .string t) rfl (by decide) (by decide)

theorem becomes_values (values : Values) :
    Becomes (safe values.toJson.write) (safe values.toJson.write) :=
  becomes_safe (j := values.toJson) rfl (by decide) (by decide)

theorem becomes_ref (r : String × String) :
    Becomes (literal r.1 ++ ": document.querySelector(" ++ literal r.2 ++ ")")
      (literal r.1 ++ ": document.querySelector(" ++ literal r.2 ++ ")") :=
  (((becomes_literal r.1).append (becomes_constant (by decide))).append
    (becomes_literal r.2)).append (becomes_constant (by decide))

theorem becomes_call (i : ClientInstance) : Becomes (call i) (call i) := by
  have refs : ∀ r ∈ i.refs.map fun r => literal r.1 ++ ": document.querySelector(" ++ literal r.2 ++
      ")", Becomes r r := by
    intro r mem
    obtain ⟨ref, -, rfl⟩ := List.mem_map.mp mem
    exact becomes_ref ref
  unfold call
  refine Becomes.append ?_ (becomes_constant (by decide))
  refine Becomes.append ?_ (becomes_intercalate (becomes_constant (by decide)) refs)
  refine Becomes.append ?_ (becomes_constant (by decide))
  refine Becomes.append ?_ (becomes_values i.values)
  refine Becomes.append ?_ (becomes_constant (by decide))
  exact (becomes_constant (by decide)).append (becomes_literal i.template)

/-- In a whole script only the helpers and the functions change. -/
theorem becomes_layout (helpers imports : List String) (functions : List (String × String))
    (instances : List ClientInstance) :
    Becomes (layout helpers imports functions instances)
      (layout (helpers.map opened) imports (functions.map fun (id, f) => (id, opened f))
        instances) := by
  have importLine : ∀ i ∈ imports, Becomes ("import " ++ literal i ++ ";\n")
      ("import " ++ literal i ++ ";\n") := fun i _ =>
    ((becomes_constant (by decide)).append (becomes_literal i)).append
      (becomes_constant (by decide))
  have helperLine : ∀ h ∈ helpers, Becomes (h ++ "\n") (opened h ++ "\n") := fun h _ =>
    becomes_opened (c := '\n') rfl (by decide) (becomes_constant (by decide)) h
  have function : ∀ d ∈ functions,
      Becomes ("definitions[" ++ literal d.1 ++ "] = (" ++ d.2 ++ ");\n")
        ("definitions[" ++ literal d.1 ++ "] = (" ++ opened d.2 ++ ");\n") := by
    intro d _
    have line : ∀ f, "definitions[" ++ literal d.1 ++ "] = (" ++ f ++ ");\n" =
        "definitions[" ++ literal d.1 ++ "] = (" ++ (f ++ ");\n") := fun _ => String.append_assoc
    rw [line, line]
    refine Becomes.append ?_
      (becomes_opened (c := ')') rfl (by decide) (becomes_constant (by decide)) d.2)
    exact ((becomes_constant (by decide)).append (becomes_literal d.1)).append
      (becomes_constant (by decide))
  rw [layout, layout, List.map_map, List.map_map]
  refine Becomes.append ?_ (becomes_constant (by decide))
  refine Becomes.append ?_ (becomes_join fun i _ => becomes_call i)
  refine Becomes.append ?_ (becomes_join function)
  refine Becomes.append ?_ (becomes_constant (by decide))
  refine Becomes.append ?_ (becomes_join helperLine)
  exact (becomes_join importLine).append (becomes_constant (by decide))

theorem opened_layout (helpers imports : List String) (functions : List (String × String))
    (instances : List ClientInstance) :
    opened (layout helpers imports functions instances) =
      layout (helpers.map opened) imports (functions.map fun (id, f) => (id, opened f))
        instances := by
  have whole := becomes_layout helpers imports functions instances []
  rw [List.append_nil, openTags, List.append_nil] at whole
  rw [opened, whole, String.ofList_toList]

/-- Helpers of plugins, those without text left out. -/
def helpersOf (modules : List ClientModule) : List String :=
  (modules.map fun m => trimmed m.helpers).filter (!·.isEmpty)

def importsOf (modules : List ClientModule) : List String := distinct (modules.flatMap (·.imports))

section
variable {minify : Option (String → Option String)} {modules : List ClientModule}
  {instances : List ClientInstance} {b : Bundle} {logs : List LogEntry}

theorem draft_of_full (made : ofInstances minify modules instances = some (b, logs))
    (full : b.isMinified = false) :
    draft minify modules instances =
      layout (helpersOf modules) (importsOf modules) (definitions instances) instances := by
  rw [ofInstances] at made
  split at made
  · cases made
  · cases minify with
    | none => exact assemble_eq _ _ instances
    | some shorten =>
      simp only at made
      split at made
      · cases made
        cases full
      · next failed =>
        rw [draft, Option.bind_some, failed]
        exact assemble_eq _ _ instances

theorem source_of_full (made : ofInstances minify modules instances = some (b, logs))
    (full : b.isMinified = false) :
    b.source = layout ((helpersOf modules).map opened) (importsOf modules)
      ((definitions instances).map fun (id, f) => (id, opened f)) instances := by
  rw [← opened_layout, ← draft_of_full made full, opened, ← source_eq made, String.ofList_toList]

end

/-- What is handed to behaviors reaches them. Values and texts stand in the script without an end
tag, and are read back from there as they were, the values unless the reader limits nesting and they
nest deeper. A script that has not been shortened is laid out with those texts as they are: opening
end tags changes helpers and functions only. -/
theorem payload_read_back :
    (∀ values : Values, values.WellKeyed →
      ¬ "</".toList <:+: (safe values.toJson.write).toList ∧
      Json.readAll (safe values.toJson.write) = some values.toJson ∧
      Json.read? (safe values.toJson.write) =
        if values.toJson.depth ≤ Json.maxDepth then some values.toJson else none) ∧
    (∀ t, ¬ "</".toList <:+: (literal t).toList ∧
      Json.read? (literal t) = some (.string t)) ∧
    ∀ minify modules instances b logs, ofInstances minify modules instances = some (b, logs) →
      b.isMinified = false →
      b.source = layout ((helpersOf modules).map opened) (importsOf modules)
        ((definitions instances).map fun (id, f) => (id, opened f)) instances := by
  refine ⟨fun values keyed => ⟨no_endTag_safe _, ?_, ?_⟩, fun t => ⟨no_endTag_safe _, ?_⟩,
    fun minify modules instances b logs made full => source_of_full made full⟩
  · rw [safe_write, Json.readAll_escaped (Values.textual_toJson keyed)]
  · rw [safe_write, Json.read?_eq_readWithin,
      Json.readWithin_escaped (Values.textual_toJson keyed)]
  · have textual : (Json.string t).Textual := trivial
    rw [literal, safe_write, Json.read?_eq_readWithin, Json.readWithin_escaped textual]
    rfl

/-- A badge with values that hold end tags. -/
def badge : ClientInstance where
  context := "c0"
  template := "x-badge"
  source := "script() \x7b return '</script>'; \x7d"
  values := [("title", .text "</script>"),
    ("label", .component "x-label" [("tags", .list [.text "</"])])]
  refs := [("root", refSelector 0)]

theorem badge_read_back :
    Json.read? (safe badge.values.toJson.write) = some badge.values.toJson ∧
    Json.read? (literal "</script>") = some (.string "</script>") ∧
    ∃ b, ofInstances none [⟨"a = '</Script>'", ["x"]⟩] [badge] = some (b, []) ∧
      b.source = layout ["a = '<\\/Script>'"] ["x"]
        [("x-badge", "function script() \x7b return '<\\/script>'; \x7d")] [badge] := by
  obtain ⟨values, texts, sources⟩ := payload_read_back
  have keyed : badge.values.WellKeyed := by
    have titled : Assoc.Distinct badge.values := by simp [Assoc.Distinct, Assoc.keys, badge]
    exact ⟨titled, trivial, ⟨List.nodup_singleton _, ⟨trivial, trivial⟩, trivial⟩, trivial⟩
  have helpers : (helpersOf [⟨"a = '</Script>'", ["x"]⟩]).map opened = ["a = '<\\/Script>'"] := by
    decide
  have functions : ((definitions [badge]).map fun (id, f) => (id, opened f)) =
      [("x-badge", "function script() \x7b return '<\\/script>'; \x7d")] := by decide
  obtain ⟨b, made, full⟩ : ∃ b, ofInstances none [⟨"a = '</Script>'", ["x"]⟩] [badge] =
      some (b, []) ∧ b.isMinified = false := ⟨_, rfl, rfl⟩
  refine ⟨?_, (texts _).2, b, made, ?_⟩
  · rw [(values _ keyed).2.2]
    rfl
  · rw [sources none _ _ b [] made full, helpers, functions]
    rfl

end Bundle
end Stencil
