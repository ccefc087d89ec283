import Stencil.Script.Grammar
/-!
Reading plain declarations: constants that stand for a variable, for a member of one, or for what a
variable holds under a text. Such a value is read up to the mark that ends it, and nothing but the
declared name can keep the declaration from being read.
-/
namespace Stencil.Script.Grammar

variable {α β : Type} {c c' : Unread} {t : Token} {ts rest : List Token} {k : Nat} {p : Place}
  {e : Expr}

/-! ### Steps of a reader -/

@[simp]
theorem bind_apply (m : Parse α) (f : α → Parse β) (c : Unread) :
    (m >>= f) c = (m c).bind fun r => f r.1 r.2 := by
  change Parse.bind m f c = _
  rw [Parse.bind]
  cases m c with
  | none => rfl
  | some r => rfl

@[simp]
theorem pure_apply (a : α) (c : Unread) : (pure a : Parse α) c = some (a, c) := rfl

@[simp]
theorem get_apply (c : Unread) : (get : Parse Unread) c = some (c, c) := rfl

@[simp]
theorem peek_apply (c : Unread) : peek c = some (c.tokens.head?, c) := by
  simp [peek]

@[simp]
theorem kind?_apply (c : Unread) : kind? c = some (c.tokens.head?.map Token.kind, c) := by
  simp [kind?]

@[simp]
theorem nextMark_apply (c : Unread) :
    nextMark c = some (markOf (c.tokens.head?.map Token.kind), c) := by
  simp [nextMark]

@[simp]
theorem nextWord_apply (c : Unread) :
    nextWord c = some (wordOf (c.tokens.head?.map Token.kind), c) := by
  simp [nextWord]

@[simp]
theorem newlineNext_apply (c : Unread) :
    newlineNext c = some (c.tokens.head?.any Token.newline, c) := by
  simp [newlineNext]

/-- The reader after a token. -/
def after (c : Unread) (t : Token) (rest : List Token) : Unread :=
  { c with tokens := rest, last := t.stop }

@[simp]
theorem tokens_after : (after c t rest).tokens = rest := rfl

@[simp]
theorem exports_after : (after c t rest).exports = c.exports := rfl

theorem advance_of (tokens : c.tokens = t :: rest) : advance c = some (t, after c t rest) := by
  simp [advance, tokens]
  rfl

@[simp]
theorem addExport_apply (x : Export) (c : Unread) :
    addExport x c = some ((), { c with exports := c.exports ++ [x] }) := rfl

@[simp]
theorem advance_after {u : Token} :
    advance (after c t (u :: rest)) = some (u, after c u rest) := advance_of rfl

theorem eat_of {m : String} (tokens : c.tokens = t :: rest) (mark : t.kind = .mark m)
    (filled : m.isEmpty = false) : eat m c = some (true, after c t rest) := by
  simp [eat, tokens, mark, markOf, filled, advance_of tokens]

theorem eat_other {m : String} (other : markOf (c.tokens.head?.map Token.kind) ≠ m) :
    eat m c = some (false, c) := by
  simp [eat, other]

theorem eatWord_of {w : String} (tokens : c.tokens = t :: rest) (word : t.kind = .word w false) :
    eatWord w c = some (true, after c t rest) := by
  simp [eatWord, tokens, word, wordOf, advance_of tokens]

theorem eatWord_other {w : String} (other : wordOf (c.tokens.head?.map Token.kind) ≠ w) :
    eatWord w c = some (false, c) := by
  simp [eatWord, other]

theorem expect_of {m : String} (tokens : c.tokens = t :: rest) (mark : t.kind = .mark m)
    (filled : m.isEmpty = false) : expect m c = some ((), after c t rest) := by
  simp [expect, eat_of tokens mark filled]

theorem endStatement_of (tokens : c.tokens = t :: rest) (mark : t.kind = .mark ";") :
    endStatement c = some ((), after c t rest) := by
  simp [endStatement, eat_of tokens mark (by decide)]

theorem anyWord_of {s : String} {escaped : Bool} (tokens : c.tokens = t :: rest)
    (word : t.kind = .word s escaped) : anyWord c = some (s, after c t rest) := by
  simp [anyWord, advance_of tokens, word]

/-- A name can be declared unless it is a word of the language. -/
theorem binding_of {s : String} {escaped : Bool} (tokens : c.tokens = t :: rest)
    (word : t.kind = .word s escaped) :
    binding c = if isUnbindable s then none else some (s, after c t rest) := by
  rw [binding]
  cases unbindable : isUnbindable s with
  | false => simp [anyWord_of tokens word, unbindable]
  | true => simp [anyWord_of tokens word, unbindable]

theorem reference_of {s : String} {escaped : Bool} (tokens : c.tokens = t :: rest)
    (word : t.kind = .word s escaped) (free : isReserved s = false) :
    reference c = some (s, after c t rest) := by
  simp [reference, anyWord_of tokens word, free]

/-! ### Values -/

/-- The variables that plain values are made of. -/
def plainNames : List String := ["globalThis", "plugins"]

/-- A token that starts a plain value. -/
inductive Leads : TokenKind → Prop
  | name {s : String} (plain : s ∈ plainNames) : Leads (.word s false)
  | text (s : String) : Leads (.text s)

/-- A mark that ends a value. -/
inductive Closes : TokenKind → Prop
  | semicolon : Closes (.mark ";")
  | bracket : Closes (.mark "]")

theorem Leads.plain {k : TokenKind} (leads : Leads k) : prefixOf? k = none ∧
    markOf (some k) = "" ∧ wordOf (some k) ∉ ["await", "yield", "async", "new"] := by
  cases leads with
  | name plain =>
    simp only [plainNames, List.mem_cons, List.not_mem_nil, or_false] at plain
    rcases plain with rfl | rfl
    · exact ⟨rfl, rfl, by decide⟩
    · exact ⟨rfl, rfl, by decide⟩
  | text s => exact ⟨rfl, rfl, by simp [wordOf]⟩

theorem Closes.plain {k : TokenKind} (closes : Closes k) : (∀ noIn, infixOf? noIn k = none) ∧
    markOf (some k) ∈ [";", "]"] := by
  cases closes with
  | semicolon | bracket => exact ⟨fun _ => rfl, by decide⟩

/-- The next tokens are those of a plain value. -/
structure Leading (c : Unread) : Prop where
  first : ∃ t rest, c.tokens = t :: rest ∧ Leads t.kind
  second : markOf (c.tokens[1]?.map Token.kind) ≠ "=>"

/-- The next token ends a value. -/
def Closing (c : Unread) : Prop := ∃ t rest, c.tokens = t :: rest ∧ Closes t.kind

theorem Closing.mark (closing : Closing c) :
    markOf (c.tokens.head?.map Token.kind) ∈ [";", "]"] := by
  obtain ⟨t, rest, tokens, closes⟩ := closing
  rw [tokens]
  exact closes.plain.2

theorem Leading.arrowNext?_eq (leading : Leading c) : arrowNext? c.tokens = none := by
  obtain ⟨t, rest, tokens, leads⟩ := leading.first
  have second := leading.second
  have noParens : arrowAhead c.tokens = false := by
    rw [tokens, arrowAhead]
    generalize t.kind = k at leads
    cases leads <;> rfl
  have noName : shortArrowAhead c.tokens = false := by
    rw [tokens] at second ⊢
    cases rest with
    | nil => rfl
    | cons a rest =>
      have other : markOf (some a.kind) ≠ "=>" := second
      simp [shortArrowAhead, other]
  have noAsync : wordOf (some t.kind) ≠ "async" :=
    fun same => absurd (same ▸ leads.plain.2.2) (by decide)
  rw [arrowNext?, noParens, noName, tokens]
  simp [noAsync]

theorem Leading.patternAhead_eq (leading : Leading c) (inHead : Bool) :
    patternAhead inHead c.tokens = false := by
  obtain ⟨t, rest, tokens, leads⟩ := leading.first
  rw [tokens, patternAhead, leads.plain.2.1]
  rfl

theorem unary_of_access (leading : Leading c) (read : access k p c = some (e, c'))
    (closing : Closing c') : unary (k + 1) p c = some (e, c') := by
  obtain ⟨t, rest, tokens, leads⟩ := leading.first
  obtain ⟨noPrefix, noMark, noWord⟩ := leads.plain
  have mark := closing.mark
  rw [unary]
  simp only [List.mem_cons, not_or, List.not_mem_nil, or_false] at noWord mark
  rcases mark with mark | mark
  · simp [tokens, noPrefix, noMark, noWord, read, mark]
  · simp [tokens, noPrefix, noMark, noWord, read, mark]

theorem moreBinary_of_closing (closing : Closing c) (lowest : Nat) (closed : Bool) (e : Expr) :
    moreBinary (k + 1) p lowest closed e c = some (e, c) := by
  obtain ⟨t, rest, tokens, closes⟩ := closing
  rw [moreBinary]
  simp [tokens, closes.plain.1]

theorem binary_of_access (leading : Leading c) (read : access k p c = some (e, c'))
    (closing : Closing c') (lowest : Nat) : binary (k + 2) p lowest c = some (e, c') := by
  obtain ⟨t, rest, tokens, leads⟩ := leading.first
  rw [binary]
  simp [tokens, leads.plain.1, unary_of_access leading read closing, moreBinary_of_closing closing]

theorem conditional_of_access (leading : Leading c) (read : access k p c = some (e, c'))
    (closing : Closing c') : conditional (k + 3) p c = some (e, c') := by
  have other : markOf (c'.tokens.head?.map Token.kind) ≠ "?" :=
    fun same => absurd (same ▸ closing.mark) (by decide)
  rw [conditional]
  simp [binary_of_access leading read closing, eat_other other]

theorem assignment_of_access (leading : Leading c) (read : access k p c = some (e, c'))
    (closing : Closing c') : assignment (k + 4) p c = some (e, c') := by
  obtain ⟨t, rest, tokens, leads⟩ := leading.first
  have noYield : wordOf (some t.kind) ≠ "yield" :=
    fun same => absurd (same ▸ leads.plain.2.2) (by decide)
  have noAssign : assignOf? (markOf (c'.tokens.head?.map Token.kind)) = none := by
    have mark := closing.mark
    simp only [List.mem_cons, List.not_mem_nil, or_false] at mark
    rcases mark with mark | mark
    · rw [mark]
      rfl
    · rw [mark]
      rfl
  have noArrow := leading.arrowNext?_eq
  have noPattern := leading.patternAhead_eq false
  rw [tokens] at noArrow noPattern
  rw [assignment]
  simp [tokens, noArrow, noPattern, noYield, noAssign, conditional_of_access leading read closing]

theorem expression_of_access (leading : Leading c) (read : access k p c = some (e, c'))
    (closing : Closing c') : expression (k + 5) p c = some (e, c') := by
  have other : markOf (c'.tokens.head?.map Token.kind) ≠ "," :=
    fun same => absurd (same ▸ closing.mark) (by decide)
  have noComma : moreComma (k + 4) p e c' = some (e, c') := by
    rw [moreComma]
    simp [eat_other other]
  rw [expression]
  simp [assignment_of_access leading read closing, noComma]

/-! ### Access -/

theorem moreAccess_of_closing (closing : Closing c) (calls : Bool) (e : Expr) :
    moreAccess (k + 1) p calls e c = some ((e, false), c) := by
  obtain ⟨t, rest, tokens, closes⟩ := closing
  rw [moreAccess]
  generalize kind : t.kind = k at closes
  cases closes with
  | semicolon => simp [tokens, kind]
  | bracket => simp [tokens, kind]

theorem primary_text {s : String} (tokens : c.tokens = t :: rest) (text : t.kind = .text s) :
    primary (k + 1) p c = some (.text s, after c t rest) := by
  rw [primary]
  simp [tokens, text, advance_of tokens]

theorem primary_name {s : String} (tokens : c.tokens = t :: rest) (word : t.kind = .word s false)
    (plain : s ∈ plainNames) : primary (k + 1) p c = some (.name s, after c t rest) := by
  rw [primary]
  simp only [plainNames, List.mem_cons, List.not_mem_nil, or_false] at plain
  rcases plain with rfl | rfl
  · simp [tokens, word, reference_of tokens word (by decide)]
  · simp [tokens, word, reference_of tokens word (by decide)]

section
variable {s : String} {u v w x : Token}

theorem access_text (tokens : c.tokens = t :: u :: rest) (text : t.kind = .text s)
    (closes : Closes u.kind) : access (k + 2) p c = some (.text s, after c t (u :: rest)) := by
  have closing : Closing (after c t (u :: rest)) := ⟨u, rest, rfl, closes⟩
  rw [access]
  simp [tokens, text, wordOf, primary_text tokens text, moreAccess_of_closing closing]

theorem access_name (tokens : c.tokens = t :: rest) (word : t.kind = .word s false)
    (plain : s ∈ plainNames) {r : Expr × Bool}
    (more : moreAccess (k + 1) p true (.name s) (after c t rest) = some (r, c')) :
    access (k + 2) p c = some (if r.2 then .chain r.1 else r.1, c') := by
  have noNew : wordOf (some t.kind) ≠ "new" := by
    have leads : Leads t.kind := word ▸ .name plain
    exact fun same => absurd (same ▸ leads.plain.2.2) (by decide)
  rw [access]
  simp [tokens, noNew, primary_name tokens word plain, more]

/-- A variable alone. -/
theorem access_variable (tokens : c.tokens = t :: u :: rest) (word : t.kind = .word s false)
    (plain : s ∈ plainNames) (closes : Closes u.kind) :
    access (k + 2) p c = some (.name s, after c t (u :: rest)) :=
  access_name tokens word plain (moreAccess_of_closing ⟨u, rest, rfl, closes⟩ true _)

/-- A member of a variable. -/
theorem access_member {m : String} (tokens : c.tokens = t :: u :: v :: w :: rest)
    (word : t.kind = .word s false) (plain : s ∈ plainNames) (dot : u.kind = .mark ".")
    (member : v.kind = .word m false) (closes : Closes w.kind) :
    access (k + 3) p c = some (.dot (.name s) m, after c v (w :: rest)) := by
  refine access_name tokens word plain (r := (.dot (.name s) m, false)) ?_
  have closing : Closing (after c v (w :: rest)) := ⟨w, rest, rfl, closes⟩
  rw [moreAccess]
  simp [dot, member, moreAccess_of_closing closing]

/-- What a variable holds under a text. -/
theorem access_entry {m : String} (tokens : c.tokens = t :: u :: v :: w :: x :: rest)
    (word : t.kind = .word s false) (plain : s ∈ plainNames) (bracket : u.kind = .mark "[")
    (text : v.kind = .text m) (closed : w.kind = .mark "]") (closes : Closes x.kind) :
    access (k + 9) p c = some (.at (.name s) (.text m), after c w (x :: rest)) := by
  refine access_name tokens word plain (r := (.at (.name s) (.text m), false)) ?_
  have closing : Closing (after c w (x :: rest)) := ⟨x, rest, rfl, closes⟩
  have leading : Leading (after c u (v :: w :: x :: rest)) :=
    ⟨⟨v, _, rfl, text ▸ .text m⟩, by simp [closed, markOf]⟩
  have key : expression (k + 7) { p with noIn := false } (after c u (v :: w :: x :: rest)) =
      some (.text m, after c v (w :: x :: rest)) :=
    expression_of_access leading (access_text rfl text (closed ▸ .bracket))
      ⟨w, _, rfl, closed ▸ .bracket⟩
  have ends : expect "]" (after c v (w :: x :: rest)) = some ((), after c w (x :: rest)) :=
    expect_of rfl closed (by decide)
  rw [moreAccess]
  simp [bracket, key, ends, moreAccess_of_closing closing]

end

/-! ### Declarations -/

section
variable {s : String} {w n q z : Token} {rest' : List Token}

theorem target_of_name (tokens : c.tokens = n :: rest) (name : n.kind = .word s false) :
    target (k + 1) true p c =
      if isUnbindable s then none else some (.name s, after c n rest) := by
  rw [target]
  cases unbindable : isUnbindable s with
  | false => simp [tokens, name, markOf, binding_of tokens name, unbindable]
  | true => simp [tokens, name, markOf, binding_of tokens name, unbindable]

/-- A constant with a value that does not take its name. -/
theorem declarators_of_assignment (tokens : c.tokens = n :: q :: rest)
    (name : n.kind = .word s false) (equals : q.kind = .mark "=")
    (value : assignment (k + 1) p (after c q rest) = some (e, c'))
    (unnamed : named s e = e) (ends : c'.tokens = z :: rest') (semicolon : z.kind = .mark ";") :
    declarators (k + 2) p .const false c =
      if isUnbindable s then none else some ([.assign (.name s) e], c') := by
  have eaten : eat "=" (after c n (q :: rest)) = some (true, after c q rest) :=
    eat_of rfl equals (by decide)
  have alone : eat "," c' = some (false, c') := eat_other (by simp [ends, semicolon, markOf])
  rw [declarators]
  simp only [bind_apply, target_of_name tokens name]
  cases unbindable : isUnbindable s with
  | false => simp [eaten, value, alone, namedBy, unnamed]
  | true => simp

theorem statement_of_assignment (tokens : c.tokens = w :: n :: q :: rest)
    (const : w.kind = .word "const" false) (name : n.kind = .word s false)
    (equals : q.kind = .mark "=")
    (value : assignment (k + 1) p (after c q rest) = some (e, c'))
    (unnamed : named s e = e) (ends : c'.tokens = z :: rest') (semicolon : z.kind = .mark ";") :
    statement (k + 3) p true c =
      if isUnbindable s then none
      else some (.declare .const [.assign (.name s) e], after c' z rest') := by
  have declared := declarators_of_assignment (c := after c w (n :: q :: rest)) rfl name equals value
    unnamed ends semicolon
  have noBlock : eat ";" c = some (false, c) := eat_other (by simp [tokens, const, markOf])
  have kind : declareKind (k + 2) c = some (some .const, c) := by
    simp [declareKind, tokens, const, wordOf]
  have noBrace : markOf (c.tokens.head?.map Token.kind) ≠ "\x7b" := by simp [tokens, const, markOf]
  rw [statement]
  cases unbindable : isUnbindable s with
  | false =>
    simp [noBrace, noBlock, kind, advance_of tokens, declared, unbindable,
      endStatement_of ends semicolon]
  | true => simp [noBrace, noBlock, kind, advance_of tokens, declared, unbindable]

/-- A constant that is exported under its own name. -/
theorem exportItem_of_assignment (tokens : c.tokens = w :: n :: q :: rest)
    (const : w.kind = .word "const" false) (name : n.kind = .word s false)
    (equals : q.kind = .mark "=")
    (value : assignment (k + 1) p (after c q rest) = some (e, c'))
    (unnamed : named s e = e) (ends : c'.tokens = z :: rest') (semicolon : z.kind = .mark ";") :
    exportItem (k + 3) p c =
      if isUnbindable s then none
      else some (.declare .const [.assign (.name s) e],
        { after c' z rest' with exports := c'.exports ++ [.variable s s] }) := by
  have declared := statement_of_assignment tokens const name equals value unnamed ends semicolon
  have noDefault : eatWord "default" c = some (false, c) :=
    eatWord_other (by simp [tokens, const, wordOf])
  have noStar : eat "*" c = some (false, c) := eat_other (by simp [tokens, const, markOf])
  have noList : eat "\x7b" c = some (false, c) := eat_other (by simp [tokens, const, markOf])
  rw [exportItem]
  cases unbindable : isUnbindable s with
  | false =>
    simp [noDefault, noStar, noList, declared, unbindable, targetNamesOf, targetNames]
  | true => simp [noDefault, noStar, noList, declared, unbindable]

theorem exportItem_default (tokens : c.tokens = t :: rest) (word : t.kind = .word "default" false) :
    exportItem k p c = exportDefault k p (after c t rest) := by
  rw [exportItem]
  simp [eatWord_of tokens word]

/-- A variable that is exported as the default. -/
theorem exportDefault_of_variable (tokens : c.tokens = w :: z :: rest)
    (word : w.kind = .word s false) (plain : s ∈ plainNames) (semicolon : z.kind = .mark ";") :
    exportDefault (k + 6) p c =
      some (.declare .const [.assign (.name defaultVariable) (.name s)],
        { after c z rest with exports := c.exports ++ [.variable "default" defaultVariable] }) := by
  have leading : Leading c :=
    ⟨⟨w, _, tokens, word ▸ .name plain⟩, by simp [tokens, semicolon, markOf]⟩
  have value : assignment (k + 6) p c = some (.name s, after c w (z :: rest)) :=
    assignment_of_access leading (access_variable tokens word plain (semicolon ▸ .semicolon))
      ⟨z, _, rfl, semicolon ▸ .semicolon⟩
  have ended : endStatement (after c w (z :: rest)) = some ((), after c z rest) :=
    endStatement_of rfl semicolon
  have noFunction : s ≠ "function" ∧ s ≠ "class" ∧ s ≠ "async" := by
    simp only [plainNames, List.mem_cons, List.not_mem_nil, or_false] at plain
    rcases plain with rfl | rfl
    · decide
    · decide
  rw [exportDefault]
  simp [tokens, word, wordOf, noFunction, value, ended, named]

end

/-! ### Modules -/

theorem secondMark_apply (c : Unread) :
    secondMark c = some (markOf (c.tokens[1]?.map Token.kind), c) := by
  simp [secondMark]

theorem moduleItems_nil (tokens : c.tokens = []) : moduleItems (k + 1) p c = some ([], c) := by
  rw [moduleItems]
  simp [tokens]

theorem moduleItems_const (tokens : c.tokens = t :: rest) (const : t.kind = .word "const" false) :
    moduleItems (k + 1) p c = (statement k p true c).bind fun r =>
      (moduleItems k p r.2).map fun q => (r.1 :: q.1, q.2) := by
  have other : eatWord "export" c = some (false, c) :=
    eatWord_other (by simp [tokens, const, wordOf])
  rw [moduleItems]
  simp [tokens, const, wordOf, secondMark_apply, other, Option.map_eq_bind, Function.comp_def]

theorem moduleItems_export (tokens : c.tokens = t :: rest)
    (exporting : t.kind = .word "export" false) :
    moduleItems (k + 1) p c = (exportItem k p (after c t rest)).bind fun r =>
      (moduleItems k p r.2).map fun q => (r.1 :: q.1, q.2) := by
  have own : eatWord "export" c = some (true, after c t rest) := eatWord_of tokens exporting
  rw [moduleItems]
  simp [tokens, exporting, wordOf, secondMark_apply, own, Option.map_eq_bind, Function.comp_def]

end Stencil.Script.Grammar
