import Stencil.Markdown.Block
import Stencil.Markdown.Reference
import Stencil.Markdown.Tag
import Stencil.Text.Capital
import Stencil.Text.Punctuation
/-!
Targets, titles and labels of links, and the definitions that give labels their targets.
-/
namespace Stencil.Markdown
open Text

/-- Text with its escapes and character references replaced. -/
def unescape : (fuel : Nat) → List Char → List Char
  | 0, s => s
  | fuel + 1, s =>
    match s with
    | '\\' :: c :: r =>
      if isAsciiPunctuation c then c :: unescape fuel r else '\\' :: unescape fuel (c :: r)
    | '&' :: r =>
      match reference? r with
      | some (cs, rest) => cs ++ unescape fuel rest
      | none => '&' :: unescape fuel r
    | c :: r => c :: unescape fuel r
    | [] => []

def unescaped (s : List Char) : List Char := unescape s.length s

/-! ### Targets and titles -/

/-- The text between angle brackets, from after the first one. -/
def bracketed? : List Char → Option (List Char × List Char)
  | '>' :: r => some ([], r)
  | '\\' :: c :: r => if c == '\n' then none else do
    let (t, r) ← bracketed? r
    return ('\\' :: c :: t, r)
  | c :: r => if c == '<' || c == '\n' then none else do
    let (t, r) ← bracketed? r
    return (c :: t, r)
  | [] => none

/-- A target without brackets; `depth` counts its open parentheses. It ends at a blank or where a
parenthesis closes that it did not open. -/
def bareTarget? (depth : Nat) : List Char → Option (List Char × List Char)
  | [] => if depth = 0 then some ([], []) else none
  | '\\' :: c :: r =>
    if isAsciiPunctuation c then do
      let (t, r) ← bareTarget? depth r
      return ('\\' :: c :: t, r)
    else do
      let (t, r) ← bareTarget? depth (c :: r)
      return ('\\' :: t, r)
  | c :: r =>
    if c == '(' then (if 32 ≤ depth then none else do
      let (t, r) ← bareTarget? (depth + 1) r
      return (c :: t, r))
    else if c == ')' then
      match depth with
      | 0 => some ([], c :: r)
      | depth + 1 => do
        let (t, r) ← bareTarget? depth r
        return (c :: t, r)
    else if c.toNat ≤ 32 || c.toNat == 127 then (if depth = 0 then some ([], c :: r) else none)
    else do
      let (t, r) ← bareTarget? depth r
      return (c :: t, r)

/-- The target at the start of a text. -/
def target? : List Char → Option (List Char × List Char)
  | '<' :: s => (bracketed? s).map fun (t, r) => (unescaped t, r)
  | s => (bareTarget? 0 s).map fun (t, r) => (unescaped t, r)

/-- The text up to the end of a title, whose mark is given. -/
def titleRest? (close : Char) : List Char → Option (List Char × List Char)
  | [] => none
  | '\\' :: c :: r => do
    let (t, r) ← titleRest? close r
    return ('\\' :: c :: t, r)
  | c :: r =>
    if c == close then some ([], r)
    else if close == ')' && c == '(' then none
    else do
      let (t, r) ← titleRest? close r
      return (c :: t, r)

/-- The title at the start of a text; it holds no blank line. -/
def title? (s : List Char) : Option (List Char × List Char) := do
  let close ← match s.head? with
    | some '"' => some '"'
    | some '\'' => some '\''
    | some '(' => some ')'
    | _ => none
  let (t, r) ← titleRest? close s.tail
  let lines := splitOn '\n' t
  if lines.tail.dropLast.any (·.all isTagBlank) then none
  return (unescaped t, r)

/-- What follows the text of a link in parentheses, from after the opening one. -/
def inlineTarget? (s : List Char) : Option (Target × List Char) := do
  let s := skipBlanks s
  let (target, s) ← if s.head? == some ')' then some ([], s) else target? s
  let after := skipBlanks s
  match after with
  | ')' :: r => return (⟨target, []⟩, r)
  | _ =>
    if after.length == s.length then none
    let (title, s) ← title? after
    match skipBlanks s with
    | ')' :: r => return (⟨target, title⟩, r)
    | _ => none

/-! ### Labels -/

/-- A label up to its closing bracket, from after the opening one. A label holds no bracket that is
not escaped, and not blanks alone. -/
def label? (s : List Char) : Option (List Char × List Char) :=
  let rec go : List Char → Option (List Char × List Char)
    | ']' :: r => some ([], r)
    | '[' :: _ => none
    | '\\' :: c :: r => do
      let (t, r) ← go r
      return ('\\' :: c :: t, r)
    | c :: r => do
      let (t, r) ← go r
      return (c :: t, r)
    | [] => none
  match go s with
  | some (t, r) => if t.all isTagBlank || 999 < t.length then none else some (t, r)
  | none => none

/-- The words of a text. -/
def words (s : List Char) : List (List Char) :=
  (s.splitBy fun a b => isTagBlank a == isTagBlank b).filter fun w => !w.all isTagBlank

/-- Labels of equal keys are the same label: capitals and the kind of blanks make no difference. -/
def labelKey (s : List Char) : String :=
  String.ofList ((" ".toList.intercalate (words s)).flatMap fun c => capital c)

/-! ### Definitions -/

/-- The text from after the next line break, if nothing but blanks stands before it. -/
def lineEnd? (s : List Char) : Option (List Char) :=
  match s.dropWhile fun c => c == ' ' || c == '\t' with
  | [] => some []
  | '\n' :: r => some r
  | _ => none

/-- Blanks with at most one line break among them. -/
def skipToNext (s : List Char) : List Char :=
  match lineEnd? s with
  | some r => r.dropWhile fun c => c == ' ' || c == '\t'
  | none => s.dropWhile fun c => c == ' ' || c == '\t'

/-- A definition at the start of a paragraph: a label, a colon, a target, and perhaps a title, which
must end its line. -/
def definition? (s : List Char) : Option ((String × Target) × List Char) := do
  let s := s.dropWhile fun c => c == ' ' || c == '\t'
  if s.head? != some '[' then none
  let (label, s) ← label? s.tail
  if s.head? != some ':' then none
  let s := skipToNext s.tail
  if s.isEmpty then none
  let (target, after) ← target? s
  if after.length == s.length then none
  let bare := (lineEnd? after).map fun r => ((labelKey label, Target.mk target []), r)
  let next := skipToNext after
  let titled := do
    if next.length == after.length then none
    let (title, r) ← title? next
    let r ← lineEnd? r
    return ((labelKey label, Target.mk target title), r)
  titled <|> bare

/-- The definitions at the start of a paragraph, and the rest of it. -/
def definitions : (fuel : Nat) → List Char → List (String × Target) × List Char
  | 0, s => ([], s)
  | fuel + 1, s =>
    match definition? s with
    | some (d, r) =>
      let (ds, r) := definitions fuel r
      (d :: ds, r)
    | none => ([], s)

end Stencil.Markdown
