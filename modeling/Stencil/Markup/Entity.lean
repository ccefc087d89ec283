import Stencil.Text.Search
/-!
Character references. Writing replaces the characters that mean markup by references; reading
knows six names and the decimal and hexadecimal form, and keeps everything else as it stands.
-/
namespace Stencil.Markup.Entity

/-- Text for a place between tags. -/
def escapeText (s : String) : String :=
  String.ofList <| s.toList.flatMap fun
    | '&' => "&amp;".toList
    | '<' => "&lt;".toList
    | '>' => "&gt;".toList
    | c => [c]

/-- Text for a value between double quotes. -/
def escapeAttribute (s : String) : String :=
  String.ofList <| s.toList.flatMap fun
    | '&' => "&amp;".toList
    | '"' => "&quot;".toList
    | c => [c]

/-- The references that have a name. -/
def named? : List Char → Option Char
  | ['a', 'm', 'p'] => some '&'
  | ['l', 't'] => some '<'
  | ['g', 't'] => some '>'
  | ['q', 'u', 'o', 't'] => some '"'
  | ['a', 'p', 'o', 's'] => some '\''
  | ['n', 'b', 's', 'p'] => some '\u00a0'
  | _ => none

/-- The value of a hexadecimal digit of either case. -/
def hexDigit? (c : Char) : Option Nat :=
  if c.isDigit then some (c.toNat - 48)
  else if 'a' ≤ c ∧ c ≤ 'f' then some (c.toNat - 87)
  else if 'A' ≤ c ∧ c ≤ 'F' then some (c.toNat - 55)
  else none

def decimalDigit? (c : Char) : Option Nat := if c.isDigit then some (c.toNat - 48) else none

/-- The number that one or more digits write. -/
def digits? (base : Nat) (digit? : Char → Option Nat) : List Char → Option Nat
  | [] => none
  | s => s.foldl (fun n c => do return (← n) * base + (← digit? c)) (some 0)

/-- A number that may have a plus sign before its digits. -/
def unsigned? (base : Nat) (digit? : Char → Option Nat) : List Char → Option Nat
  | '+' :: s => digits? base digit? s
  | s => digits? base digit? s

/-- The character of a code point; surrogates and numbers beyond the last one have none. -/
def scalar? (n : Nat) : Option Char := if n.isValidChar then some (Char.ofNat n) else none

/-- The character that the text between an ampersand and its semicolon stands for. -/
def resolve? (body : List Char) : Option Char :=
  named? body <|>
    match body with
    | '#' :: 'x' :: s => (unsigned? 16 hexDigit? s).bind scalar?
    | '#' :: 'X' :: s => (unsigned? 16 hexDigit? s).bind scalar?
    | '#' :: s => (unsigned? 10 decimalDigit? s).bind scalar?
    | _ => none

/-- The largest distance in bytes from an ampersand to its semicolon. -/
def maxReach : Nat := 10

/-- The reference at the start of the text after an ampersand, and what follows it. -/
def reference? (s : List Char) : Option (Char × List Char) :=
  match Text.cutChar? ';' s with
  | none => none
  | some (body, rest) =>
    if 1 + Text.utf8Size body ≤ maxReach then (resolve? body).map (·, rest) else none

theorem length_of_reference? {s r : List Char} {c : Char} (h : reference? s = some (c, r)) :
    r.length < s.length := by
  simp only [reference?] at h
  split at h
  · simp at h
  · rename_i body rest hc
    have hl := Text.length_of_cutChar? hc
    split at h
    · obtain ⟨_, _, he⟩ := Option.map_eq_some_iff.1 h
      simp only [Prod.mk.injEq] at he
      obtain ⟨_, rfl⟩ := he
      omega
    · simp at h

/-- The text with its references replaced by their characters. -/
def decode : List Char → List Char
  | [] => []
  | c :: s =>
    if c = '&' then
      match h : reference? s with
      | some (d, rest) => d :: decode rest
      | none => '&' :: decode s
    else c :: decode s
termination_by s => s.length
decreasing_by
  · have := length_of_reference? h; simp; omega
  · simp
  · simp

def decodeText (s : String) : String := String.ofList (decode s.toList)

end Stencil.Markup.Entity
