import Stencil.Number.Decimal
import Stencil.Script.Units
import Stencil.Text.Word
/-!
The tokens of scripts. A slash divides after what may end a value and starts a pattern elsewhere; a
closing brace goes on with a template if the brace that it closes stood in one.
-/
namespace Stencil.Script

inductive TokenKind where
  /-- A name or a word of the language; one that is written with escapes is only a name. -/
  | word (s : String) (escaped : Bool)
  | hidden (s : String)
  | mark (s : String)
  | number (x : Float)
  | text (s : String)
  /-- A text of a template. The first one begins it; an expression follows all but the last. -/
  | chunk (cooked : Option String) (raw : String) (begins opens : Bool)
  | pattern (body flags : String)
  deriving Repr

structure Token where
  kind : TokenKind
  /-- The place of the first character. -/
  start : Nat
  /-- The place after the last character. -/
  stop : Nat
  /-- A line ends before the token. -/
  newline : Bool
  deriving Repr

namespace Lexing

def isLineEnd (c : Char) : Bool := c == '\n' || c == '\r' || c == '\u2028' || c == '\u2029'

def isSpace (c : Char) : Bool :=
  c == ' ' || c == '\t' || c == '\x0b' || c == '\x0c' || c == '\u00a0' || c == '\ufeff' ||
    c == '\u1680' || (0x2000 ≤ c.toNat && c.toNat ≤ 0x200a) || c == '\u202f' || c == '\u205f' ||
    c == '\u3000'

def startsName (c : Char) : Bool :=
  Text.isWordChar c && !c.isDigit && (c.toNat < 128 || Text.isAlphanumeric c)

def continuesName (c : Char) : Bool := Text.isWordChar c || c == '\u200c' || c == '\u200d'

/-- Words after which a slash starts a pattern. -/
def wordsBeforeValue : List String :=
  ["return", "typeof", "instanceof", "in", "of", "new", "delete", "void", "throw", "case", "do",
    "else", "await", "yield"]

/-- Words whose parentheses are followed by a statement. -/
def wordsBeforeParens : List String := ["if", "while", "for", "with"]

/-- An open bracket that has still to be closed. -/
inductive Bracket where
  /-- A parenthesis; a statement may follow the closing one. -/
  | paren (beforeStatement : Bool)
  | brace
  /-- A brace in a template. -/
  | hole
  deriving DecidableEq, Repr

/-- Marks, longer ones first. -/
def marks : List String :=
  [">>>=", "...", "===", "!==", "**=", "<<=", ">>=", ">>>", "&&=", "||=", "??=",
    "=>", "==", "!=", "<=", ">=", "&&", "||", "??", "?.", "++", "--", "+=", "-=", "*=", "/=", "%=",
    "&=", "|=", "^=", "<<", ">>", "**",
    "\x7b", "\x7d", "(", ")", "[", "]", ";", ",", "<", ">", "+", "-", "*", "/", "%", "&", "|", "^",
    "!", "~", "?", ":", "=", ".", "@"]

def markChars : List (List Char) := marks.map String.toList

/-! ### Escapes -/

def hexDigits? (count : Nat) (s : List Char) : Option (Nat × List Char) := do
  let ds := s.take count
  if ds.length < count then none
  return (← natOfDigits? 16 ds, s.drop count)

/-- A code after `\u`. -/
def unicode? (s : List Char) : Option (Nat × List Char) :=
  match s with
  | '\x7b' :: s => do
    let ds := s.takeWhile (· != '\x7d')
    let n ← natOfDigits? 16 ds
    match s.drop ds.length with
    | '\x7d' :: s => if n ≤ 0x10FFFF then some (n, s) else none
    | _ => none
  | s => hexDigits? 4 s

/-- The units of a code. -/
def unitsOfCode (n : Nat) : List Nat :=
  if n < 0x10000 then [n] else [0xD800 + (n - 0x10000) / 0x400, 0xDC00 + (n - 0x10000) % 0x400]

/-- The units of an escape after its backslash. -/
def escape? : List Char → Option (List Nat × List Char)
  | [] => none
  | c :: s =>
    match c with
    | 'n' => some ([10], s)
    | 't' => some ([9], s)
    | 'r' => some ([13], s)
    | 'b' => some ([8], s)
    | 'v' => some ([11], s)
    | 'f' => some ([12], s)
    | 'x' => (hexDigits? 2 s).map fun (n, s) => ([n], s)
    | 'u' => (unicode? s).map fun (n, s) => (unitsOfCode n, s)
    | '\r' => match s with
      | '\n' :: s => some ([], s)
      | s => some ([], s)
    | '0' => if (s.head?.any Char.isDigit) then none else some ([0], s)
    | c =>
      if isLineEnd c then some ([], s)
      else if c.isDigit then none
      else some (Units.ofChar c, s)

/-- The units of a string up to its closing quote. -/
def stringUnits (quote : Char) : (fuel : Nat) → List Char → Option (List Nat × List Char)
  | 0, _ => none
  | fuel + 1, s =>
    match s with
    | [] => none
    | '\\' :: s => do
      let (us, s) ← escape? s
      let (rest, s) ← stringUnits quote fuel s
      return (us ++ rest, s)
    | c :: s =>
      if c == quote then some ([], s)
      else if c == '\n' || c == '\r' then none
      else do
        let (rest, s) ← stringUnits quote fuel s
        return (Units.ofChar c ++ rest, s)

/-- A text of a template: its characters as they are written, and whether an expression follows. Ends
of lines are written as `\n`. -/
def chunkChars : (fuel : Nat) → List Char → Option (List Char × Bool × List Char)
  | 0, _ => none
  | fuel + 1, s =>
    match s with
    | [] => none
    | '\x60' :: s => some ([], false, s)
    | '$' :: '\x7b' :: s => some ([], true, s)
    | '\\' :: c :: s => do
      let (cs, opens, s) ← chunkChars fuel s
      return ('\\' :: c :: cs, opens, s)
    | '\r' :: s => do
      let s := match s with
        | '\n' :: s => s
        | s => s
      let (cs, opens, s) ← chunkChars fuel s
      return ('\n' :: cs, opens, s)
    | c :: s => do
      let (cs, opens, s) ← chunkChars fuel s
      return (c :: cs, opens, s)

/-- The units that the characters of a template mean. -/
def cook : (fuel : Nat) → List Char → Option (List Nat)
  | 0, _ => none
  | _, [] => some []
  | fuel + 1, '\\' :: s => do
    let (us, s) ← escape? s
    return us ++ (← cook fuel s)
  | fuel + 1, c :: s => return Units.ofChar c ++ (← cook fuel s)

/-- The body of a pattern up to its closing slash; a slash in brackets does not close it. -/
def patternChars (inClass : Bool) : (fuel : Nat) → List Char → Option (List Char × List Char)
  | 0, _ => none
  | fuel + 1, s =>
    match s with
    | [] => none
    | '\\' :: c :: s =>
      if isLineEnd c then none
      else (patternChars inClass fuel s).map fun (cs, s) => ('\\' :: c :: cs, s)
    | c :: s =>
      if isLineEnd c then none
      else if c == '/' && !inClass then some ([], s)
      else
        let inside := if c == '[' then true else if c == ']' then false else inClass
        (patternChars inside fuel s).map fun (cs, s) => (c :: cs, s)

/-! ### Names and numbers -/

/-- A name, whose characters may be written as escapes. -/
def nameChars : (fuel : Nat) → (first : Bool) → List Char → Option (List Char × Bool × List Char)
  | 0, _, _ => none
  | fuel + 1, first, s =>
    match s with
    | '\\' :: 'u' :: rest => do
      let (n, rest) ← unicode? rest
      let c := Char.ofNat n
      if !(if first then startsName c else continuesName c) then none
      let (cs, _, rest) ← nameChars fuel false rest
      return (c :: cs, true, rest)
    | c :: rest =>
      if if first then startsName c else continuesName c then do
        let (cs, escaped, rest) ← nameChars fuel false rest
        return (c :: cs, escaped, rest)
      else if first then none
      else some ([], false, c :: rest)
    | [] => if first then none else some ([], false, [])

/-- Digits of a base with single underscores between them. -/
def digits? (base : Nat) (s : List Char) : Option (List Char × List Char) :=
  let isDigit := fun (c : Char) => (natOfDigits? base [c]).isSome
  let run := s.takeWhile fun c => isDigit c || c == '_'
  let ds := run.filter (· != '_')
  let doubled := (run.zip run.tail).any fun (a, b) => a == '_' && b == '_'
  if run.isEmpty || run.head? == some '_' || run.getLast? == some '_' || doubled then none
  else some (ds, s.drop run.length)

def floatOf (digits : Nat) (power : Int) : Float :=
  Float.ofBits (Binary64.ofDecimal false digits power).bits

/-- A power of ten after its letter. -/
def power? (s : List Char) : Option (Int × List Char) :=
  let (negative, s) := match s with
    | '-' :: s => (true, s)
    | '+' :: s => (false, s)
    | s => (false, s)
  (digits? 10 s).map fun (ds, s) =>
    let n : Nat := (natOfDigits? 10 ds).getD 0
    (if negative then -(n : Int) else n, s)

/-- A decimal number. -/
def decimal? (s : List Char) : Option (Float × List Char) := do
  let (whole, s) ← match s with
    | '.' :: _ => some ([], s)
    | s => digits? 10 s
  if 1 < whole.length && whole.head? == some '0' then none
  let (part, s) ← match s with
    | '.' :: c :: s => if c.isDigit then digits? 10 (c :: s) else some ([], c :: s)
    | '.' :: s => some ([], s)
    | s => some ([], s)
  let n ← natOfDigits? 10 (whole ++ part)
  let (power, s) ← match s with
    | 'e' :: s => power? s
    | 'E' :: s => power? s
    | s => some (0, s)
  return (floatOf n (power - part.length), s)

def number? (s : List Char) : Option (Float × List Char) := do
  let based := fun (base : Nat) (s : List Char) => do
    let (ds, s) ← digits? base s
    return (floatOf (← natOfDigits? base ds) 0, s)
  let (x, s) ← match s with
    | '0' :: 'x' :: s => based 16 s
    | '0' :: 'X' :: s => based 16 s
    | '0' :: 'o' :: s => based 8 s
    | '0' :: 'O' :: s => based 8 s
    | '0' :: 'b' :: s => based 2 s
    | '0' :: 'B' :: s => based 2 s
    | s => decimal? s
  if s.head?.any continuesName then none else some (x, s)

/-! ### The tokens -/

/-- The text after a comment, and whether a line ends in it. -/
def blockComment : (newline : Bool) → List Char → Option (Bool × List Char)
  | newline, '*' :: '/' :: s => some (newline, s)
  | newline, c :: s => blockComment (newline || isLineEnd c) s
  | _, [] => none

/-- Skips blanks and comments; tells whether a line has ended. -/
def skip : (fuel : Nat) → (newline : Bool) → List Char → Option (Bool × List Char)
  | 0, _, _ => none
  | fuel + 1, newline, s =>
    match s with
    | '/' :: '/' :: s => skip fuel newline (s.dropWhile (!isLineEnd ·))
    | '/' :: '*' :: s => do
      let (newline, s) ← blockComment newline s
      skip fuel newline s
    | c :: rest =>
      if isLineEnd c then skip fuel true rest
      else if isSpace c then skip fuel newline rest
      else some (newline, c :: rest)
    | [] => some (newline, [])

/-- What is known while tokens are read. -/
structure State where
  brackets : List Bracket := []
  /-- A value may start here, so that a slash starts a pattern. -/
  valueNext : Bool := true
  /-- The last token is a word that parentheses and a statement follow. -/
  afterHead : Bool := false
  afterDot : Bool := false

/-- A chunk of a template. -/
def chunk? (fuel : Nat) (begins : Bool) (st : State) (s : List Char) :
    Option (TokenKind × State × List Char) := do
  let (raw, opens, rest) ← chunkChars fuel s
  let cooked := (cook (raw.length + 1) raw).map Units.toText
  let brackets := if opens then Bracket.hole :: st.brackets else st.brackets
  return (.chunk cooked (String.ofList raw) begins opens,
    { brackets, valueNext := opens }, rest)

/-- How a mark changes the state. -/
def afterMark? (m : String) (st : State) : Option State :=
  if m == "(" then some { brackets := .paren st.afterHead :: st.brackets, valueNext := true }
  else if m == ")" then
    match st.brackets with
    | .paren before :: rest => some { brackets := rest, valueNext := before }
    | _ => none
  else if m == "\x7b" then some { brackets := .brace :: st.brackets, valueNext := true }
  else if m == "\x7d" then
    match st.brackets with
    | .brace :: rest => some { brackets := rest, valueNext := true }
    | _ => none
  else if m == "]" then some { brackets := st.brackets, valueNext := false }
  else if m == "++" || m == "--" then some { st with afterHead := false, afterDot := false }
  else some { brackets := st.brackets, valueNext := true, afterDot := m == "." || m == "?." }

/-- The mark at the start of a text. A question mark and a dot before a digit are two marks. -/
def mark? (s : List Char) : Option (String × List Char) :=
  markChars.findSome? fun m =>
    if m.isPrefixOf s then
      let rest := s.drop m.length
      if m == ['?', '.'] && rest.head?.any Char.isDigit then none
      else some (String.ofList m, rest)
    else none

/-- The token at the start of a text that begins with no blank. -/
def token? (fuel : Nat) (st : State) (s : List Char) : Option (TokenKind × State × List Char) :=
  let value := { brackets := st.brackets, valueNext := false : State }
  match s with
  | [] => none
  | c :: rest =>
    if c == '"' || c == '\'' then do
      let (us, rest) ← stringUnits c fuel rest
      return (.text (Units.toText us), value, rest)
    else if c == '\x60' then chunk? fuel true st rest
    else if c == '\x7d' && st.brackets.head? == some .hole then
      chunk? fuel false { st with brackets := st.brackets.tail } rest
    else if c.isDigit || (c == '.' && rest.head?.any Char.isDigit) then do
      let (x, rest) ← number? s
      return (.number x, value, rest)
    else if c == '#' then do
      let (cs, _, rest) ← nameChars fuel true rest
      return (.hidden (String.ofList cs), value, rest)
    else if startsName c || c == '\\' then do
      let (cs, escaped, rest) ← nameChars fuel true s
      let name := String.ofList cs
      let plain := !st.afterDot && !escaped
      return (.word name escaped, {
        brackets := st.brackets
        valueNext := plain && wordsBeforeValue.contains name
        afterHead := plain && wordsBeforeParens.contains name }, rest)
    else if c == '/' && st.valueNext then do
      let (cs, rest) ← patternChars false fuel rest
      let flags := rest.takeWhile continuesName
      return (.pattern (String.ofList cs) (String.ofList flags), value, rest.drop flags.length)
    else do
      let (m, rest) ← mark? s
      return (.mark m, ← afterMark? m st, rest)

def tokens? : (fuel : Nat) → State → (place : Nat) → List Char → Option (List Token)
  | 0, _, _, _ => none
  | fuel + 1, st, place, s => do
    let (newline, s') ← skip (fuel + 1) false s
    let start := place + (s.length - s'.length)
    match s' with
    | [] => if st.brackets.isEmpty then some [] else none
    | _ => do
      let (kind, st, rest) ← token? (fuel + 1) st s'
      let stop := start + (s'.length - rest.length)
      let more ← tokens? fuel st stop rest
      return ⟨kind, start, stop, newline⟩ :: more

end Lexing

/-- The tokens of a script, unless it is malformed. A first line that begins with `#!` is skipped. -/
def Token.ofText? (s : String) : Option (List Token) :=
  let cs := s.toList
  let first := match cs with
    | '#' :: '!' :: _ => (cs.takeWhile (!Lexing.isLineEnd ·)).length
    | _ => 0
  Lexing.tokens? (cs.length + 1) {} first (cs.drop first)

end Stencil.Script
