import Stencil.Number.Decimal
import Stencil.Text.Search
import Stencil.Toml.Basic
/-!
Strings, numbers and dates of a configuration file. Each reader gives the value at the start of a
text and what follows it.
-/
namespace Stencil.Toml
open Text

def isSpace (c : Char) : Bool := c == ' ' || c == '\t'

def skipSpaces (s : List Char) : List Char := s.dropWhile isSpace

/-- Control characters other than the tab stand in no string and in no comment. -/
def isAllowed (c : Char) : Bool := c == '\t' || (32 ≤ c.toNat && c.toNat != 127)

/-- The text after the end of a line. -/
def lineEnd? : List Char → Option (List Char)
  | '\n' :: s => some s
  | '\r' :: '\n' :: s => some s
  | _ => none

/-- The text after blanks and ends of lines. -/
def skipBlankLines : List Char → List Char
  | ' ' :: s => skipBlankLines s
  | '\t' :: s => skipBlankLines s
  | '\n' :: s => skipBlankLines s
  | '\r' :: '\n' :: s => skipBlankLines s
  | s => s

/-! ### Strings -/

/-- A character from its code in hexadecimal digits. -/
def charOfHex? (ds : List Char) : Option Char := do
  let n ← natOfDigits? 16 ds
  if n.isValidChar then some (Char.ofNat n) else none

/-- A character after a backslash. -/
def escape? : List Char → Option (Char × List Char)
  | 'b' :: s => some ('\x08', s)
  | 't' :: s => some ('\t', s)
  | 'n' :: s => some ('\n', s)
  | 'f' :: s => some ('\x0c', s)
  | 'r' :: s => some ('\r', s)
  | '"' :: s => some ('"', s)
  | '\\' :: s => some ('\\', s)
  | 'u' :: s => if s.length < 4 then none else (charOfHex? (s.take 4)).map (·, s.drop 4)
  | 'U' :: s => if s.length < 8 then none else (charOfHex? (s.take 8)).map (·, s.drop 8)
  | _ => none

/-- The rest of a string in double quotes. -/
def basic? : (fuel : Nat) → List Char → Option (List Char × List Char)
  | 0, _ => none
  | _, [] => none
  | _, '"' :: s => some ([], s)
  | fuel + 1, '\\' :: s => do
    let (c, s) ← escape? s
    let (cs, s) ← basic? fuel s
    return (c :: cs, s)
  | fuel + 1, c :: s => do
    if !isAllowed c then none
    let (cs, s) ← basic? fuel s
    return (c :: cs, s)

/-- The rest of a string in single quotes. -/
def literal? : List Char → Option (List Char × List Char)
  | [] => none
  | '\'' :: s => some ([], s)
  | c :: s => do
    if !isAllowed c then none
    let (cs, s) ← literal? s
    return (c :: cs, s)

/-- Quotes at the end of a string of several lines: three end it, and up to two before them belong to
it. -/
def closing? (quote : Char) (s : List Char) : Option (List Char × List Char) :=
  let count := (s.takeWhile (· == quote)).length
  if count < 3 then none
  else
    let extra := min (count - 3) 2
    some (List.replicate extra quote, s.drop (extra + 3))

/-- A backslash at the end of a line takes away the blanks up to the next text. -/
def continuation? (s : List Char) : Option (List Char) :=
  (lineEnd? (skipSpaces s)).map skipBlankLines

/-- The rest of a string of several lines. -/
def lines? (quote : Char) (escapes : Bool) : (fuel : Nat) → List Char →
    Option (List Char × List Char)
  | 0, _ => none
  | _, [] => none
  | fuel + 1, c :: s =>
    match closing? quote (c :: s) with
    | some done => some done
    | none =>
      match lineEnd? (c :: s) with
      | some s => (lines? quote escapes fuel s).map fun (cs, s) => ('\n' :: cs, s)
      | none =>
        if escapes && c == '\\' then
          match continuation? s with
          | some s => lines? quote escapes fuel s
          | none => do
            let (c, s) ← escape? s
            let (cs, s) ← lines? quote escapes fuel s
            return (c :: cs, s)
        else if isAllowed c then
          (lines? quote escapes fuel s).map fun (cs, s) => (c :: cs, s)
        else none

/-- A string of several lines, after its quotes. An end of line right after them is no part of it. -/
def multiline? (quote : Char) (escapes : Bool) (s : List Char) : Option (List Char × List Char) :=
  let s := (lineEnd? s).getD s
  lines? quote escapes (s.length + 1) s

/-- A string of any of the four forms. -/
def text? (s : List Char) : Option (String × List Char) :=
  let made := match s with
    | '"' :: '"' :: '"' :: s => multiline? '"' true s
    | '\'' :: '\'' :: '\'' :: s => multiline? '\'' false s
    | '"' :: s => basic? (s.length + 1) s
    | '\'' :: s => literal? s
    | _ => none
  made.map fun (cs, s) => (String.ofList cs, s)

/-! ### Numbers -/

def isDigitOf (base : Nat) (c : Char) : Bool := (natOfDigits? base [c]).isSome

/-- Digits of a base, each with an underscore before it or not. -/
def moreDigits (base : Nat) : List Char → List Char × List Char
  | '_' :: c :: s =>
    if isDigitOf base c then
      let (cs, rest) := moreDigits base s
      (c :: cs, rest)
    else ([], '_' :: c :: s)
  | c :: s =>
    if isDigitOf base c then
      let (cs, rest) := moreDigits base s
      (c :: cs, rest)
    else ([], c :: s)
  | [] => ([], [])

/-- At least one digit of a base, with single underscores between digits. -/
def digits? (base : Nat) : List Char → Option (List Char × List Char)
  | c :: s =>
    if isDigitOf base c then
      let (cs, rest) := moreDigits base s
      some (c :: cs, rest)
    else none
  | [] => none

/-- A whole number of 64 bits with a sign. -/
def word? (n : Int) : Option Toml :=
  if -Int.pow 2 63 ≤ n ∧ n < Int.pow 2 63 then some (.integer n) else none

def based? (base : Nat) (s : List Char) : Option (Toml × List Char) := do
  let (ds, s) ← digits? base s
  let n ← natOfDigits? base ds
  return (← word? n, s)

/-- A sign, if there is one. -/
def sign : List Char → Bool × List Char
  | '-' :: s => (true, s)
  | '+' :: s => (false, s)
  | s => (false, s)

/-- The power of ten of a number. -/
def power? : List Char → Option (Option Int × List Char)
  | c :: s =>
    if c == 'e' || c == 'E' then do
      let (negative, s) := sign s
      let (ds, s) ← digits? 10 s
      let n ← natOfDigits? 10 ds
      return (some (if negative then -(n : Int) else n), s)
    else some (none, c :: s)
  | [] => some (none, [])

/-- A number of decimal digits, whole or with a point or a power of ten. -/
def decimal? (s : List Char) : Option (Toml × List Char) := do
  let (negative, s) := sign s
  let (ds, s) ← digits? 10 s
  if ds.head? == some '0' && 1 < ds.length then none
  let (part, s) ← match s with
    | '.' :: s => (digits? 10 s).map fun (part, s) => (some part, s)
    | s => some (none, s)
  let (power, s) ← power? s
  let n ← natOfDigits? 10 (ds ++ part.getD [])
  match part, power with
  | none, none => return (← word? (if negative then -(n : Int) else n), s)
  | part, power =>
    let x := Binary64.ofDecimal negative n (power.getD 0 - (part.getD []).length)
    if x.isFinite then return (.float x, s) else none

/-! ### Dates and times -/

/-- A number of so many digits within bounds. -/
def field? (count low high : Nat) (s : List Char) : Option (Nat × List Char) := do
  let ds := s.take count
  if ds.length < count then none
  let n ← natOfDigits? 10 ds
  if low ≤ n && n ≤ high then some (n, s.drop count) else none

def char? (c : Char) : List Char → Option (List Char)
  | d :: s => if c == d then some s else none
  | [] => none

def daysOf (year month : Nat) : Nat :=
  if month = 2 then
    if year % 4 = 0 && (year % 100 != 0 || year % 400 = 0) then 29 else 28
  else if [4, 6, 9, 11].contains month then 30
  else 31

def date? (s : List Char) : Option (List Char) := do
  let (year, s) ← field? 4 0 9999 s
  let (month, s) ← field? 2 1 12 (← char? '-' s)
  let (_, s) ← field? 2 1 (daysOf year month) (← char? '-' s)
  return s

def time? (s : List Char) : Option (List Char) := do
  let (_, s) ← field? 2 0 23 s
  let (_, s) ← field? 2 0 59 (← char? ':' s)
  let (_, s) ← field? 2 0 60 (← char? ':' s)
  match s with
  | '.' :: c :: s => if c.isDigit then return s.dropWhile Char.isDigit else return '.' :: c :: s
  | s => return s

/-- How far a time is from the universal one, if that is given. -/
def offset : List Char → List Char
  | 'Z' :: s => s
  | 'z' :: s => s
  | c :: s =>
    let given := if c == '+' || c == '-' then
        (field? 2 0 23 s).bind fun (_, s) =>
          (char? ':' s).bind fun s => (field? 2 0 59 s).map (·.2)
      else none
    given.getD (c :: s)
  | [] => []

/-- A date, a time, or both. -/
def dateTime? (s : List Char) : Option (List Char) :=
  match date? s with
  | none => time? s
  | some s =>
    match s with
    | c :: rest =>
      if c == 'T' || c == 't' || c == ' ' then
        match time? rest with
        | some after => some (offset after)
        | none => some s
      else some s
    | [] => some []

/-- A number or a date. -/
def number? (s : List Char) : Option (Toml × List Char) :=
  match dateTime? s with
  | some rest => some (.dateTime, rest)
  | none =>
    match s with
    | '0' :: 'x' :: s => based? 16 s
    | '0' :: 'o' :: s => based? 8 s
    | '0' :: 'b' :: s => based? 2 s
    | s =>
      let (negative, rest) := sign s
      match dropPrefix? "inf".toList rest, dropPrefix? "nan".toList rest with
      | some rest, _ => some (.float (.infinity negative), rest)
      | _, some rest => some (.float .nan, rest)
      | none, none => decimal? s

end Stencil.Toml
