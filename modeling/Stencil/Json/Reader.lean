import Stencil.Json.Basic
/-!
Reading JSON. Values nest at most 127 levels deep. A whole number that 64 bits hold is kept exactly.
Any other number is a number of double precision: its first digits, as many as a word holds, are
rounded once, and the power of ten is then multiplied in or divided out with a second rounding. A
number too large for that is refused.
-/
namespace Stencil.Json

def skipBlanks : List Char → List Char
  | c :: s => if c = ' ' ∨ c = '\n' ∨ c = '\t' ∨ c = '\r' then skipBlanks s else c :: s
  | [] => []

/-- The largest whole number without a sign. -/
def maxWord : Nat := Nat.pow 2 64 - 1

/-- The largest power of ten that is a single factor. -/
def maxFactor : Nat := 308

/-- `x · 10 ^ power`, the power taken in one factor, or in several when it is far below zero. -/
def scale (x : Binary64) (power : Int) : Option Binary64 :=
  let factor := fun n : Nat => Binary64.ofDecimal false 1 n
  if power.natAbs ≤ maxFactor then
    if 0 ≤ power then
      let y := x.mul (factor power.natAbs)
      if y.isFinite then some y else none
    else some (x.div (factor power.natAbs))
  else if x.magnitude = 0 then some x
  else if 0 ≤ power then none
  else
    let y := x.div (factor maxFactor)
    let rest := (power + maxFactor)
    if rest.natAbs ≤ maxFactor then some (y.div (factor rest.natAbs))
    else some (Binary64.ofMagnitude false 0)

/-- The number with these first digits and this power of ten. -/
def floatOf (negative : Bool) (digits : Nat) (power : Int) : Option Number :=
  (scale (Binary64.ofNat digits) power).map fun x =>
    .float (if negative then x.neg else x)

/-- Reads digits as long as a word holds their number. Gives the number, how many digits were read,
and the text from the first digit left. -/
def readDigits (n count : Nat) : List Char → Nat × Nat × List Char
  | c :: s =>
    if c.isDigit ∧ n * 10 + (c.toNat - 48) ≤ maxWord then
      readDigits (n * 10 + (c.toNat - 48)) (count + 1) s
    else (n, count, c :: s)
  | [] => (n, count, [])

/-- How many digits stand at the start of the text, and the text after them. -/
def skipDigits (s : List Char) : Nat × List Char :=
  ((s.takeWhile Char.isDigit).length, s.dropWhile Char.isDigit)

/-- The largest power that is counted. -/
def maxPower : Nat := Nat.pow 2 31 - 1

/-- A number whose digits have been read, from the place where a power of ten may stand. -/
def readPower (negative : Bool) (digits : Nat) (power : Int) (s : List Char) :
    Option (Number × List Char) :=
  match s with
  | c :: s =>
    if c = 'e' ∨ c = 'E' then
      let (down, s) := match s with
        | '-' :: s => (true, s)
        | '+' :: s => (false, s)
        | s => (false, s)
      let ds := s.takeWhile Char.isDigit
      let rest := s.dropWhile Char.isDigit
      if ds.isEmpty then none
      else
        let n := ds.foldl (fun n c => n * 10 + (c.toNat - 48)) 0
        if maxPower < n then
          if digits ≠ 0 ∧ !down then none
          else some (.float (Binary64.ofMagnitude negative 0), rest)
        else
          (floatOf negative digits (if down then power - n else power + n)).map (·, rest)
    else (floatOf negative digits power).map (·, c :: s)
  | [] => (floatOf negative digits power).map (·, [])

/-- A number whose whole digits have been read, from the point on. -/
def readFraction (negative : Bool) (digits : Nat) (power : Int) (s : List Char) :
    Option (Number × List Char) :=
  let (n, count, rest) := readDigits digits 0 s
  let (skipped, rest) := skipDigits rest
  if count + skipped = 0 then none else readPower negative n (power - count) rest

/-- A whole number that a sign went before. Zero with a sign and numbers that 64 bits do not hold
are of double precision. -/
def wholeNumber (negative : Bool) (n : Nat) : Number :=
  if negative then
    if n = 0 ∨ Nat.pow 2 63 < n then .float (Binary64.ofNat n).neg else .int (-n)
  else .int n

/-- The number at the start of the text, its sign apart. -/
def readNumber (negative : Bool) (s : List Char) : Option (Number × List Char) :=
  let (n, count, rest) := readDigits 0 0 s
  let (skipped, rest) := skipDigits rest
  if count = 0 ∨ (s.head? = some '0' ∧ 1 < count + skipped) then none
  else match rest with
    | '.' :: rest => readFraction negative n skipped rest
    | c :: rest =>
      if c = 'e' ∨ c = 'E' then readPower negative n skipped (c :: rest)
      else if skipped = 0 then some (wholeNumber negative n, c :: rest)
      else (floatOf negative n skipped).map (·, c :: rest)
    | [] =>
      if skipped = 0 then some (wholeNumber negative n, [])
      else (floatOf negative n skipped).map (·, [])

def hexValue? (c : Char) : Option Nat :=
  if c.isDigit then some (c.toNat - 48)
  else if 'a' ≤ c ∧ c ≤ 'f' then some (c.toNat - 87)
  else if 'A' ≤ c ∧ c ≤ 'F' then some (c.toNat - 55)
  else none

/-- The four hexadecimal digits of an escape. -/
def readHex4 : List Char → Option (Nat × List Char)
  | a :: b :: c :: d :: s => do
    let a ← hexValue? a
    let b ← hexValue? b
    let c ← hexValue? c
    let d ← hexValue? d
    return (((a * 16 + b) * 16 + c) * 16 + d, s)
  | _ => none

/-- The character of a numeric escape, from its digits on. A high surrogate takes the low one that
has to follow it. -/
def readUnicode (s : List Char) : Option (Char × List Char) := do
  let (n, s) ← readHex4 s
  if 0xD800 ≤ n ∧ n < 0xDC00 then
    match s with
    | '\\' :: 'u' :: s =>
      let (m, s) ← readHex4 s
      if 0xDC00 ≤ m ∧ m < 0xE000 then
        return (Char.ofNat (0x10000 + (n - 0xD800) * 0x400 + (m - 0xDC00)), s)
      else none
    | _ => none
  else if 0xDC00 ≤ n ∧ n < 0xE000 then none
  else return (Char.ofNat n, s)

/-- The character of an escape, from the character after the backslash on. -/
def readEscape : List Char → Option (Char × List Char)
  | '"' :: s => some ('"', s)
  | '\\' :: s => some ('\\', s)
  | '/' :: s => some ('/', s)
  | 'b' :: s => some ('\x08', s)
  | 'f' :: s => some ('\x0c', s)
  | 'n' :: s => some ('\n', s)
  | 'r' :: s => some ('\r', s)
  | 't' :: s => some ('\t', s)
  | 'u' :: s => readUnicode s
  | _ => none

/-- The rest of a string up to its closing quote. `fuel` bounds the number of characters. -/
def readString : (fuel : Nat) → List Char → Option (List Char × List Char)
  | 0, _ => none
  | fuel + 1, s =>
    match s with
    | [] => none
    | '"' :: s => some ([], s)
    | '\\' :: s => do
      let (c, s) ← readEscape s
      let (cs, s) ← readString fuel s
      return (c :: cs, s)
    | c :: s =>
      if c.toNat < 32 then none
      else do
        let (cs, s) ← readString fuel s
        return (c :: cs, s)

/-- A string after its opening quote. -/
def readText (s : List Char) : Option (String × List Char) :=
  (readString (s.length + 1) s).map fun (cs, rest) => (String.ofList cs, rest)

/-- A word that stands for a value. -/
def readWord (word : List Char) (value : Json) (s : List Char) : Option (Json × List Char) :=
  if s.take word.length = word then some (value, s.drop word.length) else none

/-- How deep values nest at most. -/
def maxDepth : Nat := 127

mutual

/-- The value at the start of a text without blanks before it. `room` levels may still open. -/
def readValue : (fuel room : Nat) → List Char → Option (Json × List Char)
  | 0, _, _ => none
  | fuel + 1, room, s =>
    match s with
    | 'n' :: _ => readWord "null".toList null s
    | 't' :: _ => readWord "true".toList (bool true) s
    | 'f' :: _ => readWord "false".toList (bool false) s
    | '"' :: s => (readText s).map fun (t, rest) => (string t, rest)
    | '-' :: s => (readNumber true s).map fun (n, rest) => (number n, rest)
    | '[' :: s =>
      match room with
      | 0 => none
      | room + 1 =>
        match skipBlanks s with
        | ']' :: s => some (array [], s)
        | s => (readItems fuel room s).map fun (items, rest) => (array items, rest)
    | '{' :: s =>
      match room with
      | 0 => none
      | room + 1 =>
        match skipBlanks s with
        | '}' :: s => some (object [], s)
        | s => (readEntries fuel room s).map fun (es, rest) => (object (Assoc.ofList es), rest)
    | s => (readNumber false s).map fun (n, rest) => (number n, rest)

/-- The items of an array from the first one that is left. -/
def readItems : (fuel room : Nat) → List Char → Option (List Json × List Char)
  | 0, _, _ => none
  | fuel + 1, room, s => do
    let (j, s) ← readValue fuel room s
    match skipBlanks s with
    | ',' :: s =>
      let (rest, s) ← readItems fuel room (skipBlanks s)
      return (j :: rest, s)
    | ']' :: s => return ([j], s)
    | _ => none

/-- The entries of an object from the first one that is left. -/
def readEntries : (fuel room : Nat) → List Char → Option (List (String × Json) × List Char)
  | 0, _, _ => none
  | fuel + 1, room, s =>
    match s with
    | '"' :: s => do
      let (key, s) ← readText s
      match skipBlanks s with
      | ':' :: s =>
        let (j, s) ← readValue fuel room (skipBlanks s)
        match skipBlanks s with
        | ',' :: s =>
          let (rest, s) ← readEntries fuel room (skipBlanks s)
          return ((key, j) :: rest, s)
        | '}' :: s => return ([(key, j)], s)
        | _ => none
      | _ => none
    | _ => none

end

/-- The value that a text writes. -/
def read? (s : String) : Option Json :=
  let s := s.toList
  match readValue (2 * s.length + 2) maxDepth (skipBlanks s) with
  | some (j, rest) => if (skipBlanks rest).isEmpty then some j else none
  | none => none

end Stencil.Json
