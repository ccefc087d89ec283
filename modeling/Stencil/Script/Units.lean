/-!
Texts of scripts. A script counts a text in units of 16 bits: a character beyond the first plane is a
pair of units, and a text may hold one unit of a pair without the other. Such a unit is kept as a
character of the last private plane, and becomes one character with the other unit when the two meet.
-/
namespace Stencil.Script.Units

/-- The first unit of the pairs. -/
def pairBase : Nat := 0xD800

/-- The character that the first unit of the pairs is kept as, when it stands alone. -/
def aloneBase : Nat := 0x10F000

def isHigh (u : Nat) : Bool := 0xD800 ≤ u && u < 0xDC00

def isLow (u : Nat) : Bool := 0xDC00 ≤ u && u < 0xE000

/-- The unit that a character stands for, if it is one without its pair. -/
def alone? (c : Char) : Option Nat :=
  if aloneBase ≤ c.toNat && c.toNat < aloneBase + 0x800 then some (c.toNat - aloneBase + pairBase)
  else none

def ofChar (c : Char) : List Nat :=
  match alone? c with
  | some u => [u]
  | none =>
    let n := c.toNat
    if n < 0x10000 then [n]
    else [0xD800 + (n - 0x10000) / 0x400, 0xDC00 + (n - 0x10000) % 0x400]

/-- The units of a text. -/
def ofText (s : String) : List Nat := s.toList.flatMap ofChar

/-- The character of a unit that is no part of a pair. -/
def charOf (u : Nat) : Char :=
  if pairBase ≤ u && u < 0xE000 then Char.ofNat (u - pairBase + aloneBase) else Char.ofNat u

def pairChar (high low : Nat) : Char :=
  Char.ofNat (0x10000 + (high - 0xD800) * 0x400 + (low - 0xDC00))

def chars : List Nat → List Char
  | [] => []
  | [u] => [charOf u]
  | u :: v :: rest =>
    if isHigh u && isLow v then pairChar u v :: chars rest else charOf u :: chars (v :: rest)

/-- The text of units. -/
def toText (us : List Nat) : String := String.ofList (chars us)

def charSize (c : Char) : Nat := if c.toNat < 0x10000 || (alone? c).isSome then 1 else 2

/-- How many units a text has. -/
def size (s : String) : Nat := s.foldl (fun n c => n + charSize c) 0

/-- Every character is a unit of its own. -/
def isPlain (s : String) : Bool := s.all fun (c : Char) => c.toNat < 0x10000

/-- Units from one place up to another. -/
def slice (s : String) (start stop : Nat) : String :=
  if isPlain s then String.ofList ((s.toList.take stop).drop start)
  else toText (((ofText s).take stop).drop start)

/-- One text after the other. -/
def append (a b : String) : String :=
  match a.back?.bind alone?, b.front?.bind alone? with
  | some u, some v =>
    if isHigh u && isLow v then
      String.ofList (a.toList.dropLast ++ pairChar u v :: b.toList.tail)
    else a ++ b
  | _, _ => a ++ b

/-- The unit at a place. -/
def get? (s : String) (i : Nat) : Option Nat :=
  if isPlain s then (s.toList[i]?).map Char.toNat else (ofText s)[i]?

/-- One text is before the other in the order of units. -/
def less (a b : String) : Bool := decide (ofText a < ofText b)

end Stencil.Script.Units
