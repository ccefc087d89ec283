import Stencil.Number.Binary64
/-!
Reading numbers: whole numbers in a base, and decimals with a point and a power of ten, rounded once
to the nearest number of double precision.
-/
namespace Stencil

/-- The value of a digit or letter in bases up to 36. -/
def digitValue? (c : Char) : Option Nat :=
  if '0' ≤ c ∧ c ≤ '9' then some (c.toNat - 48)
  else if 'a' ≤ c ∧ c ≤ 'z' then some (c.toNat - 87)
  else if 'A' ≤ c ∧ c ≤ 'Z' then some (c.toNat - 55)
  else none

/-- A whole number in a base; at least one digit, and nothing else. -/
def natOfDigits? (base : Nat) : List Char → Option Nat
  | [] => none
  | cs => cs.foldlM (fun n c => do
      let d ← digitValue? c
      if d < base then some (n * base + d) else none) 0

/-- A whole number with an optional sign. -/
def intOfDigits? (base : Nat) : List Char → Option Int
  | '-' :: cs => (natOfDigits? base cs).map fun n => -(n : Int)
  | '+' :: cs => (natOfDigits? base cs).map fun n => (n : Int)
  | cs => (natOfDigits? base cs).map fun n => (n : Int)

namespace Binary64

/-- A power of ten after its letter: an optional sign and digits. -/
def power? : List Char → Option Int
  | [] => none
  | cs => intOfDigits? 10 cs

/-- A decimal without a sign: digits with at most one point, at least one digit, and an optional
power of ten. -/
def unsignedOfText? (negative : Bool) (cs : List Char) : Option Binary64 := do
  let whole := cs.takeWhile Char.isDigit
  let rest := cs.dropWhile Char.isDigit
  let (part, rest) := match rest with
    | '.' :: rest => (rest.takeWhile Char.isDigit, rest.dropWhile Char.isDigit)
    | rest => ([], rest)
  let digits ← natOfDigits? 10 (whole ++ part)
  let power ← match rest with
    | [] => some 0
    | c :: rest => if c == 'e' || c == 'E' then power? rest else none
  return ofDecimal negative digits (power - part.length)

/-- A decimal with an optional sign. -/
def ofText? : List Char → Option Binary64
  | '-' :: cs => unsignedOfText? true cs
  | '+' :: cs => unsignedOfText? false cs
  | cs => unsignedOfText? false cs

end Binary64
end Stencil
