import Stencil.Number.Binary64
/-!
How the digits of a number are set out. A layout says for which powers of ten the digits are
written in place, what a whole number ends with, and what the values that are not finite are
called. Every other number is written with one digit before the point and a signed power of ten.
-/
namespace Stencil

structure NumberLayout where
  /-- The smallest power of ten of the first digit that is written in place. -/
  lowest : Option Int
  /-- The largest one. -/
  highest : Option Int
  /-- What a whole number in place ends with. -/
  wholeEnd : String
  nan : String
  infinity : String
  /-- A negative zero keeps its sign. -/
  signedZero : Bool

namespace NumberLayout

/-- Digits in place around the point. -/
def inPlace (layout : NumberLayout) (d : Binary64.Decimal) : List Char :=
  let count : Int := d.digits.length
  if d.point ≤ 0 then '0' :: '.' :: List.replicate (-d.point).toNat '0' ++ d.digits
  else if count ≤ d.point then
    d.digits ++ List.replicate (d.point - count).toNat '0' ++ layout.wholeEnd.toList
  else d.digits.take d.point.toNat ++ '.' :: d.digits.drop d.point.toNat

/-- Digits with a power of ten. -/
def withPower (d : Binary64.Decimal) : List Char :=
  let power := d.point - 1
  let head := match d.digits with
    | [] => ['0']
    | [c] => [c]
    | c :: more => c :: '.' :: more
  head ++ ['e', if power < 0 then '-' else '+'] ++ Nat.toDigits 10 power.natAbs

/-- The text of a number. -/
def write (layout : NumberLayout) (x : Binary64) : String :=
  if x.isNaN then layout.nan
  else
    let zero := x.magnitude = 0
    let sign := if x.isNegative && (layout.signedZero || !zero) then "-" else ""
    if !x.isFinite then sign ++ layout.infinity
    else if zero then sign ++ "0" ++ layout.wholeEnd
    else
      let d := x.shortest
      let power := d.point - 1
      let placed := layout.lowest.all (· ≤ power) && layout.highest.all (power ≤ ·)
      sign ++ String.ofList (if placed then layout.inPlace d else withPower d)

end NumberLayout
end Stencil
