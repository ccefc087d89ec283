/-!
Numbers of double precision, by their bits, in exact arithmetic: a ratio rounded to the nearest
one, and the shortest decimal that reads back. A tie goes to the even neighbour.
-/
namespace Stencil

structure Binary64 where
  bits : UInt64
  deriving DecidableEq, Repr

namespace Binary64

/-- Bit patterns from here on are the infinity and the values that are not numbers. -/
def infinityBits : Nat := 0x7FF * Nat.pow 2 52

def signBit : Nat := Nat.pow 2 63

def isNegative (x : Binary64) : Bool := signBit ≤ x.bits.toNat

/-- The bits without the sign. -/
def magnitude (x : Binary64) : Nat := x.bits.toNat % signBit

def isFinite (x : Binary64) : Bool := x.magnitude < infinityBits

def isNaN (x : Binary64) : Bool := infinityBits < x.magnitude

/-- A number from its sign and the bits of its magnitude. -/
def ofMagnitude (negative : Bool) (magnitude : Nat) : Binary64 :=
  ⟨UInt64.ofNat (if negative then signBit + magnitude else magnitude)⟩

def infinity (negative : Bool) : Binary64 := ofMagnitude negative infinityBits

def nan : Binary64 := ofMagnitude false (infinityBits + Nat.pow 2 51)

/-- The finite magnitude as a whole number times a power of two. -/
def mantissa (x : Binary64) : Nat :=
  let e := x.magnitude / Nat.pow 2 52
  if e = 0 then x.magnitude else x.magnitude % Nat.pow 2 52 + Nat.pow 2 52

/-- The power of two that goes with `mantissa`. -/
def exponent (x : Binary64) : Int :=
  let e : Nat := x.magnitude / Nat.pow 2 52
  if e = 0 then -1074 else (e : Int) - 1075

/-- A ratio rounded to a whole number, half to even. -/
def roundRatio (num den : Nat) : Nat :=
  let q := num / den
  let r := num % den
  if 2 * r < den then q
  else if den < 2 * r then q + 1
  else if q % 2 = 0 then q else q + 1

/-- A ratio times a power of two, as numerator and denominator. -/
def scaleTwo (num den : Nat) (power : Int) : Nat × Nat :=
  if 0 ≤ power then (num * Nat.pow 2 power.toNat, den)
  else (num, den * Nat.pow 2 (-power).toNat)

/-- A ratio times a power of ten, as numerator and denominator. -/
def scaleTen (num den : Nat) (power : Int) : Nat × Nat :=
  if 0 ≤ power then (num * Nat.pow 10 power.toNat, den)
  else (num, den * Nat.pow 10 (-power).toNat)

/-- The number nearest to a ratio; one that is too large is infinite. -/
def ofRatio (negative : Bool) (num den : Nat) : Binary64 :=
  if num = 0 then ofMagnitude negative 0
  else
    let guess : Int := max ((Nat.log2 num : Int) - Nat.log2 den - 53) (-1074)
    let (n, d) := scaleTwo num den (-guess)
    let (n, d, q) := if Nat.pow 2 53 ≤ n / d then (n, 2 * d, guess + 1) else (n, d, guess)
    let magnitude := (q + 1074).toNat * Nat.pow 2 52 + roundRatio n d
    ofMagnitude negative (min magnitude infinityBits)

/-- The number nearest to `digits · 10 ^ power`. Beyond these powers no digits of that many places
lie within the range of finite numbers. -/
def ofDecimal (negative : Bool) (digits : Nat) (power : Int) : Binary64 :=
  if digits = 0 then ofMagnitude negative 0
  else
    let places : Int := (Nat.log2 digits / 3 : Nat) + 1
    if 400 < power then infinity negative
    else if power + places < -400 then ofMagnitude negative 0
    else
      let (n, d) := scaleTen digits 1 power
      ofRatio negative n d

/-- The magnitude of a finite number as numerator and denominator. -/
def toRatio (x : Binary64) : Nat × Nat := scaleTwo x.mantissa 1 x.exponent

/-- The product, for finite numbers. -/
def mul (x y : Binary64) : Binary64 :=
  ofRatio (x.isNegative != y.isNegative) (x.toRatio.1 * y.toRatio.1) (x.toRatio.2 * y.toRatio.2)

/-- The quotient, for finite numbers and a divisor other than zero. -/
def div (x y : Binary64) : Binary64 :=
  ofRatio (x.isNegative != y.isNegative) (x.toRatio.1 * y.toRatio.2) (x.toRatio.2 * y.toRatio.1)

def neg (x : Binary64) : Binary64 := ofMagnitude (!x.isNegative) x.magnitude

/-- The nearest number to a whole one. -/
def ofNat (n : Nat) : Binary64 := ofRatio false n 1

/-- Decimal digits, none of them a leading or a trailing zero, and the place of the point: the value
is `0.digits · 10 ^ point`. -/
structure Decimal where
  digits : List Char
  point : Int
  deriving DecidableEq, Repr

/-- `n / d` is below `10 ^ p` and at least `10 ^ (p - 1)`; the search goes on from `p`. -/
def decimalPlaces (n d : Nat) : (steps : Nat) → Int → Int
  | 0, p => p
  | steps + 1, p =>
    let (a, b) := scaleTen n d (-p)
    if b ≤ a then decimalPlaces n d steps (p + 1)
    else if 10 * a < b then decimalPlaces n d steps (p - 1)
    else p

/-- The decimals that read back as a number, in units of a quarter of the last place of its
mantissa. -/
structure Interval where
  low : Nat
  value : Nat
  high : Nat
  /-- The ends read back too. -/
  closed : Bool
  /-- The power of two of the unit. -/
  unit : Int

def interval (x : Binary64) : Interval :=
  let m := x.mantissa
  { low := 4 * m - (if m = Nat.pow 2 52 ∧ -1074 < x.exponent then 1 else 2)
    value := 4 * m
    high := 4 * m + 2
    closed := m % 2 = 0
    unit := x.exponent - 2 }

/-- `c · 10 ^ k` reads back. -/
def Interval.holds (i : Interval) (k : Int) (c : Nat) : Bool :=
  let (a, b) := scaleTen c 1 k
  let (s, t) := scaleTwo 1 1 i.unit
  let x := a * t
  let low := i.low * s * b
  let high := i.high * s * b
  (low < x && x < high) || (i.closed && (low == x || x == high))

/-- Of the two multiples of `10 ^ k` next to the value the nearer one that reads back. -/
def Interval.onGrid? (i : Interval) (k : Int) : Option Nat :=
  let (n, d) := scaleTwo i.value 1 i.unit
  let (n, d) := scaleTen n d (-k)
  let c := n / d
  let r := n % d
  let near := if 2 * r < d ∨ (2 * r = d ∧ c % 2 = 0) then c else c + 1
  let far := if near = c then c + 1 else c
  if i.holds k near then some near else if i.holds k far then some far else none

/-- The first grid of `count` digits or more that holds a decimal that reads back. -/
def Interval.shortest (i : Interval) (places : Int) : (more count : Nat) → Nat × Int
  | 0, count => (((i.onGrid? (places - count)).getD 0), places - count)
  | more + 1, count =>
    match i.onGrid? (places - count) with
    | some c => (c, places - count)
    | none => i.shortest places more (count + 1)

/-- The fewest digits that read back as the magnitude of a finite number other than zero, and of
those the nearest. Seventeen digits always do. -/
def shortest (x : Binary64) : Decimal :=
  let (n, d) := x.toRatio
  let guess : Int := ((Nat.log2 n : Int) - Nat.log2 d) * 30103 / 100000
  let places := decimalPlaces n d 8 guess
  let (c, k) := x.interval.shortest places 16 1
  let digits := Nat.toDigits 10 c
  ⟨(digits.reverse.dropWhile (· == '0')).reverse, k + digits.length⟩

end Binary64
end Stencil
