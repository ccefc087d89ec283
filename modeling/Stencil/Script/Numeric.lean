import Stencil.Number.Decimal
import Stencil.Number.Layout
import Stencil.Script.Grammar
import Stencil.Script.Regex
import Stencil.Text.Search
/-!
Arithmetic of scripts and the texts of numbers. Numbers are of double precision; operations on bits
take them modulo a power of two.
-/
namespace Stencil.Script.Numeric

def nan : Float := 0.0 / 0.0

def infinity : Float := 1.0 / 0.0

def binary (x : Float) : Binary64 := ⟨x.toBits⟩

def ofBinary (x : Binary64) : Float := Float.ofBits x.bits

/-- The whole part of a finite number. -/
def truncate (x : Float) : Int :=
  let b := binary x
  let (n, d) := b.toRatio
  if b.isNegative then -((n / d : Nat) : Int) else (n / d : Nat)

def ofInt (n : Int) : Float := ofBinary (Binary64.ofRatio (n < 0) n.natAbs 1)

def ofNat (n : Nat) : Float := Float.ofNat n

/-- The number is whole and so small that each whole number up to it has a place. -/
def isSmallWhole (x : Float) : Bool := x.floor == x && x.abs ≤ 9007199254740991.0

/-- A whole number, if the number is one and no larger than what is counted with. -/
def index? (x : Float) : Option Nat :=
  if 0.0 ≤ x && x < 4294967295.0 then
    let n := x.toUInt64
    if n.toFloat == x then some n.toNat else none
  else none

/-- The whole number modulo `2 ^ 32`. -/
def toWord (x : Float) : UInt32 :=
  if x.abs < 9007199254740992.0 then
    let n := x.abs.toUInt64.toUInt32
    if x < 0.0 then -n else n
  else if x.isFinite then UInt32.ofNat (truncate x % Int.pow 2 32).toNat
  else 0

def ofWord (w : UInt32) : Float := w.toFloat

/-- The number with the bits of a word, the first of which is its sign. -/
def ofSignedWord (w : UInt32) : Float :=
  if w < 0x80000000 then w.toFloat else -((-w).toFloat)

/-- What is left of a number after division, with the sign of the number. -/
def remainder (x y : Float) : Float :=
  if x.isNaN || y.isNaN || x.isInf || y == 0.0 then nan
  else if y.isInf || x == 0.0 then x
  else
    let (n, d) := (binary x).toRatio
    let (m, e) := (binary y).toRatio
    ofBinary (Binary64.ofRatio (binary x).isNegative ((n * e) % (m * d)) (d * e))

def power (x y : Float) : Float :=
  if y.isNaN || (x.abs == 1.0 && y.isInf) then nan else Float.pow x y

/-- The whole number next to a number, a half rounded up. -/
def round (x : Float) : Float :=
  if !x.isFinite || x.floor == x then x
  else
    let f := x.floor
    let r := if x - f < 0.5 then f else f + 1.0
    if r == 0.0 && x < 0.0 then -0.0 else r

def trunc (x : Float) : Float := if x < 0.0 then x.ceil else x.floor

/-! ### Reading -/

def isSpace (c : Char) : Bool := Regex.inRanges Regex.spaceRanges c.toNat

def trimStart (s : String) : String := String.ofList (s.toList.dropWhile isSpace)

def trimEnd (s : String) : String :=
  String.ofList (s.toList.reverse.dropWhile isSpace).reverse

def trim (s : String) : String := trimEnd (trimStart s)

def digitsIn (base : Nat) (cs : List Char) : Float :=
  match natOfDigits? base cs with
  | some n => ofNat n
  | none => nan

/-- The number that a text as a whole stands for. -/
def ofText (s : String) : Float :=
  match (trim s).toList with
  | [] => 0.0
  | '0' :: 'x' :: cs | '0' :: 'X' :: cs => digitsIn 16 cs
  | '0' :: 'o' :: cs | '0' :: 'O' :: cs => digitsIn 8 cs
  | '0' :: 'b' :: cs | '0' :: 'B' :: cs => digitsIn 2 cs
  | cs =>
    if cs == "Infinity".toList || cs == "+Infinity".toList then infinity
    else if cs == "-Infinity".toList then -infinity
    else ((Binary64.ofText? cs).map ofBinary).getD nan

/-- The number at the start of a text. -/
def leading (s : String) : Float :=
  let cs := (trimStart s).toList
  let (sign, cs) := match cs with
    | '-' :: cs => ("-".toList, cs)
    | '+' :: cs => ([], cs)
    | cs => ([], cs)
  if (Text.dropPrefix? "Infinity".toList cs).isSome then
    if sign.isEmpty then infinity else -infinity
  else
    let whole := cs.takeWhile Char.isDigit
    let rest := cs.dropWhile Char.isDigit
    let (part, rest) := match rest with
      | '.' :: rest =>
        let part := rest.takeWhile Char.isDigit
        ('.' :: part, rest.drop part.length)
      | rest => ([], rest)
    let power := match rest with
      | e :: rest =>
        if e == 'e' || e == 'E' then
          let (mark, rest) := match rest with
            | '-' :: rest => (['-'], rest)
            | '+' :: rest => (['+'], rest)
            | rest => ([], rest)
          let ds := rest.takeWhile Char.isDigit
          if ds.isEmpty then [] else 'e' :: mark ++ ds
        else []
      | [] => []
    ((Binary64.ofText? (sign ++ whole ++ part ++ power)).map ofBinary).getD nan

/-- The whole number at the start of a text; base 0 means 10, or 16 after `0x`. -/
def leadingWhole (s : String) (base : Nat) : Float :=
  let cs := (trimStart s).toList
  let (negative, cs) := match cs with
    | '-' :: cs => (true, cs)
    | '+' :: cs => (false, cs)
    | cs => (false, cs)
  let (base, cs) := match cs with
    | '0' :: x :: rest =>
      if (x == 'x' || x == 'X') && (base == 0 || base == 16) then (16, rest) else (base, cs)
    | _ => (base, cs)
  let base := if base == 0 then 10 else base
  if base < 2 || 36 < base then nan
  else
    match natOfDigits? base (cs.takeWhile fun c => (digitValue? c).any (· < base)) with
    | some n => if negative then -(ofNat n) else ofNat n
    | none => nan

/-! ### Writing -/

def toText (x : Float) : String :=
  match index? x with
  | some n => toString n
  | none => Grammar.numberText x

/-- Every number in place, with its point. -/
def placedLayout : NumberLayout where
  lowest := none
  highest := none
  wholeEnd := ""
  nan := "NaN"
  infinity := "inf"
  signedZero := true

def placedText (x : Float) : String := placedLayout.write (binary x)

/-- The nearest whole number to a ratio, a half rounded up. -/
def nearest (n d : Nat) : Nat := (2 * n + d) / (2 * d)

/-- Digits with a point before the last `places` of them. -/
def withPoint (digits places : Nat) : String :=
  let ds := toString digits
  if places == 0 then ds
  else
    let ds := String.ofList (List.replicate (places + 1 - ds.length) '0') ++ ds
    let cs := ds.toList
    String.ofList (cs.take (cs.length - places) ++ '.' :: cs.drop (cs.length - places))

/-- A fixed number of places after the point. -/
def fixedText (x : Float) (places : Nat) : String :=
  if !x.isFinite || 1e21 ≤ x.abs then toText x
  else
    let (n, d) := (binary x).toRatio
    let rounded := nearest (n * Nat.pow 10 places) d
    (if (x < 0.0) then "-" else "") ++ withPoint rounded places

/-- The first `count` digits of a positive number, and the power of ten of the first of them. -/
def significant (x : Float) (count : Nat) : Nat × Int :=
  let (n, d) := (binary x).toRatio
  let guess := (binary x).shortest.point - 1
  let scaled := fun (p : Int) =>
    let (a, b) := Binary64.scaleTen n d ((count : Int) - 1 - p)
    nearest a b
  let ds := scaled guess
  if Nat.pow 10 count ≤ ds then (scaled (guess + 1), guess + 1) else (ds, guess)

def powerText (digits : Nat) (count : Nat) (power : Int) : String :=
  let cs := (toString digits).toList
  String.ofList (cs.take 1) ++ (if 1 < count then "." ++ String.ofList (cs.drop 1) else "") ++
    "e" ++ (if power < 0 then "-" else "+") ++ toString power.natAbs

/-- One digit before the point and `places` after it. -/
def exponentialText (x : Float) (places : Option Nat) : String :=
  if !x.isFinite then toText x
  else
    let sign := if x < 0.0 then "-" else ""
    if x == 0.0 then
      sign ++ powerText 0 1 0
    else
      match places with
      | some p =>
        let (ds, power) := significant x.abs (p + 1)
        sign ++ powerText ds (p + 1) power
      | none =>
        let d := (binary x).shortest
        sign ++ powerText ((natOfDigits? 10 d.digits).getD 0) d.digits.length (d.point - 1)

/-- So many digits in all. -/
def precisionText (x : Float) (count : Nat) : String :=
  if !x.isFinite then toText x
  else
    let sign := if x < 0.0 then "-" else ""
    let (ds, power) := if x == 0.0 then (0, 0) else significant x.abs count
    if power < -6 || (count : Int) ≤ power then sign ++ powerText ds count power
    else if power < 0 then
      sign ++ withPoint ds (count + power.natAbs - 1)
    else sign ++ withPoint ds (count - 1 - power.toNat)

/-- A digit of a base up to 36. -/
def digitOf (n : Nat) : Char := Char.ofNat (if n < 10 then 48 + n else 87 + n)

/-- Digits of a fraction in a base, until nothing is left. -/
def fractionDigits (base n d : Nat) : (count : Nat) → List Char
  | 0 => []
  | count + 1 =>
    if n == 0 then []
    else digitOf (n * base / d) :: fractionDigits base (n * base % d) d count

/-- The digits of a whole number in a base. -/
def wholeDigits (base : Nat) : (fuel n : Nat) → List Char → List Char
  | 0, _, cs => cs
  | fuel + 1, n, cs =>
    let cs := digitOf (n % base) :: cs
    if n < base then cs else wholeDigits base fuel (n / base) cs

/-- The text of a number in a base. -/
def baseText (x : Float) (base : Nat) : String :=
  if base == 10 || !x.isFinite then toText x
  else
    let (n, d) := (binary x).toRatio
    let part := fractionDigits base (n % d) d 52
    (if x < 0.0 then "-" else "") ++ String.ofList (wholeDigits base 1100 (n / d) []) ++
      (if part.isEmpty then "" else "." ++ String.ofList part)

end Stencil.Script.Numeric
