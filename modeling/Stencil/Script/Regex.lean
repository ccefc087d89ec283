import Stencil.Number.Decimal
import Stencil.Script.Units
import Stencil.Text.Capital
import Stencil.Text.Word
/-!
Patterns of scripts: reading them, and matching them against the units of a text. Matching tries the
alternatives in order and goes back to the next one where the rest of the pattern fails.
-/
namespace Stencil.Script

/-- Characters by ranges of their codes. -/
structure CharSet where
  ranges : List (Nat × Nat)
  negated : Bool := false
  deriving DecidableEq, Repr

inductive RegexNode where
  | empty
  | set (s : CharSet)
  | seq (a b : RegexNode)
  | either (a b : RegexNode)
  | group (index : Nat) (n : RegexNode)
  /-- Repeats a node whose groups lie between two numbers. -/
  | repeats (n : RegexNode) (least : Nat) (most : Option Nat) (greedy : Bool) (first last : Nat)
  | start
  | finish
  | wordEdge (negated : Bool)
  | back (index : Nat)
  | ahead (negated : Bool) (n : RegexNode)
  | behind (negated : Bool) (n : RegexNode)
  deriving Repr

structure Regex where
  node : RegexNode
  /-- How many groups there are, the whole match among them. -/
  groups : Nat
  /-- Groups that have a name. -/
  names : List (String × Nat)
  ignoreCase : Bool
  multiline : Bool
  dotAll : Bool
  unicode : Bool
  deriving Repr

namespace Regex

def digitRanges : List (Nat × Nat) := [(48, 57)]

def wordRanges : List (Nat × Nat) := [(48, 57), (65, 90), (95, 95), (97, 122)]

def spaceRanges : List (Nat × Nat) :=
  [(9, 13), (32, 32), (160, 160), (0x1680, 0x1680), (0x2000, 0x200a), (0x2028, 0x2029),
    (0x202f, 0x202f), (0x205f, 0x205f), (0x3000, 0x3000), (0xfeff, 0xfeff)]

def lineEndRanges : List (Nat × Nat) := [(10, 10), (13, 13), (0x2028, 0x2029)]

/-- The ranges between ranges that are in order. -/
def complement (ranges : List (Nat × Nat)) : List (Nat × Nat) :=
  let rec go (low : Nat) : List (Nat × Nat) → List (Nat × Nat)
    | [] => [(low, 0x10FFFF)]
    | (a, b) :: rest => (if low < a then [(low, a - 1)] else []) ++ go (b + 1) rest
  go 0 ranges

def inRanges (ranges : List (Nat × Nat)) (n : Nat) : Bool :=
  ranges.any fun (a, b) => a ≤ n && n ≤ b

/-! ### Reading -/

/-- What has been read of a pattern. -/
structure Reading where
  rest : List Char
  groups : Nat := 1
  names : List (String × Nat) := []

abbrev Read := StateT Reading Option

def peek : Read (Option Char) := do return (← get).rest.head?

def next : Read Char := do
  match (← get).rest with
  | c :: rest =>
    modify fun s => { s with rest }
    return c
  | [] => failure

def eat (p : String) : Read Bool := do
  let s ← get
  if p.toList.isPrefixOf s.rest then
    set { s with rest := s.rest.drop p.length }
    return true
  else return false

def hex (count : Nat) : Read Nat := do
  let s ← get
  let ds := s.rest.take count
  if ds.length < count then failure
  let n ← natOfDigits? 16 ds
  set { s with rest := s.rest.drop count }
  return n

/-- The ranges of a class escape. -/
def classOf? (c : Char) : Option (List (Nat × Nat)) :=
  match c with
  | 'd' => some digitRanges
  | 'D' => some (complement digitRanges)
  | 'w' => some wordRanges
  | 'W' => some (complement wordRanges)
  | 's' => some spaceRanges
  | 'S' => some (complement spaceRanges)
  | _ => none

/-- The code of a character after a backslash. -/
def escaped (c : Char) : Read Nat := do
  match c with
  | 'n' => return 10
  | 't' => return 9
  | 'r' => return 13
  | 'v' => return 11
  | 'f' => return 12
  | '0' => return 0
  | 'x' => hex 2
  | 'u' =>
    if ← eat "\x7b" then
      let s ← get
      let ds := s.rest.takeWhile (· != '\x7d')
      let n ← natOfDigits? 16 ds
      set { s with rest := s.rest.drop (ds.length + 1) }
      return n
    else hex 4
  | 'c' => return (← next).toNat % 32
  | c => return c.toNat

/-- The name of a group up to its closing bracket. -/
def groupName : Read String := do
  let s ← get
  let name := s.rest.takeWhile (· != '>')
  if name.isEmpty || s.rest.length ≤ name.length then failure
  set { s with rest := s.rest.drop (name.length + 1) }
  return String.ofList name

/-- A member of a class: one code, or ranges. -/
def classAtom : Read (Nat ⊕ List (Nat × Nat)) := do
  let c ← next
  if c != '\\' then return .inl c.toNat
  let c ← next
  match classOf? c with
  | some ranges => return .inr ranges
  | none => if c == 'b' then return .inl 8 else return .inl (← escaped c)

/-- The rest of a class in brackets. -/
def classRest : (fuel : Nat) → Read (List (Nat × Nat))
  | 0 => failure
  | fuel + 1 => do
    if ← eat "]" then return []
    let a ← classAtom
    let s ← get
    match a, s.rest with
    | .inl low, '-' :: d :: _ =>
      if d == ']' then return (low, low) :: (← classRest fuel)
      let _ ← next
      match ← classAtom with
      | .inl high => if high < low then failure else return (low, high) :: (← classRest fuel)
      | .inr ranges => return (low, low) :: (45, 45) :: ranges ++ (← classRest fuel)
    | .inl n, _ => return (n, n) :: (← classRest fuel)
    | .inr ranges, _ => return ranges ++ (← classRest fuel)

def number : Read (Option Nat) := do
  let s ← get
  let ds := s.rest.takeWhile Char.isDigit
  set { s with rest := s.rest.drop ds.length }
  return natOfDigits? 10 ds

/-- The bounds of a repetition, if one comes next. -/
def bounds : Read (Option (Nat × Option Nat)) := do
  if ← eat "*" then return some (0, none)
  if ← eat "+" then return some (1, none)
  if ← eat "?" then return some (0, some 1)
  let before ← get
  if ← eat "\x7b" then
    match ← number with
    | some low =>
      if ← eat "\x7d" then return some (low, some low)
      if ← eat "," then
        let high ← number
        if ← eat "\x7d" then
          if high.any (· < low) then failure
          return some (low, high)
    | none => pure ()
    set before
  return none

mutual

def alternatives : (fuel : Nat) → (dotAll : Bool) → Read RegexNode
  | 0, _ => failure
  | fuel + 1, dotAll => do
    let a ← sequence fuel dotAll
    if ← eat "|" then return .either a (← alternatives fuel dotAll)
    else return a

def sequence : (fuel : Nat) → (dotAll : Bool) → Read RegexNode
  | 0, _ => failure
  | fuel + 1, dotAll => do
    match ← peek with
    | none => return .empty
    | some '|' => return .empty
    | some ')' => return .empty
    | some _ =>
      let first := (← get).groups
      let n ← atom fuel dotAll
      let last := (← get).groups
      let n ← match ← bounds with
        | none => pure n
        | some (least, most) => do
          let lazily ← eat "?"
          pure (RegexNode.repeats n least most (!lazily) first last)
      return .seq n (← sequence fuel dotAll)

def atom : (fuel : Nat) → (dotAll : Bool) → Read RegexNode
  | 0, _ => failure
  | fuel + 1, dotAll => do
    let close := fun (n : RegexNode) => do
      if ← eat ")" then return n else failure
    match ← next with
    | '^' => return .start
    | '$' => return .finish
    | '.' => return .set (if dotAll then ⟨[(0, 0x10FFFF)], false⟩ else ⟨lineEndRanges, true⟩)
    | '[' =>
      let negated ← eat "^"
      return .set ⟨← classRest fuel, negated⟩
    | '(' =>
      if ← eat "?:" then close (← alternatives fuel dotAll)
      else if ← eat "?=" then close (.ahead false (← alternatives fuel dotAll))
      else if ← eat "?!" then close (.ahead true (← alternatives fuel dotAll))
      else if ← eat "?<=" then close (.behind false (← alternatives fuel dotAll))
      else if ← eat "?<!" then close (.behind true (← alternatives fuel dotAll))
      else
        let index := (← get).groups
        modify fun s => { s with groups := index + 1 }
        if ← eat "?<" then
          let name ← groupName
          if (← get).names.any (·.1 == name) then failure
          modify fun s => { s with names := s.names ++ [(name, index)] }
        close (.group index (← alternatives fuel dotAll))
    | '\\' =>
      let c ← next
      if c == 'b' then return .wordEdge false
      else if c == 'B' then return .wordEdge true
      else if c == 'k' then
        if !(← eat "<") then failure
        let name ← groupName
        match (← get).names.lookup name with
        | some i => return .back i
        | none => failure
      else if c.isDigit && c != '0' then
        let s ← get
        let ds := c :: s.rest.takeWhile Char.isDigit
        set { s with rest := s.rest.drop (ds.length - 1) }
        return .back (← natOfDigits? 10 ds)
      else
        match classOf? c with
        | some ranges => return .set ⟨ranges, false⟩
        | none =>
          let n ← escaped c
          return .set ⟨[(n, n)], false⟩
    | '*' => failure
    | '+' => failure
    | '?' => failure
    | ')' => failure
    | c => return .set ⟨[(c.toNat, c.toNat)], false⟩

end

/-- The pattern that a text and flags write, unless it is malformed. -/
def ofText? (source flags : String) : Option Regex := do
  let has := fun (c : Char) => flags.toList.contains c
  if !flags.toList.all (fun c => "dgimsuvy".toList.contains c) || !decide flags.toList.Nodup then none
  let (node, s) ← (alternatives (4 * source.length + 10) (has 's')).run { rest := source.toList }
  if !s.rest.isEmpty then none
  return { node, groups := s.groups, names := s.names, ignoreCase := has 'i', multiline := has 'm',
           dotAll := has 's', unicode := has 'u' || has 'v' }

/-! ### Matching -/

abbrev Groups := Array (Option (Nat × Nat))

/-- The code that stands for a character where case does not matter. -/
def canonical (r : Regex) (n : Nat) : Nat :=
  if !r.ignoreCase then n
  else if Units.isHigh n || Units.isLow n then n
  else match Text.capital (Char.ofNat n) with
    | [c] => if 128 ≤ n && c.toNat < 128 then n else c.toNat
    | _ => n

def setHolds (r : Regex) (s : CharSet) (n : Nat) : Bool :=
  let found := inRanges s.ranges n ||
    (r.ignoreCase && (inRanges s.ranges (r.canonical n) ||
      (s.ranges.any fun (a, b) =>
        (b - a < 256) && (List.range (b - a + 1)).any fun i =>
          r.canonical (a + i) == r.canonical n)))
  found != s.negated

/-- The character at a place, and the place after it. -/
def charAt? (r : Regex) (text : Array Nat) (i : Nat) : Option (Nat × Nat) :=
  match text[i]? with
  | none => none
  | some u =>
    match text[i + 1]? with
    | some v =>
      if r.unicode && Units.isHigh u && Units.isLow v then
        some ((Units.pairChar u v).toNat, i + 2)
      else some (u, i + 1)
    | none => some (u, i + 1)

def isWordAt (text : Array Nat) (i : Nat) : Bool := (text[i]?).any (inRanges wordRanges)

def isEdge (text : Array Nat) (i : Nat) : Bool :=
  (0 < i && isWordAt text (i - 1)) != isWordAt text i

def atStart (r : Regex) (text : Array Nat) (i : Nat) : Bool :=
  i == 0 || (r.multiline && (text[i - 1]?).any (inRanges lineEndRanges))

def atFinish (r : Regex) (text : Array Nat) (i : Nat) : Bool :=
  i == text.size || (r.multiline && (text[i]?).any (inRanges lineEndRanges))

/-- The units of one range are at a place again. -/
def sameUnits (r : Regex) (text : Array Nat) (start stop i : Nat) : Bool :=
  (List.range (stop - start)).all fun k =>
    (text[start + k]?).map r.canonical == (text[i + k]?).map r.canonical && i + k < text.size

def clearGroups (first last : Nat) (gs : Groups) : Groups :=
  (List.range (last - first)).foldl (fun gs k => gs.setIfInBounds (first + k) none) gs

/-- Matches a node at a place and goes on with `k`. -/
def run (r : Regex) (text : Array Nat) : (fuel : Nat) → RegexNode → Nat → Groups →
    (k : Nat → Groups → Option (Nat × Groups)) → Option (Nat × Groups)
  | 0, _, _, _, _ => none
  | fuel + 1, n, i, gs, k =>
    match n with
    | .empty => k i gs
    | .set s =>
      match r.charAt? text i with
      | some (c, j) => if r.setHolds s c then k j gs else none
      | none => none
    | .seq a b => r.run text fuel a i gs fun i gs => r.run text fuel b i gs k
    | .either a b => (r.run text fuel a i gs k).or (r.run text fuel b i gs k)
    | .group index n =>
      r.run text fuel n i gs fun j gs => k j (gs.setIfInBounds index (some (i, j)))
    | .repeats n least most greedy first last =>
      let again := fun (_ : Unit) =>
        if most == some 0 then none
        else
          r.run text fuel n i (clearGroups first last gs) fun j gs =>
            if j == i && least == 0 then none
            else r.run text fuel (.repeats n (least - 1) (most.map (· - 1)) greedy first last) j gs k
      if 0 < least then again ()
      else if greedy then (again ()).or (k i gs)
      else (k i gs).or (again ())
    | .start => if r.atStart text i then k i gs else none
    | .finish => if r.atFinish text i then k i gs else none
    | .wordEdge negated => if isEdge text i != negated then k i gs else none
    | .back index =>
      match (gs[index]?).join with
      | none => k i gs
      | some (start, stop) =>
        if r.sameUnits text start stop i then k (i + (stop - start)) gs else none
    | .ahead negated n =>
      match r.run text fuel n i gs fun j gs => some (j, gs) with
      | some (_, gs') => if negated then none else k i gs'
      | none => if negated then k i gs else none
    | .behind negated n =>
      let found := (List.range (i + 1)).findSome? fun back =>
        r.run text fuel n (i - back) gs fun j gs => if j == i then some (j, gs) else none
      match found with
      | some (_, gs') => if negated then none else k i gs'
      | none => if negated then k i gs else none

/-- Places of the whole match and of the groups, if the pattern matches from a place on. -/
def matchAt? (r : Regex) (text : Array Nat) (i : Nat) : Option Groups :=
  let gs : Groups := Array.replicate r.groups none
  (r.run text (1000000 + text.size) r.node i gs fun j gs => some (j, gs)).map fun (j, gs) =>
    gs.setIfInBounds 0 (some (i, j))

/-- The first match from a place on. -/
def find? (r : Regex) (text : Array Nat) (sticky : Bool) (i : Nat) : Option Groups :=
  if sticky then r.matchAt? text i
  else (List.range (text.size + 1 - i)).findSome? fun k => r.matchAt? text (i + k)

end Regex
end Stencil.Script
