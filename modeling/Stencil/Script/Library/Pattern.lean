import Stencil.Script.Library.Basic
/-!
Patterns as values: searching a text for one, and putting something else in the place of what is
found. A global pattern goes on where its last match ended.
-/
namespace Stencil.Script.Library
open Action

structure Pattern where
  ref : Ref
  source : String
  flags : String
  regex : Regex

namespace Pattern

def isGlobal (p : Pattern) : Bool := p.flags.toList.contains 'g'

def isSticky (p : Pattern) : Bool := p.flags.toList.contains 'y'

/-- The pattern keeps the place where a match ended. -/
def keepsPlace (p : Pattern) : Bool := p.isGlobal || p.isSticky

def of? (h : Heap) : Datum → Option Pattern
  | .object r => match h.shape r with
    | .regex source flags regex => some ⟨r, source, flags, regex⟩
    | _ => none
  | _ => none

def lastPlace (p : Pattern) : Action Nat := do
  let x ← toWhole (← getText (.object p.ref) "lastIndex")
  return if x < 0.0 then 0 else (min x 4294967295.0).toUInt64.toNat

def setLastPlace (p : Pattern) (i : Nat) : Action Unit :=
  setText (.object p.ref) "lastIndex" (.ofNat i)

end Pattern

/-- A match of a pattern in a text. -/
structure Match where
  text : Array Nat
  groups : Regex.Groups
  names : List (String × Nat)

namespace Match

def start (m : Match) : Nat := ((m.groups[0]?.join).map (·.1)).getD 0

def stop (m : Match) : Nat := ((m.groups[0]?.join).map (·.2)).getD 0

def part (m : Match) (start stop : Nat) : String :=
  Units.toText (m.text.extract start stop).toList

/-- What a group has matched. -/
def group? (m : Match) (i : Nat) : Option String :=
  (m.groups[i]?.join).map fun (a, b) => m.part a b

def groupDatum (m : Match) (i : Nat) : Datum := ((m.group? i).map Datum.text).getD .undefined

/-- The groups that have a name, as an object. -/
def named (m : Match) : Action Datum := do
  if m.names.isEmpty then return .undefined
  else newRecord (m.names.map fun (name, i) => (name, m.groupDatum i))

/-- The match as a list of its groups. -/
def toDatum (m : Match) : Action Datum := do
  let list ← newArray ((List.range m.groups.size).map m.groupDatum)
  defineOn list (.text "index") (.ofValue (.ofNat m.start))
  defineOn list (.text "input") (.ofValue (.text (Units.toText m.text.toList)))
  defineOn list (.text "groups") (.ofValue (← m.named))
  return list

end Match

/-- The first match from a place on. -/
def Pattern.matchFrom? (p : Pattern) (text : Array Nat) (i : Nat) : Option Match :=
  if text.size < i then none
  else (p.regex.find? text p.isSticky i).map fun groups => ⟨text, groups, p.regex.names⟩

/-- The next match, from where the last one ended. -/
def Pattern.next (p : Pattern) (text : Array Nat) : Action (Option Match) := do
  let i ← if p.keepsPlace then p.lastPlace else pure 0
  let found := p.matchFrom? text i
  if p.keepsPlace then p.setLastPlace ((found.map Match.stop).getD 0)
  return found

/-- All matches from a place on that do not overlap. An empty match is followed by a step. -/
def Pattern.allFrom (p : Pattern) (text : Array Nat) : (fuel i : Nat) → List Match
  | 0, _ => []
  | fuel + 1, i =>
    match p.matchFrom? text i with
    | none => []
    | some m => m :: p.allFrom text fuel (if m.stop == m.start then m.stop + 1 else m.stop)

def Pattern.all (p : Pattern) (text : Array Nat) : List Match := p.allFrom text (text.size + 2) 0

/-- The text that a template for a match stands for. -/
def expand (m : Match) : (fuel : Nat) → List Char → List Char
  | 0, cs => cs
  | fuel + 1, cs =>
    match cs with
    | '$' :: '$' :: rest => '$' :: expand m fuel rest
    | '$' :: '&' :: rest => (m.part m.start m.stop).toList ++ expand m fuel rest
    | '$' :: '\x60' :: rest => (m.part 0 m.start).toList ++ expand m fuel rest
    | '$' :: '\'' :: rest => (m.part m.stop m.text.size).toList ++ expand m fuel rest
    | '$' :: '<' :: rest =>
      match m.names.isEmpty, Text.cutChar? '>' rest with
      | false, some (name, after) =>
        let found := (m.names.lookup (String.ofList name)).bind m.group?
        (found.getD "").toList ++ expand m fuel after
      | _, _ => '$' :: '<' :: expand m fuel rest
    | '$' :: a :: rest =>
      let two := match rest with
        | b :: after => (digitPair? a b).map (·, after)
        | [] => none
      match two.filter fun (i, _) => 0 < i && i < m.groups.size with
      | some (i, after) => ((m.group? i).getD "").toList ++ expand m fuel after
      | none =>
        match (natOfDigits? 10 [a]).filter fun i => 0 < i && i < m.groups.size with
        | some i => ((m.group? i).getD "").toList ++ expand m fuel rest
        | none => '$' :: expand m fuel (a :: rest)
    | c :: rest => c :: expand m fuel rest
    | [] => []
where
  digitPair? (a b : Char) : Option Nat := natOfDigits? 10 [a, b]

/-- What a match is replaced by. -/
def replacement (m : Match) (new : Datum) : Action String := do
  if (← heap).isCallable new then
    let groups := (List.range m.groups.size).map m.groupDatum
    let more ← if m.names.isEmpty then pure [] else (do return [← m.named])
    toText (← call new .undefined
      (groups ++ [.ofNat m.start, .text (Units.toText m.text.toList)] ++ more))
  else
    let template ← toText new
    return String.ofList (expand m (template.length + 1) template.toList)

/-- The text with each match replaced, from a place on. -/
def replaceMatches (text : Array Nat) (new : Datum) : List Match → (i : Nat) → Action String
  | [], i => return Units.toText (text.extract i text.size).toList
  | m :: rest, i => do
    let s ← replacement m new
    let after ← replaceMatches text new rest m.stop
    return Units.toText (text.extract i m.start).toList ++ s ++ after

/-- Puts something else in the place of the matches of a pattern. -/
def Pattern.replaceIn (p : Pattern) (s : String) (new : Datum) : Action Datum := do
  let text := (Units.ofText s).toArray
  let new ← if (← heap).isCallable new then pure new else (do return .text (← toText new))
  if p.isGlobal then
    p.setLastPlace 0
    return .text (← replaceMatches text new (p.all text) 0)
  else
    let m ← p.next text
    return .text (← replaceMatches text new m.toList 0)

/-- The parts of a text between the matches of a pattern, with what its groups have matched. -/
def splitMatches (text : Array Nat) : List Match → (i : Nat) → List Datum
  | [], i => [.text (Units.toText (text.extract i text.size).toList)]
  | m :: rest, i =>
    if m.stop == i || text.size ≤ m.start then splitMatches text rest i
    else
      .text (Units.toText (text.extract i m.start).toList) ::
        ((List.range (m.groups.size - 1)).map fun k => m.groupDatum (k + 1)) ++
        splitMatches text rest m.stop

def Pattern.splitText (p : Pattern) (s : String) : List Datum :=
  let text := (Units.ofText s).toArray
  if text.isEmpty then
    if (p.matchFrom? text 0).isSome then [] else [.text s]
  else splitMatches text (p.all text) 0

/-- A pattern that a script makes. -/
def newPattern (source flags : String) (proto : Ref) : Action Datum := do
  match Regex.ofText? source flags with
  | some regex =>
    let v ← newObject { proto := some proto, shape := .regex source flags regex }
    defineOn v (.text "lastIndex")
      { held := .value (.number 0.0) true, enumerable := false, configurable := false }
    return v
  | none => syntaxError "invalid regular expression"

def thisPattern (this : Datum) : Action Pattern := do
  match Pattern.of? (← heap) this with
  | some p => return p
  | none => typeError "not a regular expression"

def flagGetters : List (String × Char) :=
  [("global", 'g'), ("ignoreCase", 'i'), ("multiline", 'm'), ("dotAll", 's'), ("unicode", 'u'),
    ("sticky", 'y'), ("hasIndices", 'd')]

def patternMethods : Methods := [
  ("exec", fun this args => do
    let p ← thisPattern this
    match ← p.next (Units.ofText (← toText (arg args 0))).toArray with
    | some m => m.toDatum
    | none => return .null),
  ("test", fun this args => do
    let p ← thisPattern this
    return .bool (← p.next (Units.ofText (← toText (arg args 0))).toArray).isSome),
  ("toString", fun this _ => do
    let p ← thisPattern this
    return .text ("/" ++ p.source ++ "/" ++ p.flags))]

/-- What a pattern tells of itself. -/
def patternGetters : Methods :=
  [("get source", fun this _ => do return .text (← thisPattern this).source),
    ("get flags", fun this _ => do
      let p ← thisPattern this
      return .text (String.ofList (p.flags.toList.mergeSort fun a b => a ≤ b)))] ++
    flagGetters.map fun (name, c) =>
      ("get " ++ name, fun this _ => do
        return .bool ((← thisPattern this).flags.toList.contains c))

end Stencil.Script.Library
