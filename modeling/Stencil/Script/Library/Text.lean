import Stencil.Script.Library.Pattern
import Stencil.Text.Search
import Stencil.Text.Small
/-!
The functions of texts. Places in a text count units of 16 bits.
-/
namespace Stencil.Script.Library
open Action

/-- The first place from `i` on where a pattern stands, among the units that are left. -/
def findUnits (pattern : List Nat) : (i : Nat) → List Nat → Option Nat
  | i, [] => if pattern.isEmpty then some i else none
  | i, u :: us =>
    if pattern.isPrefixOf (u :: us) then some i else findUnits pattern (i + 1) us

/-- The first place of a text in another one, from a place on. -/
def indexOf (s t : String) (start : Nat) : Option Nat :=
  let us := Units.ofText s
  let start := min start us.length
  findUnits (Units.ofText t) start (us.drop start)

/-- The last place of a text in another one, up to a place. -/
def lastIndexOf (s t : String) (stop : Nat) : Option Nat :=
  let us := Units.ofText s
  let ts := Units.ofText t
  ((List.range (min stop us.length + 1)).reverse).find? fun i => ts.isPrefixOf (us.drop i)

def ofPlace : Option Nat → Datum
  | some i => .ofNat i
  | none => .number (-1.0)

/-- A text in place of a pattern; patterns are refused. -/
def plainText (v : Datum) : Action String := do
  match Pattern.of? (← heap) v with
  | some _ => typeError "regexp not supported"
  | none => toText v

/-- A number between two bounds. -/
def bounded (x : Float) (size : Nat) : Nat :=
  if x < 0.0 then 0 else if Numeric.ofNat size < x then size else x.toUInt64.toNat

/-- The place that an argument names; before the start is the start. -/
def placeArg (v : Datum) (size missing : Nat) : Action Nat := do
  match v with
  | .undefined => return missing
  | v => return bounded (← toWhole v) size

/-- A text again and again. -/
def repeated (s : String) : (n : Nat) → String
  | 0 => ""
  | n + 1 => repeated s n ++ s

/-- What fills a text up to a size. -/
def padding (this : Datum) (args : List Datum) : Action (String × String) := do
  let s ← thisText this
  let x ← toWhole (arg args 0)
  let filler ← match arg args 1 with
    | .undefined => pure " "
    | v => toText v
  let size := Units.size s
  if x ≤ Numeric.ofNat size || filler.isEmpty then return (s, "")
  else if 1000000.0 < x then rangeError "invalid string length"
  else
    let missing := x.toUInt64.toNat - size
    return (s, Units.slice (repeated filler (missing / Units.size filler + 1)) 0 missing)

/-- The parts of a text between the places of another one that is not empty. -/
def splitChars (p : List Char) : (fuel : Nat) → List Char → List (List Char)
  | 0, s => [s]
  | fuel + 1, s =>
    match Text.cut? p s with
    | some (a, rest) => a :: splitChars p fuel rest
    | none => [s]

def splitAt (s separator : String) : List Datum :=
  if separator.isEmpty then (Units.ofText s).map fun u => .text (Units.toText [u])
  else (splitChars separator.toList (s.length + 1) s.toList).map fun cs => .text (String.ofList cs)

/-- The places of a text in another one that do not overlap. -/
def placesIn (us pattern : List Nat) : (fuel i : Nat) → List Nat
  | 0, _ => []
  | fuel + 1, i =>
    if us.length < i then []
    else
      match findUnits pattern i (us.drop i) with
      | some k => k :: placesIn us pattern fuel (k + max 1 pattern.length)
      | none => []

/-- The text with something else in the place of another text, once or everywhere. -/
def replaceText (s : String) (old new : Datum) (everywhere : Bool) : Action Datum := do
  let old ← toText old
  let new ← if (← heap).isCallable new then pure new else (do return .text (← toText new))
  let us := Units.ofText s
  let pattern := Units.ofText old
  let places := placesIn us pattern (us.length + 2) 0
  let text := us.toArray
  let found : List Match := places.map fun i => ⟨text, #[some (i, i + pattern.length)], []⟩
  return .text (← replaceMatches text new (if everywhere then found else found.take 1) 0)

def replaceAny (this : Datum) (args : List Datum) (everywhere : Bool) : Action Datum := do
  let s ← thisText this
  match Pattern.of? (← heap) (arg args 0) with
  | some p =>
    if everywhere && !p.isGlobal then typeError "regexp must have the 'g' flag"
    else p.replaceIn s (arg args 1)
  | none => replaceText s (arg args 0) (arg args 1) everywhere

/-- A pattern that an argument stands for. -/
def patternArg (v : Datum) (flags : String) : Action Pattern := do
  match Pattern.of? (← heap) v with
  | some p => return p
  | none =>
    let source ← match v with
      | .undefined => pure "(?:)"
      | v => toText v
    let r ← newPattern source flags Heap.regexProto
    match Pattern.of? (← heap) r with
    | some p => return p
    | none => syntaxError "invalid regular expression"

/-- The unit at a place, and the one that makes a character with it. -/
def codeAt? (us : List Nat) (i : Nat) : Option Nat :=
  match us[i]? with
  | none => none
  | some u =>
    match us[i + 1]? with
    | some v =>
      if Units.isHigh u && Units.isLow v then some (0x10000 + (u - 0xD800) * 0x400 + (v - 0xDC00))
      else some u
    | none => some u

/-- The order of two texts by the codes of their characters, as a number. -/
def compareTexts (s t : String) : Float :=
  if s == t then 0.0 else if s < t then -1.0 else 1.0

def toCase (f : String → String) : Method := fun this _ => do return .text (f (← thisText this))

/-- A search for a text in another one, from a place on. -/
def searching (f : String → String → Nat → Datum) (missing : String → Nat) : Method :=
  fun this args => do
    let s ← thisText this
    let t ← plainText (arg args 0)
    let i ← placeArg (arg args 1) (Units.size s) (missing s)
    return f s t i

def thisPrimitiveText (this : Datum) : Action Datum := do
  match unboxed this (← heap) with
  | .text s => return .text s
  | _ => typeError "not a string"

def textMethods : Methods := [
  ("toString", fun this _ => thisPrimitiveText this),
  ("valueOf", fun this _ => thisPrimitiveText this),
  ("at", fun this args => do
    let s ← thisText this
    let x ← toWhole (arg args 0)
    let y := if x < 0.0 then x + Numeric.ofNat (Units.size s) else x
    match Numeric.index? y with
    | some i => return ((Units.get? s i).map fun u => .text (Units.toText [u])).getD .undefined
    | none => return .undefined),
  ("charAt", fun this args => do
    let s ← thisText this
    match Numeric.index? (← toWhole (arg args 0)) with
    | some i => return .text (((Units.get? s i).map fun u => Units.toText [u]).getD "")
    | none => return .text ""),
  ("charCodeAt", fun this args => do
    let s ← thisText this
    match Numeric.index? (← toWhole (arg args 0)) with
    | some i => return .number (((Units.get? s i).map Numeric.ofNat).getD Numeric.nan)
    | none => return .number Numeric.nan),
  ("codePointAt", fun this args => do
    let s ← thisText this
    match Numeric.index? (← toWhole (arg args 0)) with
    | some i => return ((codeAt? (Units.ofText s) i).map Datum.ofNat).getD .undefined
    | none => return .undefined),
  ("indexOf", fun this args => do
    let s ← thisText this
    let t ← toText (arg args 0)
    let i ← placeArg (arg args 1) (Units.size s) 0
    return ofPlace (indexOf s t i)),
  ("lastIndexOf", fun this args => do
    let s ← thisText this
    let t ← toText (arg args 0)
    let x ← toNumber (arg args 1)
    let size := Units.size s
    return ofPlace (lastIndexOf s t (if x.isNaN then size else bounded (Numeric.trunc x) size))),
  ("includes", searching (fun s t i => .bool (indexOf s t i).isSome) fun _ => 0),
  ("startsWith", searching (fun s t i =>
    .bool ((Units.ofText t).isPrefixOf ((Units.ofText s).drop i))) fun _ => 0),
  ("endsWith", searching (fun s t i =>
    .bool ((Units.ofText t).reverse.isPrefixOf ((Units.ofText s).take i).reverse)) Units.size),
  ("slice", fun this args => do
    let s ← thisText this
    let size := Units.size s
    let start ← toPlace (arg args 0) size 0
    let stop ← toPlace (arg args 1) size size
    return .text (Units.slice s start stop)),
  ("substring", fun this args => do
    let s ← thisText this
    let size := Units.size s
    let a ← placeArg (arg args 0) size 0
    let b ← placeArg (arg args 1) size size
    return .text (Units.slice s (min a b) (max a b))),
  ("substr", fun this args => do
    let s ← thisText this
    let size := Units.size s
    let start ← toPlace (arg args 0) size 0
    let count ← placeArg (arg args 1) (size - start) (size - start)
    return .text (Units.slice s start (start + count))),
  ("toUpperCase", toCase Text.capitalText),
  ("toLowerCase", toCase Text.smallText),
  ("toLocaleUpperCase", toCase Text.capitalText),
  ("toLocaleLowerCase", toCase Text.smallText),
  ("trim", toCase Numeric.trim),
  ("trimStart", toCase Numeric.trimStart),
  ("trimEnd", toCase Numeric.trimEnd),
  ("normalize", toCase id),
  ("padStart", fun this args => do
    let (s, filler) ← padding this args
    return .text (Units.append filler s)),
  ("padEnd", fun this args => do
    let (s, filler) ← padding this args
    return .text (Units.append s filler)),
  ("repeat", fun this args => do
    let s ← thisText this
    let x ← toWhole (arg args 0)
    if x < 0.0 || x.isInf then rangeError "invalid repeat count"
    else if Numeric.ofNat maxText < x * Numeric.ofNat (max 1 s.utf8ByteSize) then
      if s.isEmpty then return .text "" else rangeError "invalid string length"
    else return .text (repeated s x.toUInt64.toNat)),
  ("concat", fun this args => do
    let s ← thisText this
    foldM (fun v a => do joined (← toText v) (← toText a)) (.text s) args),
  ("split", fun this args => do
    let s ← thisText this
    let h ← heap
    let limit ← match arg args 1 with
      | .undefined => pure 4294967295
      | v => do pure (Numeric.toWord (← toNumber v)).toNat
    let parts ← match arg args 0 with
      | .undefined => pure [Datum.text s]
      | v =>
        match Pattern.of? h v with
        | some p => pure (p.splitText s)
        | none => do
          let t ← toText v
          pure (splitAt s t)
    newArray (parts.take limit)),
  ("replace", fun this args => replaceAny this args false),
  ("replaceAll", fun this args => replaceAny this args true),
  ("match", fun this args => do
    let s ← thisText this
    let p ← patternArg (arg args 0) ""
    let text := (Units.ofText s).toArray
    if p.isGlobal then
      p.setLastPlace 0
      match p.all text with
      | [] => return .null
      | ms => newArray (ms.map fun m => m.groupDatum 0)
    else
      match ← p.next text with
      | some m => m.toDatum
      | none => return .null),
  ("matchAll", fun this args => do
    let s ← thisText this
    let p ← patternArg (arg args 0) "g"
    if !p.isGlobal then typeError "regexp must have the 'g' flag"
    else newCursor (.list (← forAll Match.toDatum (p.all (Units.ofText s).toArray)))),
  ("search", fun this args => do
    let s ← thisText this
    let p ← patternArg (arg args 0) ""
    return ofPlace ((p.matchFrom? (Units.ofText s).toArray 0).map Match.start)),
  ("localeCompare", fun this args => do
    let s ← thisText this
    return .number (compareTexts s (← toText (arg args 0))))]

/-- The characters of a text one by one. -/
def textIterator : Method := fun this _ => do
  newCursor (.list (characters (← thisText this)))

/-- The texts of a template with its values between them. -/
def rawText : List Datum → List Datum → Action String
  | [], _ => return ""
  | [t], _ => toText t
  | t :: texts, [] => do return (← toText t) ++ (← rawText texts [])
  | t :: texts, v :: vs => do
    let a ← toText t
    let b ← toText v
    return a ++ b ++ (← rawText texts vs)

def textStatics : Methods := [
  ("fromCharCode", fun _ args => do
    let us ← forAll (fun v => do
      return (Numeric.toWord (← toNumber v)).toNat % 65536) args
    return .text (Units.toText us)),
  ("fromCodePoint", fun _ args => do
    let us ← forAll (fun v => do
      let x ← toNumber v
      if x < 0.0 || 1114111.0 < x || x.floor != x || x.isNaN then
        rangeError "invalid code point"
      else return Units.ofChar (Units.charOf x.toUInt64.toNat)) args
    return .text (Units.toText us.flatten)),
  ("raw", fun _ args => do
    let texts ← placesOf (← getText (arg args 0) "raw")
    return .text (← rawText texts args.tail))]

end Stencil.Script.Library
