import Stencil.Number.Layout
import Stencil.Script.Declared
import Stencil.Script.Token
/-!
Reading the tokens of a script as a module. Modules are strict. The reader keeps the tokens that are
left, and the functions of the grammar call each other with a fuel that the number of tokens bounds.
-/
namespace Stencil.Script

/-- What the reader stands in. -/
structure Place where
  source : Array Char
  inFunction : Bool := false
  inAsync : Bool := true
  inGenerator : Bool := false
  inLoop : Bool := false
  inSwitch : Bool := false
  labels : List String := []
  loopLabels : List String := []
  superMember : Bool := false
  superCall : Bool := false
  /-- The word `in` is no operator here. -/
  noIn : Bool := false
  /-- The body of a static block of a class, where nothing can be awaited. -/
  noAwait : Bool := false
  /-- Names that are declared twice are refused. -/
  checksNames : Bool := true

structure Unread where
  tokens : List Token
  /-- Where the last token that was read ends. -/
  last : Nat := 0
  requests : List String := []
  imports : List Import := []
  exports : List Export := []

/-- A reader of tokens: what it reads and what it leaves, unless it fails. -/
def Parse (α : Type) := Unread → Option (α × Unread)

namespace Parse
variable {α β : Type}

-- not inlined, since the rules of the grammar are long sequences
@[noinline] protected def bind (m : Parse α) (f : α → Parse β) : Parse β := fun c =>
  match m c with
  | some (a, c) => f a c
  | none => none

@[noinline] protected def orElse (m : Parse α) (other : Unit → Parse α) : Parse α := fun c =>
  match m c with
  | some r => some r
  | none => other () c

instance : Monad Parse where
  pure a c := some (a, c)
  bind := Parse.bind

instance : Alternative Parse where
  failure _ := none
  orElse := Parse.orElse

instance : MonadStateOf Unread Parse where
  get c := some (c, c)
  set c _ := some ((), c)
  modifyGet f c := some (f c)

end Parse

namespace Grammar

/-- Numbers as they are written when they are names. -/
def numberLayout : NumberLayout where
  lowest := some (-7)
  highest := some 20
  wholeEnd := ""
  nan := "NaN"
  infinity := "Infinity"
  signedZero := false

def numberText (x : Float) : String := numberLayout.write ⟨x.toBits⟩

/-- Words that are no names. -/
def reserved : List String :=
  ["break", "case", "catch", "class", "const", "continue", "debugger", "default", "delete", "do",
    "else", "enum", "export", "extends", "false", "finally", "for", "function", "if", "import",
    "in", "instanceof", "new", "null", "return", "super", "switch", "this", "throw", "true", "try",
    "typeof", "var", "void", "while", "with", "yield", "let", "static", "implements", "interface",
    "package", "private", "protected", "public", "await"]

def isReserved (s : String) : Bool := reserved.contains s

/-- Names that nothing can be stored in. -/
def isUnbindable (s : String) : Bool := isReserved s || s == "eval" || s == "arguments"

/-! ### Tokens -/

def peek : Parse (Option Token) := do return (← get).tokens.head?

def kind? : Parse (Option TokenKind) := do return (← peek).map (·.kind)

def advance : Parse Token := do
  let c ← get
  match c.tokens with
  | t :: rest =>
    set { c with tokens := rest, last := t.stop }
    return t
  | [] => failure

def markOf : Option TokenKind → String
  | some (.mark m) => m
  | _ => ""

def wordOf : Option TokenKind → String
  | some (.word s false) => s
  | _ => ""

def nextMark : Parse String := do return markOf (← kind?)

def nextWord : Parse String := do return wordOf (← kind?)

/-- The mark of the token after the next one. -/
def secondMark : Parse String := do return markOf ((← get).tokens[1]?.map (·.kind))

/-- A line ends before the next token. -/
def newlineNext : Parse Bool := do return (← peek).any (·.newline)

def newlineSecond : Parse Bool := do return ((← get).tokens[1]?).any (·.newline)

def eat (m : String) : Parse Bool := do
  if (← nextMark) == m && !m.isEmpty then
    let _ ← advance
    return true
  else return false

def expect (m : String) : Parse Unit := do
  if !(← eat m) then failure

def eatWord (w : String) : Parse Bool := do
  if (← nextWord) == w then
    let _ ← advance
    return true
  else return false

def expectWord (w : String) : Parse Unit := do
  if !(← eatWord w) then failure

/-- The end of a statement: a semicolon, or a place where one may be left out. -/
def endStatement : Parse Unit := do
  if ← eat ";" then return
  match ← peek with
  | none => return
  | some t => if t.newline || markOf (some t.kind) == "\x7d" then return else failure

/-- The name that a token gives both to a member and to its value. -/
def shorthand : Option TokenKind → Parse String
  | some (.word s _) => return s
  | _ => failure

/-- Any word, as the name of a member. -/
def anyWord : Parse String := do
  match (← advance).kind with
  | .word s _ => return s
  | _ => failure

/-- A name that is used. -/
def reference : Parse String := do
  let s ← anyWord
  if isReserved s then failure
  return s

/-- A name that is declared. -/
def binding : Parse String := do
  let s ← anyWord
  if isUnbindable s then failure
  return s

/-! ### Looking ahead -/

/-- How a token changes the number of brackets that are open. -/
def bracketStep (t : Token) : Int :=
  match t.kind with
  | .mark m =>
    if m == "(" || m == "[" || m == "\x7b" then 1
    else if m == ")" || m == "]" || m == "\x7d" then -1
    else 0
  | .chunk _ _ begins opens => if begins && opens then 1 else if !begins && !opens then -1 else 0
  | _ => 0

/-- The tokens after the bracket that closes the first one. -/
def afterBracket : (depth : Int) → List Token → List Token
  | _, [] => []
  | depth, t :: rest =>
    let depth := depth + bracketStep t
    if depth ≤ 0 then rest else afterBracket depth rest

/-- The next token opens parentheses that an arrow follows on the same line. -/
def arrowAhead (tokens : List Token) : Bool :=
  match tokens with
  | t :: _ =>
    match t.kind with
    | .mark "(" =>
      match afterBracket 0 tokens with
      | a :: _ => markOf (some a.kind) == "=>" && !a.newline
      | [] => false
    | _ => false
  | [] => false

def isWordToken (t : Token) : Bool := t.kind matches .word _ _

/-- A name with an arrow on the same line comes next. -/
def shortArrowAhead : List Token → Bool
  | n :: a :: _ => isWordToken n && markOf (some a.kind) == "=>" && !a.newline
  | _ => false

/-- A function with an arrow comes next; tells whether it is asynchronous. -/
def arrowNext? (tokens : List Token) : Option Bool :=
  if arrowAhead tokens || shortArrowAhead tokens then some false
  else if wordOf (tokens.head?.map (·.kind)) == "async" && !(tokens[1]?).any (·.newline) &&
      (arrowAhead tokens.tail || shortArrowAhead tokens.tail) then some true
  else none

/-- The next token opens a list or an object that something is assigned to. -/
def patternAhead (inHead : Bool) (tokens : List Token) : Bool :=
  match tokens with
  | t :: _ =>
    let m := markOf (some t.kind)
    if m == "[" || m == "\x7b" then
      match afterBracket 0 tokens with
      | a :: _ =>
        markOf (some a.kind) == "=" ||
          (inHead && (wordOf (some a.kind) == "of" || wordOf (some a.kind) == "in"))
      | [] => false
    else false
  | [] => false

/-! ### Operators -/

/-- A binary operator and how strongly it binds. -/
inductive Infix where
  | binary (op : BinaryOp)
  | logical (op : LogicalOp)

def infixOf? (noIn : Bool) : TokenKind → Option (Nat × Infix)
  | .mark m =>
    match m with
    | "??" => some (1, .logical .orElse)
    | "||" => some (2, .logical .either)
    | "&&" => some (3, .logical .both)
    | "|" => some (4, .binary .bitOr)
    | "^" => some (5, .binary .bitXor)
    | "&" => some (6, .binary .bitAnd)
    | "==" => some (7, .binary .equal)
    | "!=" => some (7, .binary .notEqual)
    | "===" => some (7, .binary .same)
    | "!==" => some (7, .binary .notSame)
    | "<" => some (8, .binary .less)
    | ">" => some (8, .binary .greater)
    | "<=" => some (8, .binary .lessEq)
    | ">=" => some (8, .binary .greaterEq)
    | "<<" => some (9, .binary .shiftLeft)
    | ">>" => some (9, .binary .shiftRight)
    | ">>>" => some (9, .binary .shiftRightUnsigned)
    | "+" => some (10, .binary .add)
    | "-" => some (10, .binary .sub)
    | "*" => some (11, .binary .mul)
    | "/" => some (11, .binary .div)
    | "%" => some (11, .binary .rem)
    | "**" => some (12, .binary .pow)
    | _ => none
  | .word "instanceof" false => some (8, .binary .isInstance)
  | .word "in" false => if noIn then none else some (8, .binary .isIn)
  | _ => none

def Infix.apply (a b : Expr) : Infix → Expr
  | .binary op => .binary op a b
  | .logical op => .logical op a b

/-- The operand is an unparenthesized mix of `??` with another logical operator. -/
def isMixed (op : Infix) : Expr → Bool
  | .logical inner _ _ =>
    match op with
    | .logical .orElse => inner != .orElse
    | .logical _ => inner == .orElse
    | _ => false
  | _ => false

def assignOf? (m : String) : Option (Expr → Expr → Expr) :=
  match m with
  | "=" => some .assign
  | "+=" => some (.assignOp .add)
  | "-=" => some (.assignOp .sub)
  | "*=" => some (.assignOp .mul)
  | "/=" => some (.assignOp .div)
  | "%=" => some (.assignOp .rem)
  | "**=" => some (.assignOp .pow)
  | "<<=" => some (.assignOp .shiftLeft)
  | ">>=" => some (.assignOp .shiftRight)
  | ">>>=" => some (.assignOp .shiftRightUnsigned)
  | "&=" => some (.assignOp .bitAnd)
  | "|=" => some (.assignOp .bitOr)
  | "^=" => some (.assignOp .bitXor)
  | "&&=" => some (.assignLogical .both)
  | "||=" => some (.assignLogical .either)
  | "??=" => some (.assignLogical .orElse)
  | _ => none

def prefixOf? : TokenKind → Option UnaryOp
  | .mark "+" => some .plus
  | .mark "-" => some .minus
  | .mark "!" => some .not
  | .mark "~" => some .bitNot
  | .word "typeof" false => some .typeOf
  | .word "void" false => some .void
  | .word "delete" false => some .delete
  | _ => none

/-- A value can be stored in the expression. -/
def isTarget : Expr → Bool
  | .name s => !isUnbindable s
  | .dot .. => true
  | .at .. => true
  | .hidden .. => true
  | .superAt _ => true
  | _ => false

/-- A function or class without a name gets the one that it is stored under. -/
def named (name : String) : Expr → Expr
  | .func info params body =>
    .func (if info.name.isEmpty then { info with name } else info) params body
  | .classOf own text parent members =>
    .classOf (if own.isEmpty then "=" ++ name else own) text parent members
  | e => e

def namedBy (target e : Expr) : Expr :=
  match target with
  | .name s => named s e
  | _ => e

/-- The name of a member that is written as a text. -/
def keyName : Expr → String
  | .text s => s
  | .hidden _ s => "#" ++ s
  | _ => ""

/-- Characters of the source from one place up to another. -/
def sourceText (p : Place) (start stop : Nat) : String :=
  String.ofList (p.source.extract start stop).toList

/-- The tokens mention the word. -/
def mentionsWord (w : String) (tokens : List Token) (stop : Nat) : Bool :=
  (tokens.takeWhile (·.start < stop)).any fun t => wordOf (some t.kind) == w

/-- The place of the body of a function. -/
def bodyPlace (p : Place) (kind : FuncKind) (isAsync isGenerator : Bool) : Place :=
  let p' : Place := { source := p.source, inFunction := true, inAsync := isAsync,
                      inGenerator := isGenerator, checksNames := p.checksNames }
  match kind with
  | .arrow => { p' with inFunction := true, superMember := p.superMember, superCall := p.superCall }
  | .plain => p'
  | .derivedConstructor => { p' with superMember := true, superCall := true }
  | _ => { p' with superMember := true }

/-- A loop over values can store them in what the loop starts with. -/
def isLoopHead : Stmt → Bool
  | .declare _ [.assign ..] => false
  | .declare _ [_] => true
  | .expr (.array _) => true
  | .expr (.object _) => true
  | .expr e => isTarget e
  | _ => false

/-- The member is the constructor of a class. -/
def isMaker : Expr → Bool
  | .member .method false (.text "constructor") _ => true
  | _ => false

mutual

-- Patterns

/-- A target of declarations or of assignments. -/
def target : (fuel : Nat) → (declares : Bool) → Place → Parse Expr
  | 0, _, _ => failure
  | fuel + 1, declares, p => do
    match ← nextMark with
    | "[" =>
      let _ ← advance
      return .array (← slots fuel declares p)
    | "\x7b" =>
      let _ ← advance
      return .object (← parts fuel declares p)
    | _ =>
      if declares then return .name (← binding)
      else
        let e ← access fuel p
        if isTarget e then return e else failure

/-- A target with the value that stands for a missing one. -/
def slot : (fuel : Nat) → (declares : Bool) → Place → Parse Expr
  | 0, _, _ => failure
  | fuel + 1, declares, p => do
    let t ← target fuel declares p
    if ← eat "=" then
      return .default t (namedBy t (← assignment fuel { p with noIn := false }))
    else return t

/-- The rest of a pattern for lists. -/
def slots : (fuel : Nat) → (declares : Bool) → Place → Parse (List Expr)
  | 0, _, _ => failure
  | fuel + 1, declares, p => do
    if ← eat "]" then return []
    if ← eat "," then return .hole :: (← slots fuel declares p)
    if ← eat "..." then
      let t ← target fuel declares p
      expect "]"
      return [.spread t]
    let s ← slot fuel declares p
    if ← eat "]" then return [s]
    expect ","
    return s :: (← slots fuel declares p)

/-- The rest of a pattern for objects. -/
def parts : (fuel : Nat) → (declares : Bool) → Place → Parse (List Expr)
  | 0, _, _ => failure
  | fuel + 1, declares, p => do
    if ← eat "\x7d" then return []
    if ← eat "..." then
      let t ← if declares then (do return Expr.name (← binding)) else target fuel false p
      expect "\x7d"
      return [.spread t]
    let first ← kind?
    let key ← memberKey fuel p
    let value ← if ← eat ":" then slot fuel declares p
      else do
        let s ← shorthand first
        if isUnbindable s then failure
        if ← eat "=" then
          pure (Expr.default (.name s) (named s (← assignment fuel { p with noIn := false })))
        else pure (.name s)
    let part := Expr.member .value false key value
    if ← eat "\x7d" then return [part]
    expect ","
    return part :: (← parts fuel declares p)

-- Expressions

def expression : (fuel : Nat) → Place → Parse Expr
  | 0, _ => failure
  | fuel + 1, p => do
    let e ← assignment fuel p
    moreComma fuel p e

def moreComma : (fuel : Nat) → Place → Expr → Parse Expr
  | 0, _, _ => failure
  | fuel + 1, p, e => do
    if ← eat "," then
      let next ← assignment fuel p
      moreComma fuel p (.comma e next)
    else return e

def assignment : (fuel : Nat) → Place → Parse Expr
  | 0, _ => failure
  | fuel + 1, p => do
    let tokens := (← get).tokens
    let word ← nextWord
    if let some isAsync := arrowNext? tokens then return ← arrow fuel p isAsync
    if word == "yield" && p.inGenerator then return ← yielded fuel p
    if patternAhead false tokens then
      let t ← target fuel false p
      expect "="
      return .assign t (← assignment fuel p)
    let parenthesized := (← nextMark) == "("
    let e ← conditional fuel p
    match assignOf? (← nextMark) with
    | none => return e
    | some make =>
      if !isTarget e then failure
      let _ ← advance
      let value ← assignment fuel p
      return make e (if parenthesized then value else namedBy e value)

def yielded : (fuel : Nat) → Place → Parse Expr
  | 0, _ => failure
  | fuel + 1, p => do
    expectWord "yield"
    if ← newlineNext then return .yield false .hole
    if ← eat "*" then return .yield true (← assignment fuel p)
    let m ← nextMark
    let ends := [")", "]", "\x7d", ",", ";", ":"].contains m || (← peek).isNone ||
      (← nextWord) == "in" || (← nextWord) == "of"
    let ends := ends || match ← kind? with
      | some (.chunk _ _ false _) => true
      | _ => false
    if ends then return .yield false .hole
    return .yield false (← assignment fuel p)

/-- A function that is written with an arrow. -/
def arrow : (fuel : Nat) → Place → (isAsync : Bool) → Parse Expr
  | 0, _, _ => failure
  | fuel + 1, p, isAsync => do
    let start := ((← peek).map (·.start)).getD 0
    let tokens := (← get).tokens
    if isAsync then expectWord "async"
    let inner := bodyPlace p .arrow isAsync false
    let ps ← if ← eat "(" then params fuel inner
      else do
        let s ← binding
        pure [Expr.name s]
    expect "=>"
    let body ← if (← nextMark) == "\x7b" then functionBody fuel inner
      else do
        let e ← assignment fuel { inner with noIn := p.noIn }
        pure [Stmt.ret e]
    let stop := (← get).last
    if p.checksNames && !isBodyValid ps body then failure
    return .func { kind := .arrow, isAsync, text := sourceText p start stop,
                   usesArguments := mentionsWord "arguments" tokens stop,
                   vars := varNamesOf body } ps body

/-- The rest of a list of parameters. -/
def params : (fuel : Nat) → Place → Parse (List Expr)
  | 0, _ => failure
  | fuel + 1, p => do
    if ← eat ")" then return []
    if ← eat "..." then
      let t ← target fuel true p
      expect ")"
      return [.spread t]
    let s ← slot fuel true p
    if ← eat ")" then return [s]
    expect ","
    return s :: (← params fuel p)

/-- The statements of a function in braces. -/
def functionBody : (fuel : Nat) → Place → Parse (List Stmt)
  | 0, _ => failure
  | fuel + 1, p => do
    expect "\x7b"
    statements fuel p

/-- Parameters and body of a function; `start` is where its text begins. -/
def functionRest : (fuel : Nat) → Place → (start : Nat) → (name : String) → FuncKind →
    (isAsync isGenerator : Bool) → Parse Expr
  | 0, _, _, _, _, _, _ => failure
  | fuel + 1, p, start, name, kind, isAsync, isGenerator => do
    let tokens := (← get).tokens
    let inner := bodyPlace p kind isAsync isGenerator
    expect "("
    let ps ← params fuel inner
    let body ← functionBody fuel inner
    let stop := (← get).last
    if p.checksNames && !isBodyValid ps body then failure
    return .func { name, kind, isAsync, isGenerator, text := sourceText p start stop,
                   usesArguments := mentionsWord "arguments" tokens stop,
                   vars := varNamesOf body } ps body

/-- A function from the word `function` on. -/
def functionFrom : (fuel : Nat) → Place → (start : Nat) → (isAsync needsName : Bool) →
    Parse (String × Expr)
  | 0, _, _, _, _ => failure
  | fuel + 1, p, start, isAsync, needsName => do
    expectWord "function"
    let isGenerator ← eat "*"
    let name ← if (← nextMark) == "(" then (if needsName then failure else pure "") else binding
    match ← functionRest fuel p start name .plain isAsync isGenerator with
    | .func info ps body => return (name, .func { info with isNamed := !name.isEmpty } ps body)
    | f => return (name, f)

def conditional : (fuel : Nat) → Place → Parse Expr
  | 0, _ => failure
  | fuel + 1, p => do
    let e ← binary fuel p 0
    if ← eat "?" then
      let a ← assignment fuel { p with noIn := false }
      expect ":"
      let b ← assignment fuel p
      return .cond e a b
    else return e

def binary : (fuel : Nat) → Place → (lowest : Nat) → Parse Expr
  | 0, _, _ => failure
  | fuel + 1, p, lowest => do
    let start ← kind?
    let e ← unary fuel p
    let isPrefix := (start.bind prefixOf?).isSome
    if isPrefix && (← nextMark) == "**" then failure
    moreBinary fuel p lowest (start matches some (.mark "(")) e

def moreBinary : (fuel : Nat) → Place → (lowest : Nat) → (closed : Bool) → Expr → Parse Expr
  | 0, _, _, _, _ => failure
  | fuel + 1, p, lowest, closed, e => do
    match (← kind?).bind (infixOf? p.noIn) with
    | none => return e
    | some (power, op) =>
      if power ≤ lowest then return e
      let _ ← advance
      let start ← kind?
      let right ← binary fuel p (if power == 12 then 11 else power)
      if (!closed && isMixed op e) || (!(start matches some (.mark "(")) && isMixed op right) then failure
      moreBinary fuel p lowest false (op.apply e right)

def unary : (fuel : Nat) → Place → Parse Expr
  | 0, _ => failure
  | fuel + 1, p => do
    let k ← kind?
    match k.bind prefixOf? with
    | some op =>
      let _ ← advance
      let e ← unary fuel p
      match op, e with
      | .delete, .name _ => failure
      | _, _ => return .unary op e
    | none =>
      let m := markOf k
      if m == "++" || m == "--" then
        let _ ← advance
        let e ← unary fuel p
        if isTarget e then return .count (m == "++") true e else failure
      else if wordOf k == "await" && p.inAsync && !p.noAwait then
        let _ ← advance
        return .await (← unary fuel p)
      else
        let e ← access fuel p
        let m ← nextMark
        if (m == "++" || m == "--") && !(← newlineNext) then
          if !isTarget e then failure
          let _ ← advance
          return .count (m == "++") false e
        else return e

/-- An expression with the members and calls that follow it. -/
def access : (fuel : Nat) → Place → Parse Expr
  | 0, _ => failure
  | fuel + 1, p => do
    let e ← if (← nextWord) == "new" then creation fuel p else primary fuel p
    let (e, isChain) ← moreAccess fuel p true e
    return if isChain then .chain e else e

/-- Members and calls; tells whether a part may be missing. -/
def moreAccess : (fuel : Nat) → Place → (calls : Bool) → Expr → Parse (Expr × Bool)
  | 0, _, _, _ => failure
  | fuel + 1, p, calls, e => do
    match ← kind? with
    | some (.mark ".") =>
      let _ ← advance
      match (← advance).kind with
      | .word s _ => moreAccess fuel p calls (.dot e s)
      | .hidden s => moreAccess fuel p calls (.hidden e s)
      | _ => failure
    | some (.mark "[") =>
      let _ ← advance
      let key ← expression fuel { p with noIn := false }
      expect "]"
      moreAccess fuel p calls (.at e key)
    | some (.mark "(") =>
      if calls then
        let _ ← advance
        let args ← items fuel p ")"
        moreAccess fuel p calls (.call e args)
      else return (e, false)
    | some (.mark "?.") =>
      if !calls then failure
      let _ ← advance
      let part := Expr.optional e
      let e ← match ← kind? with
        | some (.mark "(") => do
          let _ ← advance
          pure (Expr.call part (← items fuel p ")"))
        | some (.mark "[") => do
          let _ ← advance
          let key ← expression fuel { p with noIn := false }
          expect "]"
          pure (.at part key)
        | some (.word s _) => do
          let _ ← advance
          pure (.dot part s)
        | some (.hidden s) => do
          let _ ← advance
          pure (.hidden part s)
        | _ => failure
      let (e, _) ← moreAccess fuel p calls e
      return (e, true)
    | some (.chunk _ _ true _) =>
      let (cooked, raw, holes) ← chunks fuel p
      moreAccess fuel p calls (.tagged e cooked raw holes)
    | _ => return (e, false)

/-- An expression that begins with `new`. -/
def creation : (fuel : Nat) → Place → Parse Expr
  | 0, _ => failure
  | fuel + 1, p => do
    expectWord "new"
    if ← eat "." then
      expectWord "target"
      if p.inFunction then return .newTarget else failure
    let e ← if (← nextWord) == "new" then creation fuel p else primary fuel p
    let (e, _) ← moreAccess fuel p false e
    if ← eat "(" then return .make e (← items fuel p ")")
    else return .make e []

/-- The rest of a list of values up to its closing bracket. Only arrays leave values out. -/
def items : (fuel : Nat) → Place → (close : String) → Parse (List Expr)
  | 0, _, _ => failure
  | fuel + 1, p, close => do
    let p := { p with noIn := false }
    if ← eat close then return []
    if close == "]" then
      if ← eat "," then return .hole :: (← items fuel p close)
    let e ← if ← eat "..." then (do return Expr.spread (← assignment fuel p))
      else assignment fuel p
    if ← eat close then return [e]
    expect ","
    return e :: (← items fuel p close)

/-- The texts and values of a template from its first text on. -/
def chunks : (fuel : Nat) → Place → Parse (List (Option String) × List String × List Expr)
  | 0, _ => failure
  | fuel + 1, p => do
    match (← advance).kind with
    | .chunk cooked raw _ opens =>
      if opens then
        let e ← expression fuel { p with noIn := false }
        match ← kind? with
        | some (.chunk _ _ false _) =>
          let (cs, rs, es) ← chunks fuel p
          return (cooked :: cs, raw :: rs, e :: es)
        | _ => failure
      else return ([cooked], [raw], [])
    | _ => failure

def primary : (fuel : Nat) → Place → Parse Expr
  | 0, _ => failure
  | fuel + 1, p => do
    let start := ((← peek).map (·.start)).getD 0
    match ← kind? with
    | some (.number x) =>
      let _ ← advance
      return .number x
    | some (.text s) =>
      let _ ← advance
      return .text s
    | some (.pattern body flags) =>
      let _ ← advance
      return .pattern body flags
    | some (.chunk _ _ true _) =>
      let (cooked, _, holes) ← chunks fuel p
      match cooked.mapM id with
      | some texts => return .template texts holes
      | none => failure
    | some (.hidden s) =>
      let _ ← advance
      if (← nextWord) == "in" then return .hidden .hole s else failure
    | some (.mark m) =>
      let _ ← advance
      match m with
      | "(" =>
        let e ← expression fuel { p with noIn := false }
        expect ")"
        return e
      | "[" => return .array (← items fuel p "]")
      | "\x7b" => return .object (← members fuel { p with noIn := false })
      | _ => failure
    | some (.word s escaped) =>
      if escaped then return .name (← reference)
      match s with
      | "function" => return (← functionFrom fuel p start false false).2
      | "class" => return (← classFrom fuel p false).2
      | "null" => let _ ← advance; return .null
      | "true" => let _ ← advance; return .bool true
      | "false" => let _ ← advance; return .bool false
      | "this" => let _ ← advance; return .this
      | "super" =>
        let _ ← advance
        match ← nextMark with
        | "(" =>
          if !p.superCall then failure
          let _ ← advance
          return .superCall (← items fuel p ")")
        | "." =>
          if !p.superMember then failure
          let _ ← advance
          return .superAt (.text (← anyWord))
        | "[" =>
          if !p.superMember then failure
          let _ ← advance
          let key ← expression fuel { p with noIn := false }
          expect "]"
          return .superAt key
        | _ => failure
      | "import" =>
        let _ ← advance
        if ← eat "." then
          expectWord "meta"
          return .moduleInfo
        else if (← nextMark) == "(" then return .name "import"
        else failure
      | "async" =>
        let tokens := (← get).tokens.tail
        if wordOf (tokens.head?.map (·.kind)) == "function" && !(tokens.head?.any (·.newline)) then
          let _ ← advance
          return (← functionFrom fuel p start true false).2
        else return .name (← reference)
      | _ => return .name (← reference)
    | _ => failure

-- Members of objects and classes

/-- The name of a member. A computed one is access by a key of nothing. -/
def memberKey : (fuel : Nat) → Place → Parse Expr
  | 0, _ => failure
  | fuel + 1, p => do
    match (← advance).kind with
    | .word s _ => return .text s
    | .text s => return .text s
    | .number x => return .text (numberText x)
    | .hidden s => return .hidden .hole s
    | .mark "[" =>
      let e ← assignment fuel { p with noIn := false }
      expect "]"
      return .at .hole e
    | _ => failure

/-- The rest of an object. -/
def members : (fuel : Nat) → Place → Parse (List Expr)
  | 0, _ => failure
  | fuel + 1, p => do
    if ← eat "\x7d" then return []
    let m ← member fuel p
    if ← eat "\x7d" then return [m]
    expect ","
    return m :: (← members fuel p)

/-- A word before a member that says more of it, unless it is the name of the member itself. -/
def modifier : (fuel : Nat) → (w : String) → (sameLine : Bool) → Parse Bool
  | 0, _, _ => failure
  | _ + 1, w, sameLine => do
    if (← nextWord) != w then return false
    let second := (← get).tokens[1]?
    let m := markOf (second.map (·.kind))
    if second.isNone || ["(", ",", "\x7d", ":", "=", ";"].contains m then return false
    if sameLine && second.any (·.newline) then return false
    let _ ← advance
    return true

/-- A function that is a member. -/
def methodOf : (fuel : Nat) → Place → (start : Nat) → (key : Expr) → FuncKind →
    (isAsync isGenerator : Bool) → Parse Expr
  | 0, _, _, _, _, _, _ => failure
  | fuel + 1, p, start, key, kind, isAsync, isGenerator => do
    let f ← functionRest fuel p start (keyName key) kind isAsync isGenerator
    match kind, f with
    | .getter, .func _ [] _ => return f
    | .getter, _ => failure
    | .setter, .func _ [.spread _] _ => failure
    | .setter, .func _ [_] _ => return f
    | .setter, _ => failure
    | _, f => return f

def member : (fuel : Nat) → Place → Parse Expr
  | 0, _ => failure
  | fuel + 1, p => do
    let start := ((← peek).map (·.start)).getD 0
    if ← eat "..." then return .spread (← assignment fuel p)
    if ← modifier fuel "get" false then
      let key ← memberKey fuel p
      return .member .getter false key (← methodOf fuel p start key .getter false false)
    if ← modifier fuel "set" false then
      let key ← memberKey fuel p
      return .member .setter false key (← methodOf fuel p start key .setter false false)
    let isAsync ← modifier fuel "async" true
    let isGenerator ← eat "*"
    let first ← kind?
    let key ← memberKey fuel p
    if key matches .hidden .. then failure
    if isAsync || isGenerator || (← nextMark) == "(" then
      return .member .method false key (← methodOf fuel p start key .method isAsync isGenerator)
    if ← eat ":" then
      let e ← assignment fuel p
      return .member .value false key (named (keyName key) e)
    match first with
    | some (.word s _) => if isReserved s then failure else return .member .value false key (.name s)
    | _ => failure

/-- A class from the word `class` on. -/
def classFrom : (fuel : Nat) → Place → (needsName : Bool) → Parse (String × Expr)
  | 0, _, _ => failure
  | fuel + 1, p, needsName => do
    let start := ((← peek).map (·.start)).getD 0
    expectWord "class"
    let word ← nextWord
    let name ← if word == "extends" || (← nextMark) == "\x7b" then
        (if needsName then failure else pure "")
      else binding
    let parent ← if ← eatWord "extends" then access fuel p else pure .hole
    expect "\x7b"
    let ms ← classMembers fuel { p with superMember := true, noIn := false }
      (!(parent matches .hole))
    if 1 < (ms.filter isMaker).length then failure
    let stop := (← get).last
    return (name, .classOf name (sourceText p start stop) parent ms)

def classMembers : (fuel : Nat) → Place → (derived : Bool) → Parse (List Expr)
  | 0, _, _ => failure
  | fuel + 1, p, derived => do
    if ← eat "\x7d" then return []
    if ← eat ";" then return ← classMembers fuel p derived
    let m ← classMember fuel p derived
    return m :: (← classMembers fuel p derived)

def classMember : (fuel : Nat) → Place → (derived : Bool) → Parse Expr
  | 0, _, _ => failure
  | fuel + 1, p, derived => do
    let isStatic ← modifier fuel "static" false
    if isStatic && (← nextMark) == "\x7b" then
      let inner := { bodyPlace p .method false false with inFunction := false, noAwait := true }
      return .code (← functionBody fuel inner)
    let start := ((← peek).map (·.start)).getD 0
    if ← modifier fuel "get" false then
      let key ← memberKey fuel p
      return .member .getter isStatic key (← methodOf fuel p start key .getter false false)
    if ← modifier fuel "set" false then
      let key ← memberKey fuel p
      return .member .setter isStatic key (← methodOf fuel p start key .setter false false)
    let isAsync ← modifier fuel "async" true
    let isGenerator ← eat "*"
    let key ← memberKey fuel p
    if isAsync || isGenerator || (← nextMark) == "(" then
      let isConstructor := !isStatic && keyName key == "constructor"
      if isConstructor && (isAsync || isGenerator) then failure
      let kind := if isConstructor then
          (if derived then FuncKind.derivedConstructor else .constructor)
        else .method
      return .member .method isStatic key (← methodOf fuel p start key kind isAsync isGenerator)
    let value ← if ← eat "=" then
        assignment fuel (bodyPlace p .method false false)
      else pure .hole
    endStatement
    return .member .field isStatic key (named (keyName key) value)

-- Statements

/-- The statements up to a closing brace. -/
def statements : (fuel : Nat) → Place → Parse (List Stmt)
  | 0, _ => failure
  | fuel + 1, p => do
    if ← eat "\x7d" then return []
    let s ← statement fuel p true
    return s :: (← statements fuel p)

def blockOf : (fuel : Nat) → Place → Parse (List Stmt)
  | 0, _ => failure
  | fuel + 1, p => do
    expect "\x7b"
    let body ← statements fuel p
    if p.checksNames && !isBlockValid body then failure
    return body

/-- Declarations after their first word. -/
def declarators : (fuel : Nat) → Place → DeclareKind → (inHead : Bool) → Parse (List Expr)
  | 0, _, _, _ => failure
  | fuel + 1, p, kind, inHead => do
    let t ← target fuel true p
    let isPattern := !(t matches .name _)
    let d ← if ← eat "=" then (do return Expr.assign t (namedBy t (← assignment fuel p)))
      else do
        let ahead ← nextWord
        let inLoop := inHead && (ahead == "of" || ahead == "in")
        if !inLoop && (isPattern || kind == .const) then failure
        pure t
    if ← eat "," then return d :: (← declarators fuel p kind inHead)
    else return [d]

/-- The kind of a declaration, if the next word begins one. -/
def declareKind : (fuel : Nat) → Parse (Option DeclareKind)
  | 0 => failure
  | _ + 1 => do
    match ← nextWord with
    | "var" => return some .var
    | "let" => return some .let
    | "const" => return some .const
    | _ => return none

/-- A statement; a declaration is one only where `declares` holds. -/
def statement : (fuel : Nat) → Place → (declares : Bool) → Parse Stmt
  | 0, _, _ => failure
  | fuel + 1, p, declares => do
    let start := ((← peek).map (·.start)).getD 0
    let noLabels := { p with labels := [], loopLabels := [] }
    let _ := noLabels
    if (← nextMark) == "\x7b" then return .block (← blockOf fuel p)
    if ← eat ";" then return .empty
    if let some kind ← declareKind fuel then
      if kind != .var && !declares then failure
      let _ ← advance
      let ds ← declarators fuel p kind false
      endStatement
      return .declare kind ds
    let second := (← get).tokens[1]?
    match ← nextWord with
    | "function" =>
      if !declares then failure
      let (name, f) ← functionFrom fuel p start false true
      return .define name f
    | "class" =>
      if !declares then failure
      let (name, c) ← classFrom fuel p true
      return .define name c
    | "async" =>
      if wordOf (second.map (·.kind)) == "function" && !(second.any (·.newline)) then
        if !declares then failure
        let _ ← advance
        let (name, f) ← functionFrom fuel p start true true
        return .define name f
      else simple fuel p
    | "if" =>
      let _ ← advance
      expect "("
      let test ← expression fuel p
      expect ")"
      let yes ← statement fuel p false
      let no ← if ← eatWord "else" then statement fuel p false else pure .empty
      return .when test yes no
    | "for" =>
      let _ ← advance
      forLoop fuel p
    | "while" =>
      let _ ← advance
      expect "("
      let test ← expression fuel p
      expect ")"
      return .while test (← statement fuel { p with inLoop := true } false)
    | "do" =>
      let _ ← advance
      let body ← statement fuel { p with inLoop := true } false
      expectWord "while"
      expect "("
      let test ← expression fuel p
      expect ")"
      let _ ← eat ";"
      return .doWhile body test
    | "return" =>
      if !p.inFunction then failure
      let _ ← advance
      let m ← nextMark
      if (← peek).isNone || (← newlineNext) || m == ";" || m == "\x7d" then
        endStatement
        return .ret .hole
      let e ← expression fuel p
      endStatement
      return .ret e
    | "break" =>
      let _ ← advance
      let label ← jumpLabel fuel
      match label with
      | none => if !p.inLoop && !p.inSwitch then failure
      | some l => if !p.labels.contains l then failure
      endStatement
      return .leave label
    | "continue" =>
      let _ ← advance
      let label ← jumpLabel fuel
      if !p.inLoop then failure
      match label with
      | none => pure ()
      | some l => if !p.loopLabels.contains l then failure
      endStatement
      return .continue label
    | "throw" =>
      let _ ← advance
      if ← newlineNext then failure
      let e ← expression fuel p
      endStatement
      return .throw e
    | "try" =>
      let _ ← advance
      attempt fuel p
    | "switch" =>
      let _ ← advance
      expect "("
      let e ← expression fuel p
      expect ")"
      expect "\x7b"
      let cs ← cases fuel { p with inSwitch := true }
      if 1 < (cs.filter fun c => c matches .case .hole _).length then failure
      if p.checksNames && !isBlockValid (caseStatements cs) then failure
      return .switch e cs
    | "debugger" =>
      let _ ← advance
      endStatement
      return .empty
    | _ => simple fuel p

/-- The label of a jump. -/
def jumpLabel : (fuel : Nat) → Parse (Option String)
  | 0 => failure
  | _ + 1 => do
    if ← newlineNext then return none
    match ← kind? with
    | some (.word _ _) => return some (← reference)
    | _ => return none

/-- A statement that is labeled, or an expression. -/
def simple : (fuel : Nat) → Place → Parse Stmt
  | 0, _ => failure
  | fuel + 1, p => do
    match ← kind? with
    | some (.word _ _) =>
      if (← secondMark) == ":" then
        let l ← reference
        expect ":"
        if p.labels.contains l then failure
        let word ← nextWord
        let isLoop := word == "for" || word == "while" || word == "do"
        let p := { p with
          labels := l :: p.labels
          loopLabels := if isLoop then l :: p.loopLabels else p.loopLabels }
        return .labeled l (← statement fuel p false)
    | _ => pure ()
    let e ← expression fuel p
    endStatement
    return .expr e

/-- A loop after the word `for`. -/
def forLoop : (fuel : Nat) → Place → Parse Stmt
  | 0, _ => failure
  | fuel + 1, p => do
    let isAsync ← if (← nextWord) == "await" then
        (if p.inAsync && !p.noAwait then eatWord "await" else failure)
      else pure false
    expect "("
    let head ← loopHead fuel { p with noIn := true }
    let inner := { p with inLoop := true }
    if ← eatWord "of" then
      if !isLoopHead head then failure
      let e ← assignment fuel { p with noIn := false }
      expect ")"
      return .loopOf isAsync head e (← statement fuel inner false)
    if isAsync then failure
    if ← eatWord "in" then
      if !isLoopHead head then failure
      let e ← expression fuel { p with noIn := false }
      expect ")"
      return .loopIn head e (← statement fuel inner false)
    expect ";"
    let p := { p with noIn := false }
    let test ← if (← nextMark) == ";" then pure .hole else expression fuel p
    expect ";"
    let update ← if (← nextMark) == ")" then pure .hole else expression fuel p
    expect ")"
    return .loop head test update (← statement fuel inner false)

/-- What a loop starts with, or stores its values in. -/
def loopHead : (fuel : Nat) → Place → Parse Stmt
  | 0, _ => failure
  | fuel + 1, p => do
    if (← nextMark) == ";" then return .empty
    if let some kind ← declareKind fuel then
      let _ ← advance
      return .declare kind (← declarators fuel p kind true)
    if patternAhead true (← get).tokens then
      let t ← target fuel false p
      if ← eat "=" then
        let e ← assignment fuel p
        return .expr (← moreComma fuel p (.assign t e))
      else return .expr t
    return .expr (← expression fuel p)

/-- Cases up to the closing brace. -/
def cases : (fuel : Nat) → Place → Parse (List Stmt)
  | 0, _ => failure
  | fuel + 1, p => do
    if ← eat "\x7d" then return []
    let test ← if ← eatWord "default" then pure .hole
      else do
        expectWord "case"
        expression fuel p
    expect ":"
    let body ← caseBody fuel p
    return .case test body :: (← cases fuel p)

def caseBody : (fuel : Nat) → Place → Parse (List Stmt)
  | 0, _ => failure
  | fuel + 1, p => do
    let word ← nextWord
    if (← nextMark) == "\x7d" || word == "case" || word == "default" then return []
    let s ← statement fuel p true
    return s :: (← caseBody fuel p)

/-- A statement after the word `try`. -/
def attempt : (fuel : Nat) → Place → Parse Stmt
  | 0, _ => failure
  | fuel + 1, p => do
    let body ← blockOf fuel p
    let handled ← eatWord "catch"
    let param ← if handled && (← eat "(") then do
        let t ← target fuel true p
        expect ")"
        pure t
      else pure .hole
    let handler ← if handled then blockOf fuel p else pure []
    let finished ← eatWord "finally"
    let finalizer ← if finished then blockOf fuel p else pure []
    if !handled && !finished then failure
    return .attempt body handled param handler finalizer

end

/-! ### Modules -/

/-- The name that a module gives or takes, which may be written as a text. -/
def exportName : Parse String := do
  match (← advance).kind with
  | .word s _ => return s
  | .text s => return s
  | _ => failure

def addImport (i : Import) : Parse Unit :=
  modify fun c => { c with imports := c.imports ++ [i] }

def addExport (e : Export) : Parse Unit :=
  modify fun c => { c with exports := c.exports ++ [e] }

def addRequest (source : String) : Parse Unit :=
  modify fun c => { c with
    requests := if c.requests.contains source then c.requests else c.requests ++ [source] }

/-- Attributes of an import, which say nothing here. -/
def skipAttributes : Parse Unit := do
  if (← nextWord) == "with" then
    let _ ← advance
    if (← nextMark) == "\x7b" then
      modify fun c => { c with tokens := afterBracket 0 c.tokens }
    else failure

/-- The name of the module that something is taken from. -/
def fromClause : Parse String := do
  expectWord "from"
  match (← advance).kind with
  | .text s =>
    skipAttributes
    addRequest s
    return s
  | _ => failure

/-- Names in braces, each with another name or without. -/
def namedList : (fuel : Nat) → Parse (List (String × String × Bool))
  | 0 => failure
  | fuel + 1 => do
    if ← eat "\x7d" then return []
    let isText := (← kind?) matches some (.text _)
    let name ← exportName
    let renamed ← eatWord "as"
    let other ← if renamed then exportName else pure name
    let entry := (name, other, isText && !renamed)
    if ← eat "\x7d" then return [entry]
    expect ","
    return entry :: (← namedList fuel)

/-- Imports of a list of names. -/
def addNamed (source : String) (names : List (String × String × Bool)) : Parse Unit := do
  for (name, own, isText) in names do
    if isText || isUnbindable own then failure
    addImport ⟨source, .one name, own⟩

/-- What is taken after the first word of an import. -/
inductive Taken where
  | all (own : String)
  | names (ns : List (String × String × Bool))

def taken (fuel : Nat) : Parse Taken := do
  if ← eat "*" then
    expectWord "as"
    return .all (← binding)
  expect "\x7b"
  return .names (← namedList fuel)

def addTaken (source : String) : Taken → Parse Unit
  | .all own => addImport ⟨source, .all, own⟩
  | .names ns => addNamed source ns

def importItem (fuel : Nat) : Parse Unit := do
  match ← kind? with
  | some (.text s) =>
    let _ ← advance
    skipAttributes
    addRequest s
  | some (.word _ _) =>
    let own ← binding
    let more ← if ← eat "," then (do return some (← taken fuel)) else pure none
    let source ← fromClause
    addImport ⟨source, .one "default", own⟩
    if let some t := more then addTaken source t
  | _ =>
    let t ← taken fuel
    let source ← fromClause
    addTaken source t
  endStatement

def exportDefault (fuel : Nat) (p : Place) : Parse Stmt := do
  let start := ((← peek).map (·.start)).getD 0
  let second := (← get).tokens[1]?
  let word ← nextWord
  let asynchronous := word == "async" && wordOf (second.map (·.kind)) == "function" &&
    !(second.any (·.newline))
  let define := fun (name : String) (e : Expr) => do
    let own := if name.isEmpty then defaultVariable else name
    addExport (.variable "default" own)
    return Stmt.define own (named "default" e)
  if word == "function" || asynchronous then
    if asynchronous then expectWord "async"
    let (name, f) ← functionFrom fuel p start asynchronous false
    define name f
  else if word == "class" then
    let (name, c) ← classFrom fuel p false
    define name c
  else
    let e ← assignment fuel p
    endStatement
    addExport (.variable "default" defaultVariable)
    return .declare .const [.assign (.name defaultVariable) (named "default" e)]

/-- A statement after the word `export`. -/
def exportItem (fuel : Nat) (p : Place) : Parse Stmt := do
  if ← eatWord "default" then return ← exportDefault fuel p
  if ← eat "*" then
    let whole ← if ← eatWord "as" then (do return some (← exportName)) else pure none
    let source ← fromClause
    endStatement
    match whole with
    | some name => addExport (.handed name source .all)
    | none => addExport (.everything source)
    return .empty
  if ← eat "\x7b" then
    let names ← namedList fuel
    if (← nextWord) == "from" then
      let source ← fromClause
      for (name, exported, _) in names do addExport (.handed exported source (.one name))
    else
      for (name, exported, isText) in names do
        if isText || isReserved name then failure
        addExport (.variable exported name)
    endStatement
    return .empty
  let s ← statement fuel p true
  match s with
  | .declare _ ds =>
    for name in targetNamesOf ds do addExport (.variable name name)
    return s
  | .define name _ =>
    addExport (.variable name name)
    return s
  | _ => failure

/-- The statements of a module. -/
def moduleItems : (fuel : Nat) → Place → Parse (List Stmt)
  | 0, _ => failure
  | fuel + 1, p => do
    if (← peek).isNone then return []
    let word ← nextWord
    let second ← secondMark
    if word == "import" && second != "(" && second != "." then
      let _ ← advance
      importItem fuel
      moduleItems fuel p
    else
      let s ← if ← eatWord "export" then exportItem fuel p else statement fuel p true
      return s :: (← moduleItems fuel p)

/-- Fuel for so many tokens. No rule calls others more than a few levels deep without a token. -/
def fuelFor (tokens : Nat) : Nat := 30 * tokens + 100

end Grammar

/-- The module that a text holds, unless it is malformed. -/
def Program.ofText? (checksNames : Bool) (source : String) : Option Program := do
  let tokens ← Token.ofText? source
  let place : Place := { source := source.toList.toArray, checksNames }
  let (body, c) ← Grammar.moduleItems (Grammar.fuelFor tokens.length) place { tokens }
  let p : Program := { requests := c.requests, imports := c.imports, exports := c.exports, body }
  if checksNames && !isModuleValid p then none else some p

end Stencil.Script
