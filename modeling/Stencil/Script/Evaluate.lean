import Stencil.Script.Function
import Stencil.Script.Promise
/-!
What expressions and statements do. Evaluation follows the structure of a program; whatever may take
longer than that, such as a call or another turn of a loop, is a request.
-/
namespace Stencil.Script

/-- What an expression gives: a value, and the object that it is a member of. Nothing is given where a
chain ends before. -/
inductive Given where
  | ended
  | value (v of : Datum)

namespace Action

@[inline]
def value (x : Action Given) : Action Datum := fun next h =>
  x (fun
    | .value v _ => fun h => next v h
    | .ended => fun h => next .undefined h) h

@[inline]
def give (x : Action Datum) : Action Given := fun next h => x (fun v h => next (.value v .undefined) h) h

/-- Goes on with a value, unless the chain has ended. -/
@[inline]
def linked (x : Action Given) (f : Datum → Action Given) : Action Given := fun next h =>
  x (fun
    | .value v _ => fun h => f v next h
    | .ended => fun h => next .ended h) h

/-- A member of a value. -/
def memberOf (v : Datum) (x : Action Datum) : Action Given := do return .value (← x) v

/-- How a loop ends after a turn, unless it goes on. -/
def ending? (labels : List String) : Outcome → Option Outcome
  | .normal _ => none
  | .continue none => none
  | .continue (some l) => if labels.contains l then none else some (.continue (some l))
  | .leave none => some (.normal .undefined)
  | o => some o

def storingOf : DeclareKind → Storing
  | .var => .assign
  | .let => .declare true
  | .const => .declare false

/-- Declares the names of a body, and makes its functions. -/
def declareIn (scope : Nat) (body : List Stmt) : Action Unit := do
  forEach (fun (name, writable) => modify (·.bind scope name (.cell none writable)))
    (body.flatMap lexicalNames)
  forEach (fun (name, f) => do
    match f with
    | .func info params body =>
      let f ← newClosure scope info params body none
      modify (·.bind scope name (.cell (some (.object f)) true))
    | _ => return) (body.filterMap functionOf?)

/-- The scope of a block. -/
def enterBlock (scope : Nat) (body : List Stmt) : Action Nat := do
  if body.any fun s => !(lexicalNames s).isEmpty || (functionOf? s).isSome then
    let inner ← newScope scope []
    declareIn inner body
    return inner
  else return scope

/-- Texts with the texts of values between them. -/
def templateText : List String → List Datum → String → Action Datum
  | t :: texts, v :: vs, done => do
    let s ← toText v
    match ← joined done t with
    | .text done =>
      match ← joined done s with
      | .text done => templateText texts vs done
      | _ => return .undefined
    | _ => return .undefined
  | t :: _, [], done => joined done t
  | [], _, done => return .text done

/-- What is done with a property of a class or an object that is being made. -/
inductive Part where
  | field (isStatic : Bool) (key : Key ⊕ String) (init : Option Ref)
  | hidden (isStatic : Bool) (name : String) (p : Property)
  | code (f : Ref)

/-- Puts a member in its place. -/
def defineMember (kind : MemberKind) (r : Ref) (key : Key ⊕ String) (f : Ref) (listed : Bool) :
    Action (List Part) := do
  match key, kind with
  | .inl k, .getter =>
    defineAccessor r k true listed f
    return []
  | .inl k, .setter =>
    defineAccessor r k false listed f
    return []
  | .inl k, _ =>
    modify (·.define r k { held := .value (.object f) true, enumerable := listed })
    return []
  | .inr name, .getter =>
    return [.hidden false name { held := .accessor (some f) none, enumerable := false }]
  | .inr name, .setter =>
    return [.hidden false name { held := .accessor none (some f), enumerable := false }]
  | .inr name, _ =>
    return [.hidden false name { held := .value (.object f) false, enumerable := false }]

/-- What the instances of a class get. -/
def instanceFields (parts : List Part) : List Field :=
  parts.foldl (fun fields p =>
    match p with
    | .hidden false name p => mergeHidden fields name p
    | .field false key init => fields ++ [.value key init]
    | _ => fields) []

/-- Gives a class what belongs to itself. -/
def runStatic (f : Ref) (parts : List Part) : Action Unit := do
  forEach (fun
    | .hidden true name p => putHidden f name p
    | _ => return) parts
  forEach (fun
    | .field true key init => initialise (.object f) [.value key init]
    | .code g => do
      let _ ← call (.object g) (.object f) []
      return
    | _ => return) parts

def asStatic (isStatic : Bool) : Part → Part
  | .hidden _ name p => .hidden isStatic name p
  | p => p

/-- The names of members that belong to a class, each with a key that no other class has. -/
def hiddenNames (scope : Nat) (members : List Expr) : List (String × Binding) :=
  (members.filterMap fun
    | .member _ _ (.hidden _ s) _ => some s
    | _ => none).eraseDups.map fun s =>
      ("#" ++ s, .cell (some (.text (s ++ "@" ++ toString scope))) false)

/-- The constructor of a class, or the one that stands for a missing one. -/
def constructorOf (text : String) (isDerived : Bool) (members : List Expr) :
    FuncInfo × List Expr × List Stmt :=
  let written := members.findSome? fun
    | .member .method false (.text "constructor") (.func info params body) =>
      some ({ info with text }, params, body)
    | _ => none
  written.getD <|
    if isDerived then
      ({ kind := .derivedConstructor, text }, [.spread (.name "args")],
        [.expr (.superCall [.spread (.name "args")])])
    else ({ kind := .constructor, text }, [], [])

def isConstructor : Expr → Bool
  | .member .method false (.text "constructor") _ => true
  | _ => false

/-- The call of a constructor that makes the value `this`. -/
def superCall (scope : Nat) (args : List Datum) : Action Datum := do
  let f ← known scope className
  let h ← heap
  let parent := match f with
    | .object r => (h.object r).proto
    | _ => none
  match parent with
  | none => typeError "not a constructor"
  | some p =>
    let v ← make (.object p) args (← known scope targetName)
    match (← heap).lookup? scope thisName with
    | some (holder, .cell none _) =>
      modify (·.bind holder thisName (.cell (some v) true))
      initialise v (fieldsOf (← heap) f)
      return v
    | _ => referenceError "'this' can be initialized only once"

/-- The first match of a property in a chain of objects, with the hidden ones of its own. -/
def hasHidden (scope : Nat) (name : String) (v : Datum) : Action Datum := do
  match v with
  | .object r =>
    let key ← hiddenKey scope name
    return .bool (((← heap).object r).hidden.lookup key).isSome
  | _ => typeError "invalid 'in' operand"

def unaryOf (op : UnaryOp) (v : Datum) : Action Datum := do
  match op with
  | .plus => return .number (← toNumber v)
  | .minus => return .number (-(← toNumber v))
  | .not => return .bool (!v.isTrue)
  | .bitNot => return .number (Numeric.ofSignedWord (~~~(Numeric.toWord (← toNumber v))))
  | .typeOf => return .text (typeName (← heap) v)
  | .void => return .undefined
  | .delete => return .bool true

/-- Takes away what a place holds. -/
def deleteSpot : Spot → Action Datum
  | .member base key => do
    delete base (← toKey key)
    return .bool true
  | .inherited _ => referenceError "unsupported reference to 'super'"
  | _ => return .bool true

def isMember : Expr → Bool
  | .dot .. | .at .. | .superAt _ => true
  | _ => false

/-- Adds one to what a place holds, or takes one away. -/
def countSpot (scope : Nat) (up before : Bool) (spot : Spot) : Action Datum := do
  let old ← toNumber (← readSpot scope spot)
  let new := if up then old + 1.0 else old - 1.0
  writeSpot scope spot (.number new)
  return .number (if before then new else old)

/-- Whether the second operand is needed after the first one. -/
def needsSecond (op : LogicalOp) (v : Datum) : Bool :=
  match op with
  | .both => v.isTrue
  | .either => !v.isTrue
  | .orElse => v.isMissing

/-- The keys that a loop over an object goes through. -/
def loopKeys (h : Heap) : (steps : Nat) → Ref → List String → List String
  | 0, _, _ => []
  | steps + 1, r, seen =>
    let own := (h.ownKeys r).filterMap fun
      | .text s => if seen.contains s then none else some s
      | .symbol _ => none
    own.filter (fun s => (h.own? r (.text s)).any (·.enumerable)) ++
      (match (h.object r).proto with
        | some p => loopKeys h steps p (seen ++ own)
        | none => [])

/-- All values of another source are given one by one. -/
def yieldAll (c : Cursor) : Action Unit :=
  forValues c fun v => do
    let _ ← yield v
    return

/-- A source for a loop that waits for each value. -/
def asyncCursorOf (v : Datum) : Action Cursor := do
  match ← method? v Key.asyncIterator with
  | some f =>
    let it ← call f v []
    return .object it (← getText it "next")
  | none => cursorOf v

/-- The next value of a source; a loop that waits takes what it promises. -/
def stepOf (waits : Bool) (c : Cursor) : Action (Option (Datum × Cursor)) := do
  if waits then
    match c with
    | .object it next =>
      let result ← awaited (← call next it [])
      if (← getText result "done").isTrue then return none
      return some (← awaited (← getText result "value"), c)
    | c =>
      match ← step c with
      | some (v, c) => return some (← awaited v, c)
      | none => return none
  else step c

mutual

/-- What an expression gives. -/
def giveOf (scope : Nat) : Expr → Action Given
  | .hole => give (return .undefined)
  | .name s => give (getName scope s)
  | .number x => give (return .number x)
  | .text s => give (return .text s)
  | .bool b => give (return .bool b)
  | .null => give (return .null)
  | .this => give (getName scope thisName)
  | .template texts holes => give do
    let vs ← valuesIn scope holes
    templateText texts vs ""
  | .tagged tag texts raw holes => do
    match ← giveOf scope tag with
    | .ended => return .ended
    | .value f this =>
      let list ← templateTexts texts raw
      let vs ← valuesIn scope holes
      give (callOn f this (list :: vs))
  | .pattern body flags => give do
    match Regex.ofText? body flags with
    | some pattern =>
      let v ← newObject { proto := some Heap.regexProto, shape := .regex body flags pattern }
      defineOn v (.text "lastIndex")
        { held := .value (.number 0.0) true, enumerable := false, configurable := false }
      return v
    | none => syntaxError "invalid regular expression"
  | .array items => give do
    let r ← emptyArray
    addItems scope r items
    return .object r
  | .object members => give do
    let r ← change fun h => h.alloc { proto := some Heap.objectProto }
    addMembers scope r members
    return .object r
  | .func info params body => give do return .object (← newNamed scope info params body)
  | .classOf name text parent members => give do
    let own := if name.front == '=' then "" else name
    let inner ← newScope scope []
    forEach (fun (n, b) => modify (·.bind inner n b)) (hiddenNames inner members)
    if !own.isEmpty then modify (·.bind inner own (.cell none false))
    let isDerived := !(parent matches .hole)
    let above ← value (giveOf inner parent)
    let (functionParent, protoParent) ← parents isDerived above
    let (info, params, body) := constructorOf text isDerived members
    let shown := if own.isEmpty then (name.drop 1).toString else own
    let (f, proto) ← newClass inner shown info params body functionParent protoParent
    let parts ← classParts inner f proto members
    setFields f (instanceFields parts)
    if !own.isEmpty then modify (·.bind inner own (.cell (some (.object f)) false))
    runStatic f parts
    return .object f
  | .dot e name => linked (giveOf scope e) fun v => memberOf v (getText v name)
  | .at e key => linked (giveOf scope e) fun v => do
    let k ← value (giveOf scope key)
    memberOf v (getAt v k)
  | .hidden e name => linked (giveOf scope e) fun v =>
    memberOf v (do getHidden v (← hiddenKey scope name))
  | .superAt key => do
    let k ← value (giveOf scope key)
    memberOf (← getName scope thisName) (readSpot scope (.inherited k))
  | .superCall args => give do superCall scope (← valuesIn scope args)
  | .chain e => give (value (giveOf scope e))
  | .optional e => do
    match ← giveOf scope e with
    | .ended => return .ended
    | .value v of => return if v.isMissing then .ended else .value v of
  | .call f args => do
    match ← giveOf scope f with
    | .ended => return .ended
    | .value f this => give do callOn f this (← valuesIn scope args)
  | .make f args => give do
    let f ← value (giveOf scope f)
    make f (← valuesIn scope args) f
  | .unary op e => give do
    match op, e with
    | .typeOf, .name s => typeOfName scope s
    | .delete, e =>
      if isMember e then deleteSpot (← spotOf scope e)
      else
        let _ ← value (giveOf scope e)
        return .bool true
    | op, e => unaryOf op (← value (giveOf scope e))
  | .count up before target => give do countSpot scope up before (← spotOf scope target)
  | .binary op a b => give do
    match op, a with
    | .isIn, .hidden .hole name => hasHidden scope name (← value (giveOf scope b))
    | op, a =>
      let x ← value (giveOf scope a)
      let y ← value (giveOf scope b)
      operate op x y
  | .logical op a b => give do
    let x ← value (giveOf scope a)
    if needsSecond op x then value (giveOf scope b) else return x
  | .cond test a b => give do
    if (← value (giveOf scope test)).isTrue then value (giveOf scope a)
    else value (giveOf scope b)
  | .assign target e => give do
    match target with
    | .name s =>
      let v ← value (giveOf scope e)
      setName scope s v
      return v
    | .array items =>
      let v ← value (giveOf scope e)
      storeItems .assign scope items (some (← cursorOf v))
      return v
    | .object members =>
      let v ← value (giveOf scope e)
      let _ ← toObject v
      storeParts .assign scope members v []
      return v
    | target =>
      let spot ← spotOf scope target
      let v ← value (giveOf scope e)
      writeSpot scope spot v
      return v
  | .assignOp op target e => give do
    let spot ← spotOf scope target
    let x ← readSpot scope spot
    let y ← value (giveOf scope e)
    let v ← operate op x y
    writeSpot scope spot v
    return v
  | .assignLogical op target e => give do
    let spot ← spotOf scope target
    let x ← readSpot scope spot
    if needsSecond op x then
      let v ← value (giveOf scope e)
      writeSpot scope spot v
      return v
    else return x
  | .comma a b => give do
    let _ ← value (giveOf scope a)
    value (giveOf scope b)
  | .await e => give do awaited (← value (giveOf scope e))
  | .yield all e => give do
    let v ← value (giveOf scope e)
    if all then
      yieldAll (← cursorOf v)
      return .undefined
    else yield v
  | .moduleInfo => give (newPlain [])
  | .newTarget => give (known scope targetName)
  | .member .. => give (return .undefined)
  | .code _ => give (return .undefined)
  | .spread _ => give (return .undefined)
  | .default .. => give (return .undefined)

/-- The place that an expression stands for. -/
def spotOf (scope : Nat) : Expr → Action Spot
  | .name s => return .name s
  | .dot e name => do return .member (← value (giveOf scope e)) (.text name)
  | .at e key => do
    let base ← value (giveOf scope e)
    return .member base (← value (giveOf scope key))
  | .hidden e name => do return .hidden (← value (giveOf scope e)) name
  | .superAt key => do return .inherited (← value (giveOf scope key))
  | _ => return .member .undefined .undefined

/-- The values of a list in which lists may be spread out. -/
def valuesIn (scope : Nat) : List Expr → Action (List Datum)
  | [] => return []
  | .spread e :: rest => do
    let vs ← valuesOf (← value (giveOf scope e))
    return vs ++ (← valuesIn scope rest)
  | e :: rest => do
    let v ← value (giveOf scope e)
    return v :: (← valuesIn scope rest)

/-- Adds values to an array. -/
def addItems (scope : Nat) (r : Ref) : List Expr → Action Unit
  | [] => return
  | .hole :: rest => do
    modify (·.modify r fun o =>
      match o.shape with
      | .array items frozen => { o with shape := .array (items.push none) frozen }
      | _ => o)
    addItems scope r rest
  | .spread e :: rest => do
    forEach (push r) (← valuesOf (← value (giveOf scope e)))
    addItems scope r rest
  | e :: rest => do
    push r (← value (giveOf scope e))
    addItems scope r rest

/-- The key of a member, or the name of one that belongs to a class. -/
def keyOf (scope : Nat) : Expr → Action (Key ⊕ String)
  | .text s => return .inl (.text s)
  | .hidden _ s => do return .inr (← hiddenKey scope s)
  | .at _ e => do return .inl (← toKey (← value (giveOf scope e)))
  | _ => return .inl (.text "")

/-- Adds members to an object. -/
def addMembers (scope : Nat) (r : Ref) : List Expr → Action Unit
  | [] => return
  | .spread e :: rest => do
    copyInto (.object r) (← value (giveOf scope e))
    addMembers scope r rest
  | .member kind _ key e :: rest => do
    match kind, key with
    | .value, .text "__proto__" =>
      match ← value (giveOf scope e) with
      | .object p => modify (·.modify r fun o => { o with proto := some p })
      | .null => modify (·.modify r fun o => { o with proto := none })
      | _ => pure ()
    | .value, key =>
      let k ← keyOf scope key
      let v ← value (giveOf scope e)
      match k with
      | .inl k => modify (·.define r k (.ofValue v))
      | .inr _ => pure ()
    | kind, key =>
      let k ← keyOf scope key
      match e with
      | .func info params body =>
        let f ← newClosure scope info params body (some r)
        let _ ← defineMember kind r k f true
      | _ => pure ()
    addMembers scope r rest
  | _ :: rest => addMembers scope r rest

/-- Adds methods to a class and gives its other parts. -/
def classParts (scope : Nat) (f proto : Ref) : List Expr → Action (List Part)
  | [] => return []
  | .code body :: rest => do
    let g ← newClosure scope { kind := .method, vars := varNamesOf body } [] body (some f)
    return .code g :: (← classParts scope f proto rest)
  | .member kind isStatic key e :: rest => do
    if isConstructor (.member kind isStatic key e) then classParts scope f proto rest
    else
      let k ← keyOf scope key
      let home := if isStatic then f else proto
      let parts ← match kind, e with
        | .field, .hole => pure [Part.field isStatic k none]
        | .field, e => do
          let g ← newClosure scope { kind := .method } [] [.ret e] (some home)
          pure [Part.field isStatic k (some g)]
        | kind, .func info params body => do
          let g ← newClosure scope info params body (some home)
          pure ((← defineMember kind home k g false).map (asStatic isStatic))
        | _, _ => pure []
      return parts ++ (← classParts scope f proto rest)
  | _ :: rest => classParts scope f proto rest

/-- Stores a value in a target, which may take it apart. -/
def store (how : Storing) (scope : Nat) : Expr → Datum → Action Unit
  | .name s, v => storeName how scope s v
  | .default target e, v => do
    match v with
    | .undefined => store how scope target (← value (giveOf scope e))
    | v => store how scope target v
  | .array items, v => do storeItems how scope items (some (← cursorOf v))
  | .object members, v => do
    let _ ← toObject v
    storeParts how scope members v []
  | .dot e name, v => do setText (← value (giveOf scope e)) name v
  | .at e key, v => do
    let base ← value (giveOf scope e)
    setAt base (← value (giveOf scope key)) v
  | .hidden e name, v => do setHidden (← value (giveOf scope e)) (← hiddenKey scope name) v
  | .superAt key, v => do writeSpot scope (.inherited (← value (giveOf scope key))) v
  | _, _ => return

/-- Stores the values of a source in targets, as long as it has any. -/
def storeItems (how : Storing) (scope : Nat) : List Expr → Option Cursor → Action Unit
  | [], none => return
  | [], some c => close c
  | .spread target :: _, c => do
    let r ← match c with
      | some c => gather c
      | none => emptyArray
    store how scope target (.object r)
  | target :: rest, c => do
    let next ← match c with
      | some c => step c
      | none => pure none
    store how scope target ((next.map (·.1)).getD .undefined)
    storeItems how scope rest (next.map (·.2))

/-- Stores members of a value in targets. -/
def storeParts (how : Storing) (scope : Nat) : List Expr → Datum → List Key → Action Unit
  | [], _, _ => return
  | .spread target :: _, v, taken => do store how scope target (← restOf v taken)
  | .member _ _ key target :: rest, v, taken => do
    match ← keyOf scope key with
    | .inl k =>
      store how scope target (← get v k)
      storeParts how scope rest v (k :: taken)
    | .inr _ => storeParts how scope rest v taken
  | _ :: rest, v, taken => storeParts how scope rest v taken

/-- Declares targets, each with its value. -/
def declare (kind : DeclareKind) (scope : Nat) : List Expr → Action Unit
  | [] => return
  | .assign target e :: rest => do
    store (storingOf kind) scope target (← value (giveOf scope e))
    declare kind scope rest
  | .name s :: rest => do
    if kind == .let then modify (·.bind scope s (.cell (some .undefined) true))
    declare kind scope rest
  | _ :: rest => declare kind scope rest

/-- Stores a value in what a loop over values starts with. -/
def storeHead (scope : Nat) : Stmt → Datum → Action Unit
  | .declare kind [target], v => store (storingOf kind) scope target v
  | .expr target, v => store .assign scope target v
  | _, _ => return

/-- What a statement does. -/
def run (scope : Nat) (labels : List String) : Stmt → Action Outcome
  | .empty => return .normal .undefined
  | .expr e => do
    let _ ← value (giveOf scope e)
    return .normal .undefined
  | .declare kind ds => do
    declare kind scope ds
    return .normal .undefined
  | .define name e => do
    match e with
    | .func .. => return .normal .undefined
    | e =>
      let v ← value (giveOf scope e)
      modify (·.bind scope name (.cell (some v) true))
      return .normal .undefined
  | .ret e => do return .ret (← value (giveOf scope e))
  | .when test yes no => do
    if (← value (giveOf scope test)).isTrue then run scope [] yes else run scope [] no
  | .loop start test update body => do
    let first ← enterBlock scope [start]
    let _ ← run first [] start
    let isOwn := first != scope
    loop first none fun s _ => do
      let goesOn ← match test with
        | .hole => pure true
        | test => do pure (← value (giveOf s test)).isTrue
      if goesOn then
        match ending? labels (← run s [] body) with
        | some o => return o
        | none =>
          let s ← if isOwn then copyScope s else pure s
          let _ ← value (giveOf s update)
          return .again s none
      else return .normal .undefined
  | .loopIn head e body => do
    let v ← value (giveOf scope e)
    let keys ← if v.isMissing then pure []
      else do
        let r ← toRef v
        let h ← heap
        pure (loopKeys h (h.objects.size + 1) r [])
    loop scope (some (.list (keys.map .text))) fun s c => do
      match ← step (c.getD (.list [])) with
      | none => return .normal .undefined
      | some (v, c) =>
        let inner ← enterBlock s [head]
        storeHead inner head v
        match ending? labels (← run inner [] body) with
        | some o => return o
        | none => return .again s (some c)
  | .loopOf waits head e body => do
    let v ← value (giveOf scope e)
    let source ← if waits then asyncCursorOf v else cursorOf v
    loop scope (some source) fun s c => do
      match ← stepOf waits (c.getD (.list [])) with
      | none => return .normal .undefined
      | some (v, c) =>
        let inner ← enterBlock s [head]
        let o ← closing c (do
          storeHead inner head v
          run inner [] body) (fun o => o) fun o => o
        match ending? labels o with
        | some o =>
          close c
          return o
        | none => return .again s (some c)
  | .while test body => do
    loop scope none fun s _ => do
      if (← value (giveOf s test)).isTrue then
        match ending? labels (← run s [] body) with
        | some o => return o
        | none => return .again s none
      else return .normal .undefined
  | .doWhile body test => do
    loop scope none fun s _ => do
      match ending? labels (← run s [] body) with
      | some o => return o
      | none =>
        if (← value (giveOf s test)).isTrue then return .again s none
        else return .normal .undefined
  | .leave label => return .leave label
  | .continue label => return .continue label
  | .throw e => do throw (← value (giveOf scope e))
  | .attempt body handled param handler finalizer => do
    let first ← attempt do
      let inner ← enterBlock scope body
      runAll inner body
    let second ← match first with
      | .ok o => pure (Except.ok o)
      | .error e =>
        if handled then
          attempt do
            let outer ← newScope scope []
            store (.declare true) outer param e
            let inner ← enterBlock outer handler
            runAll inner handler
        else pure (.error e)
    let inner ← enterBlock scope finalizer
    match ← runAll inner finalizer with
    | .normal _ =>
      match second with
      | .ok o => return o
      | .error e => throw e
    | o => return o
  | .switch e cases => do
    let v ← value (giveOf scope e)
    let inner ← enterBlock scope (caseStatements cases)
    match ← findCase inner v cases 0 with
    | none => return .normal .undefined
    | some n =>
      match ← runCases inner cases n with
      | .leave none => return .normal .undefined
      | o => return o
  | .case _ body => runAll scope body
  | .block body => do
    let inner ← enterBlock scope body
    runAll inner body
  | .labeled label body => do
    match ← run scope (label :: labels) body with
    | .leave (some l) => return if l == label then .normal .undefined else .leave (some l)
    | o => return o

/-- Statements one after the other. -/
def runAll (scope : Nat) : List Stmt → Action Outcome
  | [] => return .normal .undefined
  | s :: rest => do
    match ← run scope [] s with
    | .normal _ => runAll scope rest
    | o => return o

/-- The case that a value is taken to, counted from `i`. -/
def findCase (scope : Nat) (v : Datum) : List Stmt → (i : Nat) → Action (Option Nat)
  | [], _ => return none
  | .case .hole _ :: rest, i => do
    match ← findCase scope v rest (i + 1) with
    | some n => return some n
    | none => return some i
  | .case test _ :: rest, i => do
    if (← value (giveOf scope test)).same v then return some i
    else findCase scope v rest (i + 1)
  | _ :: rest, i => findCase scope v rest (i + 1)

/-- The statements of the cases after the first `skip` ones. -/
def runCases (scope : Nat) : List Stmt → (skip : Nat) → Action Outcome
  | [], _ => return .normal .undefined
  | _ :: rest, skip + 1 => runCases scope rest skip
  | s :: rest, 0 => do
    match ← run scope [] s with
    | .normal _ => runCases scope rest 0
    | o => return o

end

/-- Gives parameters the values of a call. -/
def bindParams (scope : Nat) : List Expr → List Datum → Action Unit
  | [], _ => return
  | .spread target :: _, args => do store (.declare true) scope target (← newArray args)
  | target :: rest, args => do
    store (.declare true) scope target (args.head?.getD .undefined)
    bindParams scope rest args.tail

/-- Runs the body of a function; gives its scope too. -/
def callBody (self : Ref) (c : Closure) (this : Option Datum) (target : Datum)
    (args : List Datum) : Action (Nat × Outcome) := do
  let scope ← callScope self c this target args
  bindParams scope c.params args
  declareIn scope c.body
  let o ← runAll scope c.body
  return (scope, o)

/-- The value that a function of a script gives when it is called. -/
def applyClosure (self : Ref) (c : Closure) (this : Datum) (args : List Datum) : Action Datum := do
  let (_, o) ← callBody self c (some this) .undefined args
  return match o with
    | .ret v => v
    | _ => .undefined

/-- The object that a function of a script makes. -/
def construct (self : Ref) (c : Closure) (args : List Datum) (target : Datum) : Action Datum := do
  if c.info.kind == .derivedConstructor then
    let (scope, o) ← callBody self c none target args
    match o with
    | .ret (.object r) => return .object r
    | _ => getName scope thisName
  else
    let proto ← protoFor target Heap.objectProto
    let v ← newObject { proto := some proto }
    initialise v (fieldsOf (← heap) (.object self))
    let (_, o) ← callBody self c (some v) target args
    match o with
    | .ret (.object r) => return .object r
    | _ => return v

end Action
end Stencil.Script
