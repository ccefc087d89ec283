import Stencil.Script.Syntax
/-!
The names that statements declare. A `var` belongs to the function that it stands in, all other
names to the block; no name of a block is declared twice.
-/
namespace Stencil.Script

mutual

/-- The names that a target declares. -/
def targetNames : Expr → List String
  | .name s => [s]
  | .array es => targetNamesOf es
  | .object es => targetNamesOf es
  | .member _ _ _ t => targetNames t
  | .default t _ => targetNames t
  | .spread t => targetNames t
  | .assign t _ => targetNames t
  | _ => []

def targetNamesOf : List Expr → List String
  | [] => []
  | e :: es => targetNames e ++ targetNamesOf es

end

mutual

/-- The names that `var` declares in a statement, but not in the functions in it. -/
def varNames : Stmt → List String
  | .declare .var ds => targetNamesOf ds
  | .when _ yes no => varNames yes ++ varNames no
  | .loop start _ _ body => varNames start ++ varNames body
  | .loopIn head _ body => varNames head ++ varNames body
  | .loopOf _ head _ body => varNames head ++ varNames body
  | .while _ body => varNames body
  | .doWhile body _ => varNames body
  | .attempt body _ _ handler finalizer =>
    varNamesOf body ++ varNamesOf handler ++ varNamesOf finalizer
  | .switch _ cases => varNamesOf cases
  | .case _ body => varNamesOf body
  | .block body => varNamesOf body
  | .labeled _ body => varNames body
  | _ => []

def varNamesOf : List Stmt → List String
  | [] => []
  | s :: rest => varNames s ++ varNamesOf rest

end

/-- The names that a statement declares in its block, with whether they can be set again. Functions
are left out. -/
def lexicalNames : Stmt → List (String × Bool)
  | .declare .let ds => (targetNamesOf ds).map (·, true)
  | .declare .const ds => (targetNamesOf ds).map (·, false)
  | .define _ (.func ..) => []
  | .define name _ => [(name, true)]
  | _ => []

/-- The name of a function that a statement declares, and the function. -/
def functionOf? : Stmt → Option (String × Expr)
  | .define name (.func info params body) => some (name, .func info params body)
  | _ => none

def isDistinct (names : List String) : Bool := decide names.Nodup

/-- No name of a block is declared twice. -/
def isBlockValid (body : List Stmt) : Bool :=
  let names := body.flatMap fun s =>
    (lexicalNames s).map (·.1) ++ (functionOf? s).toList.map (·.1)
  isDistinct names && (varNamesOf body).all (!names.contains ·)

/-- No name in the body of a function is declared twice, where functions count as variables. -/
def isBodyValid (params : List Expr) (body : List Stmt) : Bool :=
  let names := body.flatMap fun s => (lexicalNames s).map (·.1)
  let owned := targetNamesOf params
  let vars := varNamesOf body ++ body.flatMap fun s => (functionOf? s).toList.map (·.1)
  isDistinct names && isDistinct owned && (owned ++ vars).all (!names.contains ·)

/-- The cases of a switch share one block. -/
def caseStatements (cases : List Stmt) : List Stmt :=
  cases.flatMap fun
    | .case _ body => body
    | _ => []

/-- The exports of a module name variables that it has, and none twice. -/
def isModuleValid (p : Program) : Bool :=
  let own := p.body.flatMap fun s =>
    (lexicalNames s).map (·.1) ++ (functionOf? s).toList.map (·.1)
  let names := p.imports.map (·.as) ++ own
  let vars := varNamesOf p.body
  let exported := p.exports.filterMap fun
    | .variable name _ => some name
    | .handed name _ _ => some name
    | .everything _ => none
  isDistinct names && vars.all (!names.contains ·) && isDistinct exported &&
    p.exports.all fun
      | .variable _ name => names.contains name || vars.contains name
      | _ => true

end Stencil.Script
