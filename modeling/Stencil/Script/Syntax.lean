/-!
Programs of behavior scripts, as trees.
-/
namespace Stencil.Script

inductive BinaryOp where
  | add | sub | mul | div | rem | pow
  | shiftLeft | shiftRight | shiftRightUnsigned | bitAnd | bitOr | bitXor
  | less | greater | lessEq | greaterEq
  | equal | notEqual | same | notSame
  | isIn | isInstance
  deriving DecidableEq, Repr

inductive LogicalOp where
  | both
  | either
  /-- The second operand stands for a first one that is missing. -/
  | orElse
  deriving DecidableEq, Repr

inductive UnaryOp where
  | plus | minus | not | bitNot | typeOf | void | delete
  deriving DecidableEq, Repr

inductive DeclareKind where
  | var
  | «let»
  | const
  deriving DecidableEq, Repr

/-- What a function is, which decides how it is called. -/
inductive FuncKind where
  | plain
  | arrow
  | method
  | getter
  | setter
  | constructor
  /-- The constructor of a class that extends another one. -/
  | derivedConstructor
  deriving DecidableEq, Repr

/-- What is known of a function besides its parameters and its body. -/
structure FuncInfo where
  name : String := ""
  /-- The function knows itself by its name. -/
  isNamed : Bool := false
  kind : FuncKind := .plain
  isAsync : Bool := false
  isGenerator : Bool := false
  /-- The text that the function was written with. -/
  text : String := ""
  /-- The body mentions its list of arguments. -/
  usesArguments : Bool := false
  /-- The names that the body declares with `var`. -/
  vars : List String := []
  deriving Repr

/-- How a member of an object or a class comes to its value. -/
inductive MemberKind where
  | value
  | method
  | getter
  | setter
  | field
  deriving DecidableEq, Repr

mutual

/-- Expressions, and what stands in their lists. Patterns are written with the constructors of the
values that they take apart. -/
inductive Expr where
  /-- Nothing, where an expression may be left out. -/
  | hole
  | name (s : String)
  | number (x : Float)
  | text (s : String)
  | bool (b : Bool)
  | null
  | this
  /-- Texts around expressions. -/
  | template (texts : List String) (holes : List Expr)
  /-- A call with the texts and values of a template. A text with a wrong escape has no reading. -/
  | tagged (tag : Expr) (texts : List (Option String)) (raw : List String) (holes : List Expr)
  | pattern (body flags : String)
  | array (items : List Expr)
  | object (members : List Expr)
  | member (kind : MemberKind) (isStatic : Bool) (key value : Expr)
  /-- Code that runs when a class is made. -/
  | code (body : List Stmt)
  /-- All values of a list, or what is left of it. -/
  | spread (e : Expr)
  /-- A target with the value that stands for a missing one. -/
  | default (target value : Expr)
  | func (info : FuncInfo) (params : List Expr) (body : List Stmt)
  | classOf (name text : String) (parent : Expr) (members : List Expr)
  | dot (e : Expr) (name : String)
  | at (e key : Expr)
  /-- A member that belongs to a class, and that nothing else can use. -/
  | hidden (e : Expr) (name : String)
  | superAt (key : Expr)
  | superCall (args : List Expr)
  /-- Access that ends as a whole where one of its parts is missing. -/
  | chain (e : Expr)
  /-- A part of a chain that may be missing. -/
  | optional (e : Expr)
  | call (f : Expr) (args : List Expr)
  | make (f : Expr) (args : List Expr)
  | unary (op : UnaryOp) (e : Expr)
  /-- Counts up or down by one; gives the value before or after. -/
  | count (up before : Bool) (target : Expr)
  | binary (op : BinaryOp) (a b : Expr)
  | logical (op : LogicalOp) (a b : Expr)
  | cond (test a b : Expr)
  | assign (target value : Expr)
  | assignOp (op : BinaryOp) (target value : Expr)
  | assignLogical (op : LogicalOp) (target value : Expr)
  | comma (a b : Expr)
  | await (e : Expr)
  | yield (all : Bool) (e : Expr)
  | moduleInfo
  | newTarget

inductive Stmt where
  | empty
  | expr (e : Expr)
  /-- Declares targets; one with a value is an assignment. -/
  | declare (kind : DeclareKind) (ds : List Expr)
  /-- A function or a class that is declared by its name. -/
  | define (name : String) (e : Expr)
  | ret (e : Expr)
  | when (test : Expr) (yes no : Stmt)
  | loop (start : Stmt) (test update : Expr) (body : Stmt)
  | loopIn (head : Stmt) (e : Expr) (body : Stmt)
  | loopOf (isAsync : Bool) (head : Stmt) (e : Expr) (body : Stmt)
  | while (test : Expr) (body : Stmt)
  | doWhile (body : Stmt) (test : Expr)
  | leave (label : Option String)
  | continue (label : Option String)
  | throw (e : Expr)
  | attempt (body : List Stmt) (handled : Bool) (param : Expr) (handler finalizer : List Stmt)
  | switch (e : Expr) (cases : List Stmt)
  /-- A case; one without a test is taken if no other is. -/
  | case (test : Expr) (body : List Stmt)
  | block (body : List Stmt)
  | labeled (label : String) (body : Stmt)

end

instance : Inhabited Expr := ⟨.hole⟩
instance : Inhabited Stmt := ⟨.empty⟩

/-- What a module takes from another one. -/
inductive ImportedName where
  | all
  | one (name : String)
  deriving DecidableEq, Repr

structure Import where
  source : String
  imported : ImportedName
  as : String
  deriving Repr

/-- What a module gives to others. -/
inductive Export where
  /-- A variable of the module. -/
  | variable (exported localName : String)
  /-- Something that another module gives. -/
  | handed (exported source : String) (imported : ImportedName)
  /-- All that another module gives. -/
  | everything (source : String)
  deriving Repr

structure Program where
  /-- The modules that are named, in order. -/
  requests : List String
  imports : List Import
  exports : List Export
  body : List Stmt

/-- The variable that holds a default export without a name of its own. -/
def defaultVariable : String := "*default*"

end Stencil.Script
