import Stencil.Script.Promise
/-!
What the functions that scripts are given have in common. Each takes the value that it is called on
and its arguments.
-/
namespace Stencil.Script.Library

abbrev Method := Datum → List Datum → Action Datum

/-- An argument; one that is left out is undefined. -/
def arg (args : List Datum) (i : Nat) : Datum := (args[i]?).getD .undefined

/-- The functions of a group by name. A name after `get` or `set` is that of a property that the
function reads or sets; a name in brackets is that of a symbol. -/
abbrev Methods := List (String × Method)

/-- The value that a method is called on, as a text. -/
def thisText (this : Datum) : Action String :=
  if this.isMissing then Action.typeError "null or undefined are forbidden" else Action.toText this

/-- An argument that has to be a function. -/
def callback (args : List Datum) (i : Nat) : Action Datum := do
  let f := arg args i
  if (← Action.heap).isCallable f then return f else Action.typeError "not a function"

/-- The value that a call gives, if it is what a method of that value is about. -/
def unboxed (this : Datum) (h : Heap) : Datum :=
  match this with
  | .object r => match h.shape r with
    | .boxed v => v
    | _ => this
  | v => v

end Stencil.Script.Library
