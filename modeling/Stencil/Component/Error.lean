import Stencil.Markup.Error
/-!
What can go wrong when a page is compiled, and what is logged on the way.
-/
namespace Stencil

inductive LogLevel where
  | error
  | warn
  | info
  | debug
  deriving DecidableEq, Repr

structure LogEntry where
  level : LogLevel
  message : String
  deriving DecidableEq, Repr

/-- How a behavior script fails. -/
inductive ScriptError where
  | engine
  /-- An exception that nothing caught, with its text. -/
  | exception (text : String)
  /-- The script did not end within so many milliseconds. -/
  | timeout (budget : Nat)
  | missingDefaultExport
  | malformed
  deriving DecidableEq, Repr

/-- A span of time: in seconds from one second on, else in milliseconds, and without zeros at the end
of a fraction. -/
def durationText (millis : Nat) : String :=
  if millis = 0 then "0ns"
  else if millis < 1000 then toString millis ++ "ms"
  else
    let rest := millis % 1000
    let digits := (toString (1000 + rest)).toList.tail
    let fraction := (digits.reverse.dropWhile (· == '0')).reverse
    toString (millis / 1000) ++
      (if fraction.isEmpty then "" else "." ++ String.ofList fraction) ++ "s"

def ScriptError.message : ScriptError → String
  | .engine => "Script engine error"
  | .exception text => "Uncaught exception: " ++ text
  | .timeout budget => "Script exceeded its " ++ durationText budget ++ " time budget"
  | .missingDefaultExport => "Default export is missing or not an object"
  | .malformed => "Script returned malformed data"

/-- Why a page does not compile. -/
inductive CompileError where
  | missingDefaultExport (template : String)
  | invalidValue (key : String)
  | script (template : String) (cause : ScriptError)
  | markup (context : String) (cause : Markup.Error)
  | recursionLimit (template page : String)
  deriving DecidableEq, Repr

def CompileError.message : CompileError → String
  | .missingDefaultExport t => "Behavior script of <" ++ t ++ "> has no default export object"
  | .invalidValue key =>
    "Value " ++ Text.quoted key ++
      " must be a string, markup, component or a list of those, found object"
  | .script t cause => "Behavior script of <" ++ t ++ "> failed: " ++ cause.message
  | .markup context cause => "Markup value in " ++ context ++ " is invalid: " ++ cause.message
  | .recursionLimit t page => "Expansion of <" ++ t ++ "> in " ++ page ++ " nests too deeply"

end Stencil
