import Stencil.Assoc
import Stencil.Number.Layout
/-!
JSON values. An object is a list of entries in their order, no key standing twice; a number is a
whole number of 64 bits or one of double precision.
-/
namespace Stencil

namespace Json

inductive Number where
  | int (value : Int)
  | float (value : Binary64)
  deriving DecidableEq, Repr

/-- Whole numbers stand as they are. Others are written with a point in place while the power of
their first digit lies between -5 and 15. -/
def Number.layout : NumberLayout where
  lowest := some (-5)
  highest := some 15
  wholeEnd := ".0"
  nan := "null"
  infinity := "null"
  signedZero := true

def Number.toText : Number → String
  | .int n => toString n
  | .float x => layout.write x

end Json

inductive Json where
  | null
  | bool (b : Bool)
  | number (n : Json.Number)
  | string (s : String)
  | array (items : List Json)
  | object (entries : List (String × Json))
  deriving Inhabited, Repr

namespace Json

def string? : Json → Option String
  | string s => some s
  | _ => none

end Json
end Stencil
