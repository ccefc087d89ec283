import Stencil.Markup.Error
/-!
Names of custom elements. A custom name starts with a small ASCII letter, has a hyphen, and
besides holds small ASCII letters, digits, `-`, `.`, `_` and characters outside ASCII.
-/
namespace Stencil.Markup.Name

/-- Names with a hyphen that other vocabularies already use. -/
def reserved : List String :=
  ["annotation-xml", "color-profile", "font-face", "font-face-src", "font-face-uri",
    "font-face-format", "font-face-name", "missing-glyph"]

/-- The longest name, in bytes of its UTF-8 form. -/
def maxBytes : Nat := 256

def isReserved (name : String) : Bool := reserved.contains name

/-- A character that may follow the first letter of a custom name. -/
def isNameChar (c : Char) : Bool :=
  c.isLower || c.isDigit || c == '-' || c == '.' || c == '_' || 128 ≤ c.toNat

/-- The name follows the grammar of custom names. -/
def isWellFormed (name : String) : Bool :=
  match name.toList with
  | [] => false
  | c :: s =>
    name.utf8ByteSize ≤ maxBytes && c.isLower && s.contains '-' && s.all isNameChar

/-- An element of this name stands for a component. -/
def isCustom (name : String) : Bool := isWellFormed name && !isReserved name

/-- The name may be the id of a template. -/
def validate (id : String) : Except Error Unit :=
  if isReserved id then .error (.reservedName id)
  else if isWellFormed id then .ok ()
  else .error (.invalidTemplateId id)

end Stencil.Markup.Name
