import Stencil.Json.Basic
/-!
The text of a JSON value, without blanks. In strings, quotes, backslashes and control characters
are escaped; all other characters stand for themselves.
-/
namespace Stencil.Json

/-- A hexadecimal number of four digits. -/
def hex4 (n : Nat) : List Char :=
  let ds := Nat.toDigits 16 n
  List.replicate (4 - ds.length) '0' ++ ds

/-- A character inside a string. -/
def writeChar (c : Char) : List Char :=
  if c = '"' then ['\\', '"']
  else if c = '\\' then ['\\', '\\']
  else if c = '\n' then ['\\', 'n']
  else if c = '\r' then ['\\', 'r']
  else if c = '\t' then ['\\', 't']
  else if c = '\x08' then ['\\', 'b']
  else if c = '\x0c' then ['\\', 'f']
  else if c.toNat < 32 then '\\' :: 'u' :: hex4 c.toNat
  else [c]

def writeString (s : String) : List Char := '"' :: s.toList.flatMap writeChar ++ ['"']

/-- Texts with commas between them. -/
def commaList : List (List Char) → List Char
  | [] => []
  | [s] => s
  | s :: rest => s ++ ',' :: commaList rest

mutual

def writeChars : Json → List Char
  | null => "null".toList
  | bool b => (if b then "true" else "false").toList
  | number n => n.toText.toList
  | string s => writeString s
  | array items => '[' :: commaList (writeItems items) ++ [']']
  | object entries => '{' :: commaList (writeEntries entries) ++ ['}']

def writeItems : List Json → List (List Char)
  | [] => []
  | j :: rest => j.writeChars :: writeItems rest

def writeEntries : List (String × Json) → List (List Char)
  | [] => []
  | (k, j) :: rest => (writeString k ++ ':' :: j.writeChars) :: writeEntries rest

end

/-- The text of a value. -/
def write (j : Json) : String := String.ofList j.writeChars

end Stencil.Json
