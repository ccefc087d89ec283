/-!
White space, and text without it at the ends. The class is the Unicode property White_Space,
so a no-break space and a line separator count as blank.
-/
namespace Stencil.Text

/-- The characters with the property White_Space. -/
def isBlank (c : Char) : Bool :=
  let n := c.toNat
  (9 ≤ n && n ≤ 13) || n == 0x20 || n == 0x85 || n == 0xA0 || n == 0x1680 ||
    (0x2000 ≤ n && n ≤ 0x200A) || n == 0x2028 || n == 0x2029 || n == 0x202F ||
    n == 0x205F || n == 0x3000

/-- The text from its first character that is not blank. -/
def trimStart (s : List Char) : List Char := s.dropWhile isBlank

/-- The text up to its last character that is not blank. -/
def trimEnd (s : List Char) : List Char := (s.reverse.dropWhile isBlank).reverse

/-- The text between its first and its last character that is not blank. -/
def trim (s : List Char) : List Char := trimEnd (trimStart s)

/-- `trim` on strings. -/
def trimmed (s : String) : String := String.ofList (trim s.toList)

/-- A string of blanks alone; the empty string is one. -/
def isBlankText (s : String) : Bool := s.toList.all isBlank

theorem length_trimStart_le (s : List Char) : (trimStart s).length ≤ s.length :=
  (List.dropWhile_sublist isBlank).length_le

theorem trimStart_of_not_blank {c : Char} {s : List Char} (h : isBlank c = false) :
    trimStart (c :: s) = c :: s := by simp [trimStart, h]

end Stencil.Text
