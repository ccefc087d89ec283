import Stencil.Text.Search
/-!
Tags and other pieces of HTML as they are known in a text in Markdown. A reader takes the text from
an opening angle bracket on and gives the text after the piece.
-/
namespace Stencil.Markdown
open Text

def isTagBlank (c : Char) : Bool :=
  c == ' ' || c == '\t' || c == '\n' || c == '\r' || c == '\x0b' || c == '\x0c'

def isTagNameChar (c : Char) : Bool := c.isAlphanum || c == '-'

def isAttributeStart (c : Char) : Bool := c.isAlpha || c == '_' || c == ':'

def isAttributeChar (c : Char) : Bool := isAttributeStart c || c.isDigit || c == '.' || c == '-'

def isUnquotedChar (c : Char) : Bool :=
  !isTagBlank c && c != '"' && c != '\'' && c != '=' && c != '<' && c != '>' && c != '`'

def skipBlanks (s : List Char) : List Char := s.dropWhile isTagBlank

/-- The text after a name, which starts with a letter. -/
def afterTagName? : List Char → Option (List Char)
  | c :: s => if c.isAlpha then some (s.dropWhile isTagNameChar) else none
  | [] => none

/-- The text after the value of an attribute. -/
def afterValue? : List Char → Option (List Char)
  | '"' :: s => (cutChar? '"' s).map (·.2)
  | '\'' :: s => (cutChar? '\'' s).map (·.2)
  | c :: s => if isUnquotedChar c then some (s.dropWhile isUnquotedChar) else none
  | [] => none

/-- The text after attributes, each with blanks before it, and the end of an opening tag. -/
def afterAttributes? : (fuel : Nat) → List Char → Option (List Char)
  | 0, _ => none
  | fuel + 1, s =>
    match skipBlanks s with
    | '>' :: r => some r
    | '/' :: '>' :: r => some r
    | c :: r =>
      if !isAttributeStart c || (skipBlanks s).length == s.length then none
      else
        let r := r.dropWhile isAttributeChar
        match skipBlanks r with
        | '=' :: v => do afterAttributes? fuel (← afterValue? (skipBlanks v))
        | _ => afterAttributes? fuel r
    | [] => none

/-- The text after an opening or closing tag. -/
def afterTag? : List Char → Option (List Char)
  | '<' :: '/' :: s => do
    match skipBlanks (← afterTagName? s) with
    | '>' :: r => some r
    | _ => none
  | '<' :: s => do afterAttributes? (s.length + 1) (← afterTagName? s)
  | _ => none

/-- The text after a comment, an instruction, a declaration or a section of character data. -/
def afterMarkup? (s : List Char) : Option (List Char) :=
  let upTo := fun (close s : List Char) => (cut? close s).map (·.2)
  match s with
  | '<' :: '!' :: '-' :: '-' :: '>' :: r => some r
  | '<' :: '!' :: '-' :: '-' :: '-' :: '>' :: r => some r
  | '<' :: '!' :: '-' :: '-' :: r => upTo "-->".toList r
  | '<' :: '?' :: r => upTo "?>".toList r
  | '<' :: '!' :: c :: r =>
    if c.isAlpha then upTo [('>')] r
    else (dropPrefix? "[CDATA[".toList (c :: r)).bind (upTo "]]>".toList)
  | _ => none

/-- The text after a piece of HTML between other text. -/
def afterInline? (s : List Char) : Option (List Char) := afterTag? s <|> afterMarkup? s

/-! ### Blocks -/

/-- Names of elements whose tags start a block that ends at a blank line. -/
def blockNames : List String :=
  ["address", "article", "aside", "base", "basefont", "blockquote", "body", "caption", "center",
    "col", "colgroup", "dd", "details", "dialog", "dir", "div", "dl", "dt", "fieldset",
    "figcaption", "figure", "footer", "form", "frame", "frameset", "h1", "h2", "h3", "h4", "h5",
    "h6", "head", "header", "hr", "html", "iframe", "legend", "li", "link", "main", "menu",
    "menuitem", "nav", "noframes", "ol", "optgroup", "option", "p", "param", "search", "section",
    "summary", "table", "tbody", "td", "tfoot", "th", "thead", "title", "tr", "track", "ul"]

/-- Names of elements whose blocks end with their closing tag. -/
def rawNames : List String := ["pre", "style", "script", "textarea"]

/-- Where a block of HTML ends: on the line that holds a text, or before a blank line. -/
inductive BlockEnd where
  | holding (text : List Char)
  | blank
  deriving DecidableEq, Repr

/-- The end of a block that the start of a line opens; such a block may follow a paragraph at once. -/
def strongBlock? : List Char → Option BlockEnd
  | '<' :: s =>
    let name := String.ofList (lowerAscii (s.takeWhile Char.isAlphanum))
    let after := s.dropWhile Char.isAlphanum
    if rawNames.contains name && after.head?.all (fun c => isTagBlank c || c == '>') then
      some (.holding ("</" ++ name ++ ">").toList)
    else if startsWith "!--".toList s then some (.holding "-->".toList)
    else if startsWith "?".toList s then some (.holding "?>".toList)
    else if startsWith "![CDATA[".toList s then some (.holding "]]>".toList)
    else if startsWith "!".toList s && (s.drop 1).head?.any Char.isAlpha then some (.holding ">".toList)
    else
      let t := if s.head? == some '/' then s.drop 1 else s
      let name := String.ofList (lowerAscii (t.takeWhile Char.isAlphanum))
      let after := t.dropWhile Char.isAlphanum
      if blockNames.contains name &&
          (after.head?.all (fun c => isTagBlank c || c == '>') || startsWith "/>".toList after) then
        some .blank
      else none
  | _ => none

/-- The line is a single tag, and nothing but blanks after it. -/
def isTagLine (s : List Char) : Bool :=
  let name := lowerAscii ((s.drop 1).takeWhile Char.isAlphanum)
  !rawNames.contains (String.ofList name) && (afterTag? s).any fun r => r.all isTagBlank

end Stencil.Markdown
