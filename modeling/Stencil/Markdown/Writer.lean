import Stencil.Markdown.Outline
/-!
Markdown as HTML. Blocks start on a line of their own; footnotes have numbers in the order in which
their labels are first met.
-/
namespace Stencil.Markdown

/-- What has been written. -/
structure Sheet where
  /-- The characters, last one first. -/
  written : List Char := []
  /-- Labels of footnotes in the order of their numbers. -/
  numbers : List (List Char) := []

namespace Sheet

def put (s : Sheet) (t : List Char) : Sheet := { s with written := t.reverseAux s.written }

def puts (s : Sheet) (t : String) : Sheet := s.put t.toList

/-- Starts a line, unless one has just started. -/
def fresh (s : Sheet) : Sheet := if s.written.head?.all (· == '\n') then s else s.puts "\n"

/-- The number of a footnote. -/
def number (s : Sheet) (label : List Char) : Nat × Sheet :=
  match s.numbers.idxOf? label with
  | some i => (i + 1, s)
  | none => (s.numbers.length + 1, { s with numbers := s.numbers ++ [label] })

end Sheet

/-- Text between tags. -/
def escapeBody (s : List Char) : List Char :=
  s.flatMap fun
    | '&' => "&amp;".toList
    | '<' => "&lt;".toList
    | '>' => "&gt;".toList
    | c => [c]

/-- Text in the value of an attribute. -/
def escapeValue (s : List Char) : List Char :=
  s.flatMap fun
    | '&' => "&amp;".toList
    | '<' => "&lt;".toList
    | '>' => "&gt;".toList
    | '"' => "&quot;".toList
    | '\'' => "&#x27;".toList
    | c => [c]

/-- Characters that stand for themselves in an address. -/
def isAddressChar (c : Char) : Bool :=
  c.isAlphanum || "!#$%()*+,-./:;=?@_~".toList.contains c

/-- An address in the value of an attribute; other characters are written by their bytes. -/
def escapeAddress (s : List Char) : List Char :=
  s.flatMap fun c =>
    if isAddressChar c then [c]
    else if c = '&' then "&amp;".toList
    else if c = '\'' then "&#x27;".toList
    else (String.singleton c).toUTF8.toList.flatMap fun b =>
      '%' :: [b / 16, b % 16].map fun d =>
        Char.ofNat (if d < 10 then 48 + d.toNat else 55 + d.toNat)

/-- A title, if there is one. -/
def titleText (t : List Char) : List Char :=
  if t.isEmpty then [] else "\" title=\"".toList ++ escapeValue t

mutual

/-- Text without marks, for the description of an image. -/
def Span.plain (s : Sheet) : Span → Sheet
  | .text t => s.put (escapeValue t)
  | .code t => s.put (escapeValue t)
  | .html t => s.put (escapeValue t)
  | .softBreak => s.puts " "
  | .hardBreak => s.puts " "
  | .emphasis body => plainAll s body
  | .strong body => plainAll s body
  | .strike body => plainAll s body
  | .link _ _ body => plainAll s body
  | .image _ _ body => plainAll s body
  | .footnote label =>
    let (n, s) := s.number label
    s.puts s!"[{n}]"

def plainAll (s : Sheet) : List Span → Sheet
  | [] => s
  | x :: rest => plainAll (x.plain s) rest

end

mutual

def Span.write (s : Sheet) : Span → Sheet
  | .text t => s.put (escapeBody t)
  | .code t => ((s.puts "<code>").put (escapeBody t)).puts "</code>"
  | .html t => s.put t
  | .softBreak => s.puts "\n"
  | .hardBreak => s.puts "<br />\n"
  | .emphasis body => (writeSpans (s.puts "<em>") body).puts "</em>"
  | .strong body => (writeSpans (s.puts "<strong>") body).puts "</strong>"
  | .strike body => (writeSpans (s.puts "<del>") body).puts "</del>"
  | .link target title body =>
    let s := (s.puts "<a href=\"").put (escapeAddress target ++ titleText title)
    (writeSpans (s.puts "\">") body).puts "</a>"
  | .image target title body =>
    let s := ((s.puts "<img src=\"").put (escapeAddress target)).puts "\" alt=\""
    ((plainAll s body).put (titleText title)).puts "\" />"
  | .footnote label =>
    let s := (s.puts "<sup class=\"footnote-reference\"><a href=\"#").put (escapeValue label)
    let (n, s) := s.number label
    s.puts s!"\">{n}</a></sup>"

def writeSpans (s : Sheet) : List Span → Sheet
  | [] => s
  | x :: rest => writeSpans (x.write s) rest

end

/-- The spans of a text in place. -/
def writeText (labels : Labels) (s : Sheet) (text : List Char) : Sheet :=
  writeSpans s (spans labels text)

def Align.style : Align → String
  | none => ">"
  | left => " style=\"text-align: left\">"
  | center => " style=\"text-align: center\">"
  | right => " style=\"text-align: right\">"

/-- The cells of a row. -/
def writeRow (labels : Labels) (name : String) (columns : List Align) (cells : List (List Char))
    (s : Sheet) : Sheet :=
  (columns.zip cells).foldl (fun s (a, c) =>
    (writeText labels (s.puts ("<" ++ name ++ a.style)) c).puts ("</" ++ name ++ ">")) s

/-- The class of code: the first word after its fence. -/
def codeOpening (info : Option (List Char)) : List Char :=
  let word := (info.getD []).takeWhile (· != ' ')
  if word.isEmpty then "<pre><code>".toList
  else "<pre><code class=\"language-".toList ++ escapeValue word ++ "\">".toList

mutual

/-- Writes a block; `tight` says that paragraphs are not marked. -/
def Block.write (labels : Labels) (tight : Bool) (s : Sheet) : Block → Sheet
  | .rule => s.fresh.puts "<hr />\n"
  | .heading level text =>
    (writeText labels (s.fresh.puts s!"<h{level}>") text).puts s!"</h{level}>\n"
  | .paragraph task text =>
    let s := if tight then s else s.fresh.puts "<p>"
    let s := match task with
      | some true => s.puts "<input disabled=\"\" type=\"checkbox\" checked=\"\"/>\n"
      | some false => s.puts "<input disabled=\"\" type=\"checkbox\"/>\n"
      | none => s
    let s := writeText labels s text
    if tight then s else s.puts "</p>\n"
  | .code info text =>
    ((s.fresh.put (codeOpening info)).put (escapeBody text)).puts "</code></pre>\n"
  | .html text => s.put text
  | .quote body => (writeBlocks labels false (s.fresh.puts "<blockquote>\n") body).puts "</blockquote>\n"
  | .list start tight items =>
    let (opening, closing) := match start with
      | some 1 => ("<ol>\n", "</ol>\n")
      | some n => (s!"<ol start=\"{n}\">\n", "</ol>\n")
      | none => ("<ul>\n", "</ul>\n")
    (writeItems labels tight (s.fresh.puts opening) items).puts closing
  | .table columns head rows =>
    let s := (writeRow labels "th" columns head (s.puts "<table><thead><tr>")).puts
      "</tr></thead><tbody>\n"
    let s := rows.foldl (fun s r => (writeRow labels "td" columns r (s.puts "<tr>")).puts "</tr>\n") s
    s.puts "</tbody></table>\n"
  | .footnote label body =>
    let s := (s.fresh.puts "<div class=\"footnote-definition\" id=\"").put (escapeValue label)
    let (n, s) := s.number label
    let s := s.puts s!"\"><sup class=\"footnote-definition-label\">{n}</sup>"
    (writeBlocks labels false s body).puts "</div>\n"

def writeBlocks (labels : Labels) (tight : Bool) (s : Sheet) : List Block → Sheet
  | [] => s
  | b :: rest => writeBlocks labels tight (b.write labels tight s) rest

def writeItems (labels : Labels) (tight : Bool) (s : Sheet) : List (List Block) → Sheet
  | [] => s
  | body :: rest =>
    let s := writeBlocks labels tight (s.fresh.puts "<li>") body
    writeItems labels tight (s.puts "</li>\n") rest

end

/-- The HTML of a text in Markdown. -/
def toHtml (source : String) : String :=
  let (blocks, labels) := outline source.toList
  String.ofList (writeBlocks labels false {} blocks).written.reverse

end Stencil.Markdown
