import Stencil.Markdown.Line
import Stencil.Markdown.Link
import Stencil.Markdown.Span
import Stencil.Markdown.Table
/-!
The blocks of a text, read line by line. Open blocks stand in a stack, the innermost first. A line
first continues open blocks as far as its start allows; then it opens new blocks, or its rest goes to
the innermost open one.
-/
namespace Stencil.Markdown
open Text

/-- What marks an item: a bullet, or a number before a full stop or a parenthesis. -/
inductive Marker where
  | bullet (c : Char)
  | number (n : Nat) (close : Char)
  deriving DecidableEq, Repr

/-- Items of one list have marks of one kind. -/
def Marker.sameKind : Marker → Marker → Bool
  | bullet c, bullet d => c == d
  | number _ c, number _ d => c == d
  | _, _ => false

def Marker.start : Marker → Option Nat
  | bullet _ => none
  | number n _ => some n

inductive Container where
  | document
  | quote
  | list (marker : Marker)
  /-- An item whose text starts that many columns to the right. -/
  | item (indent : Nat)
  | footnote (label : List Char)

/-- A container that is open. -/
structure Frame where
  kind : Container
  /-- Its finished blocks, newest first. -/
  blocks : List Block := []
  /-- The finished items of a list, newest first. -/
  items : List (List Block) := []
  /-- Blank lines part the items of a list or the blocks of one. -/
  loose : Bool := false
  /-- A blank line is the last line so far. -/
  blankAfter : Bool := false

/-- A block of text that is open; lines stand newest first. -/
inductive Leaf where
  | paragraph (task : Option Bool) (lines : List (List Char))
  | fence (mark : Char) (length indent : Nat) (info : List Char) (lines : List (List Char))
  | indented (lines : List (List Char))
  | html (ends : BlockEnd) (lines : List (List Char))
  | table (columns : List Align) (head : List (List Char)) (rows : List (List (List Char)))

structure Outline where
  frames : List Frame := [{ kind := .document }]
  leaf : Option Leaf := none
  /-- Definitions, in their order. -/
  targets : List (String × Target) := []
  footnotes : List String := []

namespace Outline

/-! ### Closing blocks -/

/-- Adds a finished block to the innermost container. -/
def addBlock (o : Outline) (b : Block) : Outline :=
  match o.frames with
  | f :: rest => { o with frames := { f with blocks := b :: f.blocks } :: rest }
  | [] => o

def join (lines : List (List Char)) : List Char := lines.reverse.flatten

/-- Takes the definitions at the start of a paragraph. Gives the rest of it. -/
def takeDefinitions (o : Outline) (lines : List (List Char)) : Outline × List Char :=
  let text := ['\n'].intercalate lines.reverse
  let (ds, rest) := definitions text.length text
  ({ o with targets := o.targets ++ ds }, rest)

def closeLeaf (o : Outline) : Outline :=
  let leaf := o.leaf
  let o := { o with leaf := none }
  match leaf with
  | none => o
  | some (.paragraph task lines) =>
    let (o, text) := o.takeDefinitions lines
    if text.all isTagBlank then o else o.addBlock (.paragraph task text)
  | some (.fence _ _ _ info lines) => o.addBlock (.code (some info) (join lines))
  | some (.indented lines) =>
    o.addBlock (.code none (join (lines.dropWhile fun l => l.all isTagBlank)))
  | some (.html _ lines) => o.addBlock (.html (join lines))
  | some (.table columns head rows) => o.addBlock (.table columns head rows.reverse)

/-- Closes the innermost container and gives what it holds to the one around it. -/
def closeFrame (o : Outline) : Outline :=
  match o.frames with
  | f :: g :: rest =>
    let o := { o with frames := g :: rest }
    let body := f.blocks.reverse
    match f.kind with
    | .document => o
    | .quote => o.addBlock (.quote body)
    | .footnote label => o.addBlock (.footnote label body)
    | .list marker => o.addBlock (.list marker.start (!f.loose) f.items.reverse)
    | .item _ => { o with frames := { g with items := body :: g.items } :: rest }
  | _ => o

def closeFrames : Nat → Outline → Outline
  | 0, o => o
  | n + 1, o => closeFrames n o.closeFrame

/-- Closes the innermost containers until a number of them is left. -/
def keep (o : Outline) (n : Nat) : Outline := closeFrames (o.frames.length - n) o.closeLeaf

/-! ### Opening blocks -/

/-- The innermost container is about to get a block. After a blank line a list becomes loose when
that is a further block of an item, or a further item. -/
def beforeBlock (o : Outline) : Outline :=
  match o.frames with
  | f :: g :: rest =>
    match f.kind with
    | .item _ =>
      if f.blankAfter then { o with frames := f :: { g with loose := true } :: rest } else o
    | .list _ =>
      if f.blankAfter then { o with frames := { f with loose := true } :: g :: rest } else o
    | _ => o
  | _ => o

/-- A list can hold nothing but items. -/
def leaveList (o : Outline) : Outline :=
  match o.frames with
  | { kind := .list _, .. } :: _ => o.closeFrame
  | _ => o

def openFrame (o : Outline) (kind : Container) : Outline :=
  let o := o.beforeBlock
  { o with frames := { kind } :: o.frames }

def openLeaf (o : Outline) (leaf : Leaf) : Outline :=
  let o := o.leaveList.beforeBlock
  { o with leaf := some leaf }

/-- Opens an item, in the list around it if that is of its kind. -/
def openItem (o : Outline) (marker : Marker) (indent : Nat) : Outline :=
  let inList := match o.frames with
    | { kind := .list m, .. } :: _ => m.sameKind marker
    | _ => false
  let o := if inList then o else o.leaveList.openFrame (.list marker)
  o.openFrame (.item indent)

/-! ### Starts of blocks -/

/-- What the rest of a line can start. -/
inductive Start where
  | quote (rest : Line)
  | item (marker : Marker) (indent : Nat) (rest : Line)
  | footnote (label : List Char) (rest : Line)
  | fence (mark : Char) (length indent : Nat) (info : List Char)
  | heading (level : Nat) (text : List Char)
  | rule
  | html (ends : BlockEnd)
  | indented (rest : Line)

def trimBlanks (s : List Char) : List Char :=
  ((s.dropWhile isTagBlank).reverse.dropWhile isTagBlank).reverse

/-- Three or more of one mark, and blanks. -/
def isRule (s : List Char) : Bool :=
  let marks := s.filter fun c => !isSpace c
  3 ≤ marks.length && (marks.all (· == '-') || marks.all (· == '*') || marks.all (· == '_'))

/-- The text of a heading without the marks that close it. -/
def headingText (s : List Char) : List Char :=
  let s := trimBlanks s
  let r := s.reverse.dropWhile (· == '#')
  if r.isEmpty then []
  else if r.length < s.length && r.head?.any isSpace then (r.dropWhile isSpace).reverse else s

def heading? (s : List Char) : Option Start :=
  let n := (s.takeWhile (· == '#')).length
  let rest := s.drop n
  if 1 ≤ n && n ≤ 6 && rest.head?.all isSpace then some (.heading n (headingText rest)) else none

/-- The mark and length of a fence, and the words after it. Between backquotes there are no words
with a backquote. -/
def fence? (s : List Char) (indent : Nat) : Option Start :=
  match s with
  | c :: _ =>
    let n := (s.takeWhile (· == c)).length
    let info := s.drop n
    if (c == '`' || c == '~') && 3 ≤ n && (c == '~' || !info.contains '`') then
      some (.fence c n indent (unescaped (trimBlanks info)))
    else none
  | [] => none

/-- The mark of an item, and its length. -/
def marker? (s : List Char) : Option (Marker × Nat) :=
  match s with
  | c :: rest =>
    if c == '-' || c == '+' || c == '*' then
      (if rest.head?.all isSpace then some (.bullet c, 1) else none)
    else
      let ds := s.takeWhile Char.isDigit
      let after := s.drop ds.length
      match natOfDigits? 10 ds, after with
      | some n, d :: rest =>
        if ds.length ≤ 9 && (d == '.' || d == ')') && rest.head?.all isSpace then
          some (.number n d, ds.length + 1)
        else none
      | _, _ => none
  | [] => none

/-- An item. One that would interrupt a paragraph has text, and its number is one. -/
def item? (l : Line) (interrupts : Bool) : Option Start := do
  let indent := l.indent
  let l := l.dropIndent
  let (marker, n) ← marker? l.rest
  let after := l.dropChars n
  if interrupts && (after.isBlank || marker.start.any (· != 1)) then none
  let gap := after.indent
  if after.isBlank || 5 ≤ gap then
    return .item marker (indent + n + 1) after.dropColumn
  return .item marker (indent + n + gap) (after.dropColumns gap)

/-- A footnote: its label in brackets after a caret, and a colon. -/
def footnote? (l : Line) : Option Start :=
  let l := l.dropIndent
  match l.rest with
  | '[' :: '^' :: s => do
    let (label, rest) ← label? s
    if rest.head? != some ':' then none
    let rest := l.dropChars (label.length + 4)
    return .footnote label rest.dropIndent
  | _ => none

/-- What a line that is not blank starts. `paragraph` says that a paragraph is open, `continued` that
the line continues all containers of that paragraph. -/
def start? (l : Line) (paragraph continued : Bool) : Option Start :=
  let indent := l.indent
  if 4 ≤ indent then (if paragraph then none else some (.indented (l.dropColumns 4)))
  else
    let inner := l.dropIndent
    let s := inner.rest
    let html := fun () =>
      match strongBlock? s with
      | some e => some (Start.html e)
      | none => if !paragraph && isTagLine s then some (.html .blank) else none
    footnote? l
      <|> (if s.head? == some '>' then
            let r := inner.dropChars 1
            some (.quote (if r.rest.head?.any isSpace then r.dropColumn else r))
          else none)
      <|> heading? s
      <|> fence? s indent
      <|> html ()
      <|> (if isRule s then some .rule else none)
      <|> item? l (paragraph && continued)

/-- The level of the heading that a line under a paragraph makes of it. -/
def underline? (l : Line) : Option Nat :=
  let s := trimBlanks l.dropIndent.rest
  if 4 ≤ l.indent || s.isEmpty then none
  else if s.all (· == '=') then some 1
  else if s.all (· == '-') then some 2
  else none

/-- The box of a task at the start of an item, and the text after it. -/
def task? (s : List Char) : Option (Bool × List Char) :=
  match s with
  | '[' :: c :: ']' :: d :: rest =>
    if !isTagBlank d then none
    else if isTagBlank c then some (false, rest)
    else if c == 'x' || c == 'X' then some (true, rest)
    else none
  | _ => none

/-! ### Lines -/

/-- How many containers a line continues, outermost first, and the rest of the line. -/
def continued (hasLeaf : Bool) : List Frame → Line → Nat × Line
  | [], l => (0, l)
  | f :: inner, l =>
    let next := fun (l : Line) => let (n, l) := continued hasLeaf inner l; (n + 1, l)
    match f.kind with
    | .document => next l
    | .list _ => next l
    | .quote =>
      let s := l.dropIndent
      if l.indent < 4 && s.rest.head? == some '>' then
        let r := s.dropChars 1
        next (if r.rest.head?.any isSpace then r.dropColumn else r)
      else (0, l)
    | .item indent =>
      if l.isBlank then
        (if inner.isEmpty && f.blocks.isEmpty && !hasLeaf then (0, l) else next (l.dropColumns indent))
      else if indent ≤ l.indent then next (l.dropColumns indent)
      else (0, l)
    | .footnote _ =>
      if l.isBlank then next (l.dropColumns 4)
      else if 4 ≤ l.indent then next (l.dropColumns 4)
      else (0, l)

/-- Opens the blocks that a line starts, and gives its rest to the innermost one. -/
def openAll : (fuel : Nat) → (atItem : Bool) → Line → Outline → Outline
  | 0, _, _, o => o
  | fuel + 1, atItem, l, o =>
    if l.isBlank then o
    else
      match start? l false true with
      | some (.quote rest) => openAll fuel false rest (o.leaveList.openFrame .quote)
      | some (.item marker indent rest) => openAll fuel true rest (o.openItem marker indent)
      | some (.footnote label rest) =>
        let o := o.leaveList
        let o := match o.frames with
          | { kind := .footnote _, .. } :: _ => o.closeFrame
          | _ => o
        let o := { o with footnotes := labelKey label :: o.footnotes }
        openAll fuel false rest (o.openFrame (.footnote label))
      | some (.fence mark n indent info) => o.openLeaf (.fence mark n indent info [])
      | some (.heading n text) => o.leaveList.beforeBlock.addBlock (.heading n text)
      | some .rule => o.leaveList.beforeBlock.addBlock .rule
      | some (.html ends) =>
        let o := o.openLeaf (.html ends [l.wholeText])
        match ends with
        | .holding t => if contains t l.text then o.closeLeaf else o
        | .blank => o
      | some (.indented rest) => o.openLeaf (.indented [rest.wholeText])
      | none =>
        let text := l.dropIndent.rest
        match if atItem then task? text else none with
        | some (isDone, text) =>
          o.openLeaf (.paragraph (some isDone) [text.dropWhile isSpace])
        | none => o.openLeaf (.paragraph none [text])

/-- Blank lines count for the containers from the innermost one that the line continues outwards,
up to a quote or a footnote. -/
def noteBlank : List Frame → List Frame
  | [] => []
  | f :: rest =>
    match f.kind with
    | .list _ | .item _ => { f with blankAfter := true } :: noteBlank rest
    | _ => { f with blankAfter := true } :: rest

/-- A line that continues no block of text. -/
def openLine (o : Outline) (matched : Nat) (l : Line) : Outline :=
  if l.isBlank then
    let o := o.keep matched
    { o with frames := noteBlank o.frames }
  else
    let all := matched == o.frames.length
    let lazy := match o.leaf with
      | some (.paragraph task lines) =>
        if (start? l true all).isNone then
          some { o with leaf := some (.paragraph task (l.text :: lines)) }
        else none
      | _ => none
    lazy.getD (openAll (l.rest.length + 1) false l (o.keep matched))

/-- A line after the lines of an open paragraph, all of whose containers it continues. -/
def afterParagraph (o : Outline) (lines : List (List Char)) (l : Line) : Outline :=
  let table := match lines, columns? l.text with
    | [head], some columns =>
      if l.indent < 4 && 0 < bars head && headWidth head == columns.length then
        some (columns, row head) else none
    | _, _ => none
  match table, underline? l with
  | some (columns, head), _ => { o with leaf := some (.table columns head []) }
  | none, some level =>
    let (p, text) := o.takeDefinitions lines
    if text.all isTagBlank then openLine { p with leaf := none } o.frames.length l
    else { p with leaf := none }.addBlock (.heading level text)
  | none, none => openLine o o.frames.length l

/-- A row for so many columns. -/
def fitted (columns : Nat) (cells : List (List Char)) : List (List Char) :=
  (cells ++ List.replicate (columns - cells.length) []).take columns

/-- Takes one line. -/
def line (o : Outline) (l : Line) : Outline :=
  let n := o.frames.length
  let (matched, rest) := continued o.leaf.isSome o.frames.reverse l
  let o :=
    if matched < n then openLine o matched rest
    else
      match o.leaf with
      | some (.fence mark length indent info lines) =>
        let s := rest.dropIndent.rest
        let m := (s.takeWhile (· == mark)).length
        if rest.indent < 4 && length ≤ m && (s.drop m).all isSpace then o.closeLeaf
        else
          let kept := rest.dropColumns (min indent rest.indent)
          { o with leaf := some (.fence mark length indent info (kept.wholeText :: lines)) }
      | some (.html ends lines) =>
        let more := { o with leaf := some (.html ends (rest.wholeText :: lines)) }
        match ends with
        | .blank => if rest.isBlank then openLine o n rest else more
        | .holding t => if contains t rest.text then more.closeLeaf else more
      | some (.indented lines) =>
        if rest.isBlank then
          let o := { o with leaf := some (.indented ((rest.dropColumns 4).wholeText :: lines)) }
          { o with frames := noteBlank o.frames }
        else if 4 ≤ rest.indent then
          { o with leaf := some (.indented ((rest.dropColumns 4).wholeText :: lines)) }
        else openLine o n rest
      | some (.table columns head rows) =>
        if rest.isBlank || (start? rest true true).isSome then openLine o n rest
        else
          let r := fitted columns.length (row rest.text)
          { o with leaf := some (.table columns head (r :: rows)) }
      | some (.paragraph _ lines) =>
        if rest.isBlank then openLine o n rest else afterParagraph o lines rest
      | none => openLine o n rest
  if l.isBlank || rest.isBlank then o
  else { o with frames := o.frames.map fun f => { f with blankAfter := false } }

end Outline

/-- The blocks of a text and what its labels mean. -/
def outline (text : List Char) : List Block × Labels :=
  let o := (Line.ofText text).foldl Outline.line {}
  let o := o.keep 1
  (match o.frames with
    | f :: _ => f.blocks.reverse
    | [] => [], ⟨o.targets, o.footnotes⟩)

end Stencil.Markdown
