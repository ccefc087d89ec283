import Stencil.Markdown.Link
import Stencil.Text.Blank
/-!
The spans of a paragraph. Code, tags and links bind closer than emphasis: the text is cut into pieces
from left to right, a closing bracket makes a link of the pieces since its opening one, and runs of
emphasis marks are paired last.
-/
namespace Stencil.Markdown
open Text

/-- What the labels of a document mean. -/
structure Labels where
  targets : List (String × Target) := []
  /-- Keys of the labels of footnotes. -/
  footnotes : List String := []

/-- A run of marks of emphasis. -/
structure Run where
  mark : Char
  /-- Marks that are left. -/
  count : Nat
  /-- Marks that the run had. -/
  length : Nat
  opens : Bool
  closes : Bool

inductive Piece where
  | span (s : Span)
  | run (r : Run)
  /-- An opening bracket, with the text after it. An inactive one starts no link. -/
  | bracket (isImage active : Bool) (after : List Char)

/-! ### Emphasis -/

def Run.span (r : Run) : Span := .text (List.replicate r.count r.mark)

/-- A piece that has become text or was it before. -/
def Piece.toSpan : Piece → Span
  | span s => s
  | run r => r.span
  | bracket isImage _ _ => .text (if isImage then ['!', '['] else ['['])

/-- An opening run fits a closing one of the same mark. Where one of them could do both, their
lengths must not add up to a multiple of three, unless both are one. -/
def Run.fits (o c : Run) : Bool :=
  o.opens && o.mark == c.mark && (c.mark != '~' || o.length == c.length) &&
    (!(c.opens && c.closes) && !(o.opens && o.closes) ||
      (c.length + o.length) % 3 != 0 || c.length % 3 == 0)

/-- The run that fits, newest piece first: the pieces after it, the run, the pieces before it. -/
def opener? (c : Run) : List Piece → Option (List Piece × Run × List Piece)
  | [] => none
  | .run o :: rest =>
    if o.fits c then some ([], o, rest)
    else (opener? c rest).map fun (a, o, b) => (.run o :: a, o, b)
  | p :: rest => (opener? c rest).map fun (a, o, b) => (p :: a, o, b)

/-- Spans under a number of marks: as many pairs as there are within, and a single one around. -/
def emphasize (mark : Char) : (count : Nat) → List Span → List Span
  | 0, body => body
  | 1, body => [if mark == '~' then .strike body else .emphasis body]
  | n + 2, body => emphasize mark n [if mark == '~' then .strike body else .strong body]

/-- Pairs a run with the runs before it, which stand newest first. -/
def close : (fuel : Nat) → List Piece → Run → List Piece
  | 0, before, _ => before
  | fuel + 1, before, r =>
    if r.count = 0 then before
    else
      let found := if r.closes then opener? r before else none
      match found with
      | some (inner, o, rest) =>
        let n := min o.count r.count
        let body := inner.reverse.map Piece.toSpan
        let spans := (emphasize r.mark n body).reverse.map Piece.span
        let rest := if o.count = n then rest else .run { o with count := o.count - n } :: rest
        close fuel (spans ++ rest) { r with count := r.count - n }
      | none => (if r.opens then .run r else .span r.span) :: before

/-- Spans of pieces in order. -/
def pair (pieces : List Piece) : List Span :=
  let paired := pieces.foldl (fun before p => match p with
    | .run r => close (r.count + 1) before r
    | p => p :: before) []
  paired.reverse.map Piece.toSpan

/-- A run of marks after a character and before another one, if it can open or close. -/
def run? (mark : Char) (n : Nat) (before after : Option Char) : Option Run :=
  let wide := mark == '*' || (mark == '~' && 1 < n)
  let opens := after.any fun a =>
    !isBlank a && (before.all fun b =>
      (mark == '*' && !isPunctuation a) || (mark == '~' && 1 < n) ||
        (mark == '~' && b == '~' && !isPunctuation a) || isBlank b || isPunctuation b)
  let closes := before.any fun b =>
    !isBlank b && (after.all fun a =>
      (wide && !isPunctuation b) || (mark == '~' && b == '~') || isBlank a || isPunctuation a)
  if (opens || closes) && (mark != '~' || n ≤ 2) then some ⟨mark, n, n, opens, closes⟩ else none

/-! ### Pieces -/

/-- What has been cut so far: pieces, newest first, and plain characters after them, newest first. -/
structure Pieces where
  pieces : List Piece := []
  plain : List Char := []
  /-- The character before the place that is read. -/
  last : Option Char := none

namespace Pieces

def flush (p : Pieces) : Pieces :=
  if p.plain.isEmpty then p
  else { p with pieces := .span (.text p.plain.reverse) :: p.pieces, plain := [] }

def add (p : Pieces) (piece : Piece) (last : Option Char) : Pieces :=
  let p := p.flush
  { p with pieces := piece :: p.pieces, last }

def char (p : Pieces) (c : Char) : Pieces := { p with plain := c :: p.plain, last := some c }

def chars (p : Pieces) (cs : List Char) : Pieces := cs.foldl char p

/-- A line break: two blanks before it make it a hard one. -/
def lineBreak (p : Pieces) : Pieces :=
  let isGap := fun c : Char => isTagBlank c && c != '\n'
  let gap := (p.plain.takeWhile isGap).length
  { p with plain := p.plain.dropWhile isGap }.add
    (.span (if 2 ≤ gap then .hardBreak else .softBreak)) (some '\n')

end Pieces

/-- Code between runs of backquotes of one length; line breaks are blanks, and a blank at either end
is dropped if there is one at both and the code is not all blanks. -/
def codeText (s : List Char) : List Char :=
  let s := s.map fun c => if c == '\n' then ' ' else c
  if s.head? == some ' ' && s.getLast? == some ' ' && !s.all (· == ' ') then s.tail.dropLast else s

/-- The text up to a run of exactly `n` backquotes, and the text after that run. -/
def codeEnd? (n : Nat) : (fuel : Nat) → List Char → Option (List Char × List Char)
  | 0, _ => none
  | fuel + 1, s =>
    match s with
    | [] => none
    | '`' :: _ =>
      let m := (s.takeWhile (· == '`')).length
      if m == n then some ([], s.drop m)
      else (codeEnd? n fuel (s.drop m)).map fun (a, b) => (s.take m ++ a, b)
    | c :: r => (codeEnd? n fuel r).map fun (a, b) => (c :: a, b)

/-- An address between angle brackets, from after the first one: the address, whether it is one for
mail, and the text after it. -/
def address? (s : List Char) : Option (List Char × Bool × List Char) := do
  let (body, rest) ← cutChar? '>' s
  let scheme := body.takeWhile fun c => c.isAlphanum || c == '+' || c == '.' || c == '-'
  let isUri :=
    2 ≤ scheme.length && scheme.length ≤ 32 && scheme.head?.any Char.isAlpha &&
      (body.drop scheme.length).head? == some ':' &&
      body.all fun c => c != '<' && 32 < c.toNat && c.toNat != 127
  if isUri then return (body, false, rest)
  let (name, host) ← cutChar? '@' body
  let isNamePart := fun c : Char => c.isAlphanum || ".!#$%&'*+/=?^_`\x7b|\x7d~-".toList.contains c
  let isLabel := fun l : List Char =>
    !l.isEmpty && l.length ≤ 63 && l.all (fun c => c.isAlphanum || c == '-') &&
      l.head? != some '-' && l.getLast? != some '-'
  if !name.isEmpty && name.all isNamePart && (splitOn '.' host).all isLabel then
    return (body, true, rest)
  none

/-- The pieces since the newest opening bracket and those before it. -/
def openBracket? : List Piece →
    Option (List Piece × Bool × Bool × List Char × List Piece)
  | [] => none
  | .bracket isImage active after :: rest => some ([], isImage, active, after, rest)
  | p :: rest => (openBracket? rest).map fun (a, i, v, t, b) => (p :: a, i, v, t, b)

/-- Opening brackets that can no longer start a link, or none of any kind. -/
def deactivate (images : Bool) (p : Piece) : Piece :=
  match p with
  | .bracket isImage active after =>
    if images then .span p.toSpan else .bracket isImage (active && isImage) after
  | p => p

/-- What a closing bracket makes: a link or image with its target, or a footnote. -/
inductive Reference where
  | target (t : Target) (rest : List Char)
  | footnote (label : List Char)

/-- What follows a text in brackets, from after the closing one. A target in parentheses comes first,
then a label of its own, then the text itself as a label. -/
def reference (labels : Labels) (text rest : List Char) : Option Reference :=
  let named := fun (label rest : List Char) =>
    (labels.targets.lookup (labelKey label)).map fun t => Reference.target t rest
  let own := fun (rest : List Char) =>
    match label? (text ++ [']']) with
    | some (label, []) =>
      match label with
      | '^' :: name =>
        if labels.footnotes.contains (labelKey name) then some (Reference.footnote name)
        else named label rest
      | _ => named label rest
    | _ => none
  let inParens := if rest.head? == some '(' then inlineTarget? rest.tail else none
  match inParens with
  | some (t, rest) => some (.target t rest)
  | none =>
    match rest with
    | '[' :: ']' :: after => own after
    | '[' :: after =>
      match label? after with
      | some (label, after) => if label.head? == some '^' then own rest else named label after
      | none => own rest
    | _ => own rest

/-- A closing bracket: the pieces with what it makes, and the text to go on with. -/
def closeBracket (labels : Labels) (p : Pieces) (rest : List Char) : Pieces × List Char :=
  let q := p.flush
  match openBracket? q.pieces with
  | none => (p.char ']', rest)
  | some (inner, isImage, active, after, before) =>
    let plain := inner ++ .span (Piece.bracket isImage active after).toSpan :: before
    let literal := ({ q with pieces := plain }.char ']', rest)
    if !active then literal
    else
      match reference labels (after.take (after.length - rest.length - 1)) rest with
      | none => literal
      | some (.footnote label) =>
        let mark : List Piece := if isImage then [.span (.text ['!'])] else []
        let before := (mark ++ before).map (deactivate true)
        ({ q with pieces := .span (.footnote label) :: before, last := some ']' }, rest)
      | some (.target t rest) =>
        let body := pair inner.reverse
        if isImage then
          ({ q with pieces := .span (.image t.target t.title body) :: before, last := some ']' },
            rest)
        else
          let before := before.map (deactivate false)
          ({ q with pieces := .span (.link t.target t.title body) :: before, last := some ']' },
            rest)

/-- Cuts a text into pieces. -/
def pieces (labels : Labels) : (fuel : Nat) → Pieces → List Char → Pieces
  | 0, p, _ => p.flush
  | fuel + 1, p, s =>
    let go := pieces labels fuel
    match s with
    | [] => p.flush
    | '\\' :: '\n' :: r =>
      go (p.add (.span .hardBreak) (some '\n')) (r.dropWhile isSpaceChar)
    | '\\' :: c :: r => if isAsciiPunctuation c then go (p.char c) r else go (p.char '\\') (c :: r)
    | '`' :: _ =>
      let n := (s.takeWhile (· == '`')).length
      match codeEnd? n s.length (s.drop n) with
      | some (code, rest) => go (p.add (.span (.code (codeText code))) (some '`')) rest
      | none => go (p.chars (s.take n)) (s.drop n)
    | '<' :: r =>
      match address? r with
      | some (a, isMail, rest) =>
        let target := (if isMail then "mailto:".toList else []) ++ a
        go (p.add (.span (.link target [] [.text a])) (some '>')) rest
      | none =>
        match afterInline? s with
        | some rest =>
          go (p.add (.span (.html (s.take (s.length - rest.length)))) (some '>')) rest
        | none => go (p.char '<') r
    | '&' :: r =>
      match reference? r with
      | some (cs, rest) => go (p.add (.span (.text cs)) (some ';')) rest
      | none => go (p.char '&') r
    | '!' :: '[' :: r => go (p.add (.bracket true true r) (some '[')) r
    | '[' :: r => go (p.add (.bracket false true r) (some '[')) r
    | ']' :: r =>
      let (p, rest) := closeBracket labels p r
      go p rest
    | '\n' :: r => go p.lineBreak (r.dropWhile isSpaceChar)
    | c :: r =>
      if c == '*' || c == '_' || c == '~' then
        let n := (s.takeWhile (· == c)).length
        let rest := s.drop n
        match run? c n p.last rest.head? with
        | some run => go (p.add (.run run) (some c)) rest
        | none => go (p.chars (s.take n)) rest
      else go (p.char c) r
where
  isSpaceChar (c : Char) : Bool := c == ' ' || c == '\t'

/-- The spans of a text. Blanks at its ends do not count. -/
def spans (labels : Labels) (text : List Char) : List Span :=
  let text := text.dropWhile isTagBlank
  let text := (text.reverse.dropWhile isTagBlank).reverse
  pair (pieces labels (text.length + 1) {} text).pieces.reverse

end Stencil.Markdown
