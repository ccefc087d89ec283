import Stencil.Proofs.Text.Bytes
/-!
Markup read by offsets. A reader keeps the place that it has come to as a number of bytes, gets the
next one by searches and by sums, and cuts the source there; it gives nothing if it cuts inside a
character or behind the end, or if a turn of a loop does not move on. No reader ever does, and what
it reads is what is read from the characters.
-/
namespace Stencil.Markup.Lexeme
open Text

/-! ### Readers by offset -/

section
variable (src : List Char)

/-- The text from an offset up to a closer of `width` bytes, or to the end, and what is behind it. -/
def bodyAt? (closer : List Char) (width start : Nat) : Option (String × Nat) := do
  let rest ← from? start src
  match find? closer rest with
  | some i =>
    let body ← between? start (start + i) src
    return (String.ofList body, start + i + width)
  | none => return (String.ofList rest, utf8Size src)

def commentAt? (pos : Nat) : Option (Lexeme × Nat) := do
  let (body, next) ← bodyAt? src "-->".toList 3 (pos + 4)
  return (comment body, next)

def directiveAt? (pos : Nat) : Option (Lexeme × Nat) := do
  let (body, next) ← bodyAt? src ">".toList 1 (pos + 2)
  let whole ← from? pos src
  return (directive (if startsWith "<?".toList whole then "?" ++ body else body), next)

def endTagAt? (pos : Nat) : Option (Lexeme × Nat) := do
  let start := pos + 2
  let rest ← from? start src
  match find? ">".toList rest with
  | some close =>
    let name ← between? start (start + close) src
    return (closing (String.ofList (lowerAscii (trim name))), start + close + 1)
  | none =>
    let whole ← from? pos src
    return (text (String.ofList whole), utf8Size src)

/-- Text up to the next `<`; a `<` that it starts with is skipped. -/
def textAt? (pos : Nat) : Option (Lexeme × Nat) := do
  let rest ← from? pos src
  let skip := (rest.head?.map Char.utf8Size).getD 0
  let behind ← from? skip rest
  let size := ((find? "<".toList behind).map (· + skip)).getD (utf8Size rest)
  let content ← upTo? size rest
  return (text (String.ofList content), pos + size)

/-- The value of an attribute at the start of a text, and its size. -/
def valueAt? (input : List Char) : Option (List Char × Nat) :=
  match input.head? with
  | some q =>
    if q = '"' ∨ q = '\'' then do
      let body ← from? 1 input
      match find? [q] body with
      | some size =>
        let value ← upTo? size body
        return (value, size + 2)
      | none => return (body, utf8Size input)
    else bare
  | none => bare
where
  bare : Option (List Char × Nat) := do
    let size := (firstWhere? endsBareValue input).getD (utf8Size input)
    let value ← upTo? size input
    return (value, size)

/-- The attribute at the start of a text, and its size. -/
def attributeAt? (input : List Char) : Option (Attribute × Nat) := do
  let first := (input.head?.map Char.utf8Size).getD 0
  let size := ((firstWhere? endsAttributeName input.tail).map (first + ·)).getD (utf8Size input)
  let name ← upTo? size input
  let name := String.ofList (lowerAscii name)
  let after ← from? size input
  let trimmed := trimStart after
  if startsWith "=".toList trimmed then do
    let cursor := size + (utf8Size after - utf8Size trimmed + 1)
    let rest ← from? cursor input
    let start := trimStart rest
    let (value, width) ← valueAt? start
    return (⟨name, some (String.ofList value)⟩, cursor + (utf8Size rest - utf8Size start) + width)
  else return (⟨name, none⟩, size)

/-- The offset behind the blanks at the start of a text that stands at `cursor`. -/
def skipBlank (cursor : Nat) (rest : List Char) : Nat :=
  cursor + (utf8Size rest - utf8Size (trimStart rest))

/-- The attributes of a start tag, whether the tag closes its element, and the offset behind the tag;
nothing of these if the tag is not ended. -/
def attributesAt? (read : List Attribute) (cursor : Nat) :
    Option (Option (List Attribute × Bool × Nat)) :=
  if cursor < utf8Size src then
    match from? cursor src with
    | none => none
    | some rest =>
      let trimmed := trimStart rest
      if trimmed.isEmpty then some none
      else if startsWith ">".toList trimmed then
        some (some (read, false, skipBlank cursor rest + 1))
      else if startsWith "/>".toList trimmed then
        some (some (read, true, skipBlank cursor rest + 2))
      else if startsWith "/".toList trimmed then
        if cursor < skipBlank cursor rest + 1 then attributesAt? read (skipBlank cursor rest + 1)
        else none
      else
        match attributeAt? trimmed with
        | none => none
        | some (a, size) =>
          if cursor < skipBlank cursor rest + size then
            attributesAt? (if read.any (·.name == a.name) then read else read ++ [a])
              (skipBlank cursor rest + size)
          else none
  else some none
termination_by utf8Size src - cursor

/-- The content of an element up to its end tag, and the offset behind that. -/
def contentAt? (name : List Char) (pos : Nat) : Option (String × Nat) := do
  let rest ← from? pos src
  let size := (findAnyCase? ('<' :: '/' :: name) rest).getD (utf8Size rest)
  let content ← upTo? size rest
  let close := pos + size
  if close < utf8Size src then
    let after ← from? close src
    return (String.ofList content,
      close + ((find? ">".toList after).map (· + 1)).getD (utf8Size after))
  else return (String.ofList content, close)

def startTagAt? (pos : Nat) : Option (Lexeme × Nat) := do
  let start := pos + 1
  let rest ← from? start src
  let size := (firstWhere? endsTagName rest).getD (utf8Size src - start)
  let name ← between? start (start + size) src
  match ← attributesAt? src [] (start + size) with
  | none =>
    let whole ← from? pos src
    return (text (String.ofList whole), utf8Size src)
  | some (attributes, closed, next) =>
    let e : Element := ⟨String.ofList (lowerAscii name), attributes⟩
    if closed || e.isVoid then return (leaf e, next)
    else if e.isVerbatim then do
      let (content, next) ← contentAt? src (lowerAscii name) next
      return (verbatim e content, next)
    else return (opening e, next)

/-- The lexeme at an offset, and the offset behind it. -/
def nextAt? (pos : Nat) : Option (Lexeme × Nat) := do
  let rest ← from? pos src
  if startsWith "<!--".toList rest then commentAt? src pos
  else if startsWith "</".toList rest then endTagAt? src pos
  else if startsWith "<!".toList rest || startsWith "<?".toList rest then directiveAt? src pos
  else if startsWith "<".toList rest then
    let behind ← from? 1 rest
    if behind.head?.any Char.isAlpha then startTagAt? src pos else textAt? src pos
  else textAt? src pos

/-- The lexemes of a source from an offset on. -/
def lexemesAt? (pos : Nat) : Option (List Lexeme) :=
  if pos < utf8Size src then
    match nextAt? src pos with
    | none => none
    | some (x, next) => if pos < next then (lexemesAt? next).map (x :: ·) else none
  else some []
termination_by utf8Size src - pos

end

/-! ### What the readers find -/

/-- Reading has succeeded, and come to where the rest stands. -/
def Lands {α : Type} (src : List Char) (read : Option (α × Nat)) (r : α × List Char) : Prop :=
  ∃ next, read = some (r.1, next) ∧ At src next r.2

section
variable {src s : List Char} {pos : Nat}

theorem append_takeUntil (ends : Char → Bool) (s : List Char) :
    (takeUntil ends s).1 ++ (takeUntil ends s).2 = s := List.takeWhile_append_dropWhile

theorem getD_firstWhere?_eq (ends : Char → Bool) (s : List Char) :
    (firstWhere? ends s).getD (utf8Size s) = utf8Size (takeUntil ends s).1 :=
  getD_firstWhere? ends s

theorem upTo?_takeUntil (ends : Char → Bool) (s : List Char) :
    upTo? (utf8Size (takeUntil ends s).1) s = some (takeUntil ends s).1 := by
  have cut := upTo?_append (takeUntil ends s).1 (takeUntil ends s).2
  rwa [append_takeUntil] at cut

theorem at_takeUntil (ends : Char → Bool) (s : List Char) :
    At s (utf8Size (takeUntil ends s).1) (takeUntil ends s).2 := by
  have there := at_append (takeUntil ends s).1 (takeUntil ends s).2
  rwa [append_takeUntil] at there

theorem bodyAt?_lands {q : Char} {p : List Char} (ascii : ∀ c ∈ q :: p, IsAscii c) {start : Nat}
    (here : At src start s) :
    Lands src (bodyAt? src (q :: p) (utf8Size (q :: p)) start) (readBody (q :: p) s) := by
  rw [bodyAt?, readBody, here.from?]
  simp only [Option.bind_eq_bind, Option.bind_some, find?, offset?_utf8 ascii]
  cases found : cut? (q :: p) s with
  | none => exact ⟨_, rfl, at_end src⟩
  | some r =>
    obtain ⟨body, rest⟩ := r
    rw [eq_append_of_cut? found, List.append_assoc] at here
    simp only [Option.map_some, here.between?, Option.bind_some]
    exact ⟨_, rfl, here.move.move⟩

theorem commentAt?_lands (here : At src pos ('<' :: '!' :: '-' :: '-' :: s)) :
    Lands src (commentAt? src pos)
      (comment (readBody "-->".toList s).1, (readBody "-->".toList s).2) := by
  have body : At src (pos + 4) s := here.move (a := ['<', '!', '-', '-'])
  obtain ⟨next, read, there⟩ := bodyAt?_lands (q := '-') (p := ['-', '>']) (by simp [IsAscii]) body
  have read' : bodyAt? src "-->".toList 3 (pos + 4) = some ((readBody "-->".toList s).1, next) :=
    read
  refine ⟨next, ?_, there⟩
  rw [commentAt?, read']
  rfl

theorem directiveAt?_lands {c : Char} (here : At src pos ('<' :: c :: s)) (mark : c = '!' ∨ c = '?') :
    Lands src (directiveAt? src pos)
      (directive (if c = '?' then "?" ++ (readBody ['>'] s).1 else (readBody ['>'] s).1),
        (readBody ['>'] s).2) := by
  have size : utf8Size ['<', c] = 2 := by rcases mark with rfl | rfl <;> rfl
  have body : At src (pos + 2) s := size ▸ here.move (a := ['<', c])
  obtain ⟨next, read, there⟩ := bodyAt?_lands (q := '>') (p := []) (by simp [IsAscii]) body
  refine ⟨next, ?_, there⟩
  have read' : bodyAt? src ">".toList 1 (pos + 2) = some ((readBody ['>'] s).1, next) := read
  rw [directiveAt?, read', here.from?]
  rcases mark with rfl | rfl
  · rfl
  · rfl

theorem endTagAt?_lands (here : At src pos ('<' :: '/' :: s)) :
    Lands src (endTagAt? src pos) (next '<' ('/' :: s)) := by
  have name : At src (pos + 2) s := here.move (a := ['<', '/'])
  have found : find? ">".toList s = (cutChar? '>' s).map fun r => utf8Size r.1 :=
    find?_singleton (by decide) s
  rw [endTagAt?, name.from?]
  simp only [Option.bind_eq_bind, Option.bind_some, found]
  rw [next, if_neg (by simp)]
  cases cut : cutChar? '>' s with
  | none =>
    simp only [Option.map_none, here.from?, Option.bind_some]
    exact ⟨_, rfl, at_end src⟩
  | some r =>
    obtain ⟨body, rest⟩ := r
    rw [eq_append_of_cutChar? cut] at name
    simp only [Option.map_some, name.between?, Option.bind_some]
    exact ⟨_, rfl, name.move.move (a := ['>'])⟩

theorem textAt?_lands {c : Char} (here : At src pos (c :: s)) :
    Lands src (textAt? src pos) (readText c s) := by
  have skip : from? c.utf8Size (c :: s) = some s := by simpa using (at_append [c] s).from?
  have found : find? "<".toList s = firstWhere? (· == '<') s :=
    find?_singleton_eq_firstWhere? (by decide) s
  have size : ((firstWhere? (· == '<') s).map (· + c.utf8Size)).getD (utf8Size (c :: s)) =
      utf8Size (c :: (takeUntil (· == '<') s).1) := by
    rw [utf8Size_cons, utf8Size_cons, ← getD_firstWhere?_eq]
    cases firstWhere? (· == '<') s with
    | none => rfl
    | some i => exact Nat.add_comm ..
  have cut : c :: s = (c :: (takeUntil (· == '<') s).1) ++ (takeUntil (· == '<') s).2 := by
    rw [List.cons_append, append_takeUntil]
  rw [textAt?, here.from?]
  simp only [Option.bind_eq_bind, Option.bind_some, List.head?_cons, Option.map_some,
    Option.getD_some, skip, found, size]
  rw [cut] at here ⊢
  rw [upTo?_append]
  exact ⟨_, rfl, here.move⟩

/-! ### Attributes -/

theorem valueAt?_lands (s : List Char) : Lands s (valueAt? s) (attributeValue s) := by
  have bare : Lands s (valueAt?.bare s) (takeUntil endsBareValue s) := by
    rw [valueAt?.bare, getD_firstWhere?_eq]
    simp only [upTo?_takeUntil]
    exact ⟨_, rfl, at_takeUntil _ _⟩
  cases s with
  | nil => exact bare
  | cons q s =>
    rw [valueAt?, attributeValue, List.head?_cons]
    dsimp only
    split
    · next quote =>
      have ascii : IsAscii q := by rcases quote with rfl | rfl <;> decide
      have one : utf8Size [q] = 1 := by rcases quote with rfl | rfl <;> rfl
      have body : At (q :: s) 1 s := one ▸ at_append [q] s
      rw [body.from?]
      simp only [Option.bind_eq_bind, Option.bind_some, find?_singleton ascii]
      cases cut : cutChar? q s with
      | none => exact ⟨_, rfl, at_end _⟩
      | some r =>
        obtain ⟨value, rest⟩ := r
        have text := eq_append_of_cutChar? cut
        have within : upTo? (utf8Size value) s = some value := by rw [text, upTo?_append]
        simp only [Option.map_some, within, Option.bind_some]
        rw [text] at body ⊢
        have behind : At (q :: (value ++ q :: rest)) (1 + utf8Size value + utf8Size [q]) rest :=
          body.move.move (a := [q])
        exact ⟨_, rfl, by rwa [one, Nat.add_right_comm, Nat.add_comm] at behind⟩
    · exact bare

theorem at_trimStart (s : List Char) : At s (utf8Size s - utf8Size (trimStart s)) (trimStart s) := by
  have cut : s.takeWhile isBlank ++ trimStart s = s := List.takeWhile_append_dropWhile
  have size : utf8Size s = utf8Size (s.takeWhile isBlank) + utf8Size (trimStart s) := by
    rw [← utf8Size_append, cut]
  have there := at_append (s.takeWhile isBlank) (trimStart s)
  rwa [cut, ← Nat.sub_eq_of_eq_add size] at there

theorem attributeAt?_lands (c : Char) (s : List Char) :
    Lands (c :: s) (attributeAt? (c :: s)) (readAttribute c s) := by
  have size : ((firstWhere? endsAttributeName s).map (c.utf8Size + ·)).getD (utf8Size (c :: s)) =
      utf8Size (c :: (takeUntil endsAttributeName s).1) := by
    rw [utf8Size_cons, utf8Size_cons, ← getD_firstWhere?_eq]
    cases firstWhere? endsAttributeName s with
    | none => rfl
    | some i => rfl
  have cut : c :: s =
      (c :: (takeUntil endsAttributeName s).1) ++ (takeUntil endsAttributeName s).2 := by
    rw [List.cons_append, append_takeUntil]
  have name := upTo?_append (c :: (takeUntil endsAttributeName s).1)
    (takeUntil endsAttributeName s).2
  have behind := at_append (c :: (takeUntil endsAttributeName s).1)
    (takeUntil endsAttributeName s).2
  rw [← cut] at name behind
  rw [attributeAt?, readAttribute]
  simp only [List.head?_cons, Option.map_some, Option.getD_some, List.tail_cons, size, name,
    Option.bind_eq_bind, Option.bind_some, behind.from?]
  generalize (takeUntil endsAttributeName s).2 = after at behind
  have trimmed := at_trimStart after
  split
  · next equals =>
    obtain ⟨v, equals⟩ := Option.isSome_iff_exists.mp equals
    have text : trimStart after = '=' :: v := eq_append_of_dropPrefix? equals
    have start := behind.trans trimmed
    rw [text] at start
    have value := start.move (a := ['='])
    obtain ⟨width, read, there⟩ := valueAt?_lands (trimStart v)
    rw [text]
    rw [show (utf8Size after - utf8Size ('=' :: v) + 1) =
      utf8Size after - utf8Size ('=' :: v) + utf8Size ['='] from rfl, ← Nat.add_assoc]
    simp only [value.from?, Option.bind_some, read]
    exact ⟨_, rfl, (value.trans (at_trimStart v)).trans there⟩
  · next other =>
    have plain : ∀ v, trimStart after ≠ '=' :: v := by
      intro v text
      refine other ?_
      rw [text]
      rfl
    split
    · next v text => exact absurd text (plain v)
    · exact ⟨_, rfl, behind⟩

theorem at_skipBlank {cursor : Nat} (here : At src cursor s) :
    At src (skipBlank cursor s) (trimStart s) := here.trans (at_trimStart s)

theorem startsWith_singleton (d c : Char) (s : List Char) :
    startsWith [d] (c :: s) = decide (d = c) := by
  rw [startsWith_cons, startsWith, dropPrefix?, Option.isSome_some, Bool.and_true]

theorem attributesAt?_eq {cursor : Nat} (read : List Attribute) (here : At src cursor s) {c : Char}
    {rest : List Char} (start : trimStart s = c :: rest) :
    attributesAt? src read cursor =
      if c = '>' then some (some (read, false, skipBlank cursor s + 1))
      else if startsWith ['/', '>'] (c :: rest) then
        some (some (read, true, skipBlank cursor s + 2))
      else if c = '/' then attributesAt? src read (skipBlank cursor s + 1)
      else (attributeAt? (c :: rest)).bind fun (a, size) =>
        if cursor < skipBlank cursor s + size then
          attributesAt? src (if read.any (·.name == a.name) then read else read ++ [a])
            (skipBlank cursor s + size)
        else none := by
  have filled : s ≠ [] := by
    rintro rfl
    cases start
  have onward : cursor < skipBlank cursor s + 1 := Nat.lt_succ_of_le (Nat.le_add_right ..)
  have first : ∀ d : Char, startsWith [d] (c :: rest) = decide (c = d) := fun d => by
    rw [startsWith_singleton, decide_eq_decide.mpr eq_comm]
  rw [attributesAt?, if_pos (here.lt_size filled), here.from?]
  dsimp only
  rw [start, show ">".toList = ['>'] from rfl, show "/>".toList = ['/', '>'] from rfl,
    show "/".toList = ['/'] from rfl, first, first, if_pos onward]
  simp only [List.isEmpty_cons, Bool.false_eq_true, if_false, decide_eq_true_eq]
  cases attributeAt? (c :: rest) with
  | none => rfl
  | some r => rfl

theorem attributesAt?_lands {cursor : Nat} (read : List Attribute) (here : At src cursor s) :
    match readAttributes read s with
    | none => attributesAt? src read cursor = some none
    | some (as, closed, rest) =>
      ∃ next, attributesAt? src read cursor = some (some (as, closed, next)) ∧ At src next rest := by
  have ahead := at_skipBlank here
  fun_induction readAttributes read s generalizing cursor with
  | case1 read s none =>
    rw [attributesAt?, here.from?]
    simp only [none, List.isEmpty_nil, if_true, ite_self]
  | case2 read s rest close =>
    rw [close] at ahead
    rw [attributesAt?_eq read here close, if_pos rfl]
    exact ⟨_, rfl, ahead.move (a := ['>'])⟩
  | case3 read s rest close =>
    rw [close] at ahead
    rw [attributesAt?_eq read here close, if_neg (by decide), if_pos rfl]
    exact ⟨_, rfl, ahead.move (a := ['/', '>'])⟩
  | case4 read s rest apart slash ih =>
    rw [slash] at ahead
    have behind : At src (skipBlank cursor s + 1) rest := ahead.move (a := ['/'])
    have notClose : startsWith ['/', '>'] ('/' :: rest) = false := by
      cases rest with
      | nil => rfl
      | cons d rest =>
        rw [startsWith_cons, startsWith_of_ne, Bool.and_false]
        rintro rfl
        exact apart rest rfl
    rw [attributesAt?_eq read here slash, if_neg (by decide), notClose, if_neg (by decide),
      if_pos rfl]
    exact ih behind (at_skipBlank behind)
  | case5 read s c rest close empty slash text r =>
    rename_i ih
    rw [text] at ahead
    obtain ⟨size, got, there⟩ := attributeAt?_lands c rest
    have behind := ahead.trans there
    have onward : cursor < skipBlank cursor s + size := by
      refine here.lt behind ?_
      have shorter := length_readAttribute_le c rest
      have blanks := length_trimStart_le s
      rw [text, List.length_cons] at blanks
      omega
    have notEmpty : startsWith ['/', '>'] (c :: rest) = false := startsWith_of_ne (Ne.symm slash) _ _
    rw [attributesAt?_eq read here text, if_neg close, notEmpty, if_neg Bool.false_ne_true,
      if_neg slash, got, Option.bind_some]
    dsimp only
    rw [if_pos onward]
    exact ih behind (at_skipBlank behind)

/-! ### Content up to an end tag -/

theorem isSome_dropEndTag? (name s : List Char) :
    (dropEndTag? name s).isSome = (dropPrefix? name (lowerAscii s)).isSome := by
  induction name generalizing s with
  | nil => rw [dropEndTag?, dropPrefix?]; rfl
  | cons n name ih =>
    cases s with
    | nil => rfl
    | cons c s =>
      rw [dropEndTag?, lowerAscii, List.map_cons, dropPrefix?, ← lowerAscii]
      by_cases same : c.toLower = n
      · rw [if_pos same, if_pos same.symm, ih]
      · rw [if_neg same, if_neg (Ne.symm same)]

/-- The search finds where the content ends. -/
theorem untilEndTag_eq {name : List Char} (ascii : ∀ c ∈ '<' :: name, IsAscii c)
    (small : ∀ c ∈ '<' :: name, c.isUpper = false) (s : List Char) :
    ∃ content after, s = content ++ after ∧
      (findAnyCase? ('<' :: name) s).getD (utf8Size s) = utf8Size content ∧
      untilEndTag ('<' :: name) s = (content, (after.dropWhile (· ≠ '>')).drop 1) := by
  rw [findAnyCase?_eq ascii small]
  induction s with
  | nil => exact ⟨[], [], rfl, rfl, rfl⟩
  | cons c s ih =>
    have same := isSome_dropEndTag? ('<' :: name) (c :: s)
    rw [untilEndTag]
    rw [lowerAscii, List.map_cons, ← lowerAscii] at same ⊢
    rw [cut?]
    cases found : dropEndTag? ('<' :: name) (c :: s) with
    | some rest =>
      rw [found] at same
      obtain ⟨rest', starts⟩ := Option.isSome_iff_exists.mp same.symm
      have open_ : c = '<' := by
        have lower := (List.cons.inj (eq_append_of_dropPrefix? starts)).1
        simpa [lower] using toLower_eq_angle c
      rw [starts]
      refine ⟨[], c :: s, rfl, rfl, ?_⟩
      rw [open_, List.dropWhile_cons_of_pos (by decide)]
    | none =>
      rw [found] at same
      obtain ⟨content, after, text, size, until_⟩ := ih
      have width : c.toLower.utf8Size = c.utf8Size := by
        simpa [lowerAscii] using utf8Size_lowerAscii [c]
      rw [Option.isNone_iff_eq_none.mp (Option.isSome_eq_false_iff.mp same.symm)]
      refine ⟨c :: content, after, by rw [text]; rfl, ?_, by rw [until_]⟩
      rw [utf8Size_cons, utf8Size_cons, ← size]
      cases cut? ('<' :: name) (lowerAscii s) with
      | none => rfl
      | some r => simp [width]

/-- What stands behind the next `>`, or the end. -/
theorem at_behind_close (s : List Char) :
    At s (((find? ">".toList s).map (· + 1)).getD (utf8Size s)) ((s.dropWhile (· ≠ '>')).drop 1) := by
  have found : find? ">".toList s = firstWhere? (· == '>') s :=
    find?_singleton_eq_firstWhere? (by decide) s
  rw [found]
  clear found
  induction s with
  | nil => exact at_zero []
  | cons c s ih =>
    by_cases close : c = '>'
    · subst close
      exact at_append ['>'] s
    · have onward := (at_append [c] s).trans ih
      have offset : (((firstWhere? (· == '>') (c :: s)).map (· + 1)).getD (utf8Size (c :: s))) =
          utf8Size [c] +
            ((firstWhere? (· == '>') s).map (· + 1)).getD (utf8Size s) := by
        rw [firstWhere?, if_neg (by simpa using close)]
        cases firstWhere? (· == '>') s with
        | none => simp
        | some i => simp [Nat.add_assoc]
      rw [offset, List.dropWhile_cons_of_pos (by simpa using close)]
      exact onward

theorem contentAt?_lands {name : List Char} (ascii : ∀ c ∈ name, IsAscii c)
    (small : ∀ c ∈ name, c.isUpper = false) (here : At src pos s) :
    Lands src (contentAt? src name pos)
      (String.ofList (untilEndTag ('<' :: '/' :: name) s).1,
        (untilEndTag ('<' :: '/' :: name) s).2) := by
  have ascii' : ∀ c ∈ '<' :: '/' :: name, IsAscii c := by simpa [IsAscii] using ascii
  have small' : ∀ c ∈ '<' :: '/' :: name, c.isUpper = false := by simpa using small
  obtain ⟨content, after, rfl, size, until_⟩ := untilEndTag_eq ascii' small' s
  have close := here.move
  rw [contentAt?, here.from?, until_]
  simp only [Option.bind_eq_bind, Option.bind_some, size, upTo?_append]
  split
  · simp only [close.from?, Option.bind_some]
    exact ⟨_, rfl, close.trans (at_behind_close after)⟩
  · next last =>
    refine ⟨_, rfl, ?_⟩
    have none : after = [] := by
      by_contra filled
      exact last (close.lt_size filled)
    rw [none] at close ⊢
    exact close

/-- The names of elements with such content are ASCII. -/
theorem isAscii_of_isVerbatim {e : Element} (verbatim : e.isVerbatim) :
    ∀ c ∈ e.name.toList, IsAscii c := by
  have each : ∀ n ∈ Element.verbatimNames, ∀ c ∈ n.toList, IsAscii c := by
    simp [Element.verbatimNames, IsAscii]
  exact each e.name (List.contains_iff_mem.mp verbatim)

theorem startTagAt?_lands (here : At src pos ('<' :: s)) :
    Lands src (startTagAt? src pos) ((startTag? s).getD (text (String.ofList ('<' :: s)), [])) := by
  have start : At src (pos + 1) s := here.move (a := ['<'])
  have size : (firstWhere? endsTagName s).getD (utf8Size src - (pos + 1)) =
      utf8Size (takeUntil endsTagName s).1 := by
    rw [← start.add_size, Nat.add_sub_cancel_left, getD_firstWhere?_eq]
  have name := start
  rw [← append_takeUntil endsTagName s] at name
  have read := attributesAt?_lands [] name.move
  rw [startTagAt?, startTag?, start.from?]
  simp only [Option.bind_eq_bind, Option.bind_some, size, name.between?]
  cases attributes : readAttributes [] (takeUntil endsTagName s).2 with
  | none =>
    rw [attributes] at read
    simp only [read, here.from?, Option.bind_some]
    exact ⟨_, rfl, at_end src⟩
  | some r =>
    obtain ⟨as, closed, rest⟩ := r
    rw [attributes] at read
    obtain ⟨place, read, there⟩ := read
    simp only [read, Option.bind_some]
    split
    · exact ⟨_, rfl, there⟩
    · split
      · next verbatim =>
        have ascii := isAscii_of_isVerbatim verbatim
        rw [String.toList_ofList] at ascii
        obtain ⟨place', content, behind⟩ :=
          contentAt?_lands ascii (small_lowerAscii (takeUntil endsTagName s).1) there
        rw [content]
        exact ⟨_, rfl, behind⟩
      · exact ⟨_, rfl, there⟩

/-! ### Lexemes -/

theorem nextAt?_eq {c : Char} (here : At src pos (c :: s)) : nextAt? src pos =
    if c = '<' then
      if startsWith ['!', '-', '-'] s then commentAt? src pos
      else if startsWith ['/'] s then endTagAt? src pos
      else if startsWith ['!'] s || startsWith ['?'] s then directiveAt? src pos
      else if s.head?.any Char.isAlpha then startTagAt? src pos else textAt? src pos
    else textAt? src pos := by
  have behind : c = '<' → from? 1 (c :: s) = some s := by
    rintro rfl
    exact (at_append ['<'] s).from?
  rw [nextAt?, here.from?]
  simp only [Option.bind_eq_bind, Option.bind_some]
  rw [show "<!--".toList = ['<', '!', '-', '-'] from rfl, show "</".toList = ['<', '/'] from rfl,
    show "<!".toList = ['<', '!'] from rfl, show "<?".toList = ['<', '?'] from rfl,
    show "<".toList = ['<'] from rfl, startsWith_cons, startsWith_cons, startsWith_cons,
    startsWith_cons, startsWith_cons]
  by_cases open_ : c = '<'
  · rw [if_pos open_, behind open_, decide_eq_true open_.symm]
    simp only [Bool.true_and, Option.bind_some]
    rfl
  · rw [if_neg open_, decide_eq_false (Ne.symm open_)]
    rfl

theorem nextAt?_lands {c : Char} (here : At src pos (c :: s)) :
    Lands src (nextAt? src pos) (next c s) := by
  have chosen := nextAt?_eq here
  rw [next.eq_def]
  by_cases open_ : c = '<'
  · subst open_
    rw [if_pos rfl] at chosen
    rw [if_neg (by simp)]
    split
    · rw [show nextAt? src pos = commentAt? src pos from chosen]
      exact commentAt?_lands here
    · rw [show nextAt? src pos = endTagAt? src pos from chosen]
      exact endTagAt?_lands here
    · next s apart =>
      have noComment : startsWith ['!', '-', '-'] ('!' :: s) = false := by
        rw [Bool.eq_false_iff]
        intro starts
        obtain ⟨t, starts⟩ := Option.isSome_iff_exists.mp starts
        exact apart t (List.cons.inj (eq_append_of_dropPrefix? starts)).2
      rw [noComment] at chosen
      rw [show nextAt? src pos = directiveAt? src pos from chosen]
      exact directiveAt?_lands here (.inl rfl)
    · rw [show nextAt? src pos = directiveAt? src pos from chosen]
      exact directiveAt?_lands here (.inr rfl)
    · next a t _ slash mark query =>
      rw [startsWith_of_ne (Ne.symm mark), startsWith_of_ne (Ne.symm slash),
        startsWith_of_ne (Ne.symm mark), startsWith_of_ne (Ne.symm query)] at chosen
      rw [show nextAt? src pos = if a.isAlpha then startTagAt? src pos else textAt? src pos
        from chosen]
      split
      · exact startTagAt?_lands here
      · exact textAt?_lands here
    · rw [show nextAt? src pos = textAt? src pos from chosen]
      exact textAt?_lands here
  · rw [chosen, if_neg open_, if_pos open_]
    exact textAt?_lands here

theorem lexemesAt?_eq (here : At src pos s) : lexemesAt? src pos = some (ofSource s) := by
  fun_induction ofSource s generalizing pos with
  | case1 =>
    rw [lexemesAt?, if_neg]
    rw [← here.add_size]
    exact Nat.lt_irrefl _
  | case2 c s r =>
    rename_i ih
    obtain ⟨place, read, there⟩ := nextAt?_lands here
    have onward := here.lt there (Nat.lt_succ_of_le (length_next_le c s))
    rw [lexemesAt?, if_pos (here.lt_size (List.cons_ne_nil c s)), read]
    dsimp only
    rw [if_pos onward, ih there]
    rfl

end

end Stencil.Markup.Lexeme
