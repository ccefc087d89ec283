import Stencil.Proofs.Markup.Scan
/-!
Text in the bytes of its UTF-8 form. Offsets count bytes. A text can be cut only where a character
begins or at its end, and a search for ASCII in the bytes finds such places alone.
-/
namespace Stencil.Text

/-- The bytes of a text. -/
def utf8 (s : List Char) : List UInt8 := s.flatMap String.utf8EncodeChar

theorem utf8_toList (s : String) : utf8 s.toList = s.toByteArray.data.toList := by
  obtain ⟨l, rfl⟩ := s.exists_eq_ofList
  rw [String.toList_ofList, String.toByteArray_ofList, List.utf8Encode, List.toList_data_toByteArray]
  rfl

theorem utf8_cons (c : Char) (s : List Char) : utf8 (c :: s) = String.utf8EncodeChar c ++ utf8 s :=
  List.flatMap_cons

theorem utf8_append (a b : List Char) : utf8 (a ++ b) = utf8 a ++ utf8 b := List.flatMap_append

theorem utf8Size_eq_sum (s : List Char) : utf8Size s = (s.map Char.utf8Size).sum := by
  rw [utf8Size, List.sum_eq_foldl, List.foldl_map]

@[simp] theorem utf8Size_nil : utf8Size [] = 0 := rfl

@[simp] theorem utf8Size_cons (c : Char) (s : List Char) :
    utf8Size (c :: s) = c.utf8Size + utf8Size s := by
  rw [utf8Size_eq_sum, utf8Size_eq_sum, List.map_cons, List.sum_cons]

@[simp] theorem utf8Size_append (a b : List Char) :
    utf8Size (a ++ b) = utf8Size a + utf8Size b := by
  rw [utf8Size_eq_sum, utf8Size_eq_sum, utf8Size_eq_sum, List.map_append, List.sum_append]

theorem length_utf8 (s : List Char) : (utf8 s).length = utf8Size s := by
  induction s with
  | nil => rfl
  | cons c s ih =>
    rw [utf8_cons, List.length_append, String.length_utf8EncodeChar, ih, utf8Size_cons]

theorem utf8Size_toList (s : String) : utf8Size s.toList = s.utf8ByteSize := by
  rw [← length_utf8, utf8_toList]
  rfl

/-! ### Cutting at an offset -/

/-- The text before and after an offset. No text is cut inside a character or behind its end. -/
def cutAt? : Nat → List Char → Option (List Char × List Char)
  | 0, s => some ([], s)
  | _ + 1, [] => none
  | n + 1, c :: s =>
    if c.utf8Size ≤ n + 1 then
      (cutAt? (n + 1 - c.utf8Size) s).map fun (before, after) => (c :: before, after)
    else none

theorem cutAt?_append (before after : List Char) :
    cutAt? (utf8Size before) (before ++ after) = some (before, after) := by
  induction before with
  | nil => rw [utf8Size_nil, cutAt?, List.nil_append]
  | cons c before ih =>
    have positive := c.utf8Size_pos
    obtain ⟨n, size⟩ := Nat.exists_eq_add_one.mpr positive
    have whole : utf8Size (c :: before) = n + utf8Size before + 1 := by
      rw [utf8Size_cons]
      omega
    rw [whole, List.cons_append, cutAt?, if_pos (by omega),
      show n + utf8Size before + 1 - c.utf8Size = utf8Size before by omega, ih]
    rfl

theorem cutAt?_eq_some {n : Nat} {s before after : List Char} :
    cutAt? n s = some (before, after) ↔ s = before ++ after ∧ n = utf8Size before := by
  refine ⟨fun cut => ?_, fun ⟨text, size⟩ => by rw [text, size, cutAt?_append]⟩
  fun_induction cutAt? n s generalizing before with
  | case1 s =>
    cases cut
    exact ⟨rfl, rfl⟩
  | case2 n => cases cut
  | case3 n c s fits ih =>
    obtain ⟨⟨x, y⟩, inner, same⟩ := Option.map_eq_some_iff.mp cut
    cases same
    obtain ⟨text, size⟩ := ih inner
    refine ⟨by rw [text]; rfl, ?_⟩
    rw [utf8Size_cons]
    omega
  | case4 n c s wide => cases cut

/-- A text is cut at an offset exactly when that is a valid position in it. -/
theorem isSome_cutAt? (s : String) (n : Nat) :
    (cutAt? n s.toList).isSome ↔ String.Pos.Raw.IsValid s ⟨n⟩ := by
  rw [String.Pos.Raw.isValid_iff_exists_append, Option.isSome_iff_exists]
  constructor
  · rintro ⟨⟨before, after⟩, cut⟩
    obtain ⟨text, size⟩ := cutAt?_eq_some.mp cut
    refine ⟨String.ofList before, String.ofList after, ?_, ?_⟩
    · rw [← String.ofList_append, ← text, String.ofList_toList]
    · rw [String.rawEndPos, ← utf8Size_toList, String.toList_ofList, size]
  · rintro ⟨before, after, rfl, size⟩
    refine ⟨(before.toList, after.toList), cutAt?_eq_some.mpr ⟨String.toList_append, ?_⟩⟩
    rw [utf8Size_toList]
    exact congrArg String.Pos.Raw.byteIdx size

/-- What follows an offset. -/
def from? (n : Nat) (s : List Char) : Option (List Char) := (cutAt? n s).map (·.2)

/-- What comes before an offset. -/
def upTo? (n : Nat) (s : List Char) : Option (List Char) := (cutAt? n s).map (·.1)

/-- What stands between two offsets. -/
def between? (m n : Nat) (s : List Char) : Option (List Char) := (upTo? n s).bind (from? m)

theorem isSome_from? (s : String) (n : Nat) :
    (from? n s.toList).isSome ↔ String.Pos.Raw.IsValid s ⟨n⟩ := by
  rw [from?, Option.isSome_map, isSome_cutAt?]

theorem isSome_upTo? (s : String) (n : Nat) :
    (upTo? n s.toList).isSome ↔ String.Pos.Raw.IsValid s ⟨n⟩ := by
  rw [upTo?, Option.isSome_map, isSome_cutAt?]

theorem cutAt?_append_of_le {n : Nat} {a : List Char} (le : n ≤ utf8Size a) (b : List Char) :
    cutAt? n (a ++ b) = (cutAt? n a).map fun (before, after) => (before, after ++ b) := by
  fun_induction cutAt? n a with
  | case1 a => rw [cutAt?]; rfl
  | case2 n => cases le
  | case3 n c a fits ih =>
    rw [utf8Size_cons] at le
    rw [List.cons_append, cutAt?, if_pos fits, ih (by omega), Option.map_map, Option.map_map]
    rfl
  | case4 n c a wide =>
    rw [List.cons_append, cutAt?, if_neg wide]
    rfl

/-- A text is cut between two offsets exactly when they are valid positions in order. -/
theorem isSome_between? (s : String) (m n : Nat) : (between? m n s.toList).isSome ↔
    m ≤ n ∧ String.Pos.Raw.IsValid s ⟨m⟩ ∧ String.Pos.Raw.IsValid s ⟨n⟩ := by
  rw [← isSome_from?, ← isSome_upTo? s n, between?]
  cases cut : upTo? n s.toList with
  | none => simp
  | some before =>
    obtain ⟨⟨x, after⟩, parts, same⟩ := Option.map_eq_some_iff.mp cut
    cases same
    obtain ⟨text, rfl⟩ := cutAt?_eq_some.mp parts
    rw [Option.bind_some, text, from?, from?, Option.isSome_map, Option.isSome_map]
    constructor
    · intro inner
      obtain ⟨⟨y, between⟩, inner'⟩ := Option.isSome_iff_exists.mp inner
      obtain ⟨rfl, rfl⟩ := cutAt?_eq_some.mp inner'
      have le : utf8Size y ≤ utf8Size (y ++ between) := by
        rw [utf8Size_append]
        exact Nat.le_add_right ..
      rw [cutAt?_append_of_le le, Option.isSome_map]
      exact ⟨le, inner, rfl⟩
    · rintro ⟨le, valid, -⟩
      rwa [cutAt?_append_of_le le, Option.isSome_map] at valid

/-- `rest` is what stands in a text from an offset on. -/
def At (s : List Char) (n : Nat) (rest : List Char) : Prop :=
  ∃ before, s = before ++ rest ∧ n = utf8Size before

section
variable {s rest a b : List Char} {n m : Nat}

theorem at_zero (s : List Char) : At s 0 s := ⟨[], rfl, rfl⟩

theorem at_end (s : List Char) : At s (utf8Size s) [] := ⟨s, (List.append_nil s).symm, rfl⟩

theorem At.from? (here : At s n rest) : from? n s = some rest := by
  obtain ⟨before, rfl, rfl⟩ := here
  rw [Text.from?, cutAt?_eq_some.mpr ⟨rfl, rfl⟩]
  rfl

theorem At.trans (here : At s n rest) (there : At rest m b) : At s (n + m) b := by
  obtain ⟨x, rfl, rfl⟩ := here
  obtain ⟨y, rfl, rfl⟩ := there
  exact ⟨x ++ y, (List.append_assoc ..).symm, (utf8Size_append ..).symm⟩

theorem at_append (a b : List Char) : At (a ++ b) (utf8Size a) b := ⟨a, rfl, rfl⟩

theorem At.move (here : At s n (a ++ b)) : At s (n + utf8Size a) b :=
  here.trans (at_append a b)

theorem At.between? (here : At s n (a ++ b)) : between? n (n + utf8Size a) s = some a := by
  obtain ⟨before, rfl, rfl⟩ := here
  rw [Text.between?, upTo?, ← utf8Size_append, ← List.append_assoc, cutAt?_append]
  exact At.from? ⟨before, rfl, rfl⟩

theorem upTo?_append (a b : List Char) : upTo? (utf8Size a) (a ++ b) = some a := by
  rw [upTo?, cutAt?_eq_some.mpr ⟨rfl, rfl⟩]
  rfl

theorem At.add_size (here : At s n rest) : n + utf8Size rest = utf8Size s := by
  obtain ⟨before, rfl, rfl⟩ := here
  exact (utf8Size_append ..).symm

/-- What is shorter stands further on. -/
theorem At.lt (here : At s n a) (there : At s m b) (shorter : b.length < a.length) : n < m := by
  obtain ⟨x, rfl, rfl⟩ := here
  obtain ⟨y, same, rfl⟩ := there
  -- Of the two texts before, the one before `b` is longer.
  rcases List.append_eq_append_iff.mp same with ⟨z, rfl, between⟩ | ⟨z, rfl, between⟩
  · cases z with
    | nil =>
      rw [between] at shorter
      exact absurd shorter (Nat.lt_irrefl _)
    | cons c z =>
      have positive := c.utf8Size_pos
      rw [utf8Size_append, utf8Size_cons]
      omega
  · rw [between, List.length_append] at shorter
    omega

theorem At.lt_size (here : At s n rest) (filled : rest ≠ []) : n < utf8Size s :=
  here.lt (at_end s) (List.length_pos_of_ne_nil filled)

end

/-! ### Searching for bytes -/

/-- The offset of the first place of a pattern in bytes. -/
def offset? (pattern : List UInt8) : List UInt8 → Option Nat
  | [] => if pattern.isEmpty then some 0 else none
  | b :: bs => if pattern.isPrefixOf (b :: bs) then some 0 else (offset? pattern bs).map (· + 1)

/-- The character is one byte, which is the byte of no other. -/
def IsAscii (c : Char) : Prop := c.toNat < 128

instance (c : Char) : Decidable (IsAscii c) := inferInstanceAs (Decidable (_ < _))

theorem utf8EncodeChar_of_isAscii {c : Char} (ascii : IsAscii c) :
    String.utf8EncodeChar c = [UInt8.ofNat c.toNat] := by
  rw [String.utf8EncodeChar]
  exact if_pos (Nat.le_of_lt_succ ascii)

theorem utf8_cons_of_isAscii {q : Char} (ascii : IsAscii q) (p : List Char) :
    utf8 (q :: p) = UInt8.ofNat q.toNat :: utf8 p := by
  rw [utf8_cons, utf8EncodeChar_of_isAscii ascii, List.singleton_append]

theorem toNat_ofNat_lt {q : Char} (ascii : IsAscii q) : (UInt8.ofNat q.toNat).toNat < 128 := by
  rw [UInt8.toNat_ofNat']
  exact Nat.lt_of_le_of_lt (Nat.mod_le ..) ascii

theorem le_of_mem_utf8EncodeChar {c : Char} (wide : ¬ IsAscii c) {b : UInt8}
    (mem : b ∈ String.utf8EncodeChar c) : 128 ≤ b.toNat := by
  have big : ¬ c.val.toNat ≤ 0x7f := fun small => wide (Nat.lt_succ_of_le small)
  have high : ∀ n k, 128 ≤ n ∧ 0 < k ∧ k + n ≤ 256 → ∀ v, 128 ≤ (UInt8.ofNat (v % k + n)).toNat := by
    intro n k ⟨above, positive, fits⟩ v
    have small := Nat.mod_lt v positive
    rw [UInt8.toNat_ofNat']
    omega
  rw [String.utf8EncodeChar, if_neg big] at mem
  split at mem
  · simp only [List.mem_cons, List.not_mem_nil, or_false] at mem
    rcases mem with rfl | rfl
    · exact high 0xc0 0x20 (by decide) _
    · exact high 0x80 0x40 (by decide) _
  · split at mem
    · simp only [List.mem_cons, List.not_mem_nil, or_false] at mem
      rcases mem with rfl | rfl | rfl
      · exact high 0xe0 0x10 (by decide) _
      · exact high 0x80 0x40 (by decide) _
      · exact high 0x80 0x40 (by decide) _
    · simp only [List.mem_cons, List.not_mem_nil, or_false] at mem
      rcases mem with rfl | rfl | rfl | rfl
      · exact high 0xf0 0x08 (by decide) _
      · exact high 0x80 0x40 (by decide) _
      · exact high 0x80 0x40 (by decide) _
      · exact high 0x80 0x40 (by decide) _

/-- Bytes outside ASCII begin nothing that begins with ASCII. -/
theorem isPrefixOf_cons_of_high {q b : UInt8} (low : q.toNat < 128) (high : 128 ≤ b.toNat)
    (p rest : List UInt8) : (q :: p).isPrefixOf (b :: rest) = false := by
  have other : (q == b) = false := by
    rw [beq_eq_false_iff_ne]
    rintro rfl
    omega
  rw [List.isPrefixOf_cons_cons, other, Bool.false_and]

theorem ofNat_beq_ofNat {q c : Char} (ascii : IsAscii q) (ascii' : IsAscii c) :
    (UInt8.ofNat q.toNat == UInt8.ofNat c.toNat) = decide (q = c) := by
  have small : ∀ {d : Char}, IsAscii d → (UInt8.ofNat d.toNat).toNat = d.toNat := by
    intro d ascii
    rw [UInt8.toNat_ofNat', Nat.mod_eq_of_lt (Nat.lt_trans ascii (by decide))]
  rw [Bool.eq_iff_iff, beq_iff_eq, decide_eq_true_iff, ← UInt8.toNat_inj, small ascii, small ascii',
    Char.toNat_inj]

theorem startsWith_cons (q c : Char) (p s : List Char) :
    startsWith (q :: p) (c :: s) = (decide (q = c) && startsWith p s) := by
  rw [startsWith, dropPrefix?, startsWith]
  by_cases same : q = c
  · rw [if_pos same, decide_eq_true same, Bool.true_and]
  · rw [if_neg same, decide_eq_false same, Bool.false_and, Option.isSome_none]

theorem startsWith_of_ne {q c : Char} (other : q ≠ c) (p s : List Char) :
    startsWith (q :: p) (c :: s) = false := by
  rw [startsWith_cons, decide_eq_false other, Bool.false_and]

/-- A text begins with ASCII exactly when its bytes do. -/
theorem isPrefixOf_utf8 {p : List Char} (ascii : ∀ c ∈ p, IsAscii c) (s : List Char) :
    (utf8 p).isPrefixOf (utf8 s) = startsWith p s := by
  induction p generalizing s with
  | nil => exact List.isPrefixOf_nil_left.trans (by rw [startsWith, dropPrefix?, Option.isSome_some])
  | cons q p ih =>
    have own := ascii q List.mem_cons_self
    rw [utf8_cons_of_isAscii own]
    cases s with
    | nil => rfl
    | cons c s =>
      rw [utf8_cons]
      by_cases one : IsAscii c
      · rw [utf8EncodeChar_of_isAscii one, List.singleton_append, List.isPrefixOf_cons_cons,
          ofNat_beq_ofNat own one, ih fun d mem => ascii d (List.mem_cons_of_mem _ mem),
          startsWith_cons]
      · have other : q ≠ c := fun same => one (same ▸ own)
        obtain ⟨b, bs, bytes⟩ := List.exists_cons_of_ne_nil (String.utf8EncodeChar_ne_nil (c := c))
        have high : 128 ≤ b.toNat := le_of_mem_utf8EncodeChar one (bytes ▸ List.mem_cons_self)
        rw [bytes, List.cons_append, isPrefixOf_cons_of_high (toNat_ofNat_lt own) high,
          startsWith_of_ne other]

/-- Bytes that begin no ASCII are passed over. -/
theorem offset?_append {q : UInt8} (low : q.toNat < 128) (p : List UInt8) {bs : List UInt8}
    (high : ∀ b ∈ bs, 128 ≤ b.toNat) (rest : List UInt8) :
    offset? (q :: p) (bs ++ rest) = (offset? (q :: p) rest).map (· + bs.length) := by
  induction bs with
  | nil => exact (Option.map_id' (x := offset? (q :: p) rest)).symm
  | cons b bs ih =>
    rw [List.cons_append, offset?, isPrefixOf_cons_of_high low (high b List.mem_cons_self),
      if_neg Bool.false_ne_true, ih fun b mem => high b (List.mem_cons_of_mem _ mem),
      Option.map_map]
    rfl

/-- The first place of ASCII in a text is found in its bytes. -/
theorem offset?_utf8 {q : Char} {p : List Char} (ascii : ∀ c ∈ q :: p, IsAscii c) (s : List Char) :
    offset? (utf8 (q :: p)) (utf8 s) = (cut? (q :: p) s).map fun r => utf8Size r.1 := by
  have own := ascii q List.mem_cons_self
  induction s with
  | nil =>
    rw [utf8_cons_of_isAscii own]
    rfl
  | cons c s ih =>
    obtain ⟨b, bs, bytes⟩ := List.exists_cons_of_ne_nil (String.utf8EncodeChar_ne_nil (c := c))
    have size : c.utf8Size = bs.length + 1 := by
      rw [← String.length_utf8EncodeChar, bytes, List.length_cons]
    have behind : ∀ d ∈ bs, 128 ≤ d.toNat := by
      by_cases one : IsAscii c
      · rw [utf8EncodeChar_of_isAscii one] at bytes
        cases bytes
        exact fun d mem => absurd mem List.not_mem_nil
      · exact fun d mem => le_of_mem_utf8EncodeChar one (bytes ▸ List.mem_cons_of_mem b mem)
    have starts := isPrefixOf_utf8 ascii (c :: s)
    have cut : utf8 (c :: s) = b :: (bs ++ utf8 s) := by rw [utf8_cons, bytes, List.cons_append]
    rw [cut] at starts ⊢
    rw [offset?, starts, cut?, startsWith]
    cases dropPrefix? (q :: p) (c :: s) with
    | some rest => rfl
    | none =>
      rw [Option.isSome_none, if_neg Bool.false_ne_true, utf8_cons_of_isAscii own,
        offset?_append (toNat_ofNat_lt own) _ behind, ← utf8_cons_of_isAscii own, ih]
      simp only [Option.map_map]
      congr 1
      funext r
      simp only [Function.comp, utf8Size_cons, size]
      omega

/-- The offset of the first place of a text in another. -/
def find? (pattern s : List Char) : Option Nat := offset? (utf8 pattern) (utf8 s)

theorem find?_singleton {c : Char} (ascii : IsAscii c) (s : List Char) :
    find? [c] s = (cutChar? c s).map fun r => utf8Size r.1 := by
  rw [find?, offset?_utf8 (by simpa using ascii), cut?_singleton]

/-- The offset of the first character of a class. -/
def firstWhere? (p : Char → Bool) : List Char → Option Nat
  | [] => none
  | c :: s => if p c then some 0 else (firstWhere? p s).map (c.utf8Size + ·)

/-- Without such a character the class is looked for up to the end. -/
theorem getD_firstWhere? (p : Char → Bool) (s : List Char) :
    (firstWhere? p s).getD (utf8Size s) = utf8Size (s.takeWhile (!p ·)) := by
  induction s with
  | nil => rfl
  | cons c s ih =>
    rw [firstWhere?]
    cases own : p c with
    | true => simp [own]
    | false =>
      rw [List.takeWhile_cons_of_pos (by simp [own]), utf8Size_cons, utf8Size_cons, ← ih,
        if_neg Bool.false_ne_true]
      cases firstWhere? p s with
      | none => rfl
      | some i => rfl

theorem find?_singleton_eq_firstWhere? {c : Char} (ascii : IsAscii c) (s : List Char) :
    find? [c] s = firstWhere? (· == c) s := by
  rw [find?_singleton ascii]
  induction s with
  | nil => rfl
  | cons d s ih =>
    rw [cutChar?, firstWhere?, ← ih]
    by_cases same : d = c
    · rw [if_pos same, if_pos (beq_iff_eq.mpr same)]
      rfl
    · rw [if_neg same, if_neg (by simpa using same), Option.map_map, Option.map_map]
      congr 1
      funext r
      exact utf8Size_cons d r.1

/-! ### Searching in any case -/

/-- The byte with ASCII capitals made small. -/
def lowerByte (b : UInt8) : UInt8 := if 65 ≤ b ∧ b ≤ 90 then b + 32 else b

theorem map_lowerByte_utf8EncodeChar (c : Char) :
    (String.utf8EncodeChar c).map lowerByte = String.utf8EncodeChar c.toLower := by
  by_cases upper : c.isUpper
  · have bounds : c.toNat ∈ List.range' 65 26 := by
      simp only [Char.isUpper, UInt32.le_iff_toNat_le, decide_eq_true_eq] at upper
      rw [List.mem_range'_1]
      change 65 ≤ c.toNat ∧ c.toNat ≤ 90 at upper
      omega
    have each : ∀ n ∈ List.range' 65 26, (String.utf8EncodeChar (Char.ofNat n)).map lowerByte =
        String.utf8EncodeChar (Char.ofNat (n + 32)) := by decide
    rw [Char.toLower_eq_of_isUpper upper, ← each _ bounds, Char.ofNat_toNat]
  · rw [Char.toLower_eq_of_not_isUpper upper, List.map_congr_left (g := id), List.map_id]
    intro b mem
    refine if_neg fun capital => ?_
    rw [UInt8.le_iff_toNat_le, UInt8.le_iff_toNat_le] at capital
    change 65 ≤ b.toNat ∧ b.toNat ≤ 90 at capital
    by_cases one : IsAscii c
    · rw [utf8EncodeChar_of_isAscii one, List.mem_singleton] at mem
      rw [mem, UInt8.toNat_ofNat', Nat.mod_eq_of_lt (Nat.lt_trans one (by decide))] at capital
      refine upper ?_
      simp only [Char.isUpper, UInt32.le_iff_toNat_le, decide_eq_true_eq]
      exact capital
    · have high := le_of_mem_utf8EncodeChar one mem
      omega

theorem map_lowerByte_utf8 (s : List Char) : (utf8 s).map lowerByte = utf8 (lowerAscii s) := by
  rw [utf8, utf8, List.map_flatMap, lowerAscii, List.flatMap_map]
  exact List.flatMap_congr fun c _ => map_lowerByte_utf8EncodeChar c

theorem utf8Size_lowerAscii (s : List Char) : utf8Size (lowerAscii s) = utf8Size s := by
  rw [← length_utf8, ← map_lowerByte_utf8, List.length_map, length_utf8]

/-- The offset of the first place of a text in another, ASCII letters in any case. -/
def findAnyCase? (pattern s : List Char) : Option Nat :=
  offset? ((utf8 pattern).map lowerByte) ((utf8 s).map lowerByte)

theorem findAnyCase?_eq {q : Char} {p : List Char} (ascii : ∀ c ∈ q :: p, IsAscii c)
    (small : ∀ c ∈ q :: p, c.isUpper = false) (s : List Char) :
    findAnyCase? (q :: p) s = (cut? (q :: p) (lowerAscii s)).map fun r => utf8Size r.1 := by
  rw [findAnyCase?, map_lowerByte_utf8, map_lowerByte_utf8, lowerAscii_of_small small,
    offset?_utf8 ascii]

end Stencil.Text
