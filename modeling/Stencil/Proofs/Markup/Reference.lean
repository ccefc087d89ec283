import Mathlib
import Stencil.Markup.Entity
import Stencil.Proofs.Files.Path
/-!
Character references by their grammar. A reference is one of the known names, or a number in decimal
or hexadecimal digits that is a character, between an ampersand and a semicolon that is near. Reading
goes from left to right and keeps every other ampersand. The reader follows this grammar, but for one
thing: it lets a number have a plus sign.
-/
namespace Stencil.Markup.Entity
open Text

/-! ### Grammar -/

/-- The value of a digit: its place among the digits, whose letters may be capitals. -/
def digitValue (d : Char) : Nat := "0123456789abcdef".toList.idxOf d.toLower

/-- One or more digits of the base whose number is the character. -/
structure Numeral (base : Nat) (ds : List Char) (c : Char) : Prop where
  filled : ds ≠ []
  digits : ∀ d ∈ ds, digitValue d < base
  value : Nat.ofDigits base (ds.reverse.map digitValue) = c.toNat

/-- The text of a number, with a sign before its digits. -/
inductive Numbers (sign : List Char) : List Char → Char → Prop
  | decimal {ds c} (number : Numeral 10 ds c) : Numbers sign ('#' :: (sign ++ ds)) c
  | hexadecimal {x ds c} (mark : x = 'x' ∨ x = 'X') (number : Numeral 16 ds c) :
      Numbers sign ('#' :: x :: (sign ++ ds)) c

/-- The names, with what each stands for. -/
def names : List (List Char × Char) :=
  [("amp".toList, '&'), ("lt".toList, '<'), ("gt".toList, '>'), ("quot".toList, '"'),
    ("apos".toList, '\''), ("nbsp".toList, '\u00a0')]

/-- The text between an ampersand and a semicolon stands for the character. -/
def Denotes (body : List Char) (c : Char) : Prop := (body, c) ∈ names ∨ Numbers [] body c

/-- The text is a number with a plus sign. -/
def Signed (body : List Char) (c : Char) : Prop := Numbers ['+'] body c

section
variable (R : List Char → Char → Prop)

/-- A reference, told by `R`, stands behind an ampersand, and the rest behind its semicolon, which is
at most ten bytes behind the ampersand. -/
def Refers (s : List Char) (c : Char) (rest : List Char) : Prop :=
  ∃ body, s = body ++ ';' :: rest ∧ 1 + utf8Size body ≤ 10 ∧ R body c

/-- The second text is the first one, read from left to right with its references, told by `R`, as
their characters and everything else as it stands. -/
inductive Decoded : List Char → List Char → Prop
  | nil : Decoded [] []
  | plain {c s t} (other : c ≠ '&') (more : Decoded s t) : Decoded (c :: s) (c :: t)
  | reference {s c rest t} (here : Refers R s c rest) (more : Decoded rest t) :
      Decoded ('&' :: s) (c :: t)
  | kept {s t} (missing : ∀ c rest, ¬ Refers R s c rest) (more : Decoded s t) :
      Decoded ('&' :: s) ('&' :: t)

end

/-- A reference with a plus sign stands in the text. -/
def HoldsSigned (s : List Char) : Prop :=
  ∃ before behind c rest, s = before ++ '&' :: behind ∧ Refers Signed behind c rest

/-! ### Digits -/

section
variable {d : Char} (wide : 128 ≤ d.toNat)
include wide

theorem not_le_of_wide {e : Char} (ascii : e.toNat < 128) : ¬ d ≤ e := by
  rw [Char.le_def, UInt32.le_iff_toNat_le]
  exact Nat.not_le.mpr (Nat.lt_of_lt_of_le ascii wide)

theorem isDigit_of_wide : d.isDigit = false := by
  rw [Char.isDigit, Bool.and_eq_false_iff]
  exact .inr (decide_eq_false (not_le_of_wide wide (e := '9') (by decide)))

theorem digitValue_of_wide : digitValue d = 16 := by
  have small : ¬ d.isUpper = true := by
    rw [Char.isUpper, decide_eq_true_eq]
    exact fun upper => not_le_of_wide wide (e := 'Z') (by decide) upper.2
  have ascii : ∀ e ∈ "0123456789abcdef".toList, e.toNat < 128 := by simp
  rw [digitValue, Char.toLower_eq_of_not_isUpper small]
  exact List.idxOf_eq_length fun mem => Nat.not_lt.mpr wide (ascii d mem)

end

section
variable {base : Nat} {digit? : Char → Option Nat}

/-- A reader of digits is told by the ASCII characters if it reads nothing else. -/
theorem eq_digitValue (bound : base ≤ 16)
    (ascii : ∀ n ∈ List.range 128, digit? (Char.ofNat n) =
      if digitValue (Char.ofNat n) < base then some (digitValue (Char.ofNat n)) else none)
    (wide : ∀ d : Char, 128 ≤ d.toNat → digit? d = none) (d : Char) :
    digit? d = if digitValue d < base then some (digitValue d) else none := by
  by_cases small : d.toNat < 128
  · simpa only [Char.ofNat_toNat] using ascii d.toNat (List.mem_range.mpr small)
  · have large := Nat.not_lt.mp small
    rw [wide d large, digitValue_of_wide large, if_neg (Nat.not_lt.mpr bound)]

end

theorem hexDigit?_eq (d : Char) :
    hexDigit? d = if digitValue d < 16 then some (digitValue d) else none := by
  refine eq_digitValue (Nat.le_refl 16) (by decide +kernel) (fun d wide => ?_) d
  rw [hexDigit?, isDigit_of_wide wide, if_neg Bool.false_ne_true,
    if_neg fun small => not_le_of_wide wide (by decide) small.2,
    if_neg fun capital => not_le_of_wide wide (by decide) capital.2]

theorem decimalDigit?_eq (d : Char) :
    decimalDigit? d = if digitValue d < 10 then some (digitValue d) else none := by
  refine eq_digitValue (by decide) (by decide +kernel) (fun d wide => ?_) d
  rw [decimalDigit?, isDigit_of_wide wide, if_neg Bool.false_ne_true]

section
variable {base : Nat} {digit? : Char → Option Nat}
  (law : ∀ d, digit? d = if digitValue d < base then some (digitValue d) else none)
include law

theorem more_digits_iff {o : Option Nat} {d : Char} {n : Nat} :
    (do return (← o) * base + (← digit? d)) = some n ↔
      digitValue d < base ∧ ∃ m, o = some m ∧ m * base + digitValue d = n := by
  cases o with
  | none => simp
  | some m =>
    rw [law]
    split
    · next small => simp [small]
    · next large => simp [large]

theorem digits?_eq_some_iff {s : List Char} {n : Nat} : digits? base digit? s = some n ↔
    s ≠ [] ∧ (∀ d ∈ s, digitValue d < base) ∧
      Nat.ofDigits base (s.reverse.map digitValue) = n := by
  have fold : s.foldl (fun n c => do return (← n) * base + (← digit? c)) (some 0) = some n ↔
      (∀ d ∈ s, digitValue d < base) ∧ Nat.ofDigits base (s.reverse.map digitValue) = n := by
    induction s using List.reverseRecOn generalizing n with
    | nil => simp
    | append_singleton s d ih =>
      have number : Nat.ofDigits base ((s ++ [d]).reverse.map digitValue) =
          Nat.ofDigits base (s.reverse.map digitValue) * base + digitValue d := by
        rw [List.reverse_concat, List.map_cons, Nat.ofDigits_cons, Nat.add_comm, Nat.mul_comm]
      rw [List.foldl_append, List.foldl_cons, List.foldl_nil, more_digits_iff law, number,
        List.forall_mem_append, List.forall_mem_singleton]
      constructor
      · rintro ⟨small, m, read, rfl⟩
        obtain ⟨digits, rfl⟩ := ih.mp read
        exact ⟨⟨digits, small⟩, rfl⟩
      · rintro ⟨⟨digits, small⟩, rfl⟩
        exact ⟨small, _, ih.mpr ⟨digits, rfl⟩, rfl⟩
  cases s with
  | nil => simp [digits?]
  | cons c s => simpa [digits?] using fold

theorem numeral_iff {s : List Char} {c : Char} :
    (digits? base digit? s).bind scalar? = some c ↔ Numeral base s c := by
  have scalar : ∀ n, scalar? n = some c ↔ n = c.toNat := by
    intro n
    rw [scalar?, Option.ite_none_right_eq_some, Option.some.injEq]
    constructor
    · rintro ⟨valid, rfl⟩
      rw [Char.toNat_ofNat, if_pos valid]
    · rintro rfl
      exact ⟨c.valid, Char.ofNat_toNat c⟩
  rw [Option.bind_eq_some_iff]
  constructor
  · rintro ⟨n, read, same⟩
    obtain ⟨filled, digits, rfl⟩ := (digits?_eq_some_iff law).mp read
    exact ⟨filled, digits, (scalar _).mp same⟩
  · intro number
    exact ⟨_, (digits?_eq_some_iff law).mpr ⟨number.filled, number.digits, rfl⟩,
      (scalar _).mpr number.value⟩

theorem unsigned?_iff (bound : base ≤ 16) {s : List Char} {c : Char} :
    (unsigned? base digit? s).bind scalar? = some c ↔
      ∃ sign ds, (sign = [] ∨ sign = ['+']) ∧ s = sign ++ ds ∧ Numeral base ds c := by
  by_cases signed : ∃ ds, s = '+' :: ds
  · obtain ⟨ds, rfl⟩ := signed
    rw [unsigned?, numeral_iff law]
    constructor
    · exact fun number => ⟨['+'], ds, .inr rfl, rfl, number⟩
    · rintro ⟨sign, ds', rfl | rfl, same, number⟩
      -- a plus sign is no digit
      · have digit := number.digits '+' (by rw [← List.nil_append ds', ← same]; simp)
        exact absurd digit (Nat.not_lt.mpr bound)
      · rwa [(List.cons.inj same).2]
  · have plain : unsigned? base digit? s = digits? base digit? s := by
      rw [unsigned?.eq_def]
      split
      · next ds => exact absurd ⟨ds, rfl⟩ signed
      · rfl
    rw [plain, numeral_iff law]
    constructor
    · exact fun number => ⟨[], s, .inl rfl, rfl, number⟩
    · rintro ⟨sign, ds, rfl | rfl, rfl, number⟩
      · exact number
      · exact absurd ⟨ds, rfl⟩ signed

end

/-! ### What is resolved -/

theorem named?_eq_some_iff {body : List Char} {c : Char} :
    named? body = some c ↔ (body, c) ∈ names := by
  constructor
  · intro known
    rw [named?.eq_def] at known
    split at known <;> cases known <;> simp [names]
  · intro mem
    have each : ∀ p ∈ names, named? p.1 = some p.2 := by decide +kernel
    exact each _ mem

/-- A number is resolved, with a plus sign or without. -/
theorem resolve?_of_numbers {sign body : List Char} {c : Char} (plus : sign = [] ∨ sign = ['+'])
    (number : Numbers sign body c) : resolve? body = some c := by
  have hexadecimal := @unsigned?_iff 16 hexDigit? hexDigit?_eq (Nat.le_refl 16)
  have decimal := @unsigned?_iff 10 decimalDigit? decimalDigit?_eq (by decide)
  rw [resolve?.eq_def, Option.orElse_eq_some]
  cases number with
  | @decimal ds _ numeral =>
    have unmarked : ∀ x s, x = 'x' ∨ x = 'X' → sign ++ ds ≠ x :: s := by
      rintro x s mark same
      obtain rfl | rfl := plus
      · have digit := numeral.digits x (by rw [← List.nil_append ds, same]; simp)
        obtain rfl | rfl := mark <;> exact absurd digit (by decide)
      · obtain rfl | rfl := mark <;> cases same
    refine .inr ⟨rfl, ?_⟩
    split
    · next s same => exact absurd (List.cons.inj same).2 (unmarked _ s (.inl rfl))
    · next s same => exact absurd (List.cons.inj same).2 (unmarked _ s (.inr rfl))
    · next s _ _ same =>
      rw [← (List.cons.inj same).2]
      exact decimal.mpr ⟨sign, ds, plus, rfl, numeral⟩
    · next other => exact absurd rfl (other _)
  | hexadecimal mark numeral =>
    refine .inr ⟨rfl, ?_⟩
    obtain rfl | rfl := mark
    · exact hexadecimal.mpr ⟨sign, _, plus, rfl, numeral⟩
    · exact hexadecimal.mpr ⟨sign, _, plus, rfl, numeral⟩

/-- A name or a number is resolved, and a number may have a plus sign. -/
theorem resolve?_eq_some_iff {body : List Char} {c : Char} :
    resolve? body = some c ↔ Denotes body c ∨ Signed body c := by
  have hexadecimal := @unsigned?_iff 16 hexDigit? hexDigit?_eq (Nat.le_refl 16)
  have decimal := @unsigned?_iff 10 decimalDigit? decimalDigit?_eq (by decide)
  constructor
  · intro resolved
    rw [resolve?.eq_def, Option.orElse_eq_some, named?_eq_some_iff] at resolved
    obtain known | ⟨-, number⟩ := resolved
    · exact .inl (.inl known)
    · split at number
      · obtain ⟨sign, ds, rfl | rfl, rfl, numeral⟩ := hexadecimal.mp number
        · exact .inl (.inr (.hexadecimal (.inl rfl) numeral))
        · exact .inr (.hexadecimal (.inl rfl) numeral)
      · obtain ⟨sign, ds, rfl | rfl, rfl, numeral⟩ := hexadecimal.mp number
        · exact .inl (.inr (.hexadecimal (.inr rfl) numeral))
        · exact .inr (.hexadecimal (.inr rfl) numeral)
      · obtain ⟨sign, ds, rfl | rfl, rfl, numeral⟩ := decimal.mp number
        · exact .inl (.inr (.decimal numeral))
        · exact .inr (.decimal numeral)
      · cases number
  · rintro ((known | unsigned) | signed)
    · rw [resolve?.eq_def, Option.orElse_eq_some, named?_eq_some_iff]
      exact .inl known
    · exact resolve?_of_numbers (.inl rfl) unsigned
    · exact resolve?_of_numbers (.inr rfl) signed

theorem Numbers.not_mem {sign body : List Char} {c x : Char} (number : Numbers sign body c)
    (other : x ∉ ['#', 'x', 'X']) (apart : x ∉ sign) (large : 16 ≤ digitValue x) : x ∉ body := by
  simp only [List.mem_cons, List.not_mem_nil, or_false, not_or] at other
  cases number with
  | decimal numeral =>
    have digits : x ∉ _ := fun mem => absurd (numeral.digits x mem) (by omega)
    simp [other, apart, digits]
  | hexadecimal mark numeral =>
    have digits : x ∉ _ := fun mem => absurd (numeral.digits x mem) (by omega)
    obtain rfl | rfl := mark
    · simp [other, apart, digits]
    · simp [other, apart, digits]

theorem Denotes.not_mem {body : List Char} {c x : Char} (denotes : Denotes body c)
    (mark : x ∈ [';', '&', '"', '+']) : x ∉ body := by
  obtain known | number := denotes
  · have each : ∀ x ∈ [';', '&', '"', '+'], ∀ p ∈ names, x ∉ p.1 := by simp [names]
    exact each x mark _ known
  · have each : ∀ x ∈ [';', '&', '"', '+'], x ∉ ['#', 'x', 'X'] ∧ 16 ≤ digitValue x := by
      simp [digitValue]
    exact number.not_mem (each x mark).1 List.not_mem_nil (each x mark).2

theorem Signed.not_mem {body : List Char} {c x : Char} (signed : Signed body c)
    (mark : x ∈ [';', '&', '"']) : x ∉ body := by
  have each : ∀ x ∈ [';', '&', '"'], x ∉ ['#', 'x', 'X'] ∧ x ∉ ['+'] ∧ 16 ≤ digitValue x := by
    simp [digitValue]
  exact Numbers.not_mem signed (each x mark).1 (each x mark).2.1 (each x mark).2.2

/-- No mark stands in the text of a reference. -/
theorem not_mem_of_resolve? {body : List Char} {c x : Char} (resolved : resolve? body = some c)
    (mark : x ∈ [';', '&', '"']) : x ∉ body := by
  obtain denotes | signed := resolve?_eq_some_iff.mp resolved
  · exact denotes.not_mem (List.mem_append_left ['+'] mark)
  · exact signed.not_mem mark

theorem plus_mem_of_signed {body : List Char} {c : Char} (signed : Signed body c) : '+' ∈ body := by
  cases signed <;> simp

/-! ### Reading -/

theorem decode_cons {c : Char} (other : c ≠ '&') (s : List Char) :
    decode (c :: s) = c :: decode s := by
  rw [decode, if_neg other]

theorem decode_ampersand (s : List Char) : decode ('&' :: s) =
    match reference? s with
    | none => '&' :: decode s
    | some (c, rest) => c :: decode rest := by
  rw [decode, if_pos rfl]
  split
  · next c rest found => rw [found]
  · next none => rw [none]

theorem decode_append {a : List Char} (plain : '&' ∉ a) (s : List Char) :
    decode (a ++ s) = a ++ decode s := by
  induction a with
  | nil => rfl
  | cons c a ih =>
    rw [List.mem_cons, not_or] at plain
    rw [List.cons_append, decode_cons (Ne.symm plain.1), ih plain.2, List.cons_append]

section
variable {R : List Char → Char → Prop}

/-- A reference is read where its text is resolved and the semicolon is near. -/
theorem reference?_eq_some_iff {s rest : List Char} {c : Char} : reference? s = some (c, rest) ↔
    Refers (fun body c => resolve? body = some c) s c rest := by
  rw [reference?]
  constructor
  · intro found
    split at found
    · cases found
    · next body rest' cut =>
      split at found
      · next near =>
        obtain ⟨c', resolved, same⟩ := Option.map_eq_some_iff.mp found
        cases same
        exact ⟨body, eq_append_of_cutChar? cut, near, resolved⟩
      · cases found
  · rintro ⟨body, rfl, near, resolved⟩
    rw [cutChar?_append (not_mem_of_resolve? resolved (by simp))]
    dsimp only
    rw [if_pos (show _ ≤ maxReach from near), resolved, Option.map_some]

theorem Refers.mono {S : List Char → Char → Prop} (sub : ∀ body c, R body c → S body c)
    {s rest : List Char} {c : Char} (refers : Refers R s c rest) : Refers S s c rest := by
  obtain ⟨body, text, near, denotes⟩ := refers
  exact ⟨body, text, near, sub body c denotes⟩

section
variable (sub : ∀ body c, R body c → resolve? body = some c)
include sub

theorem reference?_of_refers {s rest : List Char} {c : Char} (here : Refers R s c rest) :
    reference? s = some (c, rest) := reference?_eq_some_iff.mpr (here.mono sub)

theorem exists_decoded (s : List Char) : ∃ t, Decoded R s t := by
  induction size : s.length using Nat.strongRecOn generalizing s with
  | ind n ih =>
    cases s with
    | nil => exact ⟨[], .nil⟩
    | cons c s =>
      rw [List.length_cons] at size
      obtain ⟨t, read⟩ := ih s.length (by omega) s rfl
      by_cases ampersand : c = '&'
      · subst ampersand
        by_cases refers : ∃ c rest, Refers R s c rest
        · obtain ⟨c, rest, here⟩ := refers
          have shorter := length_of_reference? (reference?_of_refers sub here)
          obtain ⟨t, read⟩ := ih rest.length (by omega) rest rfl
          exact ⟨c :: t, .reference here read⟩
        · exact ⟨'&' :: t, .kept (fun c rest here => refers ⟨c, rest, here⟩) read⟩
      · exact ⟨c :: t, .plain ampersand read⟩

theorem Decoded.unique {s t t' : List Char} (first : Decoded R s t) (second : Decoded R s t') :
    t = t' := by
  induction first generalizing t' with
  | nil => cases second; rfl
  | plain other _ ih =>
    cases second with
    | plain _ more => rw [ih more]
    | reference _ _ => exact absurd rfl other
    | kept _ _ => exact absurd rfl other
  | reference here _ ih =>
    cases second with
    | plain other _ => exact absurd rfl other
    | reference here' more =>
      have same := (reference?_of_refers sub here).symm.trans (reference?_of_refers sub here')
      cases same
      rw [ih more]
    | kept missing _ => exact absurd here (missing _ _)
  | kept missing _ ih =>
    cases second with
    | plain other _ => exact absurd rfl other
    | reference here _ => exact absurd here (missing _ _)
    | kept _ more => rw [ih more]

end

end

/-- Reading follows the references that are resolved. -/
theorem decoded_decode (s : List Char) :
    Decoded (fun body c => resolve? body = some c) s (decode s) := by
  fun_induction decode s with
  | case1 => exact .nil
  | case2 s c rest found ih => exact .reference (reference?_eq_some_iff.mp found) ih
  | case3 s missing ih =>
    refine .kept (fun c rest here => ?_) ih
    rw [reference?_eq_some_iff.mpr here] at missing
    cases missing
  | case4 c s other ih => exact .plain other ih

/-! ### Plus signs -/

theorem holdsSigned_cons {c : Char} {s : List Char} : HoldsSigned (c :: s) ↔
    (c = '&' ∧ ∃ d rest, Refers Signed s d rest) ∨ HoldsSigned s := by
  constructor
  · rintro ⟨before, behind, d, rest, text, here⟩
    cases before with
    | nil =>
      obtain ⟨rfl, rfl⟩ := List.cons.inj text
      exact .inl ⟨rfl, d, rest, here⟩
    | cons b before => exact .inr ⟨before, behind, d, rest, (List.cons.inj text).2, here⟩
  · rintro (⟨rfl, d, rest, here⟩ | ⟨before, behind, d, rest, rfl, here⟩)
    · exact ⟨[], s, d, rest, rfl, here⟩
    · exact ⟨c :: before, behind, d, rest, rfl, here⟩

theorem holdsSigned_append {a : List Char} (plain : '&' ∉ a) (s : List Char) :
    HoldsSigned (a ++ s) ↔ HoldsSigned s := by
  induction a with
  | nil => rfl
  | cons c a ih =>
    rw [List.mem_cons, not_or] at plain
    rw [List.cons_append, holdsSigned_cons, ih plain.2, or_iff_right]
    exact fun here => plain.1 here.1.symm

theorem not_holdsSigned_nil : ¬ HoldsSigned [] := by
  rintro ⟨before, behind, -, -, text, -⟩
  exact List.append_ne_nil_of_right_ne_nil before (List.cons_ne_nil _ _) text.symm

/-- No ampersand stands in a reference behind the one that it starts with. -/
theorem Refers.split {R : List Char → Char → Prop} {s rest : List Char} {c : Char}
    (sub : ∀ body c, R body c → resolve? body = some c) (here : Refers R s c rest) :
    ∃ body, s = (body ++ [';']) ++ rest ∧ '&' ∉ body ++ [';'] ∧ R body c := by
  obtain ⟨body, rfl, -, denotes⟩ := here
  have plain := not_mem_of_resolve? (sub body c denotes) (x := '&') (by simp)
  exact ⟨body, by simp, by simpa using plain, denotes⟩

theorem resolve?_of_denotes (body : List Char) (c : Char) (denotes : Denotes body c) :
    resolve? body = some c := resolve?_eq_some_iff.mpr (.inl denotes)

theorem resolve?_of_signed (body : List Char) (c : Char) (signed : Signed body c) :
    resolve? body = some c := resolve?_eq_some_iff.mpr (.inr signed)

/-- No reference of the grammar has a plus sign. -/
theorem not_signed_of_refers {s rest rest' : List Char} {c d : Char}
    (here : Refers Denotes s c rest) : ¬ Refers Signed s d rest' := by
  intro signed
  obtain ⟨body, rfl, -, denotes⟩ := here
  obtain ⟨body', text, -, signed⟩ := signed
  have cut := congrArg (cutChar? ';') text
  rw [cutChar?_append (denotes.not_mem (by simp)), cutChar?_append (signed.not_mem (by simp))] at cut
  cases cut
  exact denotes.not_mem (by simp) (plus_mem_of_signed signed)

/-- What is read is never longer than the reading by the grammar, and is that reading if no plus sign
is read. -/
theorem Decoded.decode_eq_iff {s t : List Char} (decoded : Decoded Denotes s t) :
    (decode s).length ≤ t.length ∧ (decode s = t ↔ ¬ HoldsSigned s) := by
  -- one character is read, and the same one is due
  have step : ∀ {s s' t : List Char} {c : Char}, decode s = c :: decode s' →
      (HoldsSigned s ↔ HoldsSigned s') →
      (decode s').length ≤ t.length ∧ (decode s' = t ↔ ¬ HoldsSigned s') →
      (decode s).length ≤ (c :: t).length ∧ (decode s = c :: t ↔ ¬ HoldsSigned s) := by
    intro s s' t c read same ih
    rw [read, same, List.length_cons, List.length_cons, List.cons_inj_right]
    exact ⟨Nat.succ_le_succ ih.1, ih.2⟩
  induction decoded with
  | nil => simp [decode, not_holdsSigned_nil]
  | plain other _ ih =>
    refine step (decode_cons other _) ?_ ih
    rw [holdsSigned_cons, or_iff_right fun here => other here.1]
  | @reference s c rest t here _ ih =>
    refine step ?_ ?_ ih
    · rw [decode_ampersand, reference?_of_refers resolve?_of_denotes here]
    · obtain ⟨body, text, plain, -⟩ := here.split resolve?_of_denotes
      rw [holdsSigned_cons, or_iff_right, text, holdsSigned_append plain]
      rintro ⟨-, d, rest', signed⟩
      exact not_signed_of_refers here signed
  | @kept s t missing _ ih =>
    by_cases signed : ∃ c rest, Refers Signed s c rest
    · obtain ⟨c, rest, here⟩ := signed
      -- one character stands for all of the reference, which the grammar keeps
      obtain ⟨body, text, plain, -⟩ := here.split resolve?_of_signed
      have read : decode ('&' :: s) = c :: decode rest := by
        rw [decode_ampersand, reference?_of_refers resolve?_of_signed here]
      have shorter := ih.1
      rw [text, decode_append plain, List.length_append, List.length_append,
        List.length_singleton] at shorter
      have holds : HoldsSigned ('&' :: s) := holdsSigned_cons.mpr (.inl ⟨rfl, c, rest, here⟩)
      rw [read, List.length_cons, List.length_cons]
      refine ⟨by omega, iff_of_false (fun same => ?_) (not_not_intro holds)⟩
      have lengths := congrArg List.length same
      rw [List.length_cons, List.length_cons] at lengths
      omega
    · refine step ?_ ?_ ih
      · have none : reference? s = none := by
          rw [Option.eq_none_iff_forall_ne_some]
          rintro ⟨c, rest⟩ found
          obtain ⟨body, text, near, resolved⟩ := reference?_eq_some_iff.mp found
          obtain denotes | plus := resolve?_eq_some_iff.mp resolved
          · exact missing c rest ⟨body, text, near, denotes⟩
          · exact signed ⟨c, rest, body, text, near, plus⟩
        rw [decode_ampersand, none]
      · rw [holdsSigned_cons, or_iff_right fun here => signed here.2]

/-- Every text has one reading by the grammar of references, from left to right. What is read is the
reading in which a number may also have a plus sign, and so it is the reading by the grammar exactly
if no reference with a plus sign stands in the text. -/
theorem read_by_grammar_iff (s : String) :
    (∃! t, Decoded Denotes s.toList t) ∧
      Decoded (fun body c => Denotes body c ∨ Signed body c) s.toList (decodeText s).toList ∧
      (Decoded Denotes s.toList (decodeText s).toList ↔ ¬ HoldsSigned s.toList) := by
  obtain ⟨t, read⟩ := exists_decoded resolve?_of_denotes s.toList
  have only : ∀ t', Decoded Denotes s.toList t' → t' = t := fun t' other =>
    other.unique resolve?_of_denotes read
  rw [decodeText, String.toList_ofList]
  refine ⟨⟨t, read, only⟩, ?_, ?_⟩
  · have followed := decoded_decode s.toList
    simpa only [resolve?_eq_some_iff] using followed
  · rw [← read.decode_eq_iff.2]
    constructor
    · exact only _
    · rintro same
      rwa [same]

/-- A number with a plus sign is read as a character, where the grammar keeps its text. -/
theorem plus_sign_read :
    decodeText "&#+65;" = "A" ∧ Decoded Denotes "&#+65;".toList "&#+65;".toList ∧
      ¬ Decoded Denotes "&#+65;".toList (decodeText "&#+65;").toList := by
  have number : Numeral 10 ['6', '5'] 'A' :=
    ⟨List.cons_ne_nil _ _, by simp [digitValue], by simp [digitValue, Nat.ofDigits]⟩
  have signed : Refers Signed "#+65;".toList 'A' [] :=
    ⟨['#', '+', '6', '5'], rfl, by decide, .decimal number⟩
  have kept : Decoded Denotes "&#+65;".toList "&#+65;".toList := by
    refine .kept (fun c rest here => not_signed_of_refers here signed) ?_
    exact .plain (by decide) (.plain (by decide) (.plain (by decide) (.plain (by decide)
      (.plain (by decide) .nil))))
  have read : decodeText "&#+65;" = "A" := by decide +kernel
  refine ⟨read, kept, fun decoded => ?_⟩
  rw [read] at decoded
  exact absurd (decoded.unique resolve?_of_denotes kept) (by decide)

end Stencil.Markup.Entity
