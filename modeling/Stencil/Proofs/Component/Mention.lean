import Mathlib
import Stencil.Component.Expansion
/-!
Which values go to a behavior: those whose keys stand in its text as words of their own. The search for
a key goes on behind each place that it takes, so it can pass over a word that starts inside of such a
place. This happens in some text exactly if the key can start again inside of itself, behind a character
of no word.
-/
namespace Stencil

namespace Text

/-- The key stands at a place of the text. -/
def StandsAt (key s : List Char) (i : Nat) : Prop := key <+: s.drop i

/-- A search from left to right takes the place: the key stands there, and no place that has been
taken before reaches over it. -/
def Taken (key s : List Char) (i : Nat) : Prop :=
  StandsAt key s i ∧ ∀ j < i, Taken key s j → j + key.length ≤ i
termination_by i

/-- The key stands at the place as a word of its own, between characters that are of no word. -/
def AloneAt (key s : List Char) (i : Nat) : Prop :=
  StandsAt key s i ∧ (s.take i).getLast?.any isWordChar = false ∧
    (s.drop (i + key.length)).head?.any isWordChar = false

instance (key s : List Char) (i : Nat) : Decidable (AloneAt key s i) :=
  inferInstanceAs (Decidable (key <+: s.drop i ∧ _ ∧ _))

/-- The key stands somewhere in the text as a word of its own. -/
def StandsAlone (key s : List Char) : Prop := ∃ i, AloneAt key s i

/-- From some place on the key is a start of itself, and a character of no word stands before that
place. -/
def StartsAgain (key : List Char) : Prop :=
  ∃ n < key.length, key.drop n <+: key ∧ (key.take n).getLast?.any (!isWordChar ·) = true

instance (key : List Char) : Decidable (StartsAgain key) :=
  inferInstanceAs (Decidable (∃ n < key.length, _ ∧ _))

theorem Taken.standsAt {key s : List Char} {i : Nat} (taken : Taken key s i) : StandsAt key s i := by
  rw [Taken] at taken
  exact taken.1

theorem Taken.le {key s : List Char} {i j : Nat} (taken : Taken key s i) (earlier : Taken key s j)
    (before : j < i) : j + key.length ≤ i := by
  rw [Taken] at taken
  exact taken.2 j before earlier

theorem standsAt_append (key a b : List Char) : StandsAt key (a ++ key ++ b) a.length := by
  rw [StandsAt, List.append_assoc, List.drop_left]
  exact List.prefix_append key b

theorem standsAt_behind {key a s : List Char} {i : Nat} (behind : a.length ≤ i)
    (here : StandsAt key (a ++ s) i) : StandsAt key s (i - a.length) := by
  rwa [StandsAt, List.drop_append, List.drop_eq_nil_of_le behind, List.nil_append] at here

theorem aloneAt_append (key a b : List Char) : AloneAt key (a ++ key ++ b) a.length ↔
    a.getLast?.any isWordChar = false ∧ b.head?.any isWordChar = false := by
  have behind : (a ++ key ++ b).drop (a.length + key.length) = b := by
    rw [← List.length_append, List.drop_left]
  rw [AloneAt, behind, List.append_assoc, List.take_left, and_iff_right]
  rw [← List.append_assoc]
  exact standsAt_append key a b

section
variable {p : Char} {ps s : List Char}

theorem not_standsAt_of_cut?_eq_none (missing : cut? (p :: ps) s = none) (i : Nat) :
    ¬ StandsAt (p :: ps) s i := by
  rintro ⟨b, text⟩
  obtain ⟨x, rest, found, -⟩ := exists_cut?_le (p :: ps) (s.take i) b
  rw [List.append_assoc, text, List.take_append_drop, missing] at found
  cases found

theorem not_standsAt_of_lt {before rest : List Char} (cut : cut? (p :: ps) s = some (before, rest))
    {i : Nat} (lt : i < before.length) : ¬ StandsAt (p :: ps) s i := by
  rintro ⟨b, text⟩
  obtain ⟨x, rest, found, le⟩ := exists_cut?_le (p :: ps) (s.take i) b
  rw [List.append_assoc, text, List.take_append_drop, cut] at found
  cases found
  rw [List.length_take] at le
  omega

section
variable {passed before rest : List Char} (cut : cut? (p :: ps) s = some (before, rest))
include cut

theorem not_standsAt_between {j : Nat} (behind : passed.length ≤ j)
    (inside : j < (passed ++ before).length) : ¬ StandsAt (p :: ps) (passed ++ s) j := by
  rw [List.length_append] at inside
  exact fun here => not_standsAt_of_lt cut (by omega) (standsAt_behind behind here)

/-- The first place behind what has been passed is taken. -/
theorem taken_of_cut? (clean : ∀ j < passed.length, Taken (p :: ps) (passed ++ s) j →
      j + (p :: ps).length ≤ passed.length) :
    Taken (p :: ps) (passed ++ s) (passed ++ before).length := by
  rw [Taken]
  constructor
  · rw [eq_append_of_cut? cut, ← List.append_assoc, ← List.append_assoc]
    exact standsAt_append _ _ _
  · intro j inside taken
    by_cases behind : passed.length ≤ j
    · exact absurd taken.standsAt (not_standsAt_between cut behind inside)
    · have := clean j (Nat.not_le.mp behind) taken
      rw [List.length_append]
      omega

end

/-- If the key cannot start again inside of itself, the search takes all words of their own. -/
theorem taken_of_aloneAt {key : List Char} {i : Nat} (once : ¬ StartsAgain key)
    (alone : AloneAt key s i) : Taken key s i := by
  obtain ⟨here, apart, -⟩ := alone
  rw [Taken]
  refine ⟨here, fun j before taken => ?_⟩
  by_contra reaches
  obtain ⟨b, text⟩ := taken.standsAt
  -- the place starts inside of the one that has been taken, and the key starts again there
  have inside : i - j < key.length := by omega
  have behind : s.drop i = key.drop (i - j) ++ b := by
    rw [← List.drop_append_of_le_length (Nat.le_of_lt inside), text, List.drop_drop]
    congr 1
    omega
  have front : s.take i = s.take j ++ key.take (i - j) := by
    rw [← List.take_append_of_le_length (Nat.le_of_lt inside), text, ← List.take_add]
    congr 1
    omega
  refine once ⟨i - j, inside, ?_, ?_⟩
  · refine List.prefix_of_prefix_length_le ⟨b, rfl⟩ (behind ▸ here) ?_
    rw [List.length_drop]
    exact Nat.sub_le _ _
  · have filled : key.take (i - j) ≠ [] := by
      rw [Ne, List.take_eq_nil_iff]
      rintro (zero | rfl)
      · omega
      · cases inside
    have last := List.getLast?_eq_some_getLast filled
    rw [front, List.getLast?_append, last] at apart
    rw [last]
    simpa using apart

end

end Text

open Text

section
variable {p : Char} {ps s : List Char} {last : Option Char}

/-- The search goes through the places that are taken, and stops at one that is a word of its own. In
front of the text stands what has been passed, in which no taken place reaches over the end. -/
theorem mentionsFrom_iff {passed : List Char} (front : last = passed.getLast?)
    (clean : ∀ j < passed.length, Taken (p :: ps) (passed ++ s) j →
      j + (p :: ps).length ≤ passed.length) :
    mentionsFrom p ps last s = true ↔ ∃ i, passed.length ≤ i ∧ Taken (p :: ps) (passed ++ s) i ∧
      AloneAt (p :: ps) (passed ++ s) i := by
  fun_induction mentionsFrom p ps last s generalizing passed with
  | case1 last s missing =>
    refine iff_of_false Bool.false_ne_true ?_
    rintro ⟨i, behind, taken, -⟩
    exact not_standsAt_of_cut?_eq_none missing _ (standsAt_behind behind taken.standsAt)
  | case2 last s before rest cut ih =>
    have text : passed ++ s = passed ++ before ++ p :: ps ++ rest := by
      rw [eq_append_of_cut? cut]
      simp
    have first := taken_of_cut? cut clean
    have length : (passed ++ before ++ p :: ps).length =
        (passed ++ before).length + (p :: ps).length := List.length_append
    have ends : (p :: ps).getLast? = (passed ++ before ++ p :: ps).getLast? := by
      rw [List.getLast?_append, List.getLast?_eq_some_getLast (List.cons_ne_nil p ps),
        Option.some_or]
    have later := ih ends fun j inside taken => by
      rw [← text] at taken
      by_contra reaches
      have := taken.le first (by omega)
      omega
    have own : AloneAt (p :: ps) (passed ++ s) (passed ++ before).length ↔
        (!((before.getLast?.or last).any isWordChar) && !(rest.head?.any isWordChar)) = true := by
      rw [text, aloneAt_append, List.getLast?_append, ← front]
      simp
    rw [Bool.or_eq_true, later, ← text, ← own]
    constructor
    · rintro (alone | ⟨i, behind, taken, alone⟩)
      · exact ⟨_, by simp, first, alone⟩
      · rw [length, List.length_append] at behind
        exact ⟨i, by omega, taken, alone⟩
    · rintro ⟨i, behind, taken, alone⟩
      rcases Nat.lt_trichotomy i (passed ++ before).length with inside | rfl | after
      · exact absurd taken.standsAt (not_standsAt_between cut behind inside)
      · exact .inl alone
      · exact .inr ⟨i, length ▸ taken.le first after, taken, alone⟩

theorem mentionsFrom_of_short (short : s.length < (p :: ps).length) :
    mentionsFrom p ps last s = false := by
  rw [mentionsFrom]
  split
  · rfl
  · next before rest cut =>
    have := length_of_cut? cut
    omega

/-- A place behind a character of a word is passed over. -/
theorem mentionsFrom_behind_word {w : Char} (other : p ≠ w) (word : isWordChar w = true)
    (rest : List Char) :
    mentionsFrom p ps none (w :: p :: ps ++ rest) = mentionsFrom p ps (p :: ps).getLast? rest := by
  have cut : cut? (p :: ps) (w :: p :: ps ++ rest) = some ([w], rest) := by
    have here : cut? (p :: ps) (p :: (ps ++ rest)) = some ([], rest) := by
      rw [cut?, ← List.cons_append, dropPrefix?_append]
    rw [List.cons_append, List.cons_append, cut?, dropPrefix?, if_neg other, here]
    rfl
  rw [mentionsFrom]
  split
  · next missing =>
    rw [cut] at missing
    cases missing
  · next found =>
    rw [cut] at found
    cases found
    simp [word]

/-- If the key can start again inside of itself, there is a text that it is not found in, although it
stands there as a word of its own. -/
theorem exists_missed (again : StartsAgain (p :: ps)) :
    ∃ s, mentionsFrom p ps none s = false ∧ StandsAlone (p :: ps) s := by
  obtain ⟨n, inside, ⟨rest, text⟩, apart⟩ := again
  obtain ⟨w, other, word⟩ : ∃ w, p ≠ w ∧ isWordChar w = true := by
    by_cases same : p = 'x'
    · exact ⟨'y', by rw [same]; decide, by decide +kernel⟩
    · exact ⟨'x', same, by decide +kernel⟩
  have short : rest.length < (p :: ps).length := by
    have := congrArg List.length text
    rw [List.length_append, List.length_drop] at this
    omega
  -- the end of the key, with what follows it, is the key again
  have twice : p :: ps ++ rest = (p :: ps).take n ++ p :: ps := by
    conv_lhs => rw [← List.take_append_drop n (p :: ps), List.append_assoc, text]
  have whole : w :: p :: ps ++ rest = w :: (p :: ps).take n ++ p :: ps ++ [] := by
    rw [List.cons_append, twice, List.append_nil, List.cons_append]
  refine ⟨w :: p :: ps ++ rest, ?_, (w :: (p :: ps).take n).length, ?_⟩
  · rw [mentionsFrom_behind_word other word, mentionsFrom_of_short short]
  · rw [whole, aloneAt_append]
    refine ⟨?_, rfl⟩
    cases before : ((p :: ps).take n).getLast? with
    | none =>
      rw [before] at apart
      cases apart
    | some c =>
      rw [before] at apart
      rw [List.getLast?_cons, before]
      simpa using apart

end

namespace Expansion

/-- The record of an instance holds the values whose keys its behavior mentions. -/
theorem mem_values_clientInstance {context source key : String} {c : Component} {values : Values}
    {refs : List (String × String)} {v : Value} :
    (key, v) ∈ (clientInstance context c source values refs).values ↔
      (key, v) ∈ values ∧ mentions source key = true := List.mem_filter

theorem addRecord_of_fresh {records : List ClientInstance} {i : ClientInstance}
    (fresh : ∀ r ∈ records, r.context ≠ i.context) : addRecord records i = records ++ [i] := by
  rw [addRecord, if_neg]
  simpa using fresh

/-- A behavior is found to mention a key exactly if one of the places that a search from left to right
takes is a word of its own. This finds the words of their own in all texts exactly if the key cannot
start again inside of itself, and then the record of an instance holds the values of the key exactly if
the behavior mentions it. -/
theorem mentions_exactly_iff (key : String) (filled : key ≠ "") :
    (∀ source, mentions source key = true ↔
      ∃ i, Taken key.toList source.toList i ∧ AloneAt key.toList source.toList i) ∧
    ((∀ source, mentions source key = true ↔ StandsAlone key.toList source.toList) ↔
      ¬ StartsAgain key.toList) ∧
    (¬ StartsAgain key.toList → ∀ (records : List ClientInstance) context c source values refs,
      (∀ r ∈ records, r.context ≠ context) →
      ∃ i, addRecord records (clientInstance context c source values refs) = records ++ [i] ∧
        i.context = context ∧ i.source = source ∧
        ∀ v, (key, v) ∈ i.values ↔
          (key, v) ∈ values ∧ StandsAlone key.toList source.toList) := by
  obtain ⟨p, ps, own⟩ := List.exists_cons_of_ne_nil (mt String.toList_eq_nil_iff.mp filled)
  have search : ∀ source, mentions source key = mentionsFrom p ps none source.toList := by
    intro source
    rw [mentions, own]
  have found_iff : ∀ source, mentions source key = true ↔
      ∃ i, Taken key.toList source.toList i ∧ AloneAt key.toList source.toList i := by
    intro source
    have walk := @mentionsFrom_iff p ps source.toList none [] rfl
      fun j inside => absurd inside j.not_lt_zero
    simpa [search, own] using walk
  have exact_iff : (∀ source, mentions source key = true ↔ StandsAlone key.toList source.toList) ↔
      ¬ StartsAgain key.toList := by
    constructor
    · intro exactly again
      rw [own] at again
      obtain ⟨s, missed, alone⟩ := exists_missed again
      have found := (exactly (String.ofList s)).mpr (by rwa [own, String.toList_ofList])
      rw [search, String.toList_ofList, missed] at found
      cases found
    · intro once source
      rw [found_iff]
      constructor
      · rintro ⟨i, -, alone⟩
        exact ⟨i, alone⟩
      · rintro ⟨i, alone⟩
        exact ⟨i, taken_of_aloneAt once alone, alone⟩
  refine ⟨found_iff, exact_iff, fun once records context c source values refs fresh => ?_⟩
  refine ⟨_, addRecord_of_fresh fresh, rfl, rfl, fun v => ?_⟩
  rw [mem_values_clientInstance, exact_iff.mpr once]

/-- A component with a behavior. -/
def fruit : Component where
  id := "x-fruit"
  path := "fruit.html"
  dir := ""
  document := ⟨.node .root [], {}⟩
  script := some ""

/-- The places of a key may overlap as long as all of them but the first are behind characters of
words. -/
theorem ana_mentioned_exactly :
    "ana" ≠ "" ∧ ¬ StartsAgain "ana".toList ∧
      (∀ source, mentions source "ana" = true ↔ StandsAlone "ana".toList source.toList) ∧
      ∃ i, addRecord [] (clientInstance "a.html/0:x-fruit" fruit
            "script() \x7b return values['banana'] ?? values['ana']; \x7d"
            [("ana", .text "1"), ("an", .text "2")] []) = [i] ∧
          ("ana", .text "1") ∈ i.values := by
  have filled : "ana" ≠ "" := by decide
  have once : ¬ StartsAgain "ana".toList := by decide +kernel
  obtain ⟨-, exactly, records⟩ := mentions_exactly_iff "ana" filled
  obtain ⟨i, added, -, source, values⟩ := records once [] "a.html/0:x-fruit" fruit
    "script() \x7b return values['banana'] ?? values['ana']; \x7d"
    [("ana", .text "1"), ("an", .text "2")] [] (fun r mem => absurd mem List.not_mem_nil)
  refine ⟨filled, once, exactly.mpr once, i, added, (values _).mpr ⟨List.mem_cons_self, ?_⟩⟩
  exact ⟨46, by decide +kernel⟩

/-- A word is missed that starts inside of a place of its key in a longer word, so its value does not
reach the behavior. -/
theorem overlapping_word_missed :
    let source := "script(\x7b values \x7d) \x7b return values['data-a-a'.slice(5)]; \x7d"
    StandsAlone "a-a".toList source.toList ∧ mentions source "a-a" = false ∧
      (clientInstance "a.html/0:x-fruit" fruit source [("a-a", .text "1")] []).values = [] := by
  intro source
  have missed : mentions source "a-a" = false := by decide +kernel
  refine ⟨?_, missed, ?_⟩
  · exact ⟨41, by decide +kernel⟩
  · simp [clientInstance, missed]

end Expansion

end Stencil
