import Mathlib.Data.String.Basic
import Mathlib.Order.Basic
import Stencil.Collection.Usage
/-!
The index of uses. Its two tables say the same, and the uses of a document are the names that it has
been given last, in increasing order.
-/
namespace Stencil

namespace SortedSet

theorem mem_insert {x s : String} {set : List String} : x ∈ insert s set ↔ x = s ∨ x ∈ set := by
  induction set with
  | nil => simp [insert]
  | cons t ts ih =>
    rw [insert]
    split
    · rw [List.mem_cons]
    · split
      · next same => simp [same]
      · rw [List.mem_cons, ih, List.mem_cons]
        exact or_left_comm

theorem mem_foldl_insert {x : String} {names set : List String} :
    x ∈ names.foldl (fun set s => insert s set) set ↔ x ∈ set ∨ x ∈ names := by
  induction names generalizing set with
  | nil => simp
  | cons n names ih =>
    rw [List.foldl_cons, ih, mem_insert, List.mem_cons, or_assoc, or_left_comm]

theorem mem_ofList {x : String} {names : List String} : x ∈ ofList names ↔ x ∈ names := by
  rw [ofList, mem_foldl_insert]
  simp

def Increasing (set : List String) : Prop := set.Pairwise (· < ·)

theorem increasing_insert {s : String} {set : List String} (h : Increasing set) :
    Increasing (insert s set) := by
  induction set with
  | nil => exact List.pairwise_singleton _ _
  | cons t ts ih =>
    obtain ⟨first, rest⟩ := List.pairwise_cons.mp h
    rw [insert]
    split
    · next less =>
      refine List.pairwise_cons.mpr ⟨fun u mem => ?_, h⟩
      rcases List.mem_cons.mp mem with rfl | mem
      · exact less
      · exact lt_trans less (first u mem)
    · split
      · exact h
      · next notLess other =>
        refine List.pairwise_cons.mpr ⟨fun u mem => ?_, ih rest⟩
        rcases mem_insert.mp mem with rfl | mem
        · exact lt_of_le_of_ne (not_lt.mp notLess) (Ne.symm other)
        · exact first u mem

theorem increasing_foldl_insert {names set : List String} (h : Increasing set) :
    Increasing (names.foldl (fun set s => insert s set) set) := by
  induction names generalizing set with
  | nil => exact h
  | cons n names ih => exact ih (increasing_insert h)

theorem increasing_ofList (names : List String) : Increasing (ofList names) :=
  increasing_foldl_insert List.Pairwise.nil

/-- A set has one list in increasing order. -/
theorem eq_of_mem_iff {set set' : List String} (h : Increasing set) (h' : Increasing set')
    (same : ∀ x, x ∈ set ↔ x ∈ set') : set = set' := by
  induction set generalizing set' with
  | nil =>
    cases set' with
    | nil => rfl
    | cons t ts => exact absurd ((same t).mpr List.mem_cons_self) List.not_mem_nil
  | cons s ss ih =>
    cases set' with
    | nil => exact absurd ((same s).mp List.mem_cons_self) List.not_mem_nil
    | cons t ts =>
      obtain ⟨first, rest⟩ := List.pairwise_cons.mp h
      obtain ⟨first', rest'⟩ := List.pairwise_cons.mp h'
      have head : s = t := by
        rcases List.mem_cons.mp ((same s).mp List.mem_cons_self) with equal | later
        · exact equal
        · rcases List.mem_cons.mp ((same t).mpr List.mem_cons_self) with equal | later'
          · exact equal.symm
          · exact absurd (first t later') (lt_asymm (first' s later))
      subst head
      rw [ih rest rest' fun x => ?_]
      constructor
      · intro mem
        rcases List.mem_cons.mp ((same x).mp (List.mem_cons_of_mem _ mem)) with rfl | mem'
        · exact absurd (first x mem) (lt_irrefl x)
        · exact mem'
      · intro mem
        rcases List.mem_cons.mp ((same x).mpr (List.mem_cons_of_mem _ mem)) with rfl | mem'
        · exact absurd (first' x mem) (lt_irrefl x)
        · exact mem'

end SortedSet

namespace Assoc
variable {α : Type}

theorem get?_erase (es : Assoc α) (key k : String) :
    get? (erase key es) k = if k = key then none else get? es k := by
  induction es with
  | nil => simp [erase, get?]
  | cons e es ih =>
    simp only [get?, erase] at ih ⊢
    by_cases drop : e.1 = key
    · rw [List.filter_cons_of_neg (by simp [drop]), ih]
      by_cases same : k = key
      · simp [same]
      · simp [same, drop, Ne.symm same]
    · rw [List.filter_cons_of_pos (by simp [drop])]
      by_cases here : e.1 = k
      · have kept : k ≠ key := here ▸ drop
        rw [List.find?_cons_of_pos (by simp [here]), List.find?_cons_of_pos (by simp [here]),
          if_neg kept]
      · rw [List.find?_cons_of_neg (by simp [here]), List.find?_cons_of_neg (by simp [here]), ih]

end Assoc

namespace Usage

/-- A document uses a name exactly when the name is used by the document. -/
def Inverse (u : Usage) : Prop := ∀ user name, name ∈ u.usesOf user ↔ user ∈ u.usersOf name

theorem get?_putSet (key k : String) (set : List String) (table : Assoc (List String)) :
    (Assoc.get? (putSet key set table) k).getD [] =
      if k = key then set else (Assoc.get? table k).getD [] := by
  rw [putSet]
  split
  · next empty =>
    rw [Assoc.get?_erase]
    by_cases same : k = key
    · simp [same, List.isEmpty_iff.mp empty]
    · simp [same]
  · rw [Assoc.get?_put]
    by_cases same : k = key
    · simp [same]
    · simp [same]

theorem usesOf_record (u : Usage) (user name other : String) :
    (u.record user name).usesOf other =
      if other = user then SortedSet.insert name (u.usesOf user) else u.usesOf other := by
  rw [usesOf, record]
  dsimp only
  rw [Assoc.get?_put]
  split
  · rfl
  · rfl

theorem usersOf_record (u : Usage) (user name other : String) :
    (u.record user name).usersOf other =
      if other = name then SortedSet.insert user (u.usersOf name) else u.usersOf other := by
  rw [usersOf, record]
  dsimp only
  rw [Assoc.get?_put]
  split
  · rfl
  · rfl

theorem usesOf_forget (u : Usage) (user name other : String) :
    (u.forget user name).usesOf other =
      if other = user then (u.usesOf user).filter (· != name) else u.usesOf other :=
  get?_putSet user other _ u.byUser

theorem usersOf_forget (u : Usage) (user name other : String) :
    (u.forget user name).usersOf other =
      if other = name then (u.usersOf name).filter (· != user) else u.usersOf other :=
  get?_putSet name other _ u.byName

theorem inverse_record {u : Usage} (h : u.Inverse) (user name : String) :
    (u.record user name).Inverse := by
  intro user' name'
  rw [usesOf_record, usersOf_record]
  by_cases sameUser : user' = user
  · by_cases sameName : name' = name
    · simp [sameUser, sameName, SortedSet.mem_insert]
    · simp [sameUser, sameName, SortedSet.mem_insert, h user name']
  · by_cases sameName : name' = name
    · simp [sameUser, sameName, SortedSet.mem_insert, h user' name]
    · simp [sameUser, sameName, h user' name']

theorem inverse_forget {u : Usage} (h : u.Inverse) (user name : String) :
    (u.forget user name).Inverse := by
  intro user' name'
  rw [usesOf_forget, usersOf_forget]
  by_cases sameUser : user' = user
  · by_cases sameName : name' = name
    · simp [sameUser, sameName]
    · simp [sameUser, sameName, h user name']
  · by_cases sameName : name' = name
    · simp [sameUser, sameName, h user' name]
    · simp [sameUser, sameName, h user' name']

/-- Uses are kept in increasing order. -/
def Ordered (u : Usage) : Prop := ∀ user, SortedSet.Increasing (u.usesOf user)

theorem ordered_record {u : Usage} (h : u.Ordered) (user name : String) :
    (u.record user name).Ordered := by
  intro other
  rw [usesOf_record]
  split
  · exact SortedSet.increasing_insert (h user)
  · exact h other

theorem ordered_forget {u : Usage} (h : u.Ordered) (user name : String) :
    (u.forget user name).Ordered := by
  intro other
  rw [usesOf_forget]
  split
  · exact (h user).filter _
  · exact h other

theorem foldl_keeps {P : Usage → Prop} {f : Usage → String → Usage}
    (step : ∀ u name, P u → P (f u name)) (names : List String) {u : Usage} (h : P u) :
    P (names.foldl f u) := by
  induction names generalizing u with
  | nil => exact h
  | cons n names ih => exact ih (step u n h)

theorem inverse_replace {u : Usage} (h : u.Inverse) (user : String) (names : List String) :
    (u.replace user names).Inverse :=
  foldl_keeps (P := Inverse) (fun _ name h => inverse_record h user name) _
    (foldl_keeps (P := Inverse) (fun _ name h => inverse_forget h user name) _ h)

theorem ordered_replace {u : Usage} (h : u.Ordered) (user : String) (names : List String) :
    (u.replace user names).Ordered :=
  foldl_keeps (P := Ordered) (fun _ name h => ordered_record h user name) _
    (foldl_keeps (P := Ordered) (fun _ name h => ordered_forget h user name) _ h)

theorem inverse_forgetUser {u : Usage} (h : u.Inverse) (user : String) :
    (u.forgetUser user).Inverse :=
  foldl_keeps (P := Inverse) (fun _ name h => inverse_forget h user name) _ h

theorem ordered_forgetUser {u : Usage} (h : u.Ordered) (user : String) :
    (u.forgetUser user).Ordered :=
  foldl_keeps (P := Ordered) (fun _ name h => ordered_forget h user name) _ h

theorem mem_usesOf_records {u : Usage} {user other n : String} {names : List String} :
    n ∈ (names.foldl (fun u name => u.record user name) u).usesOf other ↔
      n ∈ u.usesOf other ∨ (other = user ∧ n ∈ names) := by
  induction names generalizing u with
  | nil => simp
  | cons name names ih =>
    rw [List.foldl_cons, ih, usesOf_record]
    by_cases same : other = user
    · simp [same, SortedSet.mem_insert, or_assoc, or_left_comm]
    · simp [same]

theorem mem_usesOf_forgets {u : Usage} {user other n : String} {names : List String} :
    n ∈ (names.foldl (fun u name => u.forget user name) u).usesOf other ↔
      n ∈ u.usesOf other ∧ ¬(other = user ∧ n ∈ names) := by
  induction names generalizing u with
  | nil => simp
  | cons name names ih =>
    rw [List.foldl_cons, ih, usesOf_forget]
    by_cases same : other = user
    · simp [same, and_assoc]
    · simp [same]

theorem usesOf_replace {u : Usage} (ordered : u.Ordered) (user other : String)
    (names : List String) :
    (u.replace user names).usesOf other =
      if other = user then SortedSet.ofList names else u.usesOf other := by
  refine SortedSet.eq_of_mem_iff (ordered_replace ordered user names other) ?_ fun n => ?_
  · split
    · exact SortedSet.increasing_ofList names
    · exact ordered other
  · simp only [replace, mem_usesOf_records, mem_usesOf_forgets]
    by_cases same : other = user
    · simp [same, SortedSet.mem_ofList]
      tauto
    · simp [same]

theorem usesOf_forgetUser {u : Usage} (ordered : u.Ordered) (user other : String) :
    (u.forgetUser user).usesOf other = if other = user then [] else u.usesOf other := by
  refine SortedSet.eq_of_mem_iff (ordered_forgetUser ordered user other) ?_ fun n => ?_
  · split
    · exact List.Pairwise.nil
    · exact ordered other
  · rw [forgetUser, mem_usesOf_forgets]
    by_cases same : other = user
    · simp [same]
    · simp [same]

end Usage
end Stencil
