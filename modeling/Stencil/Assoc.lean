/-!
Lists of entries by key. A key that is set again keeps its place, so the order is that in which
the keys first came. Every operation keeps the keys distinct.
-/
namespace Stencil

abbrev Assoc (α : Type) := List (String × α)

namespace Assoc
variable {α : Type}

def get? (es : Assoc α) (key : String) : Option α := (es.find? (·.1 == key)).map (·.2)

def has (es : Assoc α) (key : String) : Bool := es.any (·.1 == key)

def keys (es : Assoc α) : List String := es.map (·.1)

/-- Sets an entry in its place, or as the last one. -/
def put (key : String) (value : α) : Assoc α → Assoc α
  | [] => [(key, value)]
  | (k, v) :: rest => if k = key then (k, value) :: rest else (k, v) :: put key value rest

/-- Drops the entry of a key. -/
def erase (key : String) (es : Assoc α) : Assoc α := es.filter (·.1 != key)

/-- Sets entries one after the other; later ones win. -/
def putAll (es more : Assoc α) : Assoc α := more.foldl (fun es (k, v) => put k v es) es

/-- Entries in the order in which their keys first stand, each with its last value. -/
def ofList (es : List (String × α)) : Assoc α := putAll [] es

/-- No key stands twice. -/
def Distinct (es : Assoc α) : Prop := es.keys.Nodup

theorem get?_put (es : Assoc α) (key k : String) (value : α) :
    get? (put key value es) k = if k = key then some value else get? es k := by
  induction es with
  | nil =>
    by_cases h : k = key
    · simp [put, get?, h]
    · simp [put, get?, h, Ne.symm h]
  | cons e es ih =>
    obtain ⟨a, v⟩ := e
    by_cases ha : a = key
    · by_cases hk : k = key
      · simp [put, get?, ha, hk]
      · simp [put, get?, ha, hk, Ne.symm hk]
    · simp only [put, ha, if_false]
      by_cases hk : a = k
      · simp [get?, hk, show k ≠ key from hk ▸ ha]
      · have h1 : get? ((a, v) :: put key value es) k = get? (put key value es) k := by
          simp [get?, hk]
        have h2 : get? ((a, v) :: es) k = get? es k := by simp [get?, hk]
        rw [h1, h2, ih]

theorem keys_put (es : Assoc α) (key : String) (value : α) :
    keys (put key value es) = if key ∈ keys es then keys es else keys es ++ [key] := by
  induction es with
  | nil => simp [put, keys]
  | cons e es ih =>
    obtain ⟨a, v⟩ := e
    by_cases ha : a = key
    · simp [put, keys, ha]
    · have : keys ((a, v) :: es) = a :: keys es := rfl
      simp only [put, ha, if_false, this]
      have h2 : keys ((a, v) :: put key value es) = a :: keys (put key value es) := rfl
      rw [h2, ih]
      by_cases hm : key ∈ keys es
      · simp [hm]
      · simp [hm, Ne.symm ha]

theorem distinct_put {es : Assoc α} (h : es.Distinct) (key : String) (value : α) :
    (put key value es).Distinct := by
  unfold Distinct at *
  rw [keys_put]
  split
  · exact h
  · rename_i hm
    rw [List.nodup_append]
    refine ⟨h, by simp, ?_⟩
    intro a ha b hb hab
    simp at hb
    exact hm (hb ▸ hab ▸ ha)

theorem distinct_erase {es : Assoc α} (h : es.Distinct) (key : String) :
    (erase key es).Distinct :=
  (List.Sublist.map _ List.filter_sublist).nodup h

end Assoc
end Stencil
