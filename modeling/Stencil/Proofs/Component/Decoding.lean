import Stencil.Component.Value
/-!
Values that go through JSON. What is written is read back as it was, in its order, and reading fails
at nothing but an object that neither mark tells of.
-/
namespace Stencil

theorem Assoc.get?_cons {α : Type} (k key : String) (a : α) (es : Assoc α) :
    get? ((k, a) :: es) key = if k = key then some a else get? es key := by
  by_cases same : k = key
  · simp [get?, same]
  · simp [get?, same]

namespace Value

/-! ### Reading what has been written -/

mutual

theorem ofJson?_toJson (key : String) (v : Value) : ofJson? key v.toJson = .ok (some v) := by
  cases v with
  | text s => rfl
  | markup s =>
    have marked : textUnder? markupMark [(markupMark, .string s)] = some s := by
      simp [textUnder?, Assoc.get?_cons, Json.string?]
    rw [toJson, ofJson?, marked]
    rfl
  | component id values =>
    have plain : textUnder? markupMark
        [(componentMark, .string id), ("values", .object (entriesToJson values))] = none := by
      simp [textUnder?, componentMark, markupMark, Assoc.get?]
    have marked : textUnder? componentMark
        [(componentMark, .string id), ("values", .object (entriesToJson values))] = some id := by
      simp [textUnder?, Assoc.get?_cons, Json.string?]
    have nested : ofNested [(componentMark, .string id), ("values", .object (entriesToJson values))]
        = .ok values := by
      simp [ofNested, componentMark, ofEntries_entriesToJson values]
    rw [toJson, ofJson?, plain]
    dsimp only
    rw [marked]
    dsimp only
    rw [nested]
    rfl
  | list items =>
    rw [toJson, ofJson?, ofItems_itemsToJson key items]
    rfl

theorem ofItems_itemsToJson (key : String) (items : List Value) :
    ofItems key (itemsToJson items) = .ok items := by
  cases items with
  | nil => rfl
  | cons v rest =>
    rw [itemsToJson, ofItems, ofJson?_toJson key v, ofItems_itemsToJson key rest]
    rfl

theorem ofEntries_entriesToJson (values : List (String × Value)) :
    ofEntries (entriesToJson values) = .ok values := by
  cases values with
  | nil => rfl
  | cons e rest =>
    obtain ⟨key, v⟩ := e
    rw [entriesToJson, ofEntries, ofJson?_toJson key v, ofEntries_entriesToJson rest]
    rfl

end

/-! ### What is refused -/

/-- The object is neither markup nor a component. -/
def Unmarked (entries : List (String × Json)) : Prop :=
  textUnder? markupMark entries = none ∧ textUnder? componentMark entries = none

/-- The object is a component. One that has a text under the mark of markup as well is markup. -/
def IsComponent (entries : List (String × Json)) : Prop :=
  textUnder? markupMark entries = none ∧ (textUnder? componentMark entries).isSome

/-- The objects that are met on the way down through arrays and through the values of components,
each with the key that it is read under. -/
inductive Meets : String → Json → String → List (String × Json) → Prop where
  | here (key : String) (entries : List (String × Json)) : Meets key (.object entries) key entries
  | item {key items j k entries} (mem : j ∈ items) (inside : Meets key j k entries) :
      Meets key (.array items) k entries
  | value {key outer inner e k entries} (component : IsComponent outer)
      (values : Assoc.get? outer "values" = some (.object inner)) (mem : e ∈ inner)
      (inside : Meets e.1 e.2 k entries) : Meets key (.object outer) k entries

theorem ofNested_cons (key : String) (j : Json) (rest : List (String × Json)) :
    ofNested ((key, j) :: rest) =
      if key = "values" then
        match j with
        | .object inner => ofEntries inner
        | _ => .ok []
      else ofNested rest := by
  cases j <;> simp [ofNested]

mutual

/-- Reading fails at an object that it meets, and tells the key of that. -/
theorem meets_of_ofJson? {key : String} {j : Json} {e : UnknownObject}
    (failed : ofJson? key j = .error e) :
    ∃ entries, Meets key j e.key entries ∧ Unmarked entries := by
  cases j with
  | null | string _ | bool _ | number _ => cases failed
  | array items =>
    cases read : ofItems key items with
    | ok values => simp [ofJson?, read, bind, Except.bind, pure, Except.pure] at failed
    | error e' =>
      simp only [ofJson?, read, bind, Except.bind, Except.error.injEq] at failed
      obtain ⟨j, mem, entries, inside, unmarked⟩ := meets_of_ofItems read
      exact ⟨entries, failed ▸ .item mem inside, unmarked⟩
  | object outer =>
    cases markup : textUnder? markupMark outer with
    | some s => simp [ofJson?, markup, pure, Except.pure] at failed
    | none =>
      cases component : textUnder? componentMark outer with
      | none =>
        simp only [ofJson?, markup, component] at failed
        cases failed
        exact ⟨outer, .here key outer, markup, component⟩
      | some id =>
        cases read : ofNested outer with
        | ok values => simp [ofJson?, markup, component, read, bind, Except.bind, pure,
            Except.pure] at failed
        | error e' =>
          simp only [ofJson?, markup, component, read, bind, Except.bind,
            Except.error.injEq] at failed
          obtain ⟨inner, values, e₁, mem, entries, inside, unmarked⟩ := meets_of_ofNested read
          refine ⟨entries, failed ▸ .value ⟨markup, ?_⟩ values mem inside, unmarked⟩
          rw [component]
          rfl

theorem meets_of_ofItems {key : String} {items : List Json} {e : UnknownObject}
    (failed : ofItems key items = .error e) :
    ∃ j ∈ items, ∃ entries, Meets key j e.key entries ∧ Unmarked entries := by
  cases items with
  | nil => cases failed
  | cons j rest =>
    cases read : ofJson? key j with
    | error e' =>
      simp only [ofItems, read, bind, Except.bind, Except.error.injEq] at failed
      exact ⟨j, List.mem_cons_self, failed ▸ meets_of_ofJson? read⟩
    | ok v =>
      cases more : ofItems key rest with
      | ok values => simp [ofItems, read, more, bind, Except.bind, pure, Except.pure] at failed
      | error e' =>
        simp only [ofItems, read, more, bind, Except.bind, Except.error.injEq] at failed
        obtain ⟨j', mem, met⟩ := meets_of_ofItems more
        exact ⟨j', List.mem_cons_of_mem _ mem, failed ▸ met⟩

theorem meets_of_ofNested {outer : List (String × Json)} {e : UnknownObject}
    (failed : ofNested outer = .error e) :
    ∃ inner, Assoc.get? outer "values" = some (.object inner) ∧
      ∃ e₁ ∈ inner, ∃ entries, Meets e₁.1 e₁.2 e.key entries ∧ Unmarked entries := by
  cases outer with
  | nil => cases failed
  | cons first rest =>
    obtain ⟨k, j⟩ := first
    rw [ofNested_cons] at failed
    rw [Assoc.get?_cons]
    split at failed
    · next own =>
      rw [if_pos own]
      cases j with
      | null | string _ | bool _ | number _ | array _ => cases failed
      | object inner => exact ⟨inner, rfl, meets_of_ofEntries failed⟩
    · next other =>
      rw [if_neg other]
      exact meets_of_ofNested failed

theorem meets_of_ofEntries {inner : List (String × Json)} {e : UnknownObject}
    (failed : ofEntries inner = .error e) :
    ∃ e₁ ∈ inner, ∃ entries, Meets e₁.1 e₁.2 e.key entries ∧ Unmarked entries := by
  cases inner with
  | nil => cases failed
  | cons first rest =>
    obtain ⟨k, j⟩ := first
    cases read : ofJson? k j with
    | error e' =>
      simp only [ofEntries, read, bind, Except.bind, Except.error.injEq] at failed
      exact ⟨(k, j), List.mem_cons_self, failed ▸ meets_of_ofJson? read⟩
    | ok v =>
      cases more : ofEntries rest with
      | ok values => simp [ofEntries, read, more, bind, Except.bind, pure, Except.pure] at failed
      | error e' =>
        simp only [ofEntries, read, more, bind, Except.bind, Except.error.injEq] at failed
        obtain ⟨e₁, mem, met⟩ := meets_of_ofEntries more
        exact ⟨e₁, List.mem_cons_of_mem _ mem, failed ▸ met⟩

end

/-- An array is refused when one of its items is. -/
theorem ofItems_fails {key : String} {items : List Json} {j : Json} (mem : j ∈ items)
    (failed : ∃ e, ofJson? key j = .error e) : ∃ e, ofItems key items = .error e := by
  induction items with
  | nil => cases mem
  | cons first rest ih =>
    cases read : ofJson? key first with
    | error e => exact ⟨e, by simp [ofItems, read, bind, Except.bind]⟩
    | ok v =>
      rcases List.mem_cons.mp mem with rfl | mem
      · obtain ⟨e, failed⟩ := failed
        rw [failed] at read
        cases read
      · obtain ⟨e, more⟩ := ih mem
        exact ⟨e, by simp [ofItems, read, more, bind, Except.bind]⟩

theorem ofEntries_fails {inner : List (String × Json)} {e₁ : String × Json} (mem : e₁ ∈ inner)
    (failed : ∃ e, ofJson? e₁.1 e₁.2 = .error e) : ∃ e, ofEntries inner = .error e := by
  induction inner with
  | nil => cases mem
  | cons first rest ih =>
    cases read : ofJson? first.1 first.2 with
    | error e => exact ⟨e, by simp [ofEntries, read, bind, Except.bind]⟩
    | ok v =>
      rcases List.mem_cons.mp mem with rfl | mem
      · obtain ⟨e, failed⟩ := failed
        rw [failed] at read
        cases read
      · obtain ⟨e, more⟩ := ih mem
        exact ⟨e, by simp [ofEntries, read, more, bind, Except.bind]⟩

theorem ofNested_of_values {outer inner : List (String × Json)}
    (values : Assoc.get? outer "values" = some (.object inner)) :
    ofNested outer = ofEntries inner := by
  induction outer with
  | nil => cases values
  | cons first rest ih =>
    obtain ⟨k, j⟩ := first
    rw [Assoc.get?_cons] at values
    rw [ofNested_cons]
    split at values
    · next own =>
      cases values
      rw [if_pos own]
    · next other =>
      rw [if_neg other]
      exact ih values

/-- An object that neither mark tells of is refused wherever it is met. -/
theorem ofJson?_fails {key k : String} {j : Json} {entries : List (String × Json)}
    (met : Meets key j k entries) (unmarked : Unmarked entries) :
    ∃ e, ofJson? key j = .error e := by
  induction met with
  | here key entries => exact ⟨⟨key⟩, by simp [ofJson?, unmarked.1, unmarked.2, throw, throwThe,
      MonadExceptOf.throw]⟩
  | item mem inside ih =>
    obtain ⟨e, failed⟩ := ofItems_fails mem (ih unmarked)
    exact ⟨e, by simp [ofJson?, failed, bind, Except.bind]⟩
  | value component values mem inside ih =>
    obtain ⟨e, failed⟩ := ofEntries_fails mem (ih unmarked)
    obtain ⟨id, marked⟩ := Option.isSome_iff_exists.mp component.2
    rw [← ofNested_of_values values] at failed
    exact ⟨e, by simp [ofJson?, component.1, marked, failed, bind, Except.bind]⟩

/-- A bag of values that is written as JSON is read back as it was, its keys in their order at
every level. JSON is refused exactly when an object that is neither markup nor a component is met in
it. -/
theorem read_back_and_refused_iff (values : Values) (key : String) (j : Json) :
    (∃ entries, values.toJson = .object entries ∧ Values.ofJson? entries = .ok values) ∧
      ((∃ e, ofJson? key j = .error e) ↔
        ∃ k entries, Meets key j k entries ∧ Unmarked entries) := by
  constructor
  · exact ⟨entriesToJson values, rfl, ofEntries_entriesToJson values⟩
  · constructor
    · rintro ⟨e, failed⟩
      exact ⟨e.key, meets_of_ofJson? failed⟩
    · rintro ⟨k, entries, met, unmarked⟩
      exact ofJson?_fails met unmarked

end Value
end Stencil
