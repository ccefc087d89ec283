import Stencil.Component.Expansion
/-!
Values that have a property. All ways in which values come to an instance keep it: from the page, from
the attributes of a host, from a component value, and from a script.
-/
namespace Stencil
open Markup

namespace Value

mutual

/-- The value is text, or a list of such values. -/
def Plain : Value → Prop
  | text _ => True
  | markup _ => False
  | component _ _ => False
  | list items => PlainAll items

def PlainAll : List Value → Prop
  | [] => True
  | v :: rest => v.Plain ∧ PlainAll rest

end

theorem plainAll_iff {items : List Value} : PlainAll items ↔ ∀ v ∈ items, v.Plain := by
  induction items with
  | nil => simp [PlainAll]
  | cons v rest ih => rw [PlainAll, ih, List.forall_mem_cons]

mutual

theorem plain_ofDocument? {j : Json} {v : Value} (h : ofDocument? j = some v) : v.Plain := by
  cases j with
  | null | object _ => simp [ofDocument?] at h
  | string _ | bool _ | number _ =>
    simp only [ofDocument?, Option.some.injEq] at h
    rw [← h]
    trivial
  | array items =>
    simp only [ofDocument?, Option.some.injEq] at h
    rw [← h, Plain]
    exact plain_ofDocumentItems items

theorem plain_ofDocumentItems (items : List Json) : PlainAll (ofDocumentItems items) := by
  match items with
  | [] => rw [ofDocumentItems]; trivial
  | j :: rest =>
    rw [ofDocumentItems]
    cases hv : ofDocument? j with
    | none => exact plain_ofDocumentItems rest
    | some v => exact ⟨plain_ofDocument? hv, plain_ofDocumentItems rest⟩

end

/-- A property of texts, and of the parts of a value that has it. -/
structure Inherits (P : Value → Prop) : Prop where
  text : ∀ s, P (.text s)
  item : ∀ {items v}, P (.list items) → v ∈ items → P v
  nested : ∀ {id values e}, P (.component id values) → e ∈ values → P e.2

/-- Besides, markup that has the property holds no slots. -/
structure Tame (P : Value → Prop) : Prop extends Inherits P where
  markup : ∀ {s d c}, P (.markup s) → Document.ofSource .page [] s = .ok d →
    c ∈ d.tree.contents → ∀ e, c.element? = some e → e.name ≠ "slot"

theorem tame_plain : Tame Plain where
  text _ := trivial
  item all mem := plainAll_iff.mp all _ mem
  nested none := none.elim
  markup none := none.elim

end Value

namespace Values

def All (P : Value → Prop) (values : Values) : Prop := ∀ e ∈ values, P e.2

variable {P : Value → Prop} {values more : Values}

theorem plain_ofDocument (declared : Assoc Yaml.Value) : All Value.Plain (ofDocument declared) := by
  intro e mem
  obtain ⟨⟨key, y⟩, -, found⟩ := List.mem_filterMap.mp mem
  obtain ⟨v, read, rfl⟩ := Option.map_eq_some_iff.mp found
  obtain ⟨j, -, read⟩ := Option.bind_eq_some_iff.mp read
  exact Value.plain_ofDocument? read

theorem All.get? (all : All P values) {key : String} {v : Value}
    (found : Assoc.get? values key = some v) : P v := by
  obtain ⟨e, here, rfl⟩ := Option.map_eq_some_iff.mp found
  exact all e (List.mem_of_find?_eq_some here)

theorem all_put (all : All P values) {key : String} {v : Value} (own : P v) :
    All P (values.put key v) := by
  induction values with
  | nil =>
    intro e mem
    rw [Assoc.put, List.mem_singleton] at mem
    rw [mem]
    exact own
  | cons e rest ih =>
    obtain ⟨k, old⟩ := e
    obtain ⟨head, tail⟩ := List.forall_mem_cons.mp all
    rw [Assoc.put]
    split
    · exact List.forall_mem_cons.mpr ⟨own, tail⟩
    · exact List.forall_mem_cons.mpr ⟨head, ih tail⟩

theorem all_foldl {f : Values → String × Value → Values}
    (step : ∀ values e, All P values → P e.2 → All P (f values e)) (all : All P values)
    (others : All P more) : All P (more.foldl f values) := by
  induction more generalizing values with
  | nil => exact all
  | cons e rest ih =>
    obtain ⟨head, tail⟩ := List.forall_mem_cons.mp others
    exact ih (step values e all head) tail

theorem all_putAll (all : All P values) (others : All P more) : All P (values.putAll more) :=
  all_foldl (fun _ _ all own => all_put all own) all others

theorem all_putHostValue (all : All P values) {e : String × Value} (own : P e.2) :
    All P (Expansion.putHostValue values e) := by
  rw [Expansion.putHostValue]
  split
  · exact all_put (all_put all own) own
  · exact all_put all own

theorem all_hostValues (inherits : Value.Inherits P) (e : Element) {rich : Values} (all : All P rich) :
    All P (Expansion.hostValues e rich) := by
  rw [Expansion.hostValues, All, List.forall_mem_append]
  refine ⟨fun entry mem => ?_, all⟩
  obtain ⟨a, -, rfl⟩ := List.mem_map.mp mem
  exact inherits.text _

end Values

namespace Expansion

/-- The values in the pieces of a text are bound to its tokens. -/
theorem all_pieces {P : Value → Prop} {values : Values} (all : Values.All P values) (tokens : List Token) (text : List Char)
    {v : Value} (mem : .value v ∈ pieces values tokens text) : P v := by
  induction tokens generalizing text with
  | nil => simp [pieces] at mem
  | cons t ts ih =>
    rw [pieces] at mem
    split at mem
    · exact ih text mem
    · next before rest _ =>
      rcases List.mem_cons.mp mem with own | mem
      · cases own
      · rcases List.mem_cons.mp mem with own | mem
        · cases found : Assoc.get? values t.name with
          | none =>
            rw [found] at own
            cases own
          | some w =>
            rw [found] at own
            cases own
            exact all.get? found
        · exact ih rest mem

end Expansion
end Stencil
