/-!
Computations that give a result have given one at each step.
-/
namespace Stencil
variable {ε ε' α β : Type}

theorem ok_of_bind {x : Except ε α} {f : α → Except ε β} {b : β} (done : (x >>= f) = .ok b) :
    ∃ a, x = .ok a ∧ f a = .ok b := by
  cases x with
  | error e => cases done
  | ok a => exact ⟨a, rfl, done⟩

theorem ok_of_mapError {x : Except ε α} {f : ε → ε'} {a : α} (done : x.mapError f = .ok a) :
    x = .ok a := by
  cases x with
  | error e => cases done
  | ok b =>
    cases done
    rfl

theorem ok_of_map {x : Except ε α} {f : α → β} {b : β} (done : x.map f = .ok b) :
    ∃ a, x = .ok a ∧ f a = b := by
  cases x with
  | error e => cases done
  | ok a => exact ⟨a, rfl, Except.ok.inj done⟩

theorem ok_of_toOption {x : Except ε α} {a : α} (done : x.toOption = some a) : x = .ok a := by
  cases x with
  | error e => cases done
  | ok b => rw [Option.some.inj done]

theorem ok_of_mapM {f : α → Except ε β} {xs : List α} {ys : List β} (done : xs.mapM f = .ok ys) :
    ys = xs.filterMap (fun x => (f x).toOption) ∧ ∀ x ∈ xs, ∃ y, f x = .ok y := by
  induction xs generalizing ys with
  | nil =>
    cases done
    exact ⟨rfl, fun x mem => by cases mem⟩
  | cons x xs ih =>
    rw [List.mapM_cons] at done
    obtain ⟨y, here, rest⟩ := ok_of_bind done
    obtain ⟨zs, found, rest⟩ := ok_of_bind rest
    cases rest
    obtain ⟨same, all⟩ := ih found
    refine ⟨?_, fun z mem => ?_⟩
    · rw [List.filterMap_cons, here, ← same]
      rfl
    · rcases List.mem_cons.mp mem with rfl | mem
      · exact ⟨y, here⟩
      · exact all z mem

theorem exists_mapM {f : α → Except ε β} {xs : List α} (all : ∀ x ∈ xs, ∃ y, f x = .ok y) :
    ∃ ys, xs.mapM f = .ok ys := by
  induction xs with
  | nil => exact ⟨[], rfl⟩
  | cons x xs ih =>
    obtain ⟨⟨y, here⟩, rest⟩ := List.forall_mem_cons.mp all
    obtain ⟨ys, found⟩ := ih rest
    rw [List.mapM_cons, here, found]
    exact ⟨_, rfl⟩

end Stencil
