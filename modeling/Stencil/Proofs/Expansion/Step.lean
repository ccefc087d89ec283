import Stencil.Component.Expansion
/-!
Steps of expansion: how they end, which of them cannot fail, and what they preserve. A step that
fails still leaves a state.
-/
namespace Stencil.Expansion
open Markup

abbrev Outcome (α : Type) := EStateM.Result CompileError Expansion α

namespace Outcome
variable {α β : Type}

def map (f : α → β) : Outcome α → Outcome β
  | .ok a s => .ok (f a) s
  | .error e s => .error e s

/-- The state that is left, after a failure too. -/
def state : Outcome α → Expansion
  | .ok _ s => s
  | .error _ s => s

@[simp] theorem map_ok (f : α → β) (a : α) (s : Expansion) : map f (.ok a s) = .ok (f a) s := rfl

@[simp] theorem map_error (f : α → β) (e : CompileError) (s : Expansion) :
    map f (.error e s : Outcome α) = .error e s := rfl

@[simp] theorem state_ok (a : α) (s : Expansion) : state (.ok a s : Outcome α) = s := rfl

@[simp] theorem state_error (e : CompileError) (s : Expansion) :
    state (.error e s : Outcome α) = s := rfl

@[simp] theorem state_map (f : α → β) (r : Outcome α) : (map f r).state = r.state := by
  cases r <;> rfl

theorem eq_ok_of_map {f : α → β} {r : Outcome α} {b : β} {s : Expansion}
    (h : map f r = .ok b s) : ∃ a, r = .ok a s ∧ f a = b := by
  cases r with
  | ok a s' =>
    simp only [map_ok, EStateM.Result.ok.injEq] at h
    exact ⟨a, by rw [h.2], h.1⟩
  | error e s' => simp at h

end Outcome

section
variable {α β : Type}

theorem run_bind_ok {m : Expand α} {f : α → Expand β} {s s' : Expansion} {a : α}
    (h : m.run s = .ok a s') : (m >>= f).run s = (f a).run s' := by
  rw [EStateM.run_bind, h]

theorem run_bind_error {m : Expand α} {f : α → Expand β} {s s' : Expansion} {e : CompileError}
    (h : m.run s = .error e s') : (m >>= f).run s = .error e s' := by
  rw [EStateM.run_bind, h]

theorem eq_ok_of_bind {m : Expand α} {f : α → Expand β} {s s' : Expansion} {b : β}
    (h : (m >>= f).run s = .ok b s') :
    ∃ a s₁, m.run s = .ok a s₁ ∧ (f a).run s₁ = .ok b s' := by
  rw [EStateM.run_bind] at h
  cases hm : m.run s with
  | ok a s₁ =>
    rw [hm] at h
    exact ⟨a, s₁, rfl, h⟩
  | error e s₁ =>
    rw [hm] at h
    cases h

theorem eq_error_of_bind {m : Expand α} {f : α → Expand β} {s s' : Expansion} {e : CompileError}
    (h : (m >>= f).run s = .error e s') :
    m.run s = .error e s' ∨ ∃ a s₁, m.run s = .ok a s₁ ∧ (f a).run s₁ = .error e s' := by
  rw [EStateM.run_bind] at h
  cases hm : m.run s with
  | ok a s₁ =>
    rw [hm] at h
    exact .inr ⟨a, s₁, rfl, h⟩
  | error e' s₁ =>
    rw [hm] at h
    injection h with error state
    exact .inl (by rw [error, state])

theorem run_get_bind (f : Expansion → Expand β) (s : Expansion) :
    (get >>= f).run s = (f s).run s := rfl

theorem run_bind_pure (m : Expand α) (f : α → β) (s : Expansion) :
    (m >>= fun a => pure (f a)).run s = Outcome.map f (m.run s) := by
  rw [EStateM.run_bind]
  cases m.run s <;> rfl

/-! ### Steps that cannot fail -/

def Total (m : Expand α) : Prop := ∀ s, ∃ a s', m.run s = .ok a s'

theorem total_pure (a : α) : Total (pure a) := fun s => ⟨a, s, rfl⟩

theorem total_get : Total get := fun s => ⟨s, s, rfl⟩

theorem total_modify (f : Expansion → Expansion) : Total (modify f) := fun s => ⟨(), f s, rfl⟩

theorem total_bind {m : Expand α} {f : α → Expand β} (hm : Total m) (hf : ∀ a, Total (f a)) :
    Total (m >>= f) := by
  intro s
  obtain ⟨a, s₁, h₁⟩ := hm s
  obtain ⟨b, s₂, h₂⟩ := hf a s₁
  exact ⟨b, s₂, by rw [EStateM.run_bind, h₁]; exact h₂⟩

theorem total_foldlM {f : β → α → Expand β} (hf : ∀ b a, Total (f b a)) (as : List α) (b : β) :
    Total (as.foldlM f b) := by
  induction as generalizing b with
  | nil => exact total_pure b
  | cons a as ih => exact total_bind (hf b a) ih

theorem total_forM {f : α → Expand Unit} (hf : ∀ a, Total (f a)) (as : List α) :
    Total (as.forM f) := by
  induction as with
  | nil => exact total_pure ()
  | cons a as ih => exact total_bind (hf a) fun _ => ih

theorem Total.ne_error {m : Expand α} (total : Total m) {s s' : Expansion} {e : CompileError} :
    m.run s ≠ .error e s' := by
  intro h
  obtain ⟨a, t, run⟩ := total s
  rw [run] at h
  cases h

theorem total_mapM {f : α → Expand β} (hf : ∀ a, Total (f a)) (as : List α) :
    Total (as.mapM f) := by
  induction as with
  | nil => exact total_pure []
  | cons a as ih =>
    rw [List.mapM_cons]
    exact total_bind (hf a) fun b => total_bind ih fun bs => total_pure (b :: bs)

theorem total_modifyArena (f : Arena → Arena) : Total (modifyArena f) := total_modify _

theorem total_alloc (c : Content) : Total (alloc c) := fun _ => ⟨_, _, rfl⟩

theorem total_takeChildren (id : NodeId) : Total (takeChildren id) := fun _ => ⟨_, _, rfl⟩

theorem total_graftAll (ts : List Tree) : Total (graftAll ts) :=
  total_mapM (fun _ _ => ⟨_, _, rfl⟩) ts

theorem total_logUnknown (scene : Scene) (id : String) : Total (logUnknown scene id) :=
  total_modify _

theorem total_holdContent (supplied : Assoc (List NodeId)) (name : String) (slot : NodeId) :
    Total (holdContent supplied name slot) := by
  refine total_bind total_get fun _ => total_bind (total_alloc _) fun holder => ?_
  dsimp only
  split
  · exact total_bind (total_pure _) fun _ => total_bind (total_modifyArena _) fun _ =>
      total_pure holder
  · exact total_bind (total_takeChildren slot) fun _ => total_bind (total_modifyArena _) fun _ =>
      total_pure holder

theorem total_receive (scene : Scene) (host : Option NodeId) : Total (receive scene host) := by
  cases host with
  | none => exact total_pure _
  | some host =>
    refine total_bind (fun s => ?_) fun _ => total_bind ?_ fun _ => total_pure _
    · rw [mergeHost, run_get_bind]
      split
      · exact ⟨_, _, rfl⟩
      · exact ⟨_, _, rfl⟩
    · exact total_bind (total_takeChildren host) fun ids => total_foldlM (fun _ _ =>
        total_bind total_get fun _ => total_bind (total_modifyArena _) fun _ => total_pure _) ids _

theorem total_substituteAttribute (values : Values) (site : AttributeSite) :
    Total (substituteAttribute values site) := by
  refine total_bind total_get fun s => ?_
  dsimp only
  split
  · exact total_pure ()
  · split
    · exact total_pure ()
    · split
      · split
        · exact total_bind (total_modify _) fun _ => total_modifyArena _
        · exact total_modifyArena _
      · exact total_modifyArena _

theorem total_captureRefs (sites : Sites) (hasClient : Bool) :
    Total (captureRefs sites hasClient) := by
  refine total_foldlM (fun refs node => ?_) _ _
  refine total_bind total_get fun _ => total_bind (total_modifyArena _) fun _ => ?_
  split
  · exact total_pure refs
  · split
    · exact total_pure refs
    · exact total_bind total_get fun _ => total_bind (total_modify _) fun _ => total_pure _

theorem total_bindRefs (c : Component) (context : String) (o : Opened) :
    Total (bindRefs c context o) := by
  refine total_bind (total_captureRefs _ _) fun refs => ?_
  split
  · exact total_bind (total_modify _) fun _ => total_pure refs
  · exact total_pure refs

end

/-! ### What steps preserve -/

section
variable {α β : Type} {I : Expansion → Prop}

def Preserves (I : Expansion → Prop) (m : Expand α) : Prop :=
  ∀ s, I s → I (Outcome.state (m.run s))

theorem preserves_pure (a : α) : Preserves I (pure a) := fun _ h => h

theorem preserves_throw (e : CompileError) : Preserves I (throw e : Expand α) := fun _ h => h

theorem preserves_get : Preserves I get := fun _ h => h

theorem preserves_modify {f : Expansion → Expansion} (hf : ∀ s, I s → I (f s)) :
    Preserves I (modify f) := hf

theorem preserves_bind {m : Expand α} {f : α → Expand β} (hm : Preserves I m)
    (hf : ∀ a, Preserves I (f a)) : Preserves I (m >>= f) := by
  intro s h
  have after := hm s h
  rw [EStateM.run_bind]
  cases hr : m.run s with
  | ok a s' =>
    rw [hr] at after
    exact hf a s' after
  | error e s' =>
    rw [hr] at after
    exact after

theorem preserves_foldlM_mem {f : β → α → Expand β} {as : List α}
    (hf : ∀ a ∈ as, ∀ b, Preserves I (f b a)) (b : β) : Preserves I (as.foldlM f b) := by
  induction as generalizing b with
  | nil => exact fun _ h => h
  | cons a as ih =>
    rw [List.forall_mem_cons] at hf
    exact preserves_bind (hf.1 b) fun b => ih hf.2 b

theorem preserves_foldlM {f : β → α → Expand β} (hf : ∀ b a, Preserves I (f b a)) (as : List α)
    (b : β) : Preserves I (as.foldlM f b) :=
  preserves_foldlM_mem (fun a _ b => hf b a) b

theorem preserves_forM_mem {f : α → Expand Unit} {as : List α} (hf : ∀ a ∈ as, Preserves I (f a)) :
    Preserves I (as.forM f) := by
  induction as with
  | nil => exact fun _ h => h
  | cons a as ih =>
    rw [List.forall_mem_cons] at hf
    exact preserves_bind hf.1 fun _ => ih hf.2

theorem preserves_forM {f : α → Expand Unit} (hf : ∀ a, Preserves I (f a)) (as : List α) :
    Preserves I (as.forM f) :=
  preserves_forM_mem fun a _ => hf a

theorem preserves_mapM {f : α → Expand β} (hf : ∀ a, Preserves I (f a)) (as : List α) :
    Preserves I (as.mapM f) := by
  induction as with
  | nil => exact preserves_pure []
  | cons a as ih =>
    rw [List.mapM_cons]
    exact preserves_bind (hf a) fun b => preserves_bind ih fun bs => preserves_pure (b :: bs)

theorem preserves_map {f : α → β} {m : Expand α} (hm : Preserves I m) : Preserves I (f <$> m) := by
  rw [map_eq_pure_bind]
  exact preserves_bind hm fun a => preserves_pure (f a)

theorem Preserves.of_ok {m : Expand α} (h : Preserves I m) {s s' : Expansion} {a : α} (start : I s)
    (run : m.run s = .ok a s') : I s' := by
  have after := h s start
  rwa [run] at after

theorem Preserves.of_error {m : Expand α} (h : Preserves I m) {s s' : Expansion} {e : CompileError}
    (start : I s) (run : m.run s = .error e s') : I s' := by
  have after := h s start
  rwa [run] at after

end

/-! ### The values of an instance -/

section
variable {scene : Scene} {c : Component} {context : String} {s s' : Expansion}

/-- A result of a script comes from the cache, or it is the answer to the request and goes there. -/
theorem evaluate_ok {script : String} {values : Values} {d : Computed}
    (h : (evaluate scene c script context values).run s = .ok d s') :
    (Assoc.get? s.cache context = some d ∧ s' = s) ∨
    (Assoc.get? s.cache context = none ∧ (answer scene c script values).1 = .ok d ∧
      s' = { s with
        logs := s.logs ++ (answer scene c script values).2
        cache := s.cache.put context d }) := by
  rw [evaluate, run_get_bind] at h
  cases found : Assoc.get? s.cache context with
  | some done =>
    rw [found] at h
    cases h
    exact .inl ⟨rfl, rfl⟩
  | none =>
    rw [found] at h
    refine .inr ⟨rfl, ?_⟩
    dsimp only at h
    rcases ha : answer scene c script values with ⟨result, logs⟩
    rw [ha] at h
    cases result with
    | error e => cases h
    | ok done =>
      cases h
      exact ⟨rfl, rfl⟩

/-- The steps that open an instance: it receives values and content, gets its nodes, computes its
values and puts them into attributes. -/
theorem openInstance_ok {host : Option NodeId} {extra : Values} {o : Opened}
    (h : (openInstance scene c context host extra).run s = .ok o s') :
    ∃ values s₁ s₂, (receive scene host).run s = .ok (values, o.supplied) s₁ ∧
      o.own = values.putAll extra ∧
      o.fragment = (c.instantiate s₁.arena).1 ∧ o.sites = (c.instantiate s₁.arena).2.1 ∧
      (compute scene c context o.own).run { s₁ with arena := (c.instantiate s₁.arena).2.2 } =
        .ok o.given s₂ ∧
      (o.sites.attributes.forM (substituteAttribute o.values)).run s₂ = .ok () s' := by
  rw [openInstance] at h
  obtain ⟨⟨values, supplied⟩, s₁, received, h⟩ := eq_ok_of_bind h
  dsimp only at h
  rw [run_get_bind] at h
  obtain ⟨_, s₁', grafted, h⟩ := eq_ok_of_bind h
  cases grafted
  obtain ⟨given, s₂, computed, h⟩ := eq_ok_of_bind h
  obtain ⟨_, s₃, filled, h⟩ := eq_ok_of_bind h
  cases h
  exact ⟨values, s₁, s₂, received, rfl, rfl, rfl, computed, filled⟩

/-- An instance that cannot be opened has its nodes, but its script has failed. -/
theorem openInstance_error {host : Option NodeId} {extra : Values} {e : CompileError}
    (h : (openInstance scene c context host extra).run s = .error e s') :
    ∃ values supplied s₁, (receive scene host).run s = .ok (values, supplied) s₁ ∧
      (compute scene c context (values.putAll extra)).run
        { s₁ with arena := (c.instantiate s₁.arena).2.2 } = .error e s' := by
  rw [openInstance] at h
  rcases eq_error_of_bind h with h | ⟨⟨values, supplied⟩, s₁, received, h⟩
  · exact absurd h (total_receive scene host).ne_error
  · dsimp only at h
    rw [run_get_bind] at h
    refine ⟨values, supplied, s₁, received, ?_⟩
    rcases eq_error_of_bind h with h | ⟨_, s₁', grafted, h⟩
    · exact absurd h (total_modify _).ne_error
    · cases grafted
      rcases eq_error_of_bind h with h | ⟨given, s₂, computed, h⟩
      · exact h
      · rcases eq_error_of_bind h with h | ⟨_, s₃, filled, h⟩
        · exact absurd h (total_forM (total_substituteAttribute _) _).ne_error
        · cases h

end

end Stencil.Expansion
