import Mathlib.Data.List.Nodup
import Stencil.Proofs.Expansion.Run
/-!
What the contexts of instances decide. Results of scripts and the records of instances are kept by
context. Two instances of a page can have one context, since an element is counted in its parent and
not in the whole of what is expanded, so the first of them can decide what the second one gets.
-/
namespace Stencil.Expansion
open Markup

namespace Instance

/-- What the sandbox answers to the request of the instance itself. -/
def answer (scene : Scene) (i : Instance) : Option Computed :=
  i.component.script.bind fun script =>
    (Expansion.answer scene i.component script i.own).1.toOption

/-- The record for a client behavior that a script has given. -/
def recordOf (i : Instance) (d : Computed) : Option ClientInstance :=
  d.client.map fun source =>
    clientInstance i.context i.component source (i.own.putAll d.values) i.refs

/-- The record of the instance, made of its own values and elements. -/
def record? (scene : Scene) (i : Instance) : Option ClientInstance :=
  (i.answer scene).bind i.recordOf

end Instance

/-! ### Steps that leave results and records alone -/

section
variable {α β : Type}

def Quiet (m : Expand α) : Prop :=
  ∀ cache records, Preserves (fun s => s.cache = cache ∧ s.instances = records) m

theorem Quiet.same {m : Expand α} (quiet : Quiet m) {s s' : Expansion} {a : α}
    (run : m.run s = .ok a s') : s'.cache = s.cache ∧ s'.instances = s.instances :=
  (quiet s.cache s.instances).of_ok ⟨rfl, rfl⟩ run

theorem quiet_pure (a : α) : Quiet (pure a) := fun _ _ => preserves_pure a

theorem quiet_get : Quiet get := fun _ _ => preserves_get

theorem quiet_bind {m : Expand α} {f : α → Expand β} (hm : Quiet m) (hf : ∀ a, Quiet (f a)) :
    Quiet (m >>= f) :=
  fun cache records => preserves_bind (hm cache records) fun a => hf a cache records

theorem quiet_foldlM {f : β → α → Expand β} (hf : ∀ b a, Quiet (f b a)) (as : List α) (b : β) :
    Quiet (as.foldlM f b) :=
  fun cache records => preserves_foldlM (fun b a => hf b a cache records) as b

theorem quiet_forM {f : α → Expand Unit} (hf : ∀ a, Quiet (f a)) (as : List α) :
    Quiet (as.forM f) :=
  fun cache records => preserves_forM (fun a => hf a cache records) as

theorem quiet_modifyArena (f : Arena → Arena) : Quiet (modifyArena f) := fun _ _ _ h => h

theorem quiet_alloc (c : Content) : Quiet (alloc c) := fun _ _ _ h => h

theorem quiet_takeChildren (id : NodeId) : Quiet (takeChildren id) := fun _ _ _ h => h

theorem quiet_graftAll (ts : List Tree) : Quiet (graftAll ts) :=
  fun _ _ => preserves_mapM (fun _ _ h => h) ts

theorem quiet_logUnknown (scene : Scene) (id : String) : Quiet (logUnknown scene id) :=
  fun _ _ _ h => h

theorem quiet_holdContent (supplied : Assoc (List NodeId)) (name : String) (slot : NodeId) :
    Quiet (holdContent supplied name slot) := by
  refine quiet_bind quiet_get fun _ => quiet_bind (quiet_alloc _) fun holder => ?_
  dsimp only
  split
  · exact quiet_bind (quiet_pure _) fun _ => quiet_bind (quiet_modifyArena _) fun _ =>
      quiet_pure holder
  · exact quiet_bind (quiet_takeChildren slot) fun _ => quiet_bind (quiet_modifyArena _) fun _ =>
      quiet_pure holder

theorem quiet_mergeHost (host : NodeId) (values : Values) : Quiet (mergeHost host values) := by
  intro cache records s h
  rw [mergeHost, run_get_bind]
  split
  · exact h
  · exact h

theorem quiet_partitionSlots (host : NodeId) : Quiet (partitionSlots host) :=
  quiet_bind (quiet_takeChildren host) fun ids =>
    quiet_foldlM (fun _ _ => quiet_bind quiet_get fun _ =>
      quiet_bind (quiet_modifyArena _) fun _ => quiet_pure _) ids _

theorem quiet_receive (scene : Scene) (host : Option NodeId) : Quiet (receive scene host) := by
  cases host with
  | none => exact quiet_pure _
  | some host =>
    exact quiet_bind (quiet_mergeHost host _) fun _ =>
      quiet_bind (quiet_partitionSlots host) fun _ => quiet_pure _

theorem quiet_substituteAttribute (values : Values) (site : AttributeSite) :
    Quiet (substituteAttribute values site) := by
  refine quiet_bind quiet_get fun s => ?_
  dsimp only
  split
  · exact quiet_pure ()
  · split
    · exact quiet_pure ()
    · split
      · split
        · exact quiet_bind (fun _ _ _ h => h) fun _ => quiet_modifyArena _
        · exact quiet_modifyArena _
      · exact quiet_modifyArena _

theorem quiet_captureRefs (sites : Sites) (hasClient : Bool) :
    Quiet (captureRefs sites hasClient) := by
  refine quiet_foldlM (fun refs node => ?_) _ _
  refine quiet_bind quiet_get fun _ => quiet_bind (quiet_modifyArena _) fun _ => ?_
  split
  · exact quiet_pure refs
  · split
    · exact quiet_pure refs
    · exact quiet_bind quiet_get fun _ => quiet_bind (fun _ _ _ h => h) fun _ => quiet_pure _

end

/-! ### Runs that succeed, from step to step -/

/-- A property of runs that succeed holds if steps that leave results and records alone have it, if
runs that follow one another have it together, and if the making of one instance adds it. -/
theorem track {scene : Scene} {R : Expansion → List Instance → Expansion → Prop}
    (quiet : ∀ {α : Type} {m : Expand α} {s s' : Expansion} {a : α},
      Quiet m → m.run s = .ok a s' → R s [] s')
    (trans : ∀ {s made s₁ more s₂}, R s made s₁ → R s₁ more s₂ → R s (made ++ more) s₂)
    (make : ∀ {id context c host extra s o s₁ made s₂ refs s₃},
      (openInstance scene c context host extra).run s = .ok o s₁ → R s₁ made s₂ →
      (bindRefs c context o).run s₂ = .ok refs s₃ → R s (o.made id context c refs :: made) s₃)
    {call : Call} {s s' : Expansion} {made : List Instance} {r : Outcome call.Out} {a : call.Out}
    (run : Run scene call s made r) (done : r = .ok a s') : R s made s' := by
  have same : ∀ s, R s [] s := fun s => quiet (quiet_pure ()) rfl
  have before : ∀ {s made s₁ s₂}, R s [] s₁ → R s₁ made s₂ → R s made s₂ :=
    fun first second => trans first second
  have after : ∀ {s made s₁ s₂}, R s made s₁ → R s₁ [] s₂ → R s made s₂ := by
    intro s made s₁ s₂ first second
    have both := trans first second
    rwa [List.append_nil] at both
  induction run generalizing s' with
  | tooDeep _ | refused _ _ | textsStop _ _ _ | withinStop _ _ _ _ _ | textsHeadStop _
  | richTextStop _ _ _ | piecesValueStop _ | valueMarkupStop _ | valueComponentStop _
  | valuesHeadStop _ | hostsHeadStop _ | hostStop _ _ | slotsStop _ _ _ => cases done
  | unknown absent logged =>
    cases done
    exact quiet (quiet_logUnknown _ _) logged
  | created known opened texts bound within slots iht ihw ihs =>
    obtain ⟨_, rfl, -⟩ := Outcome.eq_ok_of_map done
    exact trans (make opened (iht rfl) bound) (trans (ihw rfl) (ihs rfl))
  | textsNil | noText _ | piecesNil | valuesNil | hostsNil | noHost _ | slotsNil =>
    cases done
    exact same _
  | textsCons head tail ih iht => exact trans (ih rfl) (iht done)
  | plainText found plain written =>
    cases done
    exact quiet (quiet_modifyArena _) written
  | richText found rich placed replaced ih =>
    cases done
    exact after (ih rfl) (quiet (quiet_modifyArena _) replaced)
  | piecesEmpty empty tail ih => exact ih done
  | piecesLiteral more added tail ih =>
    obtain ⟨_, rfl, -⟩ := Outcome.eq_ok_of_map done
    exact before (quiet (quiet_alloc _) added) (ih rfl)
  | piecesValue head tail ih iht =>
    obtain ⟨_, rfl, -⟩ := Outcome.eq_ok_of_map done
    exact trans (ih rfl) (iht rfl)
  | valueText added =>
    cases done
    exact quiet (quiet_alloc _) added
  | valueMarkup read grafted =>
    cases done
    exact quiet (quiet_graftAll _) grafted
  | valueComponent body taken ih =>
    cases done
    exact after (ih rfl) (quiet (quiet_takeChildren _) taken)
  | valueUnknown body added ih =>
    cases done
    exact after (ih rfl) (quiet (quiet_alloc _) added)
  | valueList all ih => exact ih done
  | valuesCons head tail ih iht =>
    obtain ⟨_, rfl, -⟩ := Outcome.eq_ok_of_map done
    exact trans (ih rfl) (iht rfl)
  | within all ih => exact ih done
  | hostsCons head tail ih iht => exact trans (ih rfl) (iht done)
  | hostReplaced found body taken replaced ih =>
    cases done
    exact after (after (ih rfl) (quiet (quiet_takeChildren _) taken))
      (quiet (quiet_modifyArena _) replaced)
  | hostBottom found body ih =>
    cases done
    exact ih rfl
  | hostKept found body inside ih ihi => exact trans (ih rfl) (ihi done)
  | slotsGone outside tail ih => exact ih done
  | slotsCons inside held content taken replaced tail ih iht =>
    have expanded := before (quiet (quiet_holdContent _ _ _) held) (ih rfl)
    have placed := after (after expanded (quiet (quiet_takeChildren _) taken))
      (quiet (quiet_modifyArena _) replaced)
    exact trans placed (iht done)

/-! ### Results of scripts -/

/-- What a run that succeeds does to the results of scripts. -/
structure Cached (scene : Scene) (s : Expansion) (made : List Instance) (s' : Expansion) :
    Prop where
  kept : ∀ {context d}, Assoc.get? s.cache context = some d →
    Assoc.get? s'.cache context = some d
  given : ∀ {i d}, i ∈ made → i.given = some d → Assoc.get? s'.cache i.context = some d
  /-- A new result answers the request of one of the instances. -/
  origin : ∀ {context d}, Assoc.get? s'.cache context = some d →
    Assoc.get? s.cache context = some d ∨
      ∃ i ∈ made, i.context = context ∧ i.answer scene = some d
  scripted : ∀ {i}, i ∈ made → (i.given.isSome ↔ i.component.script.isSome)

namespace Cached
variable {scene : Scene} {s s₁ s₂ : Expansion} {made more : List Instance}

theorem of_cache_eq (same : s₁.cache = s.cache) : Cached scene s [] s₁ where
  kept := by rw [same]; exact id
  given := by simp
  origin := by rw [same]; exact .inl
  scripted := by simp

theorem trans (first : Cached scene s made s₁) (second : Cached scene s₁ more s₂) :
    Cached scene s (made ++ more) s₂ where
  kept old := second.kept (first.kept old)
  given := by
    intro i d mem given
    rcases List.mem_append.mp mem with mem | mem
    · exact second.kept (first.given mem given)
    · exact second.given mem given
  origin := by
    intro context d found
    rcases second.origin found with old | ⟨i, mem, own, answered⟩
    · rcases first.origin old with older | ⟨i, mem, own, answered⟩
      · exact .inl older
      · exact .inr ⟨i, List.mem_append_left _ mem, own, answered⟩
    · exact .inr ⟨i, List.mem_append_right _ mem, own, answered⟩
  scripted := by
    intro i mem
    rcases List.mem_append.mp mem with mem | mem
    · exact first.scripted mem
    · exact second.scripted mem

theorem single {i : Instance}
    (kept : ∀ {context d}, Assoc.get? s.cache context = some d →
      Assoc.get? s₁.cache context = some d)
    (given : ∀ {d}, i.given = some d → Assoc.get? s₁.cache i.context = some d)
    (origin : ∀ {context d}, Assoc.get? s₁.cache context = some d →
      Assoc.get? s.cache context = some d ∨ i.context = context ∧ i.answer scene = some d)
    (scripted : i.given.isSome ↔ i.component.script.isSome) : Cached scene s [i] s₁ where
  kept := kept
  given := by
    intro j d mem
    rw [List.mem_singleton.mp mem]
    exact given
  origin := by
    intro context d found
    rcases origin found with old | own
    · exact .inl old
    · exact .inr ⟨i, List.mem_singleton_self i, own⟩
  scripted := by
    intro j mem
    rw [List.mem_singleton.mp mem]
    exact scripted

/-- Opening an instance takes its result from the context, or puts the answer there. -/
theorem cache_of_open {context : String} {c : Component} {host : Option NodeId} {extra : Values}
    {o : Opened} (opened : (openInstance scene c context host extra).run s = .ok o s₁) :
    (c.script = none ∧ o.given = none ∧ s₁.cache = s.cache) ∨
    ∃ script d, c.script = some script ∧ o.given = some d ∧
      ((Assoc.get? s.cache context = some d ∧ s₁.cache = s.cache) ∨
        (Assoc.get? s.cache context = none ∧ (answer scene c script o.own).1 = .ok d ∧
          s₁.cache = s.cache.put context d)) := by
  obtain ⟨values, t₁, t₂, received, -, -, -, computed, filled⟩ := openInstance_ok opened
  have start := ((quiet_receive scene host).same received).1
  have rest := ((quiet_forM (quiet_substituteAttribute o.values) _).same filled).1
  rw [rest, ← start]
  cases script : c.script with
  | none =>
    simp only [compute, script] at computed
    injection computed with given same
    exact .inl ⟨rfl, given.symm, by rw [← same]⟩
  | some source =>
    simp only [compute, script, map_eq_pure_bind] at computed
    obtain ⟨d, t₃, evaluated, done⟩ := eq_ok_of_bind computed
    injection done with given same
    refine .inr ⟨source, d, rfl, given.symm, ?_⟩
    rw [← same]
    rcases evaluate_ok evaluated with ⟨found, same⟩ | ⟨absent, answered, same⟩
    · exact .inl ⟨found, by rw [same]⟩
    · exact .inr ⟨absent, answered, by rw [same]⟩

theorem of_open {name context : String} {c : Component} {host : Option NodeId} {extra : Values}
    {o : Opened} {refs : List (String × String)}
    (opened : (openInstance scene c context host extra).run s = .ok o s₁) :
    Cached scene s [o.made name context c refs] s₁ := by
  rcases cache_of_open opened with ⟨script, given, cache⟩ |
    ⟨source, d, script, given, ⟨found, cache⟩ | ⟨absent, answered, cache⟩⟩
  · refine single (by rw [cache]; exact id) ?_ (by rw [cache]; exact .inl) ?_
    · simp [Opened.made, given]
    · simp [Opened.made, given, script]
  · refine single (by rw [cache]; exact id) ?_ (by rw [cache]; exact .inl) ?_
    · simp [Opened.made, given, cache, found]
    · simp [Opened.made, given, script]
  · refine single ?_ ?_ ?_ ?_
    · intro k old stored
      have other : k ≠ context := by
        rintro rfl
        rw [absent] at stored
        cases stored
      rw [cache, Assoc.get?_put, if_neg other]
      exact stored
    · simp [Opened.made, given, cache, Assoc.get?_put]
    · intro k new found
      rw [cache, Assoc.get?_put] at found
      split at found
      · next same =>
        cases found
        refine .inr ⟨same.symm, ?_⟩
        simp only [Instance.answer, Opened.made, script, Option.bind_some, answered]
        rfl
      · exact .inl found
    · simp [Opened.made, given, script]

theorem of_bind {c : Component} {context : String} {o : Opened} {refs : List (String × String)}
    (bound : (bindRefs c context o).run s = .ok refs s₁) : Cached scene s [] s₁ := by
  refine of_cache_eq ?_
  obtain ⟨found, t, captured, rest⟩ := eq_ok_of_bind bound
  rw [← ((quiet_captureRefs o.sites _).same captured).1]
  cases client : o.client with
  | none =>
    rw [client] at rest
    cases rest
    rfl
  | some source =>
    rw [client] at rest
    cases rest
    rfl

end Cached

theorem cached {scene : Scene} {call : Call} {s s' : Expansion} {made : List Instance}
    {a : call.Out} (run : Run scene call s made (.ok a s')) : Cached scene s made s' :=
  track (R := Cached scene) (fun quiet run => .of_cache_eq (quiet.same run).1) Cached.trans
    (by
      intro id context c host extra s o s₁ made s₂ refs s₃ opened between bound
      have after := between.trans (.of_bind bound)
      rw [List.append_nil] at after
      exact (Cached.of_open opened).trans after)
    run rfl

/-! ### Records of instances -/

/-- What a run that succeeds does to the records of instances. -/
structure Recorded (s : Expansion) (made : List Instance) (s' : Expansion) : Prop where
  kept : ∀ {e}, e ∈ s.instances → e ∈ s'.instances
  /-- An instance with a record has it, or the record of another one stands in its place. -/
  recorded : ∀ {i e}, i ∈ made → i.given.bind i.recordOf = some e →
    ∃ e' ∈ s'.instances, e'.context = e.context
  origin : ∀ {e}, e ∈ s'.instances →
    e ∈ s.instances ∨ ∃ i ∈ made, i.given.bind i.recordOf = some e
  distinct : (s.instances.map (·.context)).Nodup → (s'.instances.map (·.context)).Nodup

namespace Recorded
variable {s s₁ s₂ : Expansion} {made more : List Instance}

theorem of_instances_eq (same : s₁.instances = s.instances) : Recorded s [] s₁ where
  kept := by rw [same]; exact id
  recorded := by simp
  origin := by rw [same]; exact .inl
  distinct := by rw [same]; exact id

theorem trans (first : Recorded s made s₁) (second : Recorded s₁ more s₂) :
    Recorded s (made ++ more) s₂ where
  kept old := second.kept (first.kept old)
  recorded := by
    intro i e mem own
    rcases List.mem_append.mp mem with mem | mem
    · obtain ⟨e', stands, same⟩ := first.recorded mem own
      exact ⟨e', second.kept stands, same⟩
    · exact second.recorded mem own
  origin := by
    intro e mem
    rcases second.origin mem with old | ⟨i, mem, own⟩
    · rcases first.origin old with older | ⟨i, mem, own⟩
      · exact .inl older
      · exact .inr ⟨i, List.mem_append_left _ mem, own⟩
    · exact .inr ⟨i, List.mem_append_right _ mem, own⟩
  distinct old := second.distinct (first.distinct old)

theorem of_perm (perm : made.Perm more) (h : Recorded s made s₁) : Recorded s more s₁ where
  kept := h.kept
  recorded mem := h.recorded (perm.mem_iff.mpr mem)
  origin mem := (h.origin mem).imp_right fun ⟨i, stands, own⟩ =>
    ⟨i, perm.mem_iff.mp stands, own⟩
  distinct := h.distinct

theorem exists_mem_addRecord (records : List ClientInstance) (e : ClientInstance) :
    ∃ e' ∈ addRecord records e, e'.context = e.context := by
  rw [addRecord]
  split
  · next found =>
    obtain ⟨e', mem, same⟩ := List.any_eq_true.mp found
    exact ⟨e', mem, eq_of_beq same⟩
  · exact ⟨e, by simp, rfl⟩

theorem distinct_addRecord {records : List ClientInstance} (e : ClientInstance)
    (distinct : (records.map (·.context)).Nodup) :
    ((addRecord records e).map (·.context)).Nodup := by
  rw [addRecord]
  split
  · exact distinct
  · next absent =>
    rw [List.map_append, List.nodup_append]
    refine ⟨distinct, by simp, ?_⟩
    intro context old context' new same
    obtain ⟨e', mem, rfl⟩ := List.mem_map.mp old
    rw [List.map_cons, List.map_nil, List.mem_singleton] at new
    exact absent (List.any_eq_true.mpr ⟨e', mem, beq_iff_eq.mpr (same.trans new)⟩)

theorem of_open {context : String} {c : Component} {host : Option NodeId} {extra : Values}
    {o : Opened} {scene : Scene}
    (opened : (openInstance scene c context host extra).run s = .ok o s₁) :
    Recorded s [] s₁ := by
  refine of_instances_eq ?_
  obtain ⟨values, t₁, t₂, received, -, -, -, computed, filled⟩ := openInstance_ok opened
  rw [((quiet_forM (quiet_substituteAttribute o.values) _).same filled).2,
    ← ((quiet_receive scene host).same received).2]
  rw [compute] at computed
  split at computed
  · injection computed with _ same
    rw [← same]
  · rw [map_eq_pure_bind] at computed
    obtain ⟨d, t₃, evaluated, done⟩ := eq_ok_of_bind computed
    injection done with _ same
    rw [← same]
    rcases evaluate_ok evaluated with ⟨-, same⟩ | ⟨-, -, same⟩
    · rw [same]
    · rw [same]

theorem record_of_made (o : Opened) (name context : String) (c : Component)
    (refs : List (String × String)) :
    (o.made name context c refs).given.bind (o.made name context c refs).recordOf =
      o.client.map fun source => clientInstance context c source o.values refs := by
  cases given : o.given <;>
    simp [Opened.made, Opened.client, Opened.values, Instance.recordOf, given]

theorem of_bind {name context : String} {c : Component} {o : Opened}
    {refs : List (String × String)} (bound : (bindRefs c context o).run s = .ok refs s₁) :
    Recorded s [o.made name context c refs] s₁ := by
  obtain ⟨found, t, captured, rest⟩ := eq_ok_of_bind bound
  have start := ((quiet_captureRefs o.sites _).same captured).2
  have own := record_of_made o name context c refs
  cases client : o.client with
  | none =>
    rw [client] at rest own
    injection rest with _ same
    subst same
    exact {
      kept := by rw [start]; exact id
      recorded := by
        intro i e mem
        rw [List.mem_singleton.mp mem, own]
        simp
      origin := by rw [start]; exact .inl
      distinct := by rw [start]; exact id }
  | some source =>
    rw [client] at rest own
    injection rest with same after
    subst same
    have records : s₁.instances =
        addRecord s.instances (clientInstance context c source o.values found) := by
      rw [← start, ← after]
    refine { kept := ?_, recorded := ?_, origin := ?_, distinct := ?_ }
    · intro e old
      rw [records, addRecord]
      split
      · exact old
      · exact List.mem_append_left _ old
    · intro i e mem
      rw [List.mem_singleton.mp mem, own, records]
      rintro ⟨⟩
      exact exists_mem_addRecord _ _
    · intro e mem
      rw [records, addRecord] at mem
      split at mem
      · exact .inl mem
      · rcases List.mem_append.mp mem with old | new
        · exact .inl old
        · rw [List.mem_singleton.mp new]
          exact .inr ⟨_, List.mem_singleton_self _, own⟩
    · rw [records]
      exact distinct_addRecord _

end Recorded

theorem recorded {scene : Scene} {call : Call} {s s' : Expansion} {made : List Instance}
    {a : call.Out} (run : Run scene call s made (.ok a s')) : Recorded s made s' :=
  track (R := Recorded) (fun quiet run => .of_instances_eq (quiet.same run).2) Recorded.trans
    (fun opened between bound =>
      (((Recorded.of_open opened).trans between).trans (.of_bind bound)).of_perm
        List.perm_append_comm)
    run rfl

/-! ### When instances keep their own data -/

/-- Instances with a script that share a context get the same answer. -/
def AnsweredAlike (scene : Scene) (trace : List Instance) : Prop :=
  ∀ i ∈ trace, ∀ j ∈ trace, i.context = j.context →
    i.component.script.isSome → j.component.script.isSome → i.answer scene = j.answer scene

theorem given_own_iff_answered_alike {scene : Scene} {call : Call} {s s' : Expansion}
    {trace : List Instance} {a : call.Out} (fresh : s.cache = [])
    (run : Run scene call s trace (.ok a s')) :
    (∀ i ∈ trace, i.given = i.answer scene) ↔ AnsweredAlike scene trace := by
  have cache := cached run
  constructor
  · intro own i hi j hj same scriptI scriptJ
    obtain ⟨d, givenI⟩ := Option.isSome_iff_exists.mp ((cache.scripted hi).mpr scriptI)
    obtain ⟨d', givenJ⟩ := Option.isSome_iff_exists.mp ((cache.scripted hj).mpr scriptJ)
    have foundI := cache.given hi givenI
    have foundJ := cache.given hj givenJ
    rw [← own i hi, ← own j hj, givenI, givenJ, ← foundI, ← foundJ, same]
  · intro alike i hi
    cases given : i.given with
    | none =>
      have unscripted : i.component.script = none := by
        rw [← Option.not_isSome_iff_eq_none, ← cache.scripted hi, given]
        simp
      simp [Instance.answer, unscripted]
    | some d =>
      -- the cached result answers some instance of this context, so it answers this one as well
      rcases cache.origin (cache.given hi given) with old | ⟨j, hj, same, answered⟩
      · rw [fresh] at old
        cases old
      · have scriptI := (cache.scripted hi).mp (by rw [given]; rfl)
        have scriptJ : j.component.script.isSome := by
          cases script : j.component.script with
          | none => simp [Instance.answer, script] at answered
          | some source => rfl
        rw [alike i hi j hj same.symm scriptI scriptJ, answered]

theorem records_perm_iff_contexts_nodup {scene : Scene} {call : Call} {s s' : Expansion}
    {trace : List Instance} {a : call.Out} (fresh : s.instances = [])
    (run : Run scene call s trace (.ok a s')) (own : ∀ i ∈ trace, i.given = i.answer scene) :
    s'.instances.Perm (trace.filterMap (·.record? scene)) ↔
      ((trace.filterMap (·.record? scene)).map (·.context)).Nodup := by
  have records := recorded run
  have apart : (s'.instances.map (·.context)).Nodup := records.distinct (by rw [fresh]; simp)
  constructor
  · intro perm
    exact (perm.map _).nodup_iff.mp apart
  · intro distinct
    rw [List.perm_ext_iff_of_nodup (.of_map _ apart) (.of_map _ distinct)]
    -- every record is one of an instance, and the one with its context is its own
    have origin : ∀ e ∈ s'.instances, e ∈ trace.filterMap (·.record? scene) := by
      intro e mem
      rcases records.origin mem with old | ⟨i, hi, record⟩
      · rw [fresh] at old
        cases old
      · rw [own i hi] at record
        exact List.mem_filterMap.mpr ⟨i, hi, record⟩
    intro e
    constructor
    · exact origin e
    · intro mem
      obtain ⟨i, hi, record⟩ := List.mem_filterMap.mp mem
      rw [Instance.record?, ← own i hi] at record
      obtain ⟨e', stands, same⟩ := records.recorded hi record
      have : e' = e := List.inj_on_of_nodup_map distinct (origin e' stands) mem same
      rwa [← this]

/-- Every instance is given what the sandbox answers to its own request, and the records are those
of the instances with a client behavior, one for each. -/
def KeepsOwnData (scene : Scene) (trace : List Instance) (s : Expansion) : Prop :=
  (∀ i ∈ trace, i.given = i.answer scene) ∧
    s.instances.Perm (trace.filterMap (·.record? scene))

/-- No two instances with a client behavior share a context, and what shares a context is answered
alike. -/
def ContextsTellApart (scene : Scene) (trace : List Instance) : Prop :=
  AnsweredAlike scene trace ∧ ((trace.filterMap (·.record? scene)).map (·.context)).Nodup

/-- Instances keep their own data exactly when their contexts tell them apart. -/
theorem keepsOwnData_iff_contextsTellApart {scene : Scene} {page : Page} {s : Expansion}
    (done : (expandPage scene).run (ofPage page) = .ok () s) :
    (∃ trace, Expands scene page trace (.ok () s)) ∧
      ∀ trace, Expands scene page trace (.ok () s) →
        (KeepsOwnData scene trace s ↔ ContextsTellApart scene trace) := by
  refine ⟨(expandPage_eq_iff scene page _).mp done, ?_⟩
  intro trace run
  rw [KeepsOwnData, ContextsTellApart, ← given_own_iff_answered_alike rfl run]
  constructor
  · rintro ⟨own, perm⟩
    exact ⟨own, (records_perm_iff_contexts_nodup rfl run own).mp perm⟩
  · rintro ⟨own, distinct⟩
    exact ⟨own, (records_perm_iff_contexts_nodup rfl run own).mpr distinct⟩

/-! ### Two hosts with one context -/

/-- A component whose script hands its values on. -/
def echo : Component where
  id := "x-echo"
  path := "echo.html"
  dir := ""
  document := ⟨.node .root [], {}⟩
  script := some ""

def echoLibrary : Library := ⟨fun id => if id = "x-echo" then some echo else none, [], []⟩

def echoSandbox : Sandbox := fun request =>
  match request.values with
  | .object entries => (.ok ⟨entries, none⟩, [])
  | _ => (.ok ⟨[], none⟩, [])

/-- Each word stands at an instance that is the only child of its parent. -/
def echoPage (words : List String) : Page where
  values := []
  document := ⟨.node .root (words.map fun w =>
    .node (.element ⟨"div", []⟩) [.node (.element ⟨"x-echo", [⟨"word", some w⟩]⟩) []]), {}⟩

def echoScene (words : List String) : Scene := .ofPage echoLibrary echoSandbox "" (echoPage words)

def echoInstance (own given : String) : Instance where
  name := "x-echo"
  context := "/0:x-echo"
  component := echo
  own := [("word", .text own)]
  given := some ⟨[("word", .text given)], none⟩

theorem answer_echoInstance (words : List String) (own given : String) :
    (echoInstance own given).answer (echoScene words) = some ⟨[("word", .text own)], none⟩ := rfl

/-- The second of two hosts is given the word of the first. -/
theorem expands_echoPage : ∃ trace s,
    Expands (echoScene ["a", "b"]) (echoPage ["a", "b"]) trace (.ok () s) ∧
      trace = [echoInstance "a" "a", echoInstance "b" "a"] := by
  have found : hosts (ofPage (echoPage ["a", "b"])).arena Arena.root "" =
      [(2, "/0:x-echo"), (4, "/0:x-echo")] := by decide +kernel
  have plainA : Entity.decodeText "a" = "a" := by decide +kernel
  have plainB : Entity.decodeText "b" = "b" := by decide +kernel
  apply Exists.intro
  apply Exists.intro
  apply And.intro
  · apply Run.within
    simp only [echoScene, Scene.ofPage]
    rw [found]
    apply Run.hostsCons
    · apply Run.hostReplaced
      · rfl
      · apply Run.created (r := .ok () _)
        · rfl
        · rfl
        · exact .textsNil
        · rfl
        · exact .within .hostsNil
        · exact .slotsNil
      · rfl
      · rfl
    · apply Run.hostsCons
      · apply Run.hostReplaced
        · rfl
        · apply Run.created (r := .ok () _)
          · rfl
          · rfl
          · exact .textsNil
          · rfl
          · exact .within .hostsNil
          · exact .slotsNil
        · rfl
        · rfl
      · exact .hostsNil
  · refine Eq.trans (b := [echoInstance (Entity.decodeText "a") (Entity.decodeText "a"),
      echoInstance (Entity.decodeText "b") (Entity.decodeText "a")]) rfl ?_
    rw [plainA, plainB]

theorem second_host_given_word_of_first :
    ¬ ∀ (library : Library) (sandbox : Sandbox) (path : String) (page : Page)
      (trace : List Instance) (s : Expansion),
      Expands (.ofPage library sandbox path page) page trace (.ok () s) →
      ∀ i ∈ trace, i.given = i.answer (.ofPage library sandbox path page) ∧
        ∀ e, i.record? (.ofPage library sandbox path page) = some e → e ∈ s.instances := by
  intro all
  obtain ⟨_, s, run, rfl⟩ := expands_echoPage
  have own := (all _ _ _ _ _ _ run (echoInstance "b" "a") (by simp)).1
  have answered := answer_echoInstance ["a", "b"] "b" "a"
  rw [echoScene] at answered
  rw [answered] at own
  simp [echoInstance] at own

theorem echoPage_keeps_own_data_iff :
    ∃ s, (expandPage (echoScene ["a", "b"])).run (ofPage (echoPage ["a", "b"])) = .ok () s ∧
      (∃ trace, Expands (echoScene ["a", "b"]) (echoPage ["a", "b"]) trace (.ok () s)) ∧
      ∀ trace, Expands (echoScene ["a", "b"]) (echoPage ["a", "b"]) trace (.ok () s) →
        (KeepsOwnData (echoScene ["a", "b"]) trace s ↔
          ContextsTellApart (echoScene ["a", "b"]) trace) := by
  obtain ⟨trace, s, run, -⟩ := expands_echoPage
  have done := exec_of_run run
  exact ⟨s, done, keepsOwnData_iff_contextsTellApart done⟩

end Stencil.Expansion
