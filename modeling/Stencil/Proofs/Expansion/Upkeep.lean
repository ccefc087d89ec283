import Stencil.Proofs.Expansion.Draft
/-!
What calls leave of the branches that they work on, whatever the components and the values are: a
branch stays a branch, other nodes stay as they are, and what has been made stands apart from both.
-/
namespace Stencil.Expansion
open Markup Branch

/-! ### Hosts -/

/-- What is below a node turns into something. -/
def WithinLeaves (scope : NodeId) (s s' : Expansion) : Prop :=
  ∀ b p, Stands s p b → b.id = scope → b.ids.Nodup → ∃ cs, Turns s s' p b cs

def HostsLeave (hosts : List NodeId) (s s' : Expansion) : Prop :=
  ∀ b p subs, Waiting s p b subs → subs.map (·.id) = hosts → ∃ cs, Turns s s' p b cs

/-- Something takes the place of a host. -/
def HostLeaves (host : NodeId) (s s' : Expansion) : Prop :=
  ∀ b p sub, Stands s p b → b.ids.Nodup → sub ∈ subsAll b.children → sub.stem.content.isCustom →
    sub.id = host → ∃ new, Turns s s' p b (spliceAll host new b.children)

/-- An instance that is ready: a branch without a place. Its nodes are new, or come from `kids`. -/
structure Raised (s s' : Expansion) (kids own : List NodeId) (f : Branch) : Prop where
  stands : Stands s' none f
  once : f.ids.Nodup
  ids : ∀ x ∈ f.ids, x ∈ kids ∨ s.arena.size ≤ x
  framed : Framed s s' own

/-- An instance has been made for a host, which has lost its children. -/
def HostedLeaves (host : NodeId) (s s' : Expansion) (fragment : NodeId) : Prop :=
  ∀ b q, Stands s q b → b.id = host → b.ids.Nodup → b.stem.content.isCustom →
    ∃ f, f.id = fragment ∧ Raised s s' (idsAll b.children) b.ids f ∧
      ∃ stem, Stands s' q (.node host stem [])

def CreateLeaves (host : Option NodeId) (s s' : Expansion) : Option NodeId → Prop
  | none => (∀ x, s'.look x = s.look x) ∧ s'.arena.size = s.arena.size
  | some fragment =>
    match host with
    | none => ∃ f, f.id = fragment ∧ Raised s s' [] [] f
    | some host => HostedLeaves host s s' fragment

section
variable {s s₁ s₂ s' : Expansion} {p : Option NodeId} {b sub : Branch} {subs new : List Branch}
  {scope host : NodeId} {rest : List NodeId}

theorem within_leaves {context : String}
    (all : HostsLeave ((hosts s.arena scope context).map (·.1)) s s') : WithinLeaves scope s s' := by
  rintro b p stands rfl once
  exact all b p _ (waiting_all stands once) (stands.hosts_eq once).symm

theorem hosts_leave_nil : HostsLeave [] s s := fun b _ _ waiting _ =>
  ⟨b.children, .refl waiting.stands waiting.once⟩

theorem hosts_leave_cons (head : HostLeaves host s s₁) (tail : HostsLeave rest s₁ s') :
    HostsLeave (host :: rest) s s' := by
  intro b p subs waiting listed
  obtain ⟨sub, subs, rfl, rfl, others⟩ := List.map_eq_cons_iff.mp listed
  obtain ⟨new, turns⟩ := head b p sub waiting.stands waiting.once waiting.part
    (waiting.hosts sub List.mem_cons_self).2 rfl
  obtain ⟨cs, more⟩ := tail _ p subs (waiting.next turns) others
  exact ⟨cs, turns.trans more⟩

/-- A host that stays, with what is below it turned into something. -/
theorem host_leaves_of_within (unknown : CreateLeaves (some host) s s₁ none)
    (inside : WithinLeaves host s₁ s') : HostLeaves host s s' := by
  rintro b p sub stands once part - rfl
  obtain ⟨looks, size⟩ := unknown
  have sub_stands := stands_of_same looks size (stands.children.sub_parent part)
  obtain ⟨cs, turns⟩ := inside sub _ sub_stands rfl (nodup_sub (nodup_children once) part)
  exact ⟨_, turns_of_within looks size stands once part turns⟩

/-- A host that stays as it is. -/
theorem host_leaves_of_none (unknown : CreateLeaves (some host) s s' none) : HostLeaves host s s' :=
  host_leaves_of_within unknown fun b _ stands _ once => ⟨b.children, .refl stands once⟩

theorem host_leaves_of_create {fragment : NodeId} {listed : List NodeId}
    (made : HostedLeaves host s s₁ fragment) (taken : (takeChildren fragment).run s₁ = .ok listed s₂)
    (replaced : (modifyArena (·.replaceWith host listed)).run s₂ = .ok () s') :
    HostLeaves host s s' := by
  rintro b p sub stands once part custom rfl
  obtain ⟨f, rfl, raised, stem, left⟩ := made sub _ (stands.children.sub_parent part) rfl
    (nodup_sub (nodup_children once) part) custom
  exact ⟨f.children, turns_of_instance stands once part raised.stands raised.once raised.ids
    raised.framed left taken replaced⟩

end

/-! ### Texts -/

/-- Values are put into one text of a copy. -/
def TextLeaves (x : NodeId) (s s' : Expansion) : Prop :=
  ∀ s₀ c todo f, Draft s₀ s c (x :: todo) f → ∃ f', Draft s₀ s' c todo f'

def TextsLeave (nodes : List NodeId) (s s' : Expansion) : Prop :=
  ∀ s₀ c f, Draft s₀ s c nodes f → ∃ f', Draft s₀ s' c [] f'

section
variable {s s₁ s' : Expansion} {x : NodeId}

theorem text_leaves_none (absent : s.arena.text? x = none) : TextLeaves x s s := by
  intro s₀ c todo f draft
  obtain ⟨sub, part, rfl, -, t, text⟩ := draft.texts x List.mem_cons_self
  rw [Arena.text?, (draft.stands.children.sub_parent part).content, text] at absent
  cases absent

theorem text_leaves_written {text : String}
    (written : (modifyArena (·.setContent x (.text text))).run s = .ok () s') : TextLeaves x s s' := by
  intro s₀ c todo f draft
  obtain ⟨sub, part, rfl, leaf, -⟩ := draft.texts x List.mem_cons_self
  exact ⟨_, draft.swap (swapped_written draft.stands draft.once part leaf written)⟩

theorem text_leaves_fresh {nodes : List NodeId} {bs : List Branch} (fresh : Fresh s s₁ nodes bs)
    (replaced : (modifyArena (·.replaceWith x nodes)).run s₁ = .ok () s') : TextLeaves x s s' := by
  intro s₀ c todo f draft
  obtain ⟨sub, part, rfl, -⟩ := draft.texts x List.mem_cons_self
  rw [← fresh.nodes] at replaced
  exact ⟨_, draft.swap (swapped_fresh draft.stands draft.once part fresh.stands fresh.once fresh.fresh
    fresh.framed replaced)⟩

end

/-! ### Slots -/

/-- An instance whose slots have been filled. -/
structure Served (s s' : Expansion) (f : Branch) (light : List (String × Branch))
    (cs : List Branch) : Prop where
  stands : Stands s' none (.node f.id f.stem cs)
  once : (ids (.node f.id f.stem cs)).Nodup
  ids : ∀ y ∈ idsAll cs, y ∈ f.ids ++ idsAll (light.map (·.2)) ∨ s.arena.size ≤ y
  framed : Framed s s' (f.ids ++ idsAll (light.map (·.2)))

/-- An instance whose slots are still to be filled, each with what is supplied by its name. -/
structure Serving (s : Expansion) (fragment : NodeId) (supplied : Assoc (List NodeId))
    (names : List String) (f : Branch) (light : List (String × Branch)) : Prop where
  id : f.id = fragment
  stocked : Stocked s f light
  once : names.Nodup
  supplies : Supplies supplied light names

def SlotsLeave (fragment : NodeId) (supplied : Assoc (List NodeId)) (names : List String)
    (s s' : Expansion) : Prop :=
  ∀ f light, Serving s fragment supplied names f light → ∃ cs, Served s s' f light cs

section
variable {s s₁ s₂ s₃ s₄ s' : Expansion} {fragment x holder : NodeId}
  {supplied : Assoc (List NodeId)} {name : String} {names : List String} {f sub : Branch}
  {light : List (String × Branch)} {cs : List Branch}

/-- What is put into a slot stands below a new root. -/
theorem Serving.held (serving : Serving s fragment supplied (name :: names) f light) (tidy : Tidy s)
    (part : sub ∈ subsAll f.children)
    (held : (holdContent supplied name sub.id).run s = .ok holder s₁) :
    holder = s.arena.size ∧
      (ids (.node s.arena.size ⟨.root, [], false⟩ (stuffing light name sub.children))).Nodup ∧
      ∃ f', Parted f sub.id (stuffing light name sub.children) f' ∧
        Held s s₁ f (stuffing light name sub.children) f' :=
  ⟨(holdContent_ok held).1,
    serving.stocked.held tidy part (serving.supplies name List.mem_cons_self) held⟩

/-- When a slot has been filled, the next ones can be. -/
theorem Serving.next (serving : Serving s fragment supplied (name :: names) f light)
    (part : sub ∈ subsAll f.children)
    (refilled : Refilled s s₁ f sub.id (stuffing light name sub.children) cs) :
    Serving s₁ fragment supplied names (.node f.id f.stem (spliceAll sub.id cs f.children))
      (others light name) := by
  have distinct := List.nodup_cons.mp serving.once
  refine ⟨serving.id, serving.stocked.next part refilled, distinct.2, fun other mem => ?_⟩
  have apart : other ≠ name := fun same => distinct.1 (same ▸ mem)
  rw [assigned_others apart]
  exact serving.supplies other (List.mem_cons_of_mem _ mem)

/-- A slot that has gone is passed over. -/
theorem Serving.skip (serving : Serving s fragment supplied (name :: names) f light) :
    Serving s fragment supplied names f light :=
  ⟨serving.id, serving.stocked, (List.nodup_cons.mp serving.once).2, fun other mem =>
    serving.supplies other (List.mem_cons_of_mem _ mem)⟩

theorem mem_stuffing {y : NodeId} (part : sub ∈ subsAll f.children)
    (mem : y ∈ idsAll (stuffing light name sub.children)) :
    y ∈ f.ids ++ idsAll (light.map (·.2)) := by
  rw [stuffing] at mem
  rw [List.mem_append]
  split at mem
  · exact .inl (mem_ids_of_children (ids_subset part (mem_ids_of_children mem)))
  · exact .inr (mem_idsAll_assigned mem)

theorem Refilled.served {ds : List Branch} (part : sub ∈ subsAll f.children)
    (refilled : Refilled s s₁ f sub.id (stuffing light name sub.children) cs)
    (served : Served s₁ s' (.node f.id f.stem (spliceAll sub.id cs f.children)) (others light name)
      ds) : Served s s' f light ds := by
  have after : ∀ y ∈ Branch.ids (.node f.id f.stem (spliceAll sub.id cs f.children)) ++
      idsAll ((others light name).map (·.2)),
      y ∈ f.ids ++ idsAll (light.map (·.2)) ∨ s.arena.size ≤ y := by
    intro y mem
    rcases List.mem_append.mp mem with mem | mem
    · rcases List.mem_cons.mp mem with rfl | mem
      · exact .inl (List.mem_append_left _ id_mem_ids)
      · rcases mem_idsAll_splice _ mem with mem | mem
        · exact .inl (List.mem_append_left _ (mem_ids_of_children (mem_idsAll_of_idsButAll _ mem)))
        · exact (refilled.ids y mem).imp_left (mem_stuffing part)
    · exact .inl (List.mem_append_right _ (mem_idsAll_others mem))
  have first : Framed s s₁ (f.ids ++ idsAll (light.map (·.2))) := refilled.framed.mono fun y mem =>
    (List.mem_append.mp mem).elim (List.mem_append_left _) (mem_stuffing part)
  exact ⟨served.stands, served.once, fun y mem => (served.ids y mem).elim (after y) fun fresh =>
      .inr (Nat.le_trans refilled.framed.grown fresh),
    first.trans served.framed fun y mem range =>
      (after y mem).resolve_right (Nat.not_le_of_lt range)⟩

theorem slots_leave_nil : SlotsLeave fragment supplied [] s s := by
  rintro f light serving
  refine ⟨f.children, ?_, ?_, fun y mem => .inl (List.mem_append_left _ (mem_ids_of_children mem)),
    .refl s _⟩
  · rw [node_eta]
    exact serving.stocked.stands
  · rw [node_eta]
    exact (List.nodup_append.mp serving.stocked.once).1

theorem slots_leave_skip (tail : SlotsLeave fragment supplied names s s') :
    SlotsLeave fragment supplied (name :: names) s s' := fun f light serving =>
  tail f light serving.skip

theorem slots_leave_cons {listed : List NodeId} (tidy : Tidy s)
    (inside : s.arena.isBelow x fragment = true)
    (held : (holdContent supplied name x).run s = .ok holder s₁)
    (content : WithinLeaves holder s₁ s₂) (taken : (takeChildren holder).run s₂ = .ok listed s₃)
    (replaced : (modifyArena (·.replaceWith x listed)).run s₃ = .ok () s₄)
    (tail : SlotsLeave fragment supplied names s₄ s') :
    SlotsLeave fragment supplied (name :: names) s s' := by
  intro f light serving
  rw [← serving.id] at inside
  obtain ⟨sub, part, rfl⟩ :=
    mem_idsAll_iff_subs.mp (serving.stocked.stands.mem_of_isBelow tidy inside)
  obtain ⟨rfl, root_once, f', parted, hold⟩ := serving.held tidy part held
  obtain ⟨cs, turns⟩ := content _ none hold.held rfl root_once
  have refilled :=
    hold.refilled parted (fun y mem => serving.stocked.stands.lt mem) turns taken replaced
  obtain ⟨ds, served⟩ := tail _ _ (serving.next part refilled)
  exact ⟨ds, refilled.served part served⟩

end

/-! ### Instances -/

section
variable {scene : Scene} {s s₁ s₂ s₃ s₄ s' : Expansion} {c : Component} {o : Opened}
  {context : String} {f : Branch} {cs : List Branch} {light : List (String × Branch)}
  {refs : List (String × String)}

/-- The copy of a component, ready to be expanded, and the children that its host had. -/
structure Drafted (s s₃ : Expansion) (c : Component) (o : Opened) (light : List (String × Branch))
    (f : Branch) : Prop where
  id : f.id = o.fragment
  draft : Draft s s₃ c [] f
  free : StandsAll s none (light.map (·.2))
  once : (idsAll (light.map (·.2))).Nodup
  names : (o.sites.slots.map (·.1)).Nodup
  supplies : ∀ name, (Assoc.get? o.supplied name).getD [] = (assigned light name).map (·.id)

/-- When the hosts of a copy have been expanded, its slots can be filled. -/
theorem Drafted.serving (drafted : Drafted s s₃ c o light f) (turns : Turns s₃ s₄ none f cs) :
    Serving s₄ o.fragment o.supplied (o.sites.slots.map (·.1)) (.node f.id f.stem cs) light := by
  have early : ∀ x ∈ idsAll (light.map (·.2)), x < s.arena.size := fun x mem => drafted.free.lt mem
  have late : ∀ x ∈ ids (.node f.id f.stem cs), s.arena.size ≤ x := by
    intro x mem
    rcases List.mem_cons.mp mem with rfl | mem
    · exact drafted.draft.late _ id_mem_ids
    · exact (turns.ids x mem).elim (fun mem => drafted.draft.late x (mem_ids_of_children mem))
        (Nat.le_trans drafted.draft.framed.grown)
  have framed : Framed s s₄ [] := drafted.draft.framed.trans turns.framed fun x mem range =>
    absurd (drafted.draft.late x mem) (Nat.not_le_of_lt range)
  refine ⟨drafted.id, ⟨turns.stands, framed.standsAll drafted.free fun _ _ => List.not_mem_nil,
    List.nodup_append.mpr ⟨turns.once, drafted.once, fun x mem y mem' same => ?_⟩⟩, drafted.names,
    fun name _ => drafted.supplies name⟩
  exact Nat.not_le_of_lt (early y mem') (same ▸ late x mem)

theorem Drafted.raised (drafted : Drafted s s₃ c o light f) (turns : Turns s₃ s₄ none f cs)
    {ds : List Branch} (served : Served s₄ s' (.node f.id f.stem cs) light ds) :
    Raised s s' (idsAll (light.map (·.2))) (idsAll (light.map (·.2))) (.node f.id f.stem ds) := by
  have draft := drafted.draft
  have framed : Framed s s₄ [] := draft.framed.trans turns.framed fun x mem range =>
    absurd (draft.late x mem) (Nat.not_le_of_lt range)
  have after : ∀ x ∈ ids (.node f.id f.stem cs) ++ idsAll (light.map (·.2)),
      x ∈ idsAll (light.map (·.2)) ∨ s.arena.size ≤ x := by
    intro x mem
    rcases List.mem_append.mp mem with mem | mem
    · rcases List.mem_cons.mp mem with rfl | mem
      · exact .inr (draft.late _ id_mem_ids)
      · exact .inr ((turns.ids x mem).elim (fun mem => draft.late x (mem_ids_of_children mem))
          (Nat.le_trans draft.framed.grown))
    · exact .inl mem
  refine ⟨served.stands, served.once, fun x mem => ?_,
    (framed.mono fun _ mem => (nomatch mem)).trans served.framed fun x mem range =>
      (after x mem).resolve_right (Nat.not_le_of_lt range)⟩
  rcases List.mem_cons.mp mem with rfl | mem
  · exact .inr (draft.late _ id_mem_ids)
  · exact (served.ids x mem).elim (after x) fun fresh => .inr (Nat.le_trans framed.grown fresh)

theorem drafted_received {host : Option NodeId} {extra : Values} (sound : c.Sound) (tidy : Tidy s)
    (opened : (openInstance scene c context host extra).run s = .ok o s₁)
    (texts : TextsLeave (o.sites.texts.map (·.node)) s₁ s₂)
    (bound : (bindRefs c context o).run s₂ = .ok refs s₃) :
    ∃ s₀ values f, (receive scene host).run s = .ok (values, o.supplied) s₀ ∧ f.id = o.fragment ∧
      Draft s₀ s₃ c [] f ∧ (o.sites.slots.map (·.1)).Nodup := by
  obtain ⟨values, s₀, u, received, -, fragment, placed, computed, filled⟩ := openInstance_ok opened
  have tidy₀ := (tidy_receive scene host).of_ok tidy received
  obtain ⟨f₁, draft⟩ := draft_opened sound tidy₀ placed computed filled
  obtain ⟨f₂, draft⟩ := texts _ _ _ draft
  have sites : o.sites = copySites s₀ c := placed
  obtain ⟨f, draft⟩ := draft.bound (fun x mem => by
    rw [sites] at mem
    obtain ⟨y, -, rfl⟩ := List.mem_map.mp mem
    exact Nat.le_add_right _ _) bound
  refine ⟨s₀, values, f, received, draft.id.trans fragment.symm, draft, ?_⟩
  rw [sites]
  exact (slots_copy sound).1

theorem drafted_alone {extra : Values} (sound : c.Sound) (tidy : Tidy s)
    (opened : (openInstance scene c context none extra).run s = .ok o s₁)
    (texts : TextsLeave (o.sites.texts.map (·.node)) s₁ s₂)
    (bound : (bindRefs c context o).run s₂ = .ok refs s₃) : ∃ f, Drafted s s₃ c o [] f := by
  obtain ⟨s₀, values, f, received, id, draft, names⟩ := drafted_received sound tidy opened texts bound
  have nothing : EStateM.Result.ok (scene.document, []) s = .ok (values, o.supplied) s₀ := received
  injection nothing with given same
  injection given with _ supplied
  subst same
  exact ⟨f, id, draft, standsAll_nil, List.nodup_nil, names, fun name => by rw [← supplied]; rfl⟩

theorem drafted_hosted {extra : Values} {b : Branch} {q : Option NodeId} (sound : c.Sound)
    (tidy : Tidy s) (stands : Stands s q b) (once : b.ids.Nodup) (custom : b.stem.content.isCustom)
    (opened : (openInstance scene c context (some b.id) extra).run s = .ok o s₁)
    (texts : TextsLeave (o.sites.texts.map (·.node)) s₁ s₂)
    (bound : (bindRefs c context o).run s₂ = .ok refs s₃) :
    ∃ s₀ f, Drafted s₀ s₃ c o (lightOf b.children) f ∧ Framed s s₀ b.ids ∧
      Stands s₀ q (.node b.id ⟨b.stem.content, [], b.stem.own⟩ []) ∧
      ∀ y, y ≠ b.id → (s₀.look y).2 = (s.look y).2 := by
  obtain ⟨s₀, values, f, received, id, draft, names⟩ := drafted_received sound tidy opened texts bound
  have received := receive_ok stands once custom received
  exact ⟨s₀, f, ⟨id, draft, received.light, by rw [idsAll_lightOf]; exact nodup_children once, names,
    received.supplies⟩, received.framed, received.host, received.rich⟩

theorem create_leaves {host : Option NodeId} {extra : Values} (sound : c.Sound) (tidy : Tidy s)
    (opened : (openInstance scene c context host extra).run s = .ok o s₁)
    (texts : TextsLeave (o.sites.texts.map (·.node)) s₁ s₂)
    (bound : (bindRefs c context o).run s₂ = .ok refs s₃)
    (within : WithinLeaves o.fragment s₃ s₄)
    (slots : SlotsLeave o.fragment o.supplied (o.sites.slots.map (·.1)) s₄ s') :
    CreateLeaves host s s' (some o.fragment) := by
  have rest : ∀ {s₀ f light}, Drafted s₀ s₃ c o light f → ∃ f', f'.id = o.fragment ∧
      Raised s₀ s' (idsAll (light.map (·.2))) (idsAll (light.map (·.2))) f' := by
    intro s₀ f light drafted
    obtain ⟨cs, turns⟩ := within f none drafted.draft.stands drafted.id drafted.draft.once
    obtain ⟨ds, served⟩ := slots _ light (drafted.serving turns)
    exact ⟨.node f.id f.stem ds, drafted.id, drafted.raised turns served⟩
  cases host with
  | none =>
    obtain ⟨f, drafted⟩ := drafted_alone sound tidy opened texts bound
    exact rest drafted
  | some host =>
    rintro b q stands rfl once custom
    obtain ⟨s₀, f, drafted, framed, left, -⟩ :=
      drafted_hosted sound tidy stands once custom opened texts bound
    obtain ⟨f', id, raised⟩ := rest drafted
    rw [idsAll_lightOf] at raised
    have own := nodup_children once
    refine ⟨f', id, ⟨raised.stands, raised.once, fun x mem => (raised.ids x mem).imp_right
      (Nat.le_trans framed.grown), framed.trans raised.framed fun x mem _ =>
        mem_ids_of_children mem⟩, _, raised.framed.stands left fun x mem inside => ?_⟩
    rw [ids, idsAll, List.mem_singleton] at mem
    rw [ids_eq, List.nodup_cons] at once
    exact once.1 (mem ▸ inside)

end

/-! ### Runs -/

/-- What a call that ends leaves. -/
def Leaves : (call : Call) → Expansion → call.Out → Expansion → Prop
  | .create _ _ _ host _, s, out, s' => CreateLeaves host s s' out
  | .texts _ _ _ _ sites, s, _, s' => TextsLeave (sites.map (·.node)) s s'
  | .text _ _ _ site, s, _, s' => TextLeaves site.node s s'
  | .pieces .., s, nodes, s' => ∃ bs, Fresh s s' nodes bs
  | .value .., s, nodes, s' => ∃ bs, Fresh s s' nodes bs
  | .values .., s, nodes, s' => ∃ bs, Fresh s s' nodes bs
  | .within _ _ scope _, s, _, s' => WithinLeaves scope s s'
  | .hosts _ _ hosts, s, _, s' => HostsLeave (hosts.map (·.1)) s s'
  | .host _ _ host _, s, _, s' => HostLeaves host s s'
  | .slots _ fragment supplied _ slots, s, _, s' =>
    SlotsLeave fragment supplied (slots.map (·.1)) s s'

section
variable {scene : Scene} {s s₁ s' : Expansion}

theorem fresh_graftAll {ts : List Tree} {nodes : List NodeId} (tidy : Tidy s)
    (run : (graftAll ts).run s = .ok nodes s') : ∃ bs, Fresh s s' nodes bs := by
  induction ts generalizing s nodes with
  | nil =>
    cases run
    exact ⟨[], fresh_nil⟩
  | cons t ts ih =>
    rw [graftAll, List.mapM_cons] at run
    obtain ⟨node, s₁, grafted, rest⟩ := eq_ok_of_bind run
    obtain ⟨more, s₂, others, last⟩ := eq_ok_of_bind rest
    cases grafted
    cases last
    obtain ⟨bs, fresh⟩ := ih (tidy.graft t) others
    exact ⟨_, fresh_append (fresh_graft tidy t) fresh⟩

theorem host_leaves_missing {host : NodeId} (absent : s.arena.element? host = none) :
    HostLeaves host s s := by
  rintro b p sub stands - part custom rfl
  rw [Arena.element?, (stands.children.sub_parent part).content] at absent
  rw [Content.isCustom, absent] at custom
  cases custom

/-- Every call leaves what it is to leave. -/
theorem leaves_of_run {call : Call} {made : List Instance} {r : Outcome call.Out}
    (sound : ∀ id c, scene.library.component? id = some c → c.Sound) (run : Run scene call s made r)
    (tidy : Tidy s) : ∀ out s', r = .ok out s' → Leaves call s out s' := by
  induction run with
  | unknown absent logged =>
    intro out s' same
    cases same
    cases logged
    exact ⟨fun _ => rfl, rfl⟩
  | tooDeep | refused | textsStop | withinStop | textsHeadStop | richTextStop | piecesValueStop
  | valueMarkupStop | valueComponentStop | valuesHeadStop | hostsHeadStop | hostStop | slotsStop =>
    intro out s' same
    cases same
  | created known opened texts bound within slots ih ihw ihs =>
    intro out s' same
    obtain ⟨_, rfl, rfl⟩ := Outcome.eq_ok_of_map same
    have tidy₁ := (tidy_openInstance _ _ _ _ _).of_ok tidy opened
    have tidy₃ := (tidy_bindRefs _ _ _).of_ok (tidy_of_run texts tidy₁) bound
    exact create_leaves (sound _ _ known) tidy opened (ih tidy₁ _ _ rfl) bound (ihw tidy₃ _ _ rfl)
      (ihs (tidy_of_run within tidy₃) _ _ rfl)
  | textsNil =>
    intro out s' same
    cases same
    exact fun _ _ f draft => ⟨f, draft⟩
  | textsCons head tail ih iht =>
    intro out s' same s₀ c f draft
    obtain ⟨f₁, draft⟩ := ih tidy _ _ rfl s₀ c _ f draft
    exact iht (tidy_of_run head tidy) _ _ same s₀ c f₁ draft
  | noText absent =>
    intro out s' same
    cases same
    exact text_leaves_none absent
  | plainText found plain written =>
    intro out s' same
    cases same
    exact text_leaves_written written
  | richText found rich placed replaced ih =>
    intro out s' same
    cases same
    obtain ⟨bs, fresh⟩ := ih tidy _ _ rfl
    exact text_leaves_fresh fresh replaced
  | piecesNil | valuesNil =>
    intro out s' same
    cases same
    exact ⟨[], fresh_nil⟩
  | piecesEmpty empty tail ih => exact ih tidy
  | piecesLiteral more added tail ih =>
    intro out s' same
    obtain ⟨_, rfl, rfl⟩ := Outcome.eq_ok_of_map same
    obtain ⟨bs, fresh⟩ := ih ((tidy_alloc _).of_ok tidy added) _ _ rfl
    exact ⟨_, fresh_append (fresh_alloc tidy added) fresh⟩
  | piecesValue head tail ih iht | valuesCons head tail ih iht =>
    intro out s' same
    obtain ⟨_, rfl, rfl⟩ := Outcome.eq_ok_of_map same
    obtain ⟨bs, first⟩ := ih tidy _ _ rfl
    obtain ⟨cs, second⟩ := iht (tidy_of_run head tidy) _ _ rfl
    exact ⟨_, fresh_append first second⟩
  | valueText added =>
    intro out s' same
    cases same
    exact ⟨_, fresh_alloc tidy added⟩
  | valueMarkup read grafted =>
    intro out s' same
    cases same
    exact fresh_graftAll tidy grafted
  | valueComponent body taken ih =>
    intro out s' same
    cases same
    obtain ⟨f, rfl, raised⟩ := ih tidy _ _ rfl
    exact ⟨_, fresh_children raised.stands raised.once (fun x mem =>
      (raised.ids x mem).resolve_left List.not_mem_nil) raised.framed taken⟩
  | valueUnknown body added ih =>
    intro out s' same
    cases same
    obtain ⟨looks, size⟩ := ih tidy _ _ rfl
    have fresh := fresh_alloc (tidy_of_run body tidy) added
    exact ⟨_, { fresh with
      fresh := fun x mem => size ▸ fresh.fresh x mem
      framed := (framed_of_looks looks size []).trans fresh.framed fun _ mem _ => mem }⟩
  | valueList all ih => exact ih tidy
  | within all ih =>
    intro out s' same
    exact within_leaves (ih tidy _ _ same)
  | hostsNil =>
    intro out s' same
    cases same
    exact hosts_leave_nil
  | hostsCons head tail ih iht =>
    intro out s' same
    exact hosts_leave_cons (ih tidy _ _ rfl) (iht (tidy_of_run head tidy) _ _ same)
  | noHost absent =>
    intro out s' same
    cases same
    exact host_leaves_missing absent
  | hostReplaced found body taken replaced ih =>
    intro out s' same
    cases same
    exact host_leaves_of_create (ih tidy _ _ rfl) taken replaced
  | hostBottom found body ih =>
    intro out s' same
    cases same
    exact host_leaves_of_none (ih tidy _ _ rfl)
  | hostKept found body inside ih iht =>
    intro out s' same
    exact host_leaves_of_within (ih tidy _ _ rfl) (iht (tidy_of_run body tidy) _ _ same)
  | slotsNil =>
    intro out s' same
    cases same
    exact slots_leave_nil
  | slotsGone outside tail ih =>
    intro out s' same
    exact slots_leave_skip (ih tidy _ _ same)
  | slotsCons inside held content taken replaced tail ih iht =>
    intro out s' same
    have tidy₁ := (tidy_holdContent _ _ _).of_ok tidy held
    have tidy₃ := (tidy_replaceWith _ _).of_ok ((tidy_takeChildren _).of_ok
      (tidy_of_run content tidy₁) taken) replaced
    exact slots_leave_cons tidy inside held (ih tidy₁ _ _ rfl) taken replaced (iht tidy₃ _ _ same)

end
end Stencil.Expansion
