import Stencil.Proofs.Expansion.Journal
import Stencil.Proofs.Expansion.Rewritten
import Stencil.Proofs.Expansion.Unbounded
/-!
The store of a page is a forest at every point of its expansion, and nothing that takes the place of
a node is lost. Both are read off the journal: a node is replaced only where it has a parent, by nodes
that have none and that it does not stand below.
-/
namespace Stencil
open Markup

namespace Expansion
open Branch

/-! ### Moves and forests -/

section
variable {s : Expansion} {p : Option NodeId} {b : Branch} {x : NodeId}

mutual

/-- Chains of parents from within a branch are finite if those from its top are. -/
theorem Stands.finite (b : Branch) {p : Option NodeId} (stands : Stands s p b)
    (top : ∀ q, p = some q → Acc (fun p x => s.arena.parent? x = some p) q) :
    ∀ x ∈ b.ids, Acc (fun p x => s.arena.parent? x = some p) x := by
  cases b with
  | node i stem bs =>
    have parent : s.arena.parent? i = p := stands.parent?
    have here : Acc (fun p x => s.arena.parent? x = some p) i :=
      ⟨i, fun q above => top q (parent.symm.trans above)⟩
    intro x mem
    rcases List.mem_cons.mp mem with rfl | mem
    · exact here
    · refine StandsAll.finite bs stands.children (fun q same => ?_) x mem
      exact Option.some.inj same ▸ here

theorem StandsAll.finite (bs : List Branch) {p : Option NodeId} (stands : StandsAll s p bs)
    (top : ∀ q, p = some q → Acc (fun p x => s.arena.parent? x = some p) q) :
    ∀ x ∈ idsAll bs, Acc (fun p x => s.arena.parent? x = some p) x := by
  cases bs with
  | nil => exact fun _ mem => nomatch mem
  | cons b bs =>
    obtain ⟨head, tail⟩ := standsAll_cons.mp stands
    exact List.forall_mem_append.mpr ⟨Stands.finite b head top, StandsAll.finite bs tail top⟩

end

/-- The children of a node of a branch name it as their parent, and none is there twice. -/
theorem Stands.kids (stands : Stands s p b) (once : b.ids.Nodup) (mem : x ∈ b.ids) :
    (s.arena.children x).Nodup := by
  rw [← map_id_subs, List.mem_map] at mem
  obtain ⟨sub, mem, rfl⟩ := mem
  obtain ⟨q, part⟩ := Stands.sub b stands mem
  rw [part.children_eq]
  refine nodup_map_id ?_
  rw [subs_eq, List.mem_cons] at mem
  rcases mem with rfl | mem
  · exact nodup_children once
  · exact nodup_children (nodup_sub (nodup_children once) mem)

end

section
variable {a : Arena} {t : Tree}

theorem parent?_graft {x : NodeId} (early : x < a.size) :
    (a.graft t).2.parent? x = a.parent? x := by
  rw [Arena.parent?, Arena.node_graft, if_pos early, Arena.parent?]

theorem children_graft {x : NodeId} (early : x < a.size) :
    (a.graft t).2.children x = a.children x := by
  rw [Arena.children, Arena.node_graft, if_pos early, Arena.children]

theorem stands_graft (a : Arena) (t : Tree) :
    Stands { arena := (a.graft t).2 } none (ofTree false a.size t) := by
  have nodes : (a.graft t).2.nodes = a.nodes ++ (t.layout none a.size).toArray := rfl
  exact stands_copy nodes rfl fun _ _ => rfl

/-- The nodes of a graft are those of the tree. -/
theorem mem_ids_graft {x : NodeId} (late : a.size ≤ x) (range : x < (a.graft t).2.size) :
    x ∈ (ofTree false a.size t).ids := by
  rw [Arena.size_graft] at range
  rw [ids_ofTree, List.mem_range'_1]
  exact ⟨late, range⟩

theorem mem_children_graft (forest : a.Forest) {p x : NodeId} :
    x ∈ (a.graft t).2.children p ↔ (a.graft t).2.parent? x = some p := by
  refine ⟨fun child => ?_, linked_graft (fun _ _ => forest.linked) t x p⟩
  by_cases early : p < a.size
  · rw [children_graft early, forest.mem_children_iff] at child
    rw [parent?_graft (a.lt_size_of_parent? child), child]
  · have range := (a.graft t).2.lt_size_of_mem_children child
    exact ((stands_graft a t).child_mem (mem_ids_graft (Nat.le_of_not_lt early) range) child).2

theorem nodup_children_graft (forest : a.Forest) (p : NodeId) :
    ((a.graft t).2.children p).Nodup := by
  by_cases early : p < a.size
  · rw [children_graft early]
    exact forest.nodup_children p
  · by_cases range : p < (a.graft t).2.size
    · exact (stands_graft a t).kids (nodup_ofTree t) (mem_ids_graft (Nat.le_of_not_lt early) range)
    · rw [(a.graft t).2.children_eq_nil (Nat.le_of_not_lt range)]
      exact List.nodup_nil

theorem finite_graft (forest : a.Forest) (x : NodeId) :
    Acc (fun p x => (a.graft t).2.parent? x = some p) x := by
  by_cases early : x < a.size
  · -- an old node has old nodes above it
    induction x using forest.finite.induction with
    | _ x ih =>
      refine ⟨x, fun p parent => ?_⟩
      rw [parent?_graft early] at parent
      exact ih p parent (a.lt_size_of_mem_children (forest.linked parent))
  · by_cases range : x < (a.graft t).2.size
    · exact (stands_graft a t).finite _ (by simp) x
        (mem_ids_graft (Nat.le_of_not_lt early) range)
    · refine ⟨x, fun p parent => ?_⟩
      rw [(a.graft t).2.parent?_eq_none (Nat.le_of_not_lt range)] at parent
      cases parent

theorem forest_graft (forest : a.Forest) (t : Tree) : (a.graft t).2.Forest where
  mem_children_iff := mem_children_graft forest
  nodup_children := nodup_children_graft forest
  finite := ⟨finite_graft forest⟩

end

theorem forest_ofTree (t : Tree) : (Arena.ofTree t).Forest := by
  have nothing : (⟨#[]⟩ : Arena).Forest := by
    have free : ∀ x, (⟨#[]⟩ : Arena).parent? x = none := fun x =>
      Arena.parent?_eq_none _ (Nat.zero_le x)
    have bare : ∀ x, (⟨#[]⟩ : Arena).children x = [] := fun x =>
      Arena.children_eq_nil _ (Nat.zero_le x)
    refine ⟨by simp [free, bare], by simp [bare], ⟨fun x => ⟨x, fun p parent => ?_⟩⟩⟩
    rw [free] at parent
    cases parent
  have same : Arena.ofTree t = ((⟨#[]⟩ : Arena).graft t).2 := by
    simp [Arena.ofTree, Arena.graft, Arena.size]
  rw [same]
  exact forest_graft nothing t

theorem forest_apply {a : Arena} (forest : a.Forest) {m : Move} (legal : m.Legal a) :
    (m.apply a).Forest := by
  cases m with
  | alloc c => exact Arena.forest_alloc forest c
  | graft t => exact forest_graft forest t
  | setContent id c => exact Arena.forest_setContent forest id c
  | modifyElement id f => exact Arena.forest_modifyElement forest id f
  | takeChildren id => exact Arena.forest_takeChildren forest id
  | append parent child => exact Arena.forest_append forest legal.1 legal.2
  | replaceWith target ids => exact Arena.forest_replaceWith forest legal

theorem forest_play {a : Arena} (forest : a.Forest) {ms : List Move} (lawful : a.Lawful ms) :
    (a.play ms).Forest := by
  induction ms generalizing a with
  | nil => exact forest
  | cons m ms ih => exact ih (forest_apply forest lawful.1) lawful.2

/-! ### Journals -/

/-- An outcome with the moves that have led to it. -/
def Outcome.noted {α : Type} (ms : List Move) : Outcome α → EStateM.Result CompileError Journal α
  | .ok a s => .ok a ⟨s, ms⟩
  | .error e s => .error e ⟨s, ms⟩

/-- The journaled step has the outcome. It writes down moves that are legal where they are made, and
they lead to the store that is left. -/
def Keeps {α : Type} (w : Journaled α) (s : Expansion) (r : Outcome α) : Prop :=
  ∃ ms, (∀ before, w.run ⟨s, before⟩ = r.noted (before ++ ms)) ∧ s.arena.Lawful ms ∧
    s.arena.play ms = r.state.arena

/-- The journaled step keeps a journal of the step wherever that is taken. -/
def Mirrors {α : Type} (w : Journaled α) (m : Expand α) : Prop := ∀ s, Keeps w s (m.run s)

section
variable {α β γ : Type} {w : Journaled α} {k : α → Journaled β} {m : Expand α} {f : α → Expand β}
  {s s₁ s' : Expansion} {a : α} {e : CompileError}

theorem Keeps.forest {r : Outcome α} (keeps : Keeps w s r) (forest : s.arena.Forest) :
    r.state.arena.Forest := by
  obtain ⟨ms, -, lawful, played⟩ := keeps
  exact played ▸ forest_play forest lawful

theorem keeps_pure (a : α) (s : Expansion) : Keeps (pure a) s (.ok a s) := by
  refine ⟨[], fun before => ?_, trivial, rfl⟩
  rw [List.append_nil]
  rfl

theorem keeps_throw (e : CompileError) (s : Expansion) :
    Keeps (throw e : Journaled α) s (.error e s) := by
  refine ⟨[], fun before => ?_, trivial, rfl⟩
  rw [List.append_nil]
  rfl

theorem keeps_bind {r : Outcome β} (first : Keeps w s (.ok a s₁)) (next : Keeps (k a) s₁ r) :
    Keeps (w >>= k) s r := by
  obtain ⟨ms, run, lawful, played⟩ := first
  obtain ⟨ns, rest, lawful', played'⟩ := next
  change s.arena.play ms = s₁.arena at played
  refine ⟨ms ++ ns, fun before => ?_, Arena.lawful_append.mpr ⟨lawful, by rwa [played]⟩, ?_⟩
  · rw [EStateM.run_bind, run, ← List.append_assoc]
    exact rest (before ++ ms)
  · rw [Arena.play_append, played, played']

theorem keeps_stop (first : Keeps w s (.error e s')) : Keeps (w >>= k) s (.error e s') := by
  obtain ⟨ms, run, lawful, played⟩ := first
  refine ⟨ms, fun before => ?_, lawful, played⟩
  rw [EStateM.run_bind, run]
  rfl

theorem keeps_map {g : α → β} {r : Outcome α} (first : Keeps w s r) :
    Keeps (w >>= fun a => pure (g a)) s (r.map g) := by
  cases r with
  | ok a s' => exact keeps_bind first (keeps_pure (g a) s')
  | error e s' => exact keeps_stop first

theorem keeps_look {k : Expansion → Journaled β} {r : Outcome β} (next : Keeps (k s) s r) :
    Keeps (Journaled.look >>= k) s r := next

theorem keeps_quietly {r : Outcome α} (run : m.run s = r) (same : r.state.arena = s.arena) :
    Keeps (Journaled.quietly m) s r := by
  refine ⟨[], fun before => ?_, trivial, same.symm⟩
  rw [List.append_nil]
  change Journaled.quietly m ⟨s, before⟩ = _
  rw [Journaled.quietly, run]
  cases r with
  | ok a s' =>
    change s'.arena = s.arena at same
    simp only [Outcome.noted, ← same]
  | error e s' =>
    change s'.arena = s.arena at same
    simp only [Outcome.noted, ← same]

theorem keeps_move (mv : Move) (legal : mv.Legal s.arena)
    (run : (modifyArena mv.apply).run s = .ok () s') : Keeps (Journaled.move mv) s (.ok () s') := by
  cases run
  exact ⟨[mv], fun before => rfl, ⟨legal, trivial⟩, rfl⟩

theorem Mirrors.of_run {r : Outcome α} (mirrors : Mirrors w m) (run : m.run s = r) : Keeps w s r :=
  run ▸ mirrors s

theorem mirrors_pure (a : α) : Mirrors (pure a) (pure a) := keeps_pure a

theorem mirrors_look : Mirrors Journaled.look get := fun s => keeps_look (keeps_pure s s)

theorem mirrors_bind (first : Mirrors w m) (next : ∀ a, Mirrors (k a) (f a)) :
    Mirrors (w >>= k) (m >>= f) := by
  intro s
  have first := first s
  rw [EStateM.run_bind]
  cases run : m.run s with
  | ok a s₁ =>
    rw [run] at first
    exact keeps_bind first (next a s₁)
  | error e s' =>
    rw [run] at first
    exact keeps_stop first

theorem mirrors_foldlM {w : γ → α → Journaled γ} {m : γ → α → Expand γ}
    (each : ∀ c a, Mirrors (w c a) (m c a)) (as : List α) (c : γ) :
    Mirrors (as.foldlM w c) (as.foldlM m c) := by
  induction as generalizing c with
  | nil => exact mirrors_pure c
  | cons a as ih => exact mirrors_bind (each c a) ih

theorem mirrors_forM {w : α → Journaled Unit} {m : α → Expand Unit}
    (each : ∀ a, Mirrors (w a) (m a)) (as : List α) : Mirrors (as.forM w) (as.forM m) := by
  induction as with
  | nil => exact mirrors_pure ()
  | cons a as ih => exact mirrors_bind (each a) fun _ => ih

theorem mirrors_mapM {w : α → Journaled β} {m : α → Expand β}
    (each : ∀ a, Mirrors (w a) (m a)) (as : List α) : Mirrors (as.mapM w) (as.mapM m) := by
  induction as with
  | nil => exact mirrors_pure []
  | cons a as ih =>
    rw [List.mapM_cons, List.mapM_cons]
    exact mirrors_bind (each a) fun b => mirrors_bind ih fun bs => mirrors_pure (b :: bs)

/-- What leaves every store alone can be done quietly. -/
theorem mirrors_quietly (still : ∀ a, Preserves (fun t => t.arena = a) m) :
    Mirrors (Journaled.quietly m) m := fun s => keeps_quietly rfl (still s.arena s rfl)

theorem keeps_replaceWith {x : NodeId} {ids : List NodeId} (fits : s.arena.Replaceable x ids)
    (run : (modifyArena (·.replaceWith x ids)).run s = .ok () s') :
    Keeps (Journaled.move (.replaceWith x ids)) s (.ok () s') :=
  keeps_move _ fits run

theorem mirrors_move {mv : Move} (legal : ∀ a, mv.Legal a) :
    Mirrors (Journaled.move mv) (modifyArena mv.apply) := fun s => keeps_move mv (legal s.arena) rfl

/-! ### Steps that are legal anywhere -/

theorem keeps_alloc (c : Content) (s : Expansion) :
    Keeps (Journaled.alloc c) s (.ok s.arena.size { s with arena := (s.arena.alloc c).2 }) :=
  keeps_bind (k := fun _ => pure s.arena.size) (keeps_move (.alloc c) trivial rfl)
    (keeps_pure s.arena.size _)

theorem mirrors_alloc (c : Content) : Mirrors (Journaled.alloc c) (alloc c) := keeps_alloc c

theorem mirrors_takeChildren (id : NodeId) :
    Mirrors (Journaled.takeChildren id) (takeChildren id) := fun s =>
  keeps_bind (k := fun _ => pure (s.arena.children id))
    (keeps_move (.takeChildren id) trivial rfl) (keeps_pure (s.arena.children id) _)

theorem mirrors_graftAll (ts : List Tree) : Mirrors (Journaled.graftAll ts) (graftAll ts) :=
  mirrors_mapM (fun t s => keeps_bind (k := fun _ => pure s.arena.size)
    (keeps_move (.graft t) trivial rfl) (keeps_pure s.arena.size _)) ts

theorem mirrors_modifyElement (id : NodeId) (g : Element → Element) :
    Mirrors (Journaled.move (.modifyElement id g)) (modifyArena (·.modifyElement id g)) :=
  mirrors_move fun _ => trivial

theorem mirrors_partitionSlots (host : NodeId) :
    Mirrors (Journaled.partitionSlots host) (partitionSlots host) :=
  mirrors_bind (mirrors_takeChildren host) fun ids => mirrors_foldlM (fun _ id =>
    mirrors_bind mirrors_look fun _ => mirrors_bind (mirrors_modifyElement id _) fun _ =>
      mirrors_pure _) ids _

theorem mirrors_mergeHost (host : NodeId) (values : Values) :
    Mirrors (Journaled.quietly (mergeHost host values)) (mergeHost host values) := by
  refine mirrors_quietly fun a s same => ?_
  rw [mergeHost, run_get_bind]
  split
  · exact same
  · exact same

theorem mirrors_receive (scene : Scene) (host : Option NodeId) :
    Mirrors (Journaled.receive scene host) (receive scene host) := by
  cases host with
  | none => exact mirrors_pure _
  | some host =>
    exact mirrors_bind (mirrors_mergeHost host _) fun _ =>
      mirrors_bind (mirrors_partitionSlots host) fun _ => mirrors_pure _

theorem mirrors_substituteAttribute (values : Values) (site : AttributeSite) :
    Mirrors (Journaled.substituteAttribute values site) (substituteAttribute values site) := by
  refine mirrors_bind mirrors_look fun s => ?_
  dsimp only
  cases s.arena.element? site.node with
  | none => exact mirrors_pure ()
  | some e =>
    dsimp only
    cases e.attr? site.name with
    | none => exact mirrors_pure ()
    | some text =>
      dsimp only
      split
      · cases richValue? values site.tokens text with
        | none => exact mirrors_modifyElement site.node _
        | some v =>
          exact mirrors_bind (mirrors_quietly fun _ => preserves_modify fun _ same => same) fun _ =>
            mirrors_modifyElement site.node _
      · exact mirrors_modifyElement site.node _

theorem mirrors_captureRefs (sites : Sites) (hasClient : Bool) :
    Mirrors (Journaled.captureRefs sites hasClient) (captureRefs sites hasClient) := by
  refine mirrors_foldlM (fun refs node => ?_) _ _
  refine mirrors_bind mirrors_look fun s => mirrors_bind (mirrors_modifyElement node _) fun _ => ?_
  dsimp only
  cases (s.arena.element? node).bind fun e => (e.attribute? "ref").bind (·.value) with
  | none => exact mirrors_pure refs
  | some name =>
    dsimp only
    split
    · exact mirrors_pure refs
    · -- one step counts the number up and gives it to the element
      intro s
      exact keeps_look (keeps_bind (keeps_quietly rfl rfl) (keeps_bind
        (keeps_move (.modifyElement node _) trivial rfl) (keeps_pure _ _)))

theorem mirrors_bindRefs (c : Component) (context : String) (o : Opened) :
    Mirrors (Journaled.bindRefs c context o) (bindRefs c context o) := by
  refine mirrors_bind (mirrors_captureRefs _ _) fun refs => ?_
  cases o.client with
  | none => exact mirrors_pure refs
  | some source =>
    exact mirrors_bind (mirrors_quietly fun _ => preserves_modify fun _ same => same) fun _ =>
      mirrors_pure refs

theorem mirrors_compute (scene : Scene) (c : Component) (context : String) (values : Values) :
    Mirrors (Journaled.quietly (compute scene c context values))
      (compute scene c context values) := fun s =>
  keeps_quietly rfl (compute_kept s s ⟨rfl, rfl⟩).1

theorem mirrors_openInstance (scene : Scene) (c : Component) (context : String)
    (host : Option NodeId) (extra : Values) :
    Mirrors (Journaled.openInstance scene c context host extra)
      (openInstance scene c context host extra) := by
  refine mirrors_bind (mirrors_receive scene host) fun ⟨values, supplied⟩ => fun s => ?_
  refine keeps_look (keeps_bind (keeps_move (.graft c.document.tree) trivial rfl) ?_)
  exact mirrors_bind (mirrors_compute scene c context _) (fun given =>
    mirrors_bind (mirrors_forM (mirrors_substituteAttribute _) _) fun _ => mirrors_pure _) _

end

/-! ### Steps that are legal where they are taken -/

section
variable {s s₁ : Expansion} {p : Option NodeId} {b f g : Branch} {bs : List Branch}
  {x root fragment slot holder : NodeId} {ids listed : List NodeId} {supplied : Assoc (List NodeId)}
  {name : String} {names : List String} {light : List (String × Branch)}

theorem Stands.mem_of_above (stands : Stands s p b) (forest : s.arena.Forest)
    (above : s.arena.Above b.id x) : x ∈ idsAll b.children := by
  induction above with
  | parent parent => exact (stands.child_mem id_mem_ids (forest.linked parent)).1
  | higher parent above ih =>
    exact (stands.child_mem (mem_ids_of_children ih) (forest.linked parent)).1

/-- Branches without a place can take the place of a node that is not in them. -/
theorem replaceable_free (forest : s.arena.Forest) (free : StandsAll s none bs)
    (once : (idsAll bs).Nodup) (apart : x ∉ idsAll bs) (placed : (s.arena.parent? x).isSome) :
    s.arena.Replaceable x (bs.map (·.id)) where
  once := nodup_map_id once
  free i mem := by
    obtain ⟨b, here, rfl⟩ := List.mem_map.mp mem
    exact ⟨free.lt (mem_map_id mem), free.parent?_of_mem here⟩
  apart i mem := by
    refine ⟨fun same => apart (same ▸ mem_map_id mem), fun above => ?_⟩
    obtain ⟨b, here, rfl⟩ := List.mem_map.mp mem
    have inside := (standsAll_iff.mp free b here).mem_of_above forest above
    exact apart (mem_idsAll.mpr ⟨b, here, mem_ids_of_children inside⟩)
  placed := placed

/-- What is taken out of a branch can take the place of a node elsewhere. -/
theorem replaceable_taken (forest : s.arena.Forest) (free : Stands s none g) (once : g.ids.Nodup)
    (apart : x ∉ g.ids) (placed : (s.arena.parent? x).isSome)
    (taken : (takeChildren g.id).run s = .ok listed s₁) : s₁.arena.Replaceable x listed := by
  have forest₁ := (mirrors_takeChildren g.id s).forest forest
  rw [taken] at forest₁
  obtain ⟨rfl, arena, rich⟩ := takeChildren_ok taken
  obtain ⟨loose, -, others⟩ := stands_takeChildren free once arena rich
  have same : s₁.arena.parent? x = s.arena.parent? x := congrArg (·.1.parent) (others x apart)
  rw [free.children_eq]
  exact replaceable_free forest₁ loose (nodup_children once)
    (fun mem => apart (mem_ids_of_children mem)) (same ▸ placed)

theorem keeps_appends (once : ids.Nodup)
    (free : ∀ i ∈ ids, i < s.arena.size ∧ s.arena.parent? i = none) (apart : root ∉ ids)
    (inside : root < s.arena.size) (bare : s.arena.parent? root = none) :
    Keeps (ids.forM fun id => Journaled.move (.append root id)) s
      (.ok () { s with arena := ids.foldl (·.append root ·) s.arena }) := by
  induction ids generalizing s with
  | nil => exact keeps_pure () s
  | cons i ids ih =>
    rw [List.nodup_cons] at once
    rw [List.mem_cons, not_or] at apart
    obtain ⟨⟨range, free_i⟩, free⟩ := List.forall_mem_cons.mp free
    have legal : Move.Legal s.arena (.append root i) := by
      refine ⟨inside, by simp, by simpa using ⟨range, free_i⟩, fun j mem => ?_⟩
      rw [List.mem_singleton.mp mem]
      exact ⟨Ne.symm apart.1, Arena.not_above_of_free bare⟩
    have others : ∀ j, j ≠ i → (s.arena.append root i).parent? j = s.arena.parent? j := by
      intro j other
      rw [Arena.parent?_append inside range free_i apart.1, if_neg other]
    have size : (s.arena.append root i).size = s.arena.size := s.arena.size_append root i
    refine keeps_bind (keeps_move _ legal rfl) (ih once.2 (fun j mem => ?_) apart.2 ?_ ?_)
    · have other : j ≠ i := fun same => once.1 (same ▸ mem)
      exact ⟨size ▸ (free j mem).1, (others j other).trans (free j mem).2⟩
    · exact size ▸ inside
    · exact (others root apart.1).trans bare

/-- What a slot is supplied with has no place, and neither has what stands in it once it is taken
out. -/
theorem keeps_holdContent (forest : s.arena.Forest)
    (serving : Serving s fragment supplied (name :: names) f light)
    (held : (holdContent supplied name slot).run s = .ok holder s₁) :
    Keeps (Journaled.holdContent supplied name slot) s (.ok holder s₁) := by
  have forest₁ := Arena.forest_alloc forest .root
  have parents := s.arena.parent?_alloc .root
  have bare := (parents s.arena.size).trans (s.arena.parent?_eq_none (Nat.le_refl _))
  have size : (s.arena.alloc .root).2.size = s.arena.size + 1 := s.arena.size_alloc .root
  rw [← held, Journaled.holdContent, holdContent, run_get_bind]
  refine keeps_look ?_
  dsimp only
  have start := keeps_alloc .root s
  cases given : (Assoc.get? supplied name).filter (isContent s.arena) with
  | some ids =>
    obtain ⟨free, once⟩ := serving.stocked.free_assigned name
    have listed := serving.supplies name List.mem_cons_self
    rw [(Option.filter_eq_some_iff.mp given).1, Option.getD_some] at listed
    refine keeps_bind start (keeps_bind (keeps_pure ids _) (keeps_bind
      (keeps_appends (listed ▸ nodup_map_id once) (fun i mem => ?_) (fun mem => ?_) ?_ bare)
      (keeps_pure _ _)))
    · rw [listed] at mem
      obtain ⟨b, here, rfl⟩ := List.mem_map.mp mem
      have range := free.lt (mem_map_id mem)
      exact ⟨size ▸ Nat.lt_succ_of_lt range, (parents _).trans (free.parent?_of_mem here)⟩
    · rw [listed] at mem
      exact Nat.lt_irrefl _ (free.lt (mem_map_id mem))
    · exact size ▸ Nat.lt_succ_self _
  | none =>
    have taken := forest₁.parent?_takeChildren slot
    have range : ((s.arena.alloc .root).2.takeChildren slot).2.size = s.arena.size + 1 := by
      rw [Arena.size_takeChildren, size]
    have apart : s.arena.size ∉ (s.arena.alloc .root).2.children slot := by
      intro mem
      rw [forest₁.mem_children_iff, bare] at mem
      cases mem
    refine keeps_bind start (keeps_bind (mirrors_takeChildren slot _) (keeps_bind
      (keeps_appends (forest₁.nodup_children slot) (fun i mem => ?_) apart ?_ ?_)
      (keeps_pure _ _)))
    · have inside := Arena.lt_size_of_parent? _ (forest₁.mem_children_iff.mp mem)
      exact ⟨range ▸ size ▸ inside, (taken i).trans (if_pos mem)⟩
    · exact range ▸ Nat.lt_succ_self _
    · exact (taken _).trans ((if_neg apart).trans bare)

end

/-! ### Runs -/

/-- What is replaced when a call ends has a parent: the host that is expanded, or a text of a copy. -/
def Call.Anchored (s : Expansion) : Call → Prop
  | .texts _ _ _ _ sites => ∃ s₀ c f, Draft s₀ s c (sites.map (·.node)) f
  | .text _ _ _ site => ∃ s₀ c todo f, Draft s₀ s c (site.node :: todo) f
  | .host _ _ x _ => (s.arena.parent? x).isSome
  | _ => True

section
variable {scene : Scene} {s s₁ s₂ s₃ s' : Expansion} {c : Component} {o : Opened} {context : String}
  {left room height : Nat} {host fragment slot holder : NodeId} {nodes listed : List NodeId}
  {supplied : Assoc (List NodeId)} {name : String}

theorem anchored_texts {values : Values} {index : Nat} {extra : Values} {host : Option NodeId}
    (sound : c.Sound) (tidy : Tidy s)
    (opened : (openInstance scene c context host extra).run s = .ok o s₁) :
    (Call.texts left values context index o.sites.texts).Anchored s₁ := by
  obtain ⟨_, s₀, u, received, -, -, placed, computed, filled⟩ := openInstance_ok opened
  obtain ⟨f, draft⟩ :=
    draft_opened sound ((tidy_receive scene host).of_ok tidy received) placed computed filled
  exact ⟨s₀, c, f, draft⟩

theorem anchored_head {rest : List (NodeId × String)}
    (placed : (Call.hosts room height ((host, context) :: rest)).Placed s) :
    (Call.host room height host context).Anchored s := by
  obtain ⟨p, b, subs, waiting, listed, -⟩ := placed
  rw [List.map_cons] at listed
  obtain ⟨sub, subs, rfl, rfl, -⟩ := List.map_eq_cons_iff.mp listed
  obtain ⟨q, above⟩ :=
    Stands.above b waiting.stands waiting.once (id_mem_idsAll waiting.part)
  exact Option.isSome_iff_exists.mpr ⟨q, above.parent⟩

/-- New nodes can take the place of a text of a copy. -/
theorem replaceable_text {values : Values} {site : TextSite} {bs : List Branch}
    (anchored : (Call.text left values context site).Anchored s) (forest : s₁.arena.Forest)
    (fresh : Fresh s s₁ nodes bs) : s₁.arena.Replaceable site.node nodes := by
  obtain ⟨s₀, c, todo, f, draft⟩ := anchored
  obtain ⟨sub, part, same, -⟩ := draft.texts site.node List.mem_cons_self
  have mem := id_mem_idsAll part
  rw [same] at mem
  have stands := fresh.framed.stands draft.stands fun _ _ => List.not_mem_nil
  obtain ⟨q, above⟩ := Stands.above f stands draft.once mem
  have range := draft.stands.lt (mem_ids_of_children mem)
  rw [← fresh.nodes]
  exact replaceable_free forest fresh.stands fresh.once
    (fun inside => Nat.not_le_of_lt range (fresh.fresh _ inside))
    (Option.isSome_iff_exists.mpr ⟨q, above.parent⟩)

/-- What stands in an instance can take the place of its host. -/
theorem replaceable_host (placed : (Call.host room height host context).Placed s)
    (anchored : (Call.host room height host context).Anchored s)
    (made : HostedLeaves host s s₁ fragment) (forest : s₁.arena.Forest)
    (taken : (takeChildren fragment).run s₁ = .ok listed s₂) :
    s₂.arena.Replaceable host listed := by
  obtain ⟨b, ⟨⟨p, stands⟩, rfl, once⟩, custom, -⟩ := placed
  obtain ⟨f, rfl, raised, stem, left⟩ := made b p stands rfl once custom
  have same : s₁.arena.parent? b.id = s.arena.parent? b.id := by
    rw [stands.parent?]
    exact left.parent?
  refine replaceable_taken forest raised.stands raised.once (fun mem => ?_) (same ▸ anchored) taken
  rw [ids_eq, List.nodup_cons] at once
  rcases raised.ids _ mem with mem | fresh
  · exact once.1 mem
  · exact Nat.not_le_of_lt (stands.lt id_mem_ids) fresh

/-- What a slot is filled with can take its place. -/
theorem replaceable_slot {rest : List (String × NodeId)} (tidy : Tidy s)
    (placed : (Call.slots room fragment supplied context ((name, slot) :: rest)).Placed s)
    (inside : s.arena.isBelow slot fragment = true)
    (held : (holdContent supplied name slot).run s = .ok holder s₁)
    (leaves : WithinLeaves holder s₁ s₂) (forest : s₂.arena.Forest)
    (taken : (takeChildren holder).run s₂ = .ok listed s₃) :
    s₃.arena.Replaceable slot listed := by
  obtain ⟨f, light, serving⟩ := placed
  rw [← serving.id] at inside
  obtain ⟨sub, part, rfl⟩ :=
    mem_idsAll_iff_subs.mp (serving.stocked.stands.mem_of_isBelow tidy inside)
  obtain ⟨rfl, root_once, f', parted, hold⟩ := serving.held tidy part held
  obtain ⟨cs, turns⟩ := leaves _ none hold.held rfl root_once
  obtain ⟨stands, -, apart⟩ :=
    hold.turned parted (fun y mem => serving.stocked.stands.lt mem) turns
  obtain ⟨q, above⟩ := Stands.above f' stands parted.once parted.here
  exact replaceable_taken forest turns.stands turns.once
    (fun mem => apart _ mem (mem_ids_of_children parted.here))
    (Option.isSome_iff_exists.mpr ⟨q, above.parent⟩) taken

end

/-- A run keeps a journal, and every move in it is legal where it is made. -/
theorem keeps_of_run {scene : Scene} {call : Call} {made : List Instance} {r : Outcome call.Out}
    {s : Expansion} (sound : ∀ id c, scene.library.component? id = some c → c.Sound)
    (run : Run scene call s made r) (tidy : Tidy s) (forest : s.arena.Forest)
    (placed : call.Placed s) (anchored : call.Anchored s) :
    Keeps (Journaled.exec scene call) s r := by
  induction run with simp only [Journaled.exec]
  | unknown absent logged =>
    rw [Journaled.create, absent]
    exact keeps_bind (keeps_quietly logged (by cases logged; rfl)) (keeps_pure none _)
  | tooDeep known =>
    rw [Journaled.create, known]
    exact keeps_throw _ _
  | refused known failed =>
    rw [Journaled.create, known]
    exact keeps_stop ((mirrors_openInstance _ _ _ _ _).of_run failed)
  | textsStop known opened texts ih =>
    have opens := (mirrors_openInstance _ _ _ _ _).of_run opened
    have tidy₁ := (tidy_openInstance _ _ _ _ _).of_ok tidy opened
    rw [Journaled.create, known]
    exact keeps_bind opens (keeps_stop (ih tidy₁ (opens.forest forest) trivial
      (anchored_texts (sound _ _ known) tidy opened)))
  | withinStop known opened texts bound within ih ihw =>
    have opens := (mirrors_openInstance _ _ _ _ _).of_run opened
    have binds := (mirrors_bindRefs _ _ _).of_run bound
    have tidy₁ := (tidy_openInstance _ _ _ _ _).of_ok tidy opened
    have tidy₃ := (tidy_bindRefs _ _ _).of_ok (tidy_of_run texts tidy₁) bound
    obtain ⟨s₀, light, f, drafted⟩ := exists_drafted (sound _ _ known) tidy placed opened
      (leaves_of_run sound texts tidy₁ _ _ rfl) bound
    have filled := ih tidy₁ (opens.forest forest) trivial
      (anchored_texts (sound _ _ known) tidy opened)
    have forest₃ := binds.forest (filled.forest (opens.forest forest))
    rw [Journaled.create, known]
    exact keeps_bind opens (keeps_bind filled (keeps_bind binds (keeps_look
      (keeps_stop (ihw tidy₃ forest₃ drafted.upright.placed trivial)))))
  | created known opened texts bound within slots ih ihw ihs =>
    have opens := (mirrors_openInstance _ _ _ _ _).of_run opened
    have binds := (mirrors_bindRefs _ _ _).of_run bound
    have tidy₁ := (tidy_openInstance _ _ _ _ _).of_ok tidy opened
    have tidy₃ := (tidy_bindRefs _ _ _).of_ok (tidy_of_run texts tidy₁) bound
    obtain ⟨s₀, light, f, drafted⟩ := exists_drafted (sound _ _ known) tidy placed opened
      (leaves_of_run sound texts tidy₁ _ _ rfl) bound
    have filled := ih tidy₁ (opens.forest forest) trivial
      (anchored_texts (sound _ _ known) tidy opened)
    have forest₃ := binds.forest (filled.forest (opens.forest forest))
    have expanded := ihw tidy₃ forest₃ drafted.upright.placed trivial
    have served := ihs (tidy_of_run within tidy₃) (expanded.forest forest₃)
      (drafted.placed_slots (leaves_of_run sound within tidy₃ _ _ rfl)) trivial
    rw [Journaled.create, known]
    exact keeps_bind opens (keeps_bind filled (keeps_bind binds (keeps_look
      (keeps_bind expanded (keeps_map served)))))
  | textsNil =>
    rw [Journaled.substituteTexts]
    exact keeps_pure () _
  | textsHeadStop head ih =>
    obtain ⟨s₀, c, f, draft⟩ := anchored
    rw [Journaled.substituteTexts]
    exact keeps_stop (ih tidy forest trivial ⟨s₀, c, _, f, draft⟩)
  | textsCons head tail ih iht =>
    obtain ⟨s₀, c, f, draft⟩ := anchored
    have first := ih tidy forest trivial ⟨s₀, c, _, f, draft⟩
    obtain ⟨f', draft'⟩ := leaves_of_run sound head tidy _ _ rfl s₀ c _ f draft
    rw [Journaled.substituteTexts]
    exact keeps_bind first (iht (tidy_of_run head tidy) (first.forest forest) trivial
      ⟨s₀, c, f', draft'⟩)
  | noText absent =>
    rw [Journaled.substituteText]
    refine keeps_look ?_
    simp only [absent]
    exact keeps_pure () _
  | plainText found plain written =>
    rw [Journaled.substituteText]
    refine keeps_look ?_
    simp only [found, plain, if_pos]
    exact keeps_move _ trivial written
  | richTextStop found rich pieces ih =>
    rw [Journaled.substituteText]
    refine keeps_look ?_
    simp only [found, rich, if_neg Bool.false_ne_true]
    exact keeps_stop (ih tidy forest trivial trivial)
  | richText found rich pieces replaced ih =>
    have made := ih tidy forest trivial trivial
    obtain ⟨bs, fresh⟩ := leaves_of_run sound pieces tidy _ _ rfl
    rw [Journaled.substituteText]
    refine keeps_look ?_
    simp only [found, rich, if_neg Bool.false_ne_true]
    exact keeps_bind made
      (keeps_replaceWith (replaceable_text anchored (made.forest forest) fresh) replaced)
  | piecesNil =>
    rw [Journaled.placePieces]
    exact keeps_pure [] _
  | piecesEmpty empty tail ih =>
    rw [Journaled.placePieces, if_pos empty]
    exact ih tidy forest trivial trivial
  | piecesLiteral more added tail ih =>
    have adds := (mirrors_alloc _).of_run added
    rw [Journaled.placePieces, more, if_neg Bool.false_ne_true]
    exact keeps_bind adds (keeps_map (ih ((tidy_alloc _).of_ok tidy added) (adds.forest forest)
      trivial trivial))
  | piecesValueStop head ih =>
    rw [Journaled.placePieces]
    exact keeps_stop (ih tidy forest trivial trivial)
  | piecesValue head tail ih iht =>
    have first := ih tidy forest trivial trivial
    rw [Journaled.placePieces]
    exact keeps_bind first (keeps_map (iht (tidy_of_run head tidy) (first.forest forest)
      trivial trivial))
  | valueText added =>
    rw [Journaled.materialize]
    exact keeps_map ((mirrors_alloc _).of_run added)
  | valueMarkupStop bad =>
    rw [Journaled.materialize, bad]
    exact keeps_throw _ _
  | valueMarkup read grafted =>
    rw [Journaled.materialize, read]
    exact (mirrors_graftAll _).of_run grafted
  | valueComponentStop body ih =>
    rw [Journaled.materialize]
    exact keeps_stop (ih tidy forest trivial trivial)
  | valueComponent body taken ih =>
    rw [Journaled.materialize]
    exact keeps_bind (ih tidy forest trivial trivial) ((mirrors_takeChildren _).of_run taken)
  | valueUnknown body added ih =>
    rw [Journaled.materialize]
    exact keeps_bind (ih tidy forest trivial trivial) (keeps_map ((mirrors_alloc _).of_run added))
  | valueList all ih =>
    rw [Journaled.materialize]
    exact ih tidy forest trivial trivial
  | valuesNil =>
    rw [Journaled.materializeAll]
    exact keeps_pure [] _
  | valuesHeadStop head ih =>
    rw [Journaled.materializeAll]
    exact keeps_stop (ih tidy forest trivial trivial)
  | valuesCons head tail ih iht =>
    have first := ih tidy forest trivial trivial
    rw [Journaled.materializeAll]
    exact keeps_bind first (keeps_map (iht (tidy_of_run head tidy) (first.forest forest)
      trivial trivial))
  | within all ih =>
    rw [Journaled.expandWithin]
    exact keeps_look (ih tidy forest (placed_hosts placed) trivial)
  | hostsNil =>
    rw [Journaled.expandHosts]
    exact keeps_pure () _
  | hostsHeadStop head ih =>
    rw [Journaled.expandHosts]
    exact keeps_stop (ih tidy forest (placed_head placed) (anchored_head placed))
  | hostsCons head tail ih iht =>
    have first := ih tidy forest (placed_head placed) (anchored_head placed)
    rw [Journaled.expandHosts]
    exact keeps_bind first (iht (tidy_of_run head tidy) (first.forest forest)
      (placed_tail placed (leaves_of_run sound head tidy _ _ rfl)) trivial)
  | noHost absent =>
    rw [Journaled.expandHost.eq_def]
    refine keeps_look ?_
    rw [absent]
    exact keeps_pure () _
  | hostStop found body ih =>
    rw [Journaled.expandHost.eq_def]
    refine keeps_look ?_
    rw [found]
    exact keeps_stop (ih tidy forest (placed_host placed) trivial)
  | hostReplaced found body taken replaced ih =>
    have made := ih tidy forest (placed_host placed) trivial
    have fits := replaceable_host placed anchored (leaves_of_run sound body tidy _ _ rfl)
      (made.forest forest) taken
    rw [Journaled.expandHost.eq_def]
    refine keeps_look ?_
    rw [found]
    exact keeps_bind made (keeps_bind ((mirrors_takeChildren _).of_run taken)
      (keeps_replaceWith fits replaced))
  | hostBottom found body ih =>
    obtain ⟨b, -, -, short⟩ := placed
    exact absurd short (Nat.not_le_of_lt length_ids_pos)
  | hostKept found body inside ih iht =>
    have first := ih tidy forest (placed_host placed) trivial
    rw [Journaled.expandHost.eq_def]
    refine keeps_look ?_
    rw [found]
    exact keeps_bind first (iht (tidy_of_run body tidy) (first.forest forest)
      (placed_inside placed (leaves_of_run sound body tidy _ _ rfl)) trivial)
  | slotsNil =>
    rw [Journaled.fillSlots]
    exact keeps_pure () _
  | slotsGone outside tail ih =>
    obtain ⟨f, light, serving⟩ := placed
    rw [Journaled.fillSlots]
    refine keeps_look ?_
    simp only [outside, if_neg Bool.false_ne_true]
    exact ih tidy forest ⟨f, light, serving.skip⟩ trivial
  | slotsStop inside held content ih =>
    obtain ⟨f, light, serving⟩ := id placed
    obtain ⟨⟨b, upright⟩, -⟩ := placed_slot tidy placed inside held
    have holds := keeps_holdContent forest serving held
    rw [Journaled.fillSlots]
    refine keeps_look ?_
    simp only [inside, if_pos]
    exact keeps_bind holds (keeps_look (keeps_stop (ih ((tidy_holdContent _ _ _).of_ok tidy held)
      (holds.forest forest) upright.placed trivial)))
  | slotsCons inside held content taken replaced tail ih iht =>
    have tidy₁ := (tidy_holdContent _ _ _).of_ok tidy held
    have tidy₄ := (tidy_replaceWith _ _).of_ok ((tidy_takeChildren _).of_ok
      (tidy_of_run content tidy₁) taken) replaced
    have leaves := leaves_of_run sound content tidy₁ _ _ rfl
    obtain ⟨f, light, serving⟩ := id placed
    obtain ⟨⟨b, upright⟩, next⟩ := placed_slot tidy placed inside held
    have holds := keeps_holdContent forest serving held
    have expanded := ih tidy₁ (holds.forest forest) upright.placed trivial
    have forest₂ := expanded.forest (holds.forest forest)
    have takes := (mirrors_takeChildren _).of_run taken
    have replaces :=
      keeps_replaceWith (replaceable_slot tidy placed inside held leaves forest₂ taken) replaced
    rw [Journaled.fillSlots]
    refine keeps_look ?_
    simp only [inside, if_pos]
    exact keeps_bind holds (keeps_look (keeps_bind expanded (keeps_bind takes
      (keeps_bind replaces (iht tidy₄ (replaces.forest (takes.forest forest₂))
        (next leaves taken replaced) trivial)))))

/-! ### Pages -/

section
variable {scene : Scene} {s : Expansion}

theorem keeps_expandPage (page : Page)
    (sound : ∀ id c, scene.library.component? id = some c → c.Sound) :
    Keeps (Journaled.expandPage scene) (ofPage page) ((expandPage scene).run (ofPage page)) := by
  obtain ⟨trace, run⟩ := (expandPage_eq_iff scene page _).mp rfl
  have upright : Upright (ofPage page) Arena.root (ofTree false Arena.root page.document.tree) :=
    ⟨⟨none, stands_ofPage page⟩, id_ofTree _ _, nodup_ofTree _⟩
  exact keeps_of_run sound run (tidy_ofPage page) (forest_ofTree _) upright.placed trivial

theorem findElement?_lt {a : Arena} {start id : NodeId} {name : String}
    (found : a.findElement? start name = some id) : id < a.size := by
  have named := List.find?_some found
  obtain ⟨e, here, -⟩ := Option.any_eq_true _ _ |>.mp named
  exact a.lt_size_of_element? here

/-- Nothing of a page stands below a new node that has just got another new one. -/
theorem not_above_new {a b : Arena} {top new inner : NodeId} (forest : a.Forest) (old : top < a.size)
    (late : a.size ≤ new) (order : new < inner)
    (parents : ∀ x, b.parent? x = if x = inner then some new else a.parent? x) :
    ¬ b.Above new top := by
  have from_old : ∀ x p, b.parent? x = some p → x = inner ∨ p < new := by
    intro x p parent
    rw [parents] at parent
    split at parent
    · next own => exact .inl own
    · exact .inr (Nat.lt_of_lt_of_le (a.lt_size_of_mem_children (forest.linked parent)) late)
  have below : ∀ x, b.Above new x → new < x := by
    intro x above
    induction above with
    | parent parent =>
      rcases from_old _ _ parent with rfl | early
      · exact order
      · exact absurd early (Nat.lt_irrefl _)
    | higher parent above ih =>
      rcases from_old _ _ parent with rfl | early
      · exact order
      · exact absurd early (Nat.lt_asymm ih)
  exact fun above => Nat.lt_asymm (Nat.lt_of_lt_of_le old late) (below top above)

/-- A new node gets another new one, and a place in the page. -/
theorem legal_inject {a : Arena} {top : NodeId} (forest : a.Forest) (old : top < a.size)
    (c d : Content) :
    Move.Legal ((a.alloc c).2.alloc d).2 (.append a.size (a.alloc c).2.size) ∧
      Move.Legal (((a.alloc c).2.alloc d).2.append a.size (a.alloc c).2.size)
        (.append top a.size) := by
  generalize first : (a.alloc c).2 = a₁
  generalize second : (a₁.alloc d).2 = a₂
  have size₁ : a₁.size = a.size + 1 := by rw [← first, Arena.size_alloc]
  have size₂ : a₂.size = a₁.size + 1 := by rw [← second, Arena.size_alloc]
  have parents : ∀ x, a₂.parent? x = a.parent? x := fun x => by
    rw [← second, ← first, Arena.parent?_alloc, Arena.parent?_alloc]
  have free : ∀ x, a.size ≤ x → a₂.parent? x = none := fun x late =>
    (parents x).trans (a.parent?_eq_none late)
  have order : a.size < a₁.size := by omega
  have range : a₁.size < a₂.size := by omega
  have free₁ := free a₁.size (Nat.le_of_lt order)
  have size : (a₂.append a.size a₁.size).size = a₂.size := a₂.size_append _ _
  have placed : ∀ x, (a₂.append a.size a₁.size).parent? x =
      if x = a₁.size then some a.size else a.parent? x := fun x => by
    rw [Arena.parent?_append (Nat.lt_trans order range) range free₁ (Nat.ne_of_lt order), parents]
  have once : ∀ i : NodeId, [i].Nodup := fun i => List.nodup_cons.mpr ⟨List.not_mem_nil, .nil⟩
  refine ⟨⟨Nat.lt_trans order range, once _, fun i mem => ?_, fun i mem => ?_⟩,
    ⟨?_, once _, fun i mem => ?_, fun i mem => ?_⟩⟩
  · rw [List.mem_singleton.mp mem]
    exact ⟨range, free₁⟩
  · rw [List.mem_singleton.mp mem]
    exact ⟨Nat.ne_of_gt order, Arena.not_above_of_free (free _ (Nat.le_refl _))⟩
  · exact size ▸ Nat.lt_trans old (Nat.lt_trans order range)
  · rw [List.mem_singleton.mp mem, placed, if_neg (Nat.ne_of_lt order), size]
    exact ⟨Nat.lt_trans order range, a.parent?_eq_none (Nat.le_refl _)⟩
  · rw [List.mem_singleton.mp mem]
    exact ⟨Nat.ne_of_gt old, not_above_new forest old (Nat.le_refl _) order placed⟩

theorem keeps_inject (forest : s.arena.Forest) (filled : 0 < s.arena.size) (b : Bundle) :
    Keeps (Journaled.inject b) s (.ok () { s with arena := b.inject s.arena }) := by
  have target : ((s.arena.findElement? Arena.root "body").getD Arena.root) < s.arena.size := by
    cases found : s.arena.findElement? Arena.root "body" with
    | none => exact filled
    | some id => exact findElement?_lt found
  rw [Journaled.inject, Bundle.inject]
  refine keeps_look ?_
  dsimp only
  obtain ⟨inner, outer⟩ := legal_inject forest target
    (.element (if b.isModule then ({ name := "script" } : Element).setAttr "type" "module"
      else { name := "script" })) (.text b.source)
  exact keeps_bind (keeps_alloc _ s) (keeps_bind (keeps_alloc _ _)
    (keeps_bind (keeps_move _ inner rfl) (keeps_move _ outer rfl)))

theorem keeps_addBundle (forest : s.arena.Forest) (filled : 0 < s.arena.size)
    (settings : ClientSettings) :
    Keeps (Journaled.addBundle settings) s (.ok () (s.addBundle settings)) := by
  rw [Journaled.addBundle]
  refine keeps_look ?_
  rw [addBundle]
  cases Bundle.ofInstances settings.minify settings.modules s.instances with
  | none => exact keeps_pure () s
  | some made => exact keeps_bind (keeps_inject forest filled made.1) (keeps_quietly rfl rfl)

theorem size_play (a : Arena) (ms : List Move) : a.size ≤ (a.play ms).size := by
  induction ms generalizing a with
  | nil => exact Nat.le_refl _
  | cons m ms ih =>
    refine Nat.le_trans ?_ (ih (m.apply a))
    cases m with
    | alloc c => exact (a.size_alloc c).symm ▸ Nat.le_succ _
    | graft t => exact (a.size_graft t).symm ▸ Nat.le_add_right _ _
    | setContent id c => exact Nat.le_of_eq (a.size_setContent id c).symm
    | modifyElement id f => exact Nat.le_of_eq (a.size_modifyElement id f).symm
    | takeChildren id => exact Nat.le_of_eq (a.size_takeChildren id).symm
    | append parent child => exact Nat.le_of_eq (a.size_append parent child).symm
    | replaceWith target ids => exact Nat.le_of_eq (a.size_replaceWith target ids).symm

theorem keeps_compilePage (page : Page)
    (sound : ∀ id c, scene.library.component? id = some c → c.Sound) (settings : ClientSettings) :
    Keeps (Journaled.compilePage scene settings) (ofPage page)
      ((compilePage scene settings).run (ofPage page)) := by
  have expanded := keeps_expandPage page sound
  rw [compilePage, EStateM.run_bind]
  cases run : (expandPage scene).run (ofPage page) with
  | error e s =>
    rw [run] at expanded
    exact keeps_stop expanded
  | ok out s =>
    rw [run] at expanded
    have forest : s.arena.Forest := expanded.forest (forest_ofTree page.document.tree)
    refine keeps_bind expanded (keeps_addBundle forest ?_ settings)
    obtain ⟨ms, -, -, played⟩ := expanded
    refine Nat.lt_of_lt_of_le ?_ (Nat.le_of_eq (congrArg Arena.size played))
    exact Nat.lt_of_lt_of_le (Nat.zero_lt_of_lt ((stands_ofPage page).lt id_mem_ids))
      (size_play _ ms)

end

/-- At every point of a compile the store of the page is a forest. Where nodes take the place of
another one, that has a parent, and none of the nodes is lost: they stand where it stood. -/
theorem store_stays_forest (scene : Scene) (files : scene.library.FromFiles)
    (settings : ClientSettings) (page : Page) :
    ∃ moves,
      (Journaled.compilePage scene settings).run ⟨ofPage page, []⟩ =
        Outcome.noted moves ((compilePage scene settings).run (ofPage page)) ∧
      (ofPage page).arena.play moves =
        (Outcome.state ((compilePage scene settings).run (ofPage page))).arena ∧
      (∀ before, before <+: moves → ((ofPage page).arena.play before).Forest) ∧
      ∀ before target ids, before ++ [.replaceWith target ids] <+: moves →
        let a := (ofPage page).arena.play before
        a.Replaceable target ids ∧ ∃ q, a.parent? target = some q ∧
          (a.replaceWith target ids).children q = Arena.swap target ids (a.children q) ∧
          ∀ i ∈ ids, (a.replaceWith target ids).parent? i = some q ∧
            (a.replaceWith target ids).children i = a.children i := by
  obtain ⟨moves, run, lawful, played⟩ := keeps_compilePage page files.sound settings
  have forest : ∀ before, before <+: moves → ((ofPage page).arena.play before).Forest := by
    rintro before ⟨after, rfl⟩
    exact forest_play (forest_ofTree _) (Arena.lawful_append.mp lawful).1
  refine ⟨moves, run [], played, forest, fun before target ids made => ?_⟩
  have before_made : before <+: moves := (List.prefix_append before _).trans made
  obtain ⟨after, rfl⟩ := made
  rw [List.append_assoc, Arena.lawful_append] at lawful
  have fits : ((ofPage page).arena.play before).Replaceable target ids := lawful.2.1
  exact ⟨fits, fits.replaced (forest before before_made)⟩

/-! ### A text, a slot and a host -/

/-- Shows what the page lists, and what it is given. -/
def panel : Component where
  id := "x-panel"
  path := "panel.html"
  dir := ""
  document := ⟨.node .root [.node (.element ⟨"p", []⟩) [.node (.text "{{items}}") []],
      .node (.element ⟨"slot", []⟩) [.node (.text "none") []]],
    { texts := [⟨2, [⟨"items", "{{items}}"⟩]⟩], slots := [("default", 3)] }⟩
  script := none

def panelLibrary : Library where
  component? id := if id = "x-panel" then some panel else none
  templates := ["x-panel"]
  pages := []

def panelPage : Page where
  values := [("items", .sequence [.string "a", .string "b"])]
  document := ⟨.node .root [.node (.element ⟨"x-panel", []⟩)
    [.node (.element ⟨"i", []⟩) [.node (.text "own") []]]], { customs := [1] }⟩

def panelScene : Scene := .ofPage panelLibrary failingSandbox "" panelPage

theorem panel_read : (Component.ofRecord "" [] (.ofText "panel.html"
    "<template id=\"x-panel\"><p>{{items}}</p><slot>none</slot></template>")).toOption =
      some panel := by
  decide +kernel

theorem fromFiles_panelLibrary : panelLibrary.FromFiles := by
  intro id c known
  simp only [panelLibrary] at known
  split at known
  · obtain rfl := Option.some.inj known
    exact ⟨_, _, _, ok_of_toOption panel_read⟩
  · cases known

/-- The items take the place of the text, what is given that of the slot, and all of it that of the
host. -/
theorem expands_panelPage :
    ∃ trace s, Expands panelScene panelPage trace (.ok () s) ∧
      s.html = "<p>ab</p><i>own</i>" ∧ s.instances = [] := by
  apply Exists.intro
  apply Exists.intro
  apply And.intro
  · apply within_of [(1, "/0:x-panel")]
    · decide +kernel
    apply Run.hostsCons
    · apply Run.hostReplaced
      · rfl
      · apply Run.created (r := .ok () _)
        · rfl
        · rfl
        · apply Run.textsCons
          · apply Run.richText
            · rfl
            · rfl
            · apply Run.piecesEmpty
              · rfl
              · apply Run.piecesValue (r := .ok _ _)
                · apply Run.valueList
                  apply Run.valuesCons (r := .ok _ _)
                  · exact .valueText rfl
                  · apply Run.valuesCons (r := .ok _ _)
                    · exact .valueText rfl
                    · exact .valuesNil
                · exact .piecesEmpty rfl .piecesNil
            · rfl
          · exact .textsNil
        · rfl
        · apply within_of []
          · decide +kernel
          · exact .hostsNil
        · apply Run.slotsCons
          · decide +kernel
          · rfl
          · apply within_of []
            · decide +kernel
            · exact .hostsNil
          · rfl
          · rfl
          · exact .slotsNil
      · rfl
      · rfl
    · exact .hostsNil
  · exact ⟨by decide +kernel, rfl⟩

theorem panelPage_stays_forest :
    panelLibrary.FromFiles ∧ ∃ s moves,
      (Journaled.compilePage panelScene {}).run ⟨ofPage panelPage, []⟩ = .ok () ⟨s, moves⟩ ∧
      s.html = "<p>ab</p><i>own</i>" ∧ (ofPage panelPage).arena.play moves = s.arena ∧
      (∀ before, before <+: moves → ((ofPage panelPage).arena.play before).Forest) ∧
      ∀ before target ids, before ++ [.replaceWith target ids] <+: moves →
        ((ofPage panelPage).arena.play before).Replaceable target ids := by
  obtain ⟨trace, s, run, html, none⟩ := expands_panelPage
  have compiled : (compilePage panelScene {}).run (ofPage panelPage) = .ok () s := by
    rw [compilePage, EStateM.run_bind, (expandPage_eq_iff panelScene panelPage _).mpr ⟨trace, run⟩]
    change EStateM.Result.ok () (s.addBundle {}) = _
    rw [addBundle, none]
    rfl
  obtain ⟨moves, kept, played, forest, fits⟩ :=
    store_stays_forest panelScene fromFiles_panelLibrary {} panelPage
  rw [compiled] at kept played
  exact ⟨fromFiles_panelLibrary, s, moves, kept, html, played, forest,
    fun before target ids made => (fits before target ids made).1⟩

end Expansion
end Stencil
