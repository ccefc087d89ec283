import Stencil.Proofs.Expansion.Simulation
import Stencil.Proofs.Expansion.Upkeep
/-!
Expansion without bounds. The functions here count the levels above an instance and refuse one that is
too deep, and that is all that stops them: nothing says how deep custom elements may stand in one
another. Each call takes a step, so that what comes to no end runs out of any number of steps. No page
does: enough steps lead where the bounded expansion leads, which never meets its other bounds.
-/
namespace Stencil.Expansion
open Markup

/-- A page that is being expanded, with the instances that have been started: how many levels are
above each, and its name. -/
structure Course where
  page : Expansion
  started : List (Nat × String)

/-- An expansion that gives nothing if it does not come to an end. -/
abbrev Attempt := ExceptT CompileError (StateT Course Option)

namespace Unbounded

/-- A step that is known to end. -/
def perform {α : Type} (m : Expand α) : Attempt α := fun c =>
  match m.run c.page with
  | .ok a s => some (.ok a, { c with page := s })
  | .error e s => some (.error e, { c with page := s })

/-- There are no steps left. -/
def stuck {α : Type} : Attempt α := fun _ => none

def start (depth : Nat) (id : String) : Attempt Unit := fun c =>
  some (.ok (), { c with started := c.started ++ [(depth, id)] })

mutual

def create (scene : Scene) (steps depth : Nat) (id context : String) (host : Option NodeId)
    (extra : Values) : Attempt (Option NodeId) :=
  match steps with
  | 0 => stuck
  | steps + 1 => do
    match scene.library.component? id with
    | none =>
      perform (logUnknown scene id)
      return none
    | some c =>
      if maxDepth ≤ depth then perform (throw (.recursionLimit id scene.path))
      else
        start depth id
        let o ← perform (openInstance scene c context host extra)
        substituteTexts scene steps depth o.values context 0 o.sites.texts
        let _ ← perform (bindRefs c context o)
        expandWithin scene steps (depth + 1) o.fragment context
        fillSlots scene steps (depth + 1) o.fragment o.supplied context o.sites.slots
        return some o.fragment
termination_by structural steps

def substituteTexts (scene : Scene) (steps depth : Nat) (values : Values) (context : String)
    (index : Nat) (sites : List TextSite) : Attempt Unit :=
  match steps with
  | 0 => stuck
  | steps + 1 => do
    match sites with
    | [] => return
    | site :: rest =>
      substituteText scene steps depth values (context ++ "/#" ++ toString index) site
      substituteTexts scene steps depth values context (index + 1) rest
termination_by structural steps

def substituteText (scene : Scene) (steps depth : Nat) (values : Values) (context : String)
    (site : TextSite) : Attempt Unit :=
  match steps with
  | 0 => stuck
  | steps + 1 => do
    let a := (← perform get).arena
    match a.text? site.node with
    | none => return
    | some text =>
      let ps := pieces values site.tokens text.toList
      let raw := isRaw a site.node
      if ps.all (·.isPlain raw) then
        perform (modifyArena (·.setContent site.node (.text (String.join (ps.map (·.text raw))))))
      else
        let nodes ← placePieces scene steps depth context 0 ps
        perform (modifyArena (·.replaceWith site.node nodes))
termination_by structural steps

def placePieces (scene : Scene) (steps depth : Nat) (context : String) (index : Nat)
    (ps : List Piece) : Attempt (List NodeId) :=
  match steps with
  | 0 => stuck
  | steps + 1 => do
    match ps with
    | [] => return []
    | .literal s :: rest =>
      if s.isEmpty then placePieces scene steps depth context (index + 1) rest
      else
        let id ← perform (alloc (.text s))
        return id :: (← placePieces scene steps depth context (index + 1) rest)
    | .value v :: rest =>
      let ids ← materialize scene steps depth (context ++ "." ++ toString index) v
      return ids ++ (← placePieces scene steps depth context (index + 1) rest)
termination_by structural steps

def materialize (scene : Scene) (steps depth : Nat) (context : String) (v : Value) :
    Attempt (List NodeId) :=
  match steps with
  | 0 => stuck
  | steps + 1 => do
    match v with
    | .text s => return [← perform (alloc (.text (Entity.escapeText s)))]
    | .markup s =>
      match Document.ofSource .page [] s with
      | .error cause => perform (throw (.markup context cause))
      | .ok d => perform (graftAll d.tree.children)
    | .component id values =>
      match ← create scene steps (depth + 1) id (context ++ ":" ++ id) none values with
      | some fragment => perform (takeChildren fragment)
      | none => return [← perform (alloc (.element { name := id }))]
    | .list items => materializeAll scene steps depth context 0 items
termination_by structural steps

def materializeAll (scene : Scene) (steps depth : Nat) (context : String) (index : Nat)
    (items : List Value) : Attempt (List NodeId) :=
  match steps with
  | 0 => stuck
  | steps + 1 => do
    match items with
    | [] => return []
    | v :: rest =>
      let ids ← materialize scene steps depth (context ++ "[" ++ toString index ++ "]") v
      return ids ++ (← materializeAll scene steps depth context (index + 1) rest)
termination_by structural steps

def expandWithin (scene : Scene) (steps depth : Nat) (scope : NodeId) (context : String) :
    Attempt Unit :=
  match steps with
  | 0 => stuck
  | steps + 1 => do
    expandHosts scene steps depth (hosts (← perform get).arena scope context)
termination_by structural steps

def expandHosts (scene : Scene) (steps depth : Nat) (hosts : List (NodeId × String)) :
    Attempt Unit :=
  match steps with
  | 0 => stuck
  | steps + 1 => do
    match hosts with
    | [] => return
    | (host, context) :: rest =>
      expandHost scene steps depth host context
      expandHosts scene steps depth rest
termination_by structural steps

def expandHost (scene : Scene) (steps depth : Nat) (host : NodeId) (context : String) :
    Attempt Unit :=
  match steps with
  | 0 => stuck
  | steps + 1 => do
    match (← perform get).arena.element? host with
    | none => return
    | some e =>
      match ← create scene steps depth e.name context (some host) [] with
      | some fragment =>
        let ids ← perform (takeChildren fragment)
        perform (modifyArena (·.replaceWith host ids))
      | none => expandWithin scene steps (depth + 1) host context
termination_by structural steps

def fillSlots (scene : Scene) (steps depth : Nat) (fragment : NodeId)
    (supplied : Assoc (List NodeId)) (context : String) (slots : List (String × NodeId)) :
    Attempt Unit :=
  match steps with
  | 0 => stuck
  | steps + 1 => do
    match slots with
    | [] => return
    | (name, slot) :: rest =>
      if (← perform get).arena.isBelow slot fragment then
        let holder ← perform (holdContent supplied name slot)
        expandWithin scene steps depth holder (context ++ "/slot:" ++ name)
        let ids ← perform (takeChildren holder)
        perform (modifyArena (·.replaceWith slot ids))
      fillSlots scene steps depth fragment supplied context rest
termination_by structural steps

end

def expandPage (scene : Scene) (steps : Nat) : Attempt Unit :=
  expandWithin scene steps 0 Arena.root scene.path

/-- What a call does without bounds, with `depth` levels above the instance that it is part of. -/
def exec (scene : Scene) (steps depth : Nat) : (call : Call) → Attempt call.Out
  | .create _ id context host extra => create scene steps depth id context host extra
  | .texts _ values context index sites =>
    substituteTexts scene steps depth values context index sites
  | .text _ values context site => substituteText scene steps depth values context site
  | .pieces _ context index ps => placePieces scene steps depth context index ps
  | .value _ context v => materialize scene steps depth context v
  | .values _ context index items => materializeAll scene steps depth context index items
  | .within _ _ scope context => expandWithin scene steps depth scope context
  | .hosts _ _ hs => expandHosts scene steps depth hs
  | .host _ _ node context => expandHost scene steps depth node context
  | .slots _ fragment supplied context sites =>
    fillSlots scene steps depth fragment supplied context sites

end Unbounded

/-! ### How attempts end -/

/-- The course that is left when these instances have been started. -/
def Outcome.course {α : Type} (started : List (Nat × String)) :
    Outcome α → Except CompileError α × Course
  | .ok a s => (.ok a, ⟨s, started⟩)
  | .error e s => (.error e, ⟨s, started⟩)

namespace Unbounded

/-- With enough steps the attempt ends with the outcome, and starts these instances. -/
def Ends {α : Type} (m : Nat → Attempt α) (s : Expansion) (log : List (Nat × String))
    (r : Outcome α) : Prop :=
  ∃ enough, ∀ steps, enough ≤ steps → ∀ before,
    (m steps).run.run ⟨s, before⟩ = some (r.course (before ++ log))

/-- The attempt ends with the outcome. It starts instances where there is room, and unless it fails,
they are those of the run. -/
def Follows {α : Type} (m : Nat → Attempt α) (s : Expansion) (made : List Instance)
    (r : Outcome α) : Prop :=
  ∃ log, Ends m s log r ∧ (∀ e ∈ log, e.1 < maxDepth) ∧
    ∀ a s', r = .ok a s' → log.map (·.2) = made.map (·.name)

section
variable {α β : Type} {m : Nat → Attempt α} {k : Nat → α → Attempt β} {s s₁ s' : Expansion}
  {log more : List (Nat × String)} {made others : List Instance} {a : α} {e : CompileError}
  {r : Outcome α}

theorem ends_performed {m : Expand α} (run : m.run s = r) : Ends (fun _ => perform m) s [] r := by
  refine ⟨0, fun _ _ before => ?_⟩
  rw [List.append_nil]
  change perform m ⟨s, before⟩ = _
  rw [perform, run]
  cases r with
  | ok a s' => rfl
  | error e s' => rfl

theorem ends_start (depth : Nat) (id : String) (s : Expansion) :
    Ends (fun _ => start depth id) s [(depth, id)] (.ok () s) :=
  ⟨0, fun _ _ _ => rfl⟩

theorem ends_pure (a : α) (s : Expansion) : Ends (fun _ => pure a) s [] (.ok a s) := by
  refine ⟨0, fun _ _ before => ?_⟩
  rw [List.append_nil]
  rfl

theorem ends_bind {r : Outcome β} (first : Ends m s log (.ok a s₁))
    (next : Ends (fun steps => k steps a) s₁ more r) :
    Ends (fun steps => m steps >>= k steps) s (log ++ more) r := by
  obtain ⟨enough, first⟩ := first
  obtain ⟨enough', next⟩ := next
  refine ⟨max enough enough', fun steps large before => ?_⟩
  have rest := next steps (Nat.le_trans (Nat.le_max_right ..) large) (before ++ log)
  rw [List.append_assoc] at rest
  rw [← rest]
  change ((m steps).run.run ⟨s, before⟩ >>=
    fun p => (ExceptT.bindCont (k steps) p.1).run p.2) = _
  rw [first steps (Nat.le_trans (Nat.le_max_left ..) large) before]
  rfl

theorem ends_stop (first : Ends m s log (.error e s')) :
    Ends (fun steps => m steps >>= k steps) s log (.error e s') := by
  obtain ⟨enough, first⟩ := first
  refine ⟨enough, fun steps large before => ?_⟩
  change ((m steps).run.run ⟨s, before⟩ >>=
    fun p => (ExceptT.bindCont (k steps) p.1).run p.2) = _
  rw [first steps large before]
  rfl

theorem ends_map {f : α → β} (first : Ends m s log r) :
    Ends (fun steps => m steps >>= fun a => pure (f a)) s log (r.map f) := by
  cases r with
  | ok a s' =>
    have both := ends_bind (k := fun _ a => pure (f a)) first (ends_pure (f a) s')
    rwa [List.append_nil] at both
  | error e s' => exact ends_stop first

theorem follows_performed {m : Expand α} (run : m.run s = r) :
    Follows (fun _ => perform m) s [] r :=
  ⟨[], ends_performed run, fun _ mem => (nomatch mem), fun _ _ _ => rfl⟩

theorem follows_pure (a : α) (s : Expansion) : Follows (fun _ => pure a) s [] (.ok a s) :=
  ⟨[], ends_pure a s, fun _ mem => (nomatch mem), fun _ _ _ => rfl⟩

/-- A call takes a step. -/
theorem follows_step (next : Follows (fun steps => m (steps + 1)) s made r) :
    Follows m s made r := by
  obtain ⟨log, ⟨enough, ends⟩, facts⟩ := next
  refine ⟨log, ⟨enough + 1, fun steps large => ?_⟩, facts⟩
  cases steps with
  | zero => exact absurd large (Nat.not_succ_le_zero enough)
  | succ steps => exact ends steps (Nat.le_of_succ_le_succ large)

theorem follows_bind {r : Outcome β} (first : Follows m s made (.ok a s₁))
    (next : Follows (fun steps => k steps a) s₁ others r) :
    Follows (fun steps => m steps >>= k steps) s (made ++ others) r := by
  obtain ⟨log, ends, shallow, named⟩ := first
  obtain ⟨log', ends', shallow', named'⟩ := next
  refine ⟨log ++ log', ends_bind ends ends', List.forall_mem_append.mpr ⟨shallow, shallow'⟩,
    fun b s' same => ?_⟩
  rw [List.map_append, List.map_append, named _ _ rfl, named' b s' same]

/-- What a failure has started is not compared. -/
theorem Follows.failed (first : Follows m s made (.error e s')) :
    Follows m s others (.error e s') := by
  obtain ⟨log, ends, shallow, -⟩ := first
  exact ⟨log, ends, shallow, fun _ _ same => nomatch same⟩

theorem follows_stop (first : Follows m s made (.error e s')) :
    Follows (fun steps => m steps >>= k steps) s made (.error e s') := by
  obtain ⟨log, ends, shallow, -⟩ := first
  exact ⟨log, ends_stop ends, shallow, fun _ _ same => nomatch same⟩

/-- What is performed starts nothing. -/
theorem follows_after {m : Expand α} {r : Outcome β} (run : m.run s = .ok a s₁)
    (next : Follows (fun steps => k steps a) s₁ made r) :
    Follows (fun steps => perform m >>= k steps) s made r :=
  follows_bind (follows_performed run) next

theorem follows_start {depth : Nat} {k : Nat → Unit → Attempt β} {r : Outcome β} (i : Instance)
    (shallow : ¬ maxDepth ≤ depth) (next : Follows (fun steps => k steps ()) s made r) :
    Follows (fun steps => start depth i.name >>= k steps) s (i :: made) r := by
  have own : Follows (fun _ => start depth i.name) s [i] (.ok () s) :=
    ⟨_, ends_start depth i.name s, fun e mem =>
      List.mem_singleton.mp mem ▸ Nat.lt_of_not_le shallow, fun _ _ _ => rfl⟩
  exact follows_bind own next

theorem follows_map {f : α → β} (first : Follows m s made r) :
    Follows (fun steps => m steps >>= fun a => pure (f a)) s made (r.map f) := by
  obtain ⟨log, ends, shallow, named⟩ := first
  refine ⟨log, ends_map ends, shallow, fun b s' same => ?_⟩
  obtain ⟨a, rfl, -⟩ := Outcome.eq_ok_of_map same
  exact named a s' rfl

end
end Unbounded

/-! ### Where calls are made -/

open Branch

/-- A branch stands at the node. -/
structure Upright (s : Expansion) (x : NodeId) (b : Branch) : Prop where
  stands : ∃ p, Stands s p b
  id : b.id = x
  once : b.ids.Nodup

/-- What a call works on is there, and is no deeper than the call is ready for. -/
def Call.Placed (s : Expansion) : Call → Prop
  | .create _ _ _ (some x) _ => ∃ b, Upright s x b ∧ b.stem.content.isCustom
  | .within _ height scope _ => ∃ b, Upright s scope b ∧ (idsAll b.children).length ≤ height
  | .hosts _ height hs => ∃ p b subs, Waiting s p b subs ∧
    subs.map (·.id) = hs.map (·.1) ∧ ∀ sub ∈ subs, sub.ids.length ≤ height
  | .host _ height x _ =>
    ∃ b, Upright s x b ∧ b.stem.content.isCustom ∧ b.ids.length ≤ height
  | .slots _ fragment supplied _ sites =>
    ∃ f light, Serving s fragment supplied (sites.map (·.1)) f light
  | _ => True

/-- The room of the call is what the levels above it leave. -/
def Call.AtDepth (depth : Nat) : Call → Prop
  | .create room .. | .within room .. | .hosts room .. | .host room .. | .slots room .. =>
    room = maxDepth - depth
  | .texts left .. | .text left .. | .pieces left .. | .value left .. | .values left .. =>
    left + 1 = maxDepth - depth

section
variable {scene : Scene} {s s₁ s₂ s₃ s₄ s' : Expansion} {p : Option NodeId} {b : Branch}
  {c : Component} {o : Opened} {context : String} {room height : Nat} {host scope : NodeId}

theorem Upright.length_le {x : NodeId} (upright : Upright s x b) :
    (idsAll b.children).length ≤ s.arena.size := by
  obtain ⟨p, stands⟩ := upright.stands
  have short := stands.length_le upright.once
  rw [ids_eq, List.length_cons] at short
  omega

theorem Upright.placed (upright : Upright s scope b) :
    (Call.within room s.arena.size scope context).Placed s :=
  ⟨b, upright, upright.length_le⟩

/-- A host is there when the hosts before it have been expanded. -/
theorem Waiting.upright {sub : Branch} {subs : List Branch} (waiting : Waiting s p b (sub :: subs)) :
    Upright s sub.id sub :=
  ⟨⟨_, waiting.stands.children.sub_parent waiting.part⟩, rfl,
    nodup_sub (nodup_children waiting.once) waiting.part⟩

theorem placed_hosts (placed : (Call.within room height scope context).Placed s) :
    (Call.hosts room height (hosts s.arena scope context)).Placed s := by
  obtain ⟨b, ⟨⟨p, stands⟩, rfl, once⟩, short⟩ := placed
  have waiting := waiting_all stands once
  refine ⟨p, b, _, waiting, (stands.hosts_eq once).symm, fun sub mem => ?_⟩
  have part := (mem_subsAll_of_front _ (waiting.hosts sub mem).1).1
  exact Nat.le_trans (length_subAll_le _ part) short

theorem placed_head {rest : List (NodeId × String)}
    (placed : (Call.hosts room height ((host, context) :: rest)).Placed s) :
    (Call.host room height host context).Placed s := by
  obtain ⟨p, b, subs, waiting, listed, short⟩ := placed
  rw [List.map_cons] at listed
  obtain ⟨sub, subs, rfl, rfl, -⟩ := List.map_eq_cons_iff.mp listed
  exact ⟨sub, waiting.upright, (waiting.hosts sub List.mem_cons_self).2,
    short sub List.mem_cons_self⟩

theorem placed_host {id inner : String} {extra : Values}
    (placed : (Call.host room height host context).Placed s) :
    (Call.create room id inner (some host) extra).Placed s :=
  placed.imp fun _ facts => ⟨facts.1, facts.2.1⟩

theorem placed_tail {rest : List (NodeId × String)}
    (placed : (Call.hosts room height ((host, context) :: rest)).Placed s)
    (leaves : HostLeaves host s s') : (Call.hosts room height rest).Placed s' := by
  obtain ⟨p, b, subs, waiting, listed, short⟩ := placed
  rw [List.map_cons] at listed
  obtain ⟨sub, subs, rfl, rfl, others⟩ := List.map_eq_cons_iff.mp listed
  obtain ⟨new, turns⟩ := leaves b p sub waiting.stands waiting.once waiting.part
    (waiting.hosts sub List.mem_cons_self).2 rfl
  exact ⟨p, _, subs, waiting.next turns, others, fun sub mem =>
    short sub (List.mem_cons_of_mem _ mem)⟩

/-- What stands in a host that stays is less deep than the host. -/
theorem placed_inside (placed : (Call.host room (height + 1) host context).Placed s)
    (unknown : CreateLeaves (some host) s s' none) :
    (Call.within (room - 1) height host context).Placed s' := by
  obtain ⟨b, ⟨⟨p, stands⟩, same, once⟩, -, short⟩ := placed
  rw [ids_eq, List.length_cons] at short
  exact ⟨b, ⟨⟨p, stands_of_same unknown.1 unknown.2 stands⟩, same, once⟩, by omega⟩

/-- The copy that an instance starts from. -/
theorem exists_drafted {id : String} {host : Option NodeId} {extra : Values}
    {refs : List (String × String)} (sound : c.Sound) (tidy : Tidy s)
    (placed : (Call.create room id context host extra).Placed s)
    (opened : (openInstance scene c context host extra).run s = .ok o s₁)
    (texts : TextsLeave (o.sites.texts.map (·.node)) s₁ s₂)
    (bound : (bindRefs c context o).run s₂ = .ok refs s₃) :
    ∃ s₀ light f, Drafted s₀ s₃ c o light f := by
  cases host with
  | none =>
    obtain ⟨f, drafted⟩ := drafted_alone sound tidy opened texts bound
    exact ⟨s, [], f, drafted⟩
  | some host =>
    obtain ⟨b, ⟨⟨p, stands⟩, rfl, once⟩, custom⟩ := placed
    obtain ⟨s₀, f, drafted, -⟩ := drafted_hosted sound tidy stands once custom opened texts bound
    exact ⟨s₀, _, f, drafted⟩

theorem Drafted.upright {light : List (String × Branch)} {s₀ : Expansion} {f : Branch}
    (drafted : Drafted s₀ s c o light f) : Upright s o.fragment f :=
  ⟨⟨none, drafted.draft.stands⟩, drafted.id, drafted.draft.once⟩

theorem Drafted.placed_slots {light : List (String × Branch)} {s₀ : Expansion} {f : Branch}
    (drafted : Drafted s₀ s c o light f) (leaves : WithinLeaves o.fragment s s') :
    (Call.slots room o.fragment o.supplied context o.sites.slots).Placed s' := by
  obtain ⟨cs, turns⟩ := leaves f none drafted.draft.stands drafted.id drafted.draft.once
  exact ⟨_, light, drafted.serving turns⟩

variable {fragment slot holder : NodeId} {supplied : Assoc (List NodeId)} {name : String}
  {rest : List (String × NodeId)}

/-- What a slot is filled with is there, and then so are the slots that are left. -/
theorem placed_slot (tidy : Tidy s)
    (placed : (Call.slots room fragment supplied context ((name, slot) :: rest)).Placed s)
    (inside : s.arena.isBelow slot fragment = true)
    (held : (holdContent supplied name slot).run s = .ok holder s₁) :
    (∃ b, Upright s₁ holder b) ∧ ∀ {s₂ listed s₃ s₄}, WithinLeaves holder s₁ s₂ →
      (takeChildren holder).run s₂ = .ok listed s₃ →
        (modifyArena (·.replaceWith slot listed)).run s₃ = .ok () s₄ →
          (Call.slots room fragment supplied context rest).Placed s₄ := by
  obtain ⟨f, light, serving⟩ := placed
  rw [← serving.id] at inside
  obtain ⟨sub, part, rfl⟩ :=
    mem_idsAll_iff_subs.mp (serving.stocked.stands.mem_of_isBelow tidy inside)
  obtain ⟨rfl, root_once, f', parted, hold⟩ := serving.held tidy part held
  refine ⟨⟨_, ⟨none, hold.held⟩, rfl, root_once⟩, fun leaves taken replaced => ?_⟩
  obtain ⟨cs, turns⟩ := leaves _ none hold.held rfl root_once
  exact ⟨_, _, serving.next part (hold.refilled parted
    (fun y mem => serving.stocked.stands.lt mem) turns taken replaced)⟩

end

/-! ### Runs without bounds -/

section
open Unbounded
variable {scene : Scene} {left depth room : Nat}

theorem room_shallow (room : left + 1 = maxDepth - depth) : ¬ maxDepth ≤ depth := by omega

theorem room_next (room : left + 1 = maxDepth - depth) : left = maxDepth - (depth + 1) := by omega


theorem room_inside (levels : room = maxDepth - depth) : room - 1 = maxDepth - (depth + 1) := by
  omega

/-- Where a run has room for its instances, the same happens without bounds. -/
theorem follows_of_run {call : Call} {made : List Instance} {r : Outcome call.Out} {s : Expansion}
    {depth : Nat} (sound : ∀ id c, scene.library.component? id = some c → c.Sound)
    (run : Run scene call s made r) (tidy : Tidy s) (placed : call.Placed s)
    (room : call.AtDepth depth) :
    Follows (fun steps => Unbounded.exec scene steps depth call) s made r := by
  induction run generalizing depth with
  | unknown absent logged =>
    refine follows_step ?_
    simp only [Unbounded.exec, Unbounded.create, absent]
    exact follows_after logged (follows_pure none _)
  | @tooDeep id context host extra s c known =>
    have deep : maxDepth ≤ depth := Nat.le_of_sub_eq_zero (Eq.symm room)
    refine follows_step ?_
    simp only [Unbounded.exec, Unbounded.create, known, if_pos deep]
    exact follows_performed rfl
  | @refused left id context host extra s c e s' known failed =>
    have shallow := room_shallow room
    refine follows_step ?_
    simp only [Unbounded.exec, Unbounded.create, known, if_neg shallow]
    exact (follows_start ⟨id, context, c, [], none, []⟩ shallow
      (follows_stop (follows_performed failed))).failed
  | @textsStop left id context host extra s c o s₁ made e s₂ known opened texts ih =>
    have shallow := room_shallow room
    refine follows_step ?_
    simp only [Unbounded.exec, Unbounded.create, known, if_neg shallow]
    have tidy₁ := (tidy_openInstance _ _ _ _ _).of_ok tidy opened
    exact (follows_start (o.made id context c []) shallow
      (follows_after opened (follows_stop (ih tidy₁ trivial room)))).failed
  | @withinStop left id context host extra s c o s₁ made s₂ refs s₃ nested e s₄ known opened texts
      bound within ih ihw =>
    have shallow := room_shallow room
    have tidy₁ := (tidy_openInstance _ _ _ _ _).of_ok tidy opened
    have tidy₃ := (tidy_bindRefs _ _ _).of_ok (tidy_of_run texts tidy₁) bound
    obtain ⟨s₀, light, f, drafted⟩ := exists_drafted (sound _ _ known) tidy placed opened
      (leaves_of_run sound texts tidy₁ _ _ rfl) bound
    refine follows_step ?_
    simp only [Unbounded.exec, Unbounded.create, known, if_neg shallow]
    exact (follows_start (o.made id context c refs) shallow
      (follows_after opened (follows_bind (ih tidy₁ trivial room)
        (follows_after bound
          (follows_stop (ihw tidy₃ drafted.upright.placed (room_next room))))))).failed
  | @created left id context host extra s c o s₁ made s₂ refs s₃ nested s₄ filled r known opened
      texts bound within slots ih ihw ihs =>
    have shallow := room_shallow room
    have tidy₁ := (tidy_openInstance _ _ _ _ _).of_ok tidy opened
    have tidy₃ := (tidy_bindRefs _ _ _).of_ok (tidy_of_run texts tidy₁) bound
    obtain ⟨s₀, light, f, drafted⟩ := exists_drafted (sound _ _ known) tidy placed opened
      (leaves_of_run sound texts tidy₁ _ _ rfl) bound
    have leaves : WithinLeaves o.fragment s₃ s₄ := leaves_of_run sound within tidy₃ _ _ rfl
    refine follows_step ?_
    simp only [Unbounded.exec, Unbounded.create, known, if_neg shallow]
    exact follows_start (o.made id context c refs) shallow
      (follows_after opened (follows_bind (ih tidy₁ trivial room)
        (follows_after bound
          (follows_bind (ihw tidy₃ drafted.upright.placed (room_next room))
            (follows_map (ihs (tidy_of_run within tidy₃) (drafted.placed_slots leaves)
              (room_next room)))))))
  | textsNil =>
    refine follows_step ?_
    simp only [Unbounded.exec, Unbounded.substituteTexts]
    exact follows_pure () _
  | textsHeadStop head ih =>
    refine follows_step ?_
    simp only [Unbounded.exec, Unbounded.substituteTexts]
    exact follows_stop (ih tidy trivial room)
  | textsCons head tail ih iht =>
    refine follows_step ?_
    simp only [Unbounded.exec, Unbounded.substituteTexts]
    exact follows_bind (ih tidy trivial room) (iht (tidy_of_run head tidy) trivial room)
  | noText absent =>
    refine follows_step ?_
    simp only [Unbounded.exec, Unbounded.substituteText]
    refine follows_after rfl ?_
    rw [absent]
    exact follows_pure () _
  | plainText found plain written =>
    refine follows_step ?_
    simp only [Unbounded.exec, Unbounded.substituteText]
    refine follows_after rfl ?_
    simp only [found, plain, if_pos]
    exact follows_performed written
  | richTextStop found rich placed ih =>
    refine follows_step ?_
    simp only [Unbounded.exec, Unbounded.substituteText]
    refine follows_after rfl ?_
    simp only [found, rich, if_neg Bool.false_ne_true]
    exact follows_stop (ih tidy trivial room)
  | @richText left values context site s text made nodes s₁ s₂ found rich placed replaced ih =>
    refine follows_step ?_
    simp only [Unbounded.exec, Unbounded.substituteText]
    refine follows_after rfl ?_
    simp only [found, rich, if_neg Bool.false_ne_true]
    rw [← List.append_nil made]
    exact follows_bind (ih tidy trivial room) (follows_performed replaced)
  | piecesNil =>
    refine follows_step ?_
    simp only [Unbounded.exec, Unbounded.placePieces]
    exact follows_pure [] _
  | piecesEmpty empty tail ih =>
    refine follows_step ?_
    simp only [Unbounded.exec, Unbounded.placePieces, if_pos empty]
    exact ih tidy trivial room
  | piecesLiteral more added tail ih =>
    refine follows_step ?_
    simp only [Unbounded.exec, Unbounded.placePieces, more, if_neg Bool.false_ne_true]
    exact follows_after added
      (follows_map (ih ((tidy_alloc _).of_ok tidy added) trivial room))
  | piecesValueStop head ih =>
    refine follows_step ?_
    simp only [Unbounded.exec, Unbounded.placePieces]
    exact follows_stop (ih tidy trivial room)
  | piecesValue head tail ih iht =>
    refine follows_step ?_
    simp only [Unbounded.exec, Unbounded.placePieces]
    exact follows_bind (ih tidy trivial room)
      (follows_map (iht (tidy_of_run head tidy) trivial room))
  | valueText added =>
    refine follows_step ?_
    simp only [Unbounded.exec, Unbounded.materialize]
    exact follows_map (follows_performed added)
  | valueMarkupStop bad =>
    refine follows_step ?_
    simp only [Unbounded.exec, Unbounded.materialize, bad]
    exact follows_performed rfl
  | valueMarkup read grafted =>
    refine follows_step ?_
    simp only [Unbounded.exec, Unbounded.materialize, read]
    exact follows_performed grafted
  | valueComponentStop body ih =>
    refine follows_step ?_
    simp only [Unbounded.exec, Unbounded.materialize]
    exact follows_stop (ih tidy trivial (room_next room))
  | @valueComponent left context id values s made fragment s₁ ids s₂ body taken ih =>
    refine follows_step ?_
    simp only [Unbounded.exec, Unbounded.materialize]
    rw [← List.append_nil made]
    exact follows_bind (ih tidy trivial (room_next room)) (follows_performed taken)
  | @valueUnknown left context id values s made s₁ node s₂ body added ih =>
    refine follows_step ?_
    simp only [Unbounded.exec, Unbounded.materialize]
    rw [← List.append_nil made]
    exact follows_bind (ih tidy trivial (room_next room)) (follows_map (follows_performed added))
  | valueList all ih =>
    refine follows_step ?_
    simp only [Unbounded.exec, Unbounded.materialize]
    exact ih tidy trivial room
  | valuesNil =>
    refine follows_step ?_
    simp only [Unbounded.exec, Unbounded.materializeAll]
    exact follows_pure [] _
  | valuesHeadStop head ih =>
    refine follows_step ?_
    simp only [Unbounded.exec, Unbounded.materializeAll]
    exact follows_stop (ih tidy trivial room)
  | valuesCons head tail ih iht =>
    refine follows_step ?_
    simp only [Unbounded.exec, Unbounded.materializeAll]
    exact follows_bind (ih tidy trivial room)
      (follows_map (iht (tidy_of_run head tidy) trivial room))
  | within all ih =>
    refine follows_step ?_
    simp only [Unbounded.exec, Unbounded.expandWithin]
    exact follows_after rfl (ih tidy (placed_hosts placed) room)
  | hostsNil =>
    refine follows_step ?_
    simp only [Unbounded.exec, Unbounded.expandHosts]
    exact follows_pure () _
  | hostsHeadStop head ih =>
    refine follows_step ?_
    simp only [Unbounded.exec, Unbounded.expandHosts]
    exact follows_stop (ih tidy (placed_head placed) room)
  | hostsCons head tail ih iht =>
    have placed₁ := placed_tail placed (leaves_of_run sound head tidy _ _ rfl)
    refine follows_step ?_
    simp only [Unbounded.exec, Unbounded.expandHosts]
    exact follows_bind (ih tidy (placed_head placed) room)
      (iht (tidy_of_run head tidy) placed₁ room)
  | noHost absent =>
    refine follows_step ?_
    simp only [Unbounded.exec, Unbounded.expandHost]
    refine follows_after rfl ?_
    rw [absent]
    exact follows_pure () _
  | hostStop found body ih =>
    refine follows_step ?_
    simp only [Unbounded.exec, Unbounded.expandHost]
    refine follows_after rfl ?_
    rw [found]
    exact follows_stop (ih tidy (placed_host placed) room)
  | @hostReplaced room height host context s el made fragment s₁ ids s₂ s₃ found body taken replaced
      ih =>
    refine follows_step ?_
    simp only [Unbounded.exec, Unbounded.expandHost]
    refine follows_after rfl ?_
    rw [found, ← List.append_nil made]
    exact follows_bind (ih tidy (placed_host placed) room)
      (follows_after taken (follows_performed replaced))
  | hostBottom found body ih =>
    obtain ⟨b, -, -, short⟩ := placed
    exact absurd short (Nat.not_le_of_lt length_ids_pos)
  | hostKept found body inside ih iht =>
    have placed₁ := placed_inside placed (leaves_of_run sound body tidy _ _ rfl)
    refine follows_step ?_
    simp only [Unbounded.exec, Unbounded.expandHost]
    refine follows_after rfl ?_
    rw [found]
    exact follows_bind (ih tidy (placed_host placed) room)
      (iht (tidy_of_run body tidy) placed₁ (room_inside room))
  | slotsNil =>
    refine follows_step ?_
    simp only [Unbounded.exec, Unbounded.fillSlots]
    exact follows_pure () _
  | slotsGone outside tail ih =>
    obtain ⟨f, light, serving⟩ := placed
    refine follows_step ?_
    simp only [Unbounded.exec, Unbounded.fillSlots]
    refine follows_after rfl ?_
    simp only [outside, if_neg Bool.false_ne_true]
    exact ih tidy ⟨f, light, serving.skip⟩ room
  | slotsStop inside held content ih =>
    obtain ⟨⟨b, upright⟩, -⟩ := placed_slot tidy placed inside held
    refine follows_step ?_
    simp only [Unbounded.exec, Unbounded.fillSlots]
    refine follows_after rfl ?_
    simp only [inside, if_pos]
    exact follows_after held
      (follows_stop (ih ((tidy_holdContent _ _ _).of_ok tidy held) upright.placed room))
  | slotsCons inside held content taken replaced tail ih iht =>
    have tidy₁ := (tidy_holdContent _ _ _).of_ok tidy held
    have tidy₄ := (tidy_replaceWith _ _).of_ok ((tidy_takeChildren _).of_ok
      (tidy_of_run content tidy₁) taken) replaced
    obtain ⟨⟨b, upright⟩, next⟩ := placed_slot tidy placed inside held
    have placed₄ := next (leaves_of_run sound content tidy₁ _ _ rfl) taken replaced
    refine follows_step ?_
    simp only [Unbounded.exec, Unbounded.fillSlots]
    refine follows_after rfl ?_
    simp only [inside, if_pos]
    exact follows_after held (follows_bind (ih tidy₁ upright.placed room)
      (follows_after taken (follows_after replaced
        (iht tidy₄ placed₄ room))))

/-- The expansion of a page ends without bounds as it does with them. -/
theorem follows_of_expands {page : Page} {trace : List Instance} {r : Outcome Unit}
    (sound : ∀ id c, scene.library.component? id = some c → c.Sound)
    (run : Expands scene page trace r) :
    Follows (Unbounded.expandPage scene) (ofPage page) trace r := by
  have upright : Upright (ofPage page) Arena.root (ofTree false Arena.root page.document.tree) :=
    ⟨⟨none, stands_ofPage page⟩, id_ofTree _ _, nodup_ofTree _⟩
  exact follows_of_run sound run (tidy_ofPage page) upright.placed (Nat.sub_zero maxDepth).symm

end
end Stencil.Expansion
