import Stencil.Proofs.Expansion.Calls
import Stencil.Proofs.Expansion.Unbounded
import Stencil.Proofs.Markup.Edits
/-!
How long a node keeps the rich values of its attributes. They are used up when an instance takes the
place of the node, and from then on the node has no place. So an element that a call still comes to
has the rich values that it has got with its template.
-/
namespace Stencil
open Markup

namespace Markup.Arena
variable {a : Arena} {x y : NodeId} {ids : List NodeId}

/-! ### Nodes without a place -/

theorem parent?_takeChildren_of_free (free : a.parent? x = none) :
    (a.takeChildren y).2.parent? x = none := by
  rw [parent?] at free ⊢
  rw [node_takeChildren]
  dsimp only
  split
  · rfl
  · split
    · exact free
    · exact free

theorem parent?_replaceWith_of_free (free : a.parent? x = none) (out : x ∉ ids) :
    (a.replaceWith y ids).parent? x = none := by
  have loose : (a.detachAll ids).parent? x = none := by rw [parent?_detachAll, if_neg out, free]
  have placed : (a.insertBefore y ids).parent? x = none := by
    rw [insertBefore]
    split
    · exact free
    · dsimp only
      split
      · exact loose
      · rw [placeAt, parent?, node_setParents, if_neg fun both => out both.1, node_setChildren]
        split
        · exact loose
        · exact loose
  rw [replaceWith, parent?_detach]
  split
  · rfl
  · exact placed

theorem parent?_replaceWith (ids : List NodeId) : (a.replaceWith y ids).parent? y = none := by
  rw [replaceWith, parent?_detach, if_pos rfl]

end Markup.Arena

namespace Expansion
open Branch

/-- The node has the rich values that it has had, or else it has lost its place. -/
def KeepsRich (x : NodeId) (s s' : Expansion) : Prop :=
  (s'.look x).2 = (s.look x).2 ∨ s'.arena.parent? x = none

section
variable {s s₁ s₂ s₃ s₄ s' : Expansion} {p q : Option NodeId} {b : Branch} {bs cs : List Branch}
  {x : NodeId}

theorem look_of_rich (same : s'.rich = s.rich) (x : NodeId) : (s'.look x).2 = (s.look x).2 := by
  rw [look, look, same]

/-- While a branch stands, its nodes keep their rich values. -/
theorem Stands.same (stands : Stands s p b) (later : Stands s' q b) (mem : x ∈ b.ids) :
    (s'.look x).2 = (s.look x).2 := by
  rw [← map_id_subs, List.mem_map] at mem
  obtain ⟨sub, part, rfl⟩ := mem
  obtain ⟨_, here⟩ := Stands.sub b stands part
  obtain ⟨_, there⟩ := Stands.sub b later part
  rw [here.look_eq, there.look_eq]

theorem Stands.exists_parent (stands : Stands s p b) (once : b.ids.Nodup)
    (mem : x ∈ idsAll b.children) : s.arena.parent? x ≠ none := by
  obtain ⟨q, above⟩ := Stands.above b stands once mem
  rw [above.parent]
  exact Option.some_ne_none q

theorem Turns.free (turns : Turns s s' p b cs) (stands : Stands s p b) (once : b.ids.Nodup)
    (old : x < s.arena.size) (free : s.arena.parent? x = none) : s'.arena.parent? x = none := by
  by_cases mem : x ∈ b.ids
  · rw [ids_eq, List.mem_cons] at mem
    rcases mem with rfl | mem
    · rw [stands.parent?] at free
      exact turns.stands.parent?.trans free
    · exact absurd free (stands.exists_parent once mem)
  · have same : s'.arena.parent? x = s.arena.parent? x :=
      congrArg (·.1.parent) (turns.framed.same x old mem)
    rw [same, free]

theorem KeepsRich.same (keeps : KeepsRich x s s₁) (rich : (s'.look x).2 = (s₁.look x).2)
    (free : s₁.arena.parent? x = none → s'.arena.parent? x = none) : KeepsRich x s s' :=
  keeps.imp (rich.trans ·) free

theorem KeepsRich.after (keeps : KeepsRich x s₁ s') (rich : (s₁.look x).2 = (s.look x).2) :
    KeepsRich x s s' :=
  keeps.imp_left (·.trans rich)

/-- What stands below a node is put into the place of another. -/
theorem KeepsRich.moved {y : NodeId} {listed : List NodeId} (keeps : KeepsRich x s s₁)
    (stands : Stands s₁ p b) (once : b.ids.Nodup) (taken : (takeChildren b.id).run s₁ = .ok listed s₂)
    (replaced : (modifyArena (·.replaceWith y listed)).run s₂ = .ok () s') : KeepsRich x s s' := by
  obtain ⟨rfl, arena, rich⟩ := takeChildren_ok taken
  obtain ⟨arena', rich'⟩ := modifyArena_ok replaced
  refine keeps.same (look_of_rich (rich'.trans rich) x) fun free => ?_
  rw [arena']
  refine Arena.parent?_replaceWith_of_free ?_ fun mem => ?_
  · rw [arena]
    exact Arena.parent?_takeChildren_of_free free
  · rw [stands.children_eq] at mem
    exact stands.exists_parent once (mem_map_id mem) free

end

/-! ### Slots -/

section
variable {s s₁ s₂ s₃ s₄ : Expansion} {fragment slot holder x : NodeId} {f : Branch}
  {supplied : Assoc (List NodeId)} {name : String} {names : List String}
  {light : List (String × Branch)}

/-- A slot is filled. What is there for the next slots has been there before, with the same rich
values. -/
theorem Serving.filled {listed : List NodeId}
    (serving : Serving s fragment supplied (name :: names) f light) (tidy : Tidy s)
    (inside : s.arena.isBelow slot fragment = true)
    (held : (holdContent supplied name slot).run s = .ok holder s₁)
    (content : WithinLeaves holder s₁ s₂) (taken : (takeChildren holder).run s₂ = .ok listed s₃)
    (replaced : (modifyArena (·.replaceWith slot listed)).run s₃ = .ok () s₄) :
    ∃ f' light', Serving s₄ fragment supplied names f' light' ∧
      ∀ x < s.arena.size, KeepsRich x s₁ s₂ → KeepsRich x s s₄ ∧
        (x ∈ f'.ids ++ idsAll (light'.map (·.2)) → x ∈ f.ids ++ idsAll (light.map (·.2)) ∧
          (s₄.look x).2 = (s.look x).2) := by
  rw [← serving.id] at inside
  obtain ⟨sub, part, rfl⟩ :=
    mem_idsAll_iff_subs.mp (serving.stocked.stands.mem_of_isBelow tidy inside)
  have start := look_of_rich (holdContent_ok held).2.1
  obtain ⟨rfl, root_once, f', parted, hold⟩ := serving.held tidy part held
  obtain ⟨cs, turns⟩ := content _ none hold.held rfl root_once
  have refilled := hold.refilled parted (fun y mem => serving.stocked.stands.lt mem) turns taken
    replaced
  have next := serving.next part refilled
  refine ⟨_, _, next, fun x old keeps => ?_⟩
  have moved : KeepsRich x s s₄ :=
    (keeps.after (start x)).moved turns.stands turns.once taken replaced
  refine ⟨moved, fun mem => ?_⟩
  have stocked := next.stocked
  rcases List.mem_append.mp mem with mem | mem
  · rcases List.mem_cons.mp mem with rfl | mem
    · have top : (s₄.look f.id).2 = f.stem.rich := congrArg (·.2) stocked.stands.look_eq
      have before : (s.look f.id).2 = f.stem.rich := congrArg (·.2) serving.stocked.stands.look_eq
      exact ⟨List.mem_append_left _ id_mem_ids, top.trans before.symm⟩
    · -- a node below the instance has its place
      have once := (List.nodup_append.mp stocked.once).1
      refine ⟨?_, moved.resolve_right (stocked.stands.exists_parent once mem)⟩
      rcases mem_idsAll_splice _ mem with mem | mem
      · exact List.mem_append_left _ (mem_ids_of_children (mem_idsAll_of_idsButAll _ mem))
      · exact mem_stuffing part ((refilled.ids x mem).resolve_right (Nat.not_le_of_lt old))
  · refine ⟨List.mem_append_right _ (mem_idsAll_others mem), ?_⟩
    obtain ⟨top, here, inside⟩ := mem_idsAll.mp mem
    have there : top ∈ light.map (·.2) := by
      obtain ⟨e, listed, rfl⟩ := List.mem_map.mp here
      exact List.mem_map_of_mem (List.mem_filter.mp listed).1
    exact (standsAll_iff.mp serving.stocked.free top there).same
      (standsAll_iff.mp stocked.free top here) inside

end

/-! ### Runs -/

/-- What a call that ends has done about the rich values of a node. -/
def Call.Keeps (x : NodeId) : (call : Call) → Expansion → Expansion → Prop
  | .create _ _ _ (some home) _, s, s' => x ≠ home → KeepsRich x s s'
  | .texts .., s, s' | .text .., s, s' => (s'.look x).2 = (s.look x).2
  | .within .., s, s' | .hosts .., s, s' | .host .., s, s' | .slots .., s, s' => KeepsRich x s s'
  | _, _, _ => True

section
variable {scene : Scene} {s s₁ s₂ s₃ s₄ s' : Expansion} {c : Component} {o : Opened}
  {context : String} {host x : NodeId} {refs : List (String × String)}

theorem keepsRich_of_looks (looks : ∀ y, s'.look y = s.look y) : KeepsRich x s s' :=
  .inl (congrArg (·.2) (looks x))

theorem keepsRich_refl : KeepsRich x s s := .inl rfl

/-- Up to the point where its slots are filled, an instance changes the rich values of no node that
has been there, apart from its host. -/
theorem Drafted.look {s₀ : Expansion} {f : Branch} {light : List (String × Branch)} {cs : List Branch}
    (drafted : Drafted s₀ s₃ c o light f) (turns : Turns s₃ s₄ none f cs) (old : x < s₀.arena.size) :
    s₄.look x = s₀.look x := by
  have late : x ∉ f.ids := fun mem => Nat.not_le_of_lt old (drafted.draft.late x mem)
  rw [turns.framed.same x (Nat.lt_of_lt_of_le old drafted.draft.framed.grown) late,
    drafted.draft.framed.same x old List.not_mem_nil]

theorem keepsRich_of_run {call : Call} {made : List Instance} {r : Outcome call.Out}
    (sound : ∀ id c, scene.library.component? id = some c → c.Sound)
    (run : Run scene call s made r) (tidy : Tidy s) (placed : call.Placed s)
    (old : x < s.arena.size) : ∀ out s', r = .ok out s' → call.Keeps x s s' := by
  induction run with
  | textsNil | noText =>
    intro out s' same
    cases same
    exact rfl
  | textsCons head tail ih iht =>
    intro out s' same
    have first : (Expansion.look _ x).2 = _ := ih tidy trivial old _ _ rfl
    have old₁ := Nat.lt_of_lt_of_le old (size_le_of_run head)
    exact (iht (tidy_of_run head tidy) trivial old₁ _ _ same).trans first
  | plainText found plain written =>
    intro out s' same
    cases same
    exact look_of_rich (modifyArena_ok written).2 x
  | richText found plain pieces replaced ih =>
    intro out s' same
    cases same
    obtain ⟨bs, fresh⟩ := leaves_of_run sound pieces tidy _ _ rfl
    exact (look_of_rich (modifyArena_ok replaced).2 x).trans
      (congrArg (·.2) (fresh.framed.same x old List.not_mem_nil))
  | piecesNil | piecesEmpty | piecesLiteral | piecesValue | valueText | valueMarkup | valueComponent
  | valueUnknown | valueList | valuesNil | valuesCons => exact fun _ _ _ => trivial
  | tooDeep | refused | textsStop | withinStop | textsHeadStop | richTextStop | piecesValueStop
  | valueMarkupStop | valueComponentStop | valuesHeadStop | hostsHeadStop | hostStop | slotsStop =>
    intro out s' same
    cases same
  | @unknown room id context host extra s s' absent logged =>
    intro out s' same
    cases same
    cases host with
    | none => exact trivial
    | some host =>
      cases logged
      exact fun _ => keepsRich_refl
  | @created left id context host extra s c o s₁ made s₂ refs s₃ nested s₄ filled r known opened texts
      bound within slots ih ihw ihs =>
    intro out s' same
    obtain ⟨_, rfl, -⟩ := Outcome.eq_ok_of_map same
    cases host with
    | none => exact trivial
    | some host =>
      intro other
      obtain ⟨b, ⟨⟨p, stands⟩, rfl, once⟩, custom⟩ := placed
      have tidy₁ := (tidy_openInstance _ _ _ _ _).of_ok tidy opened
      have tidy₃ := (tidy_bindRefs _ _ _).of_ok (tidy_of_run texts tidy₁) bound
      obtain ⟨s₀, f, drafted, framed, -, rich⟩ := drafted_hosted (sound _ _ known) tidy stands once
        custom opened (leaves_of_run sound texts tidy₁ _ _ rfl) bound
      have leaves : WithinLeaves o.fragment s₃ s₄ := leaves_of_run sound within tidy₃ _ _ rfl
      obtain ⟨cs, turns⟩ := leaves f none drafted.draft.stands drafted.id drafted.draft.once
      have old₀ := Nat.lt_of_lt_of_le old framed.grown
      have before : (s₄.look x).2 = (s.look x).2 := by
        rw [drafted.look turns old₀]
        exact rich x other
      have old₄ : x < s₄.arena.size := Nat.lt_of_lt_of_le old₀
        (Nat.le_trans drafted.draft.framed.grown turns.framed.grown)
      have placed : (Call.slots left o.fragment o.supplied context o.sites.slots).Placed s₄ :=
        drafted.placed_slots leaves
      have keeps : KeepsRich x s₄ s' := ihs (tidy_of_run within tidy₃) placed old₄ _ _ rfl
      exact keeps.after before
  | within all ih =>
    intro out s' same
    exact ih tidy (placed_hosts placed) old _ _ same
  | hostsNil | noHost | slotsNil =>
    intro out s' same
    cases same
    exact keepsRich_refl
  | hostsCons head tail ih iht =>
    intro out s' same
    have leaves : HostLeaves _ _ _ := leaves_of_run sound head tidy _ _ rfl
    have rest := placed_tail placed leaves
    have tidy₁ := tidy_of_run head tidy
    have old₁ := Nat.lt_of_lt_of_le old (size_le_of_run head)
    have first : KeepsRich x _ _ := ih tidy (placed_head placed) old _ _ rfl
    rcases first with rich | free
    · exact (iht tidy₁ rest old₁ _ _ same).after rich
    · obtain ⟨p, b, subs, waiting, listed, -⟩ := rest
      have others : HostsLeave _ _ _ := leaves_of_run sound tail tidy₁ _ _ same
      obtain ⟨cs, turns⟩ := others b p subs waiting listed
      exact .inr (turns.free waiting.stands waiting.once old₁ free)
  | hostReplaced found body taken replaced ih =>
    intro out s' same
    cases same
    obtain ⟨b, ⟨⟨p, stands⟩, rfl, once⟩, custom, -⟩ := placed
    have leaves : HostedLeaves b.id _ _ _ := leaves_of_run sound body tidy _ _ rfl
    obtain ⟨f, rfl, raised, -⟩ := leaves b p stands rfl once custom
    by_cases own : x = b.id
    · subst own
      refine .inr ?_
      rw [(modifyArena_ok replaced).1]
      exact Arena.parent?_replaceWith _
    · have keeps : KeepsRich x _ _ := ih tidy ⟨b, ⟨⟨p, stands⟩, rfl, once⟩, custom⟩ old _ _ rfl own
      exact keeps.moved raised.stands raised.once taken replaced
  | @hostBottom room host context s el made s' found body ih =>
    intro out s' same
    cases same
    have unknown : CreateLeaves (some host) _ _ none := leaves_of_run sound body tidy _ _ rfl
    exact keepsRich_of_looks unknown.1
  | @hostKept room height host context s el made s₁ more r found body inside ih iht =>
    intro out s' same
    have unknown : CreateLeaves (some host) _ _ none := leaves_of_run sound body tidy _ _ rfl
    have keeps : KeepsRich x _ _ := iht (tidy_of_run body tidy) (placed_inside placed unknown)
      (Nat.lt_of_lt_of_eq old unknown.2.symm) _ _ same
    exact keeps.after (congrArg (·.2) (unknown.1 x))
  | slotsGone outside tail ih =>
    intro out s' same
    obtain ⟨f, light, serving⟩ := placed
    exact ih tidy ⟨f, light, serving.skip⟩ old _ _ same
  | slotsCons inside held content taken replaced tail ih iht =>
    intro out s' same
    have tidy₁ := (tidy_holdContent _ _ _).of_ok tidy held
    have tidy₄ := (tidy_replaceWith _ _).of_ok ((tidy_takeChildren _).of_ok
      (tidy_of_run content tidy₁) taken) replaced
    have leaves : WithinLeaves _ _ _ := leaves_of_run sound content tidy₁ _ _ rfl
    obtain ⟨⟨b, upright⟩, next⟩ := placed_slot tidy placed inside held
    have placed₄ := next leaves taken replaced
    obtain ⟨f, light, serving⟩ := placed
    obtain ⟨f', light', serving', facts⟩ := serving.filled tidy inside held leaves taken replaced
    have old₁ := Nat.lt_of_lt_of_le old (size_le_of_lasts ((lasts_holdContent _ _ _).of_ok · held))
    have first : KeepsRich x _ _ := ih tidy₁ upright.placed old₁ _ _ rfl
    have old₄ := Nat.lt_of_lt_of_le (Nat.lt_of_lt_of_le old₁ (size_le_of_run content))
      (size_le_of_lasts fun lasts => (lasts_replaceWith _ _).of_ok
        ((lasts_takeChildren _).of_ok lasts taken) replaced)
    obtain ⟨moved, there⟩ := facts x old first
    rcases moved with rich | free
    · exact (iht tidy₄ placed₄ old₄ _ _ same).after rich
    · by_cases mem : x ∈ f'.ids ++ idsAll (light'.map (·.2))
      · exact (iht tidy₄ placed₄ old₄ _ _ same).after (there mem).2
      · have others : SlotsLeave _ _ _ _ _ := leaves_of_run sound tail tidy₄ _ _ same
        obtain ⟨cs, served⟩ := others f' light' serving'
        have look := served.framed.same x old₄ mem
        exact .inr ((congrArg (·.1.parent) look).trans free)

end

/-! ### Calls that a call leads to -/

/-- What a call works on is there, and its nodes have good rich values. -/
def Call.Reaches (good : NodeId → Values → Prop) (s : Expansion) : Call → Prop
  | .create _ _ _ (some home) extra => extra = [] ∧ ∃ b, Upright s home b ∧ b.stem.content.isCustom ∧
    ∀ y ∈ b.ids, good y (s.look y).2
  | .within _ _ scope _ => ∃ b, Upright s scope b ∧ ∀ y ∈ idsAll b.children, good y (s.look y).2
  | .hosts _ _ hs => ∃ p b subs, Waiting s p b subs ∧ subs.map (·.id) = hs.map (·.1) ∧
    ∀ sub ∈ subs, ∀ y ∈ sub.ids, good y (s.look y).2
  | .host _ _ home _ => ∃ b, Upright s home b ∧ b.stem.content.isCustom ∧
    ∀ y ∈ b.ids, good y (s.look y).2
  | .slots _ fragment supplied _ sites => ∃ f light,
    Serving s fragment supplied (sites.map (·.1)) f light ∧
    ∀ y ∈ f.ids ++ idsAll (light.map (·.2)), good y (s.look y).2
  | _ => True

section
variable {scene : Scene} {good : NodeId → Values → Prop} {call call' : Call}
  {s s₁ s₂ s₃ s₄ s' : Expansion}

theorem leaves_of_exec (call : Call) {a : call.Out}
    (sound : ∀ id c, scene.library.component? id = some c → c.Sound)
    (run : (exec scene call).run s = .ok a s') (tidy : Tidy s) : Leaves call s a s' := by
  obtain ⟨made, run⟩ := (exec_eq_iff scene call s _).mp run
  exact leaves_of_run sound run tidy a s' rfl

theorem keeps_of_exec (call : Call) {a : call.Out} {x : NodeId}
    (sound : ∀ id c, scene.library.component? id = some c → c.Sound)
    (run : (exec scene call).run s = .ok a s') (tidy : Tidy s) (placed : call.Placed s)
    (old : x < s.arena.size) : call.Keeps x s s' := by
  obtain ⟨made, run⟩ := (exec_eq_iff scene call s _).mp run
  exact keepsRich_of_run sound run tidy placed old _ _ rfl

theorem Waiting.sub {p : Option NodeId} {b sub : Branch} {subs : List Branch}
    (waiting : Waiting s p b subs) (mem : sub ∈ subs) : ∃ q, Stands s q sub :=
  waiting.stands.children.sub _ (mem_subsAll_of_front _ (waiting.hosts sub mem).1).1

theorem Call.Reaches.placed {room : Nat} {id context : String} {host : Option NodeId} {extra : Values}
    (reaches : (Call.create room id context host extra).Reaches good s) :
    (Call.create room id context host extra).Placed s := by
  cases host with
  | none => exact trivial
  | some home =>
    obtain ⟨-, b, upright, custom, -⟩ := reaches
    exact ⟨b, upright, custom⟩

/-- When the slots of an instance are filled, the instance is made of new nodes, and the children of its
host are as they were. -/
theorem reaches_slots {left : Nat} {id context : String} {host : Option NodeId} {extra : Values}
    {c : Component} {o : Opened} {refs : List (String × String)}
    (sound : ∀ id c, scene.library.component? id = some c → c.Sound) (tidy : Tidy s)
    (reaches : (Call.create (left + 1) id context host extra).Reaches good s)
    (known : scene.library.component? id = some c)
    (opened : (openInstance scene c context host extra).run s = .ok o s₁)
    (texts : (substituteTexts scene left o.values context 0 o.sites.texts).run s₁ = .ok () s₂)
    (bound : (bindRefs c context o).run s₂ = .ok refs s₃)
    (within : (expandWithin scene left s₃.arena.size o.fragment context).run s₃ = .ok () s₄) :
    ∃ f light, Serving s₄ o.fragment o.supplied (o.sites.slots.map (·.1)) f light ∧
      (∀ y ∈ f.ids, s.arena.size ≤ y) ∧
      ∀ y ∈ idsAll (light.map (·.2)), y < s.arena.size ∧ good y (s₄.look y).2 := by
  have tidy₁ := (tidy_openInstance _ _ _ _ _).of_ok tidy opened
  have texts_leave : TextsLeave (o.sites.texts.map (·.node)) s₁ s₂ :=
    leaves_of_exec (.texts left o.values context 0 o.sites.texts) sound texts tidy₁
  have tidy₃ := (tidy_bindRefs _ _ _).of_ok
    (tidy_of_exec (.texts left o.values context 0 o.sites.texts) texts tidy₁) bound
  have leaves : WithinLeaves o.fragment s₃ s₄ :=
    leaves_of_exec (.within left s₃.arena.size o.fragment context) sound within tidy₃
  have served : ∀ {s₀ light f}, Drafted s₀ s₃ c o light f → s.arena.size ≤ s₀.arena.size →
      ∃ cs, Serving s₄ o.fragment o.supplied (o.sites.slots.map (·.1)) (.node f.id f.stem cs) light ∧
        (∀ y ∈ ids (.node f.id f.stem cs), s.arena.size ≤ y) ∧
        ∀ y ∈ idsAll (light.map (·.2)), s₄.look y = s₀.look y := by
    intro s₀ light f drafted grown
    obtain ⟨cs, turns⟩ := leaves f none drafted.draft.stands drafted.id drafted.draft.once
    refine ⟨cs, drafted.serving turns, fun y mem => Nat.le_trans grown ?_, fun y mem =>
      drafted.look turns (drafted.free.lt mem)⟩
    rcases List.mem_cons.mp mem with rfl | mem
    · exact drafted.draft.late _ id_mem_ids
    · exact (turns.ids y mem).elim (fun mem => drafted.draft.late y (mem_ids_of_children mem))
        (Nat.le_trans drafted.draft.framed.grown)
  cases host with
  | none =>
    obtain ⟨f, drafted⟩ := drafted_alone (sound _ _ known) tidy opened texts_leave bound
    obtain ⟨cs, serving, late, -⟩ := served drafted (Nat.le_refl _)
    exact ⟨_, [], serving, late, fun _ mem => nomatch mem⟩
  | some home =>
    obtain ⟨-, b, ⟨⟨p, stands⟩, rfl, once⟩, custom, facts⟩ := reaches
    obtain ⟨s₀, f, drafted, framed, -, rich⟩ := drafted_hosted (sound _ _ known) tidy stands once
      custom opened texts_leave bound
    obtain ⟨cs, serving, late, looks⟩ := served drafted framed.grown
    refine ⟨_, _, serving, late, fun y mem => ?_⟩
    rw [looks y mem]
    rw [idsAll_lightOf] at mem
    have other : y ≠ b.id := by
      rw [ids_eq, List.nodup_cons] at once
      exact fun own => once.1 (own ▸ mem)
    rw [rich y other]
    exact ⟨stands.lt (mem_ids_of_children mem), facts y (mem_ids_of_children mem)⟩

theorem reaches_of_enters (sound : ∀ id c, scene.library.component? id = some c → c.Sound)
    (tidy : Tidy s) (fresh : ∀ y r, s.arena.size ≤ y → good y r) (reaches : call.Reaches good s)
    (enters : Enters scene (call, s) (call', s')) : call'.Reaches good s' := by
  cases enters with
  | texts | text | nextText | pieces | nextEmpty | nextLiteral | value | nextValue | items | item
  | nextItem | component => exact trivial
  | @inside left id context host extra s c o s₁ s₂ refs s₃ known opened texts bound =>
    have tidy₁ := (tidy_openInstance _ _ _ _ _).of_ok tidy opened
    obtain ⟨s₀, light, f, drafted⟩ := exists_drafted (sound _ _ known) tidy reaches.placed opened
      (leaves_of_exec (.texts left o.values context 0 o.sites.texts) sound texts tidy₁) bound
    refine ⟨f, drafted.upright, fun y mem => fresh y _ ?_⟩
    have late := drafted.draft.late y (mem_ids_of_children mem)
    rw [← drafted.draft.id, drafted.id] at late
    exact Nat.le_trans (fragment_late opened) late
  | slots known opened texts bound within =>
    obtain ⟨f, light, serving, late, early⟩ :=
      reaches_slots sound tidy reaches known opened texts bound within
    refine ⟨f, light, serving, fun y mem => ?_⟩
    rcases List.mem_append.mp mem with mem | mem
    · exact fresh y _ (late y mem)
    · exact (early y mem).2
  | @hosts room height scope context s =>
    obtain ⟨b, ⟨⟨p, stands⟩, rfl, once⟩, facts⟩ := reaches
    have waiting := waiting_all stands once
    refine ⟨p, b, _, waiting, (stands.hosts_eq once).symm, fun sub mem y inside => ?_⟩
    have part := (mem_subsAll_of_front _ (waiting.hosts sub mem).1).1
    exact facts y (ids_subset part inside)
  | host =>
    obtain ⟨p, b, subs, waiting, listed, facts⟩ := reaches
    obtain ⟨sub, subs, rfl, rfl, -⟩ := List.map_eq_cons_iff.mp listed
    exact ⟨sub, waiting.upright, (waiting.hosts sub List.mem_cons_self).2,
      facts sub List.mem_cons_self⟩
  | @nextHost room height host context rest s s' head =>
    obtain ⟨p, b, subs, waiting, listed, facts⟩ := reaches
    obtain ⟨sub, subs, rfl, rfl, others⟩ := List.map_eq_cons_iff.mp listed
    have leaves : HostLeaves sub.id s s' :=
      leaves_of_exec (.host room height sub.id context) sound head tidy
    obtain ⟨new, turns⟩ := leaves b p sub waiting.stands waiting.once waiting.part
      (waiting.hosts sub List.mem_cons_self).2 rfl
    have next := waiting.next turns
    refine ⟨p, _, subs, next, others, fun other mem y inside => ?_⟩
    obtain ⟨_, before⟩ := waiting.sub (List.mem_cons_of_mem _ mem)
    obtain ⟨_, after⟩ := next.sub mem
    rw [before.same after inside]
    exact facts other (List.mem_cons_of_mem _ mem) y inside
  | hosted found => exact ⟨rfl, reaches⟩
  | @kept room height host context s e s' found unknown =>
    obtain ⟨b, ⟨⟨p, stands⟩, same, once⟩, -, facts⟩ := reaches
    have leaves : CreateLeaves (some host) s s' none :=
      leaves_of_exec (.create room e.name context (some host) []) sound unknown tidy
    refine ⟨b, ⟨⟨p, stands_of_same leaves.1 leaves.2 stands⟩, same, once⟩, fun y mem => ?_⟩
    rw [leaves.1 y]
    exact facts y (mem_ids_of_children mem)
  | slotGone outside =>
    obtain ⟨f, light, serving, facts⟩ := reaches
    exact ⟨f, light, serving.skip, facts⟩
  | @slot room fragment supplied context name slot rest s holder s₁ inside held =>
    obtain ⟨f, light, serving, facts⟩ := reaches
    rw [← serving.id] at inside
    obtain ⟨sub, part, rfl⟩ :=
      mem_idsAll_iff_subs.mp (serving.stocked.stands.mem_of_isBelow tidy inside)
    have rich := look_of_rich (holdContent_ok held).2.1
    obtain ⟨rfl, root_once, f', -, hold⟩ := serving.held tidy part held
    refine ⟨_, ⟨⟨none, hold.held⟩, rfl, root_once⟩, fun y mem => ?_⟩
    rw [rich y]
    exact facts y (mem_stuffing part mem)
  | @nextSlot room fragment supplied context name slot rest s holder s₁ s₂ ids s₃ s₄ inside held
      content taken replaced =>
    obtain ⟨f, light, serving, facts⟩ := reaches
    have tidy₁ := (tidy_holdContent _ _ _).of_ok tidy held
    have leaves : WithinLeaves holder s₁ s₂ := leaves_of_exec
      (.within room s₁.arena.size holder (context ++ "/slot:" ++ name)) sound content tidy₁
    have placed : (Call.slots room fragment supplied context ((name, slot) :: rest)).Placed s :=
      ⟨f, light, serving⟩
    obtain ⟨⟨b, upright⟩, -⟩ := placed_slot tidy placed inside held
    obtain ⟨f', light', serving', kept⟩ := serving.filled tidy inside held leaves taken replaced
    refine ⟨f', light', serving', fun y mem => ?_⟩
    by_cases old : y < s.arena.size
    · have old₁ := Nat.lt_of_lt_of_le old (size_le_of_lasts ((lasts_holdContent _ _ _).of_ok · held))
      have keeps : KeepsRich y s₁ s₂ := keeps_of_exec
        (.within room s₁.arena.size holder (context ++ "/slot:" ++ name)) sound content tidy₁
        upright.placed old₁
      obtain ⟨here, rich⟩ := (kept y old keeps).2 mem
      rw [rich]
      exact facts y here
    · exact fresh y _ (Nat.le_of_not_lt old)

end
end Expansion
end Stencil
