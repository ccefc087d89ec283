import Stencil.Proofs.Component.Values
import Stencil.Proofs.Expansion.Making
import Stencil.Proofs.Markup.Custom
/-!
Runs as rewritings. Every call that ends leaves a branch that is rewritten to the same trees, and in
the end nothing is left to rewrite outside of slots.
-/
namespace Stencil.Expansion
open Markup Branch

/-! ### The values of a run -/

section
variable {scene : Scene} {P : Value → Prop} {s s₁ s' : Expansion}

/-- The values that nodes keep have the property. -/
def RichAll (P : Value → Prop) (s : Expansion) : Prop := ∀ e ∈ s.rich, Values.All P e.2

/-- The values that scripts have given have the property. -/
def GivenAll (P : Value → Prop) (made : List Instance) : Prop :=
  ∀ i ∈ made, ∀ computed, i.given = some computed → Values.All P computed.values

/-- The values that a call is made with have the property. -/
def Call.Ready (P : Value → Prop) : Call → Prop
  | .create _ _ _ _ extra => Values.All P extra
  | .texts _ known .. | .text _ known .. => Values.All P known
  | .pieces _ _ _ ps => ∀ v, .value v ∈ ps → P v
  | .value _ _ v => P v
  | .values _ _ _ items => ∀ v ∈ items, P v
  | .within .. | .hosts .. | .host .. | .slots .. => True

theorem GivenAll.left {made more : List Instance} (given : GivenAll P (made ++ more)) :
    GivenAll P made := fun i mem => given i (List.mem_append_left _ mem)

theorem GivenAll.right {made more : List Instance} (given : GivenAll P (made ++ more)) :
    GivenAll P more := fun i mem => given i (List.mem_append_right _ mem)

theorem GivenAll.head {i : Instance} {made : List Instance} (given : GivenAll P (i :: made)) :
    ∀ computed, i.given = some computed → Values.All P computed.values :=
  given i List.mem_cons_self

theorem GivenAll.tail {i : Instance} {made : List Instance} (given : GivenAll P (i :: made)) :
    GivenAll P made := fun j mem => given j (List.mem_cons_of_mem _ mem)

theorem rich_modifyArena (f : Arena → Arena) : Preserves (RichAll P) (modifyArena f) := fun _ h => h

theorem rich_takeChildren (x : NodeId) : Preserves (RichAll P) (takeChildren x) := fun _ h => h

theorem rich_alloc (c : Content) : Preserves (RichAll P) (alloc c) := fun _ h => h

theorem rich_look (rich : RichAll P s) (x : NodeId) : Values.All P (s.look x).2 := by
  rw [look]
  cases found : s.rich.lookup x with
  | none => exact fun _ mem => absurd mem List.not_mem_nil
  | some own =>
    obtain ⟨before, after, same, -⟩ := List.lookup_eq_some_iff.mp found
    exact rich (x, own) (by rw [same]; simp)

theorem rich_mergeHost {host : NodeId} {values values' : Values} (inherits : Value.Inherits P)
    (document : Values.All P values) (rich : RichAll P s)
    (run : (mergeHost host values).run s = .ok values' s') : RichAll P s' ∧ Values.All P values' := by
  rw [mergeHost, run_get_bind] at run
  split at run
  · cases run
    exact ⟨rich, document⟩
  · next e _ =>
    cases run
    exact ⟨fun e mem => rich e (List.mem_filter.mp mem).1,
      Values.all_foldl (fun _ _ all own => Values.all_putHostValue all own) document
        (Values.all_hostValues inherits e (rich_look rich host))⟩

theorem rich_receive {host : Option NodeId} {values : Values} {supplied : Assoc (List NodeId)}
    (inherits : Value.Inherits P) (document : Values.All P scene.document) (rich : RichAll P s)
    (run : (receive scene host).run s = .ok (values, supplied) s') :
    RichAll P s' ∧ Values.All P values := by
  cases host with
  | none =>
    cases run
    exact ⟨rich, document⟩
  | some host =>
    obtain ⟨merged, s₁, merge, rest⟩ := eq_ok_of_bind run
    obtain ⟨slots, s₂, partition, last⟩ := eq_ok_of_bind rest
    cases last
    have sorted : Preserves (RichAll P) (partitionSlots host) :=
      preserves_bind (fun _ h => h) fun ids => preserves_foldlM (fun _ _ =>
        preserves_bind preserves_get fun _ => preserves_bind (rich_modifyArena _) fun _ =>
          preserves_pure _) ids _
    obtain ⟨rich, all⟩ := rich_mergeHost inherits document rich merge
    exact ⟨sorted.of_ok rich partition, all⟩

theorem all_putRich {node : NodeId} {name : String} {v : Value} {rich : List (NodeId × Values)}
    (all : ∀ e ∈ rich, Values.All P e.2) (own : P v) :
    ∀ e ∈ putRich node name v rich, Values.All P e.2 := by
  rw [putRich]
  split
  · rw [List.forall_mem_append]
    refine ⟨all, fun e mem => ?_⟩
    rw [List.mem_singleton.mp mem]
    exact fun e mem => List.mem_singleton.mp mem ▸ own
  · next old found =>
    obtain ⟨before, after, same, -⟩ := List.lookup_eq_some_iff.mp found
    have old_all : Values.All P old := all (node, old) (by rw [same]; simp)
    intro e mem
    obtain ⟨⟨n, vs⟩, here, rfl⟩ := List.mem_map.mp mem
    dsimp only
    split
    · exact Values.all_put old_all own
    · exact all _ here

theorem all_richValue? {values : Values} (all : Values.All P values) {tokens : List Token}
    {text : String} {v : Value} (kept : richValue? values tokens text = some v) : P v := by
  unfold richValue? at kept
  split at kept
  · split at kept
    · exact all.get? (Option.filter_eq_some_iff.mp kept).1
    · cases kept
  · cases kept

theorem rich_substituteAttribute {values : Values} (all : Values.All P values) (site : AttributeSite) :
    Preserves (RichAll P) (substituteAttribute values site) := by
  rw [substituteAttribute]
  refine preserves_bind preserves_get fun s => ?_
  dsimp only
  split
  · exact preserves_pure _
  · split
    · exact preserves_pure _
    · next text _ =>
      split
      · cases kept : richValue? values site.tokens text with
        | none => exact rich_modifyArena _
        | some v =>
          exact preserves_bind (preserves_modify fun s rich => all_putRich rich
            (all_richValue? all kept)) fun _ => rich_modifyArena _
      · exact rich_modifyArena _

theorem rich_openInstance {c : Component} {context : String} {host : Option NodeId} {extra : Values}
    {o : Opened} (inherits : Value.Inherits P) (document : Values.All P scene.document) (rich : RichAll P s)
    (all : Values.All P extra)
    (given : ∀ computed, o.given = some computed → Values.All P computed.values)
    (run : (openInstance scene c context host extra).run s = .ok o s') :
    RichAll P s' ∧ Values.All P o.values := by
  obtain ⟨values, s₁, s₂, received, own, -, -, computed, filled⟩ := openInstance_ok run
  obtain ⟨rich₁, received_all⟩ := rich_receive inherits document rich received
  have values_all : Values.All P o.values := by
    have own_all : Values.All P o.own := own ▸ Values.all_putAll received_all all
    rw [Opened.values]
    cases found : o.given with
    | none => exact own_all
    | some computed => exact Values.all_putAll own_all (given computed found)
  have rich₂ : RichAll P s₂ := by
    rw [RichAll, (compute_same computed).2]
    exact rich₁
  exact ⟨(preserves_forM (fun site => rich_substituteAttribute values_all site) _).of_ok rich₂ filled,
    values_all⟩

theorem rich_bindRefs (c : Component) (context : String) (o : Opened) :
    Preserves (RichAll P) (bindRefs c context o) := by
  refine preserves_bind (preserves_foldlM (fun refs node => ?_) _ _) fun refs => ?_
  · refine preserves_bind preserves_get fun _ => preserves_bind (rich_modifyArena _) fun _ => ?_
    split
    · exact preserves_pure refs
    · split
      · exact preserves_pure refs
      · exact preserves_bind preserves_get fun _ =>
          preserves_bind (preserves_modify fun _ h => h) fun _ => preserves_pure _
  · split
    · exact preserves_bind (preserves_modify fun _ h => h) fun _ => preserves_pure refs
    · exact preserves_pure refs

theorem rich_holdContent (supplied : Assoc (List NodeId)) (name : String) (slot : NodeId) :
    Preserves (RichAll P) (holdContent supplied name slot) := by
  intro s rich
  rw [holdContent, run_get_bind]
  dsimp only
  cases (Assoc.get? supplied name).filter (isContent s.arena) with
  | some ids => exact rich
  | none => exact rich

/-- Values with the property stay the only ones. -/
theorem rich_of_run {call : Call} {made : List Instance} {r : Outcome call.Out} (inherits : Value.Inherits P)
    (document : Values.All P scene.document) (run : Run scene call s made r) (rich : RichAll P s)
    (ready : call.Ready P) (given : GivenAll P made) :
    ∀ out s', r = .ok out s' → RichAll P s' := by
  induction run with
  | unknown absent logged =>
    intro out s' same
    cases same
    exact (preserves_modify fun _ h => h : Preserves (RichAll P) (logUnknown _ _)).of_ok rich logged
  | tooDeep | refused | textsStop | withinStop | textsHeadStop | richTextStop | piecesValueStop
  | valueMarkupStop | valueComponentStop | valuesHeadStop | hostsHeadStop | hostStop | slotsStop =>
    intro out s' same
    cases same
  | created known opened texts bound within slots ih ihw ihs =>
    intro out s' same
    obtain ⟨_, rfl, -⟩ := Outcome.eq_ok_of_map same
    obtain ⟨rich₁, all⟩ := rich_openInstance inherits document rich ready given.head opened
    have rich₂ := ih rich₁ all given.tail.left _ _ rfl
    have rich₃ := (rich_bindRefs _ _ _).of_ok rich₂ bound
    have rich₄ := ihw rich₃ trivial given.tail.right.left _ _ rfl
    exact ihs rich₄ trivial given.tail.right.right _ _ rfl
  | textsNil | noText | piecesNil | valuesNil | hostsNil | noHost | slotsNil =>
    intro out s' same
    cases same
    exact rich
  | textsCons head tail ih iht =>
    exact iht (ih rich ready given.left _ _ rfl) ready given.right
  | plainText found plain written =>
    intro out s' same
    cases same
    exact (rich_modifyArena _).of_ok rich written
  | richText found plain placed replaced ih =>
    intro out s' same
    cases same
    exact (rich_modifyArena _).of_ok (ih rich (fun v mem => all_pieces ready _ _ mem) given _ _ rfl)
      replaced
  | piecesEmpty empty tail ih =>
    exact ih rich (fun v mem => ready v (List.mem_cons_of_mem _ mem)) given
  | piecesLiteral more added tail ih =>
    intro out s' same
    obtain ⟨_, rfl, -⟩ := Outcome.eq_ok_of_map same
    exact ih ((rich_alloc _).of_ok rich added) (fun v mem => ready v (List.mem_cons_of_mem _ mem)) given
      _ _ rfl
  | piecesValue head tail ih iht =>
    intro out s' same
    obtain ⟨_, rfl, -⟩ := Outcome.eq_ok_of_map same
    have rich₁ := ih rich (ready _ List.mem_cons_self) given.left _ _ rfl
    exact iht rich₁ (fun v mem => ready v (List.mem_cons_of_mem _ mem)) given.right _ _ rfl
  | valuesCons head tail ih iht =>
    intro out s' same
    obtain ⟨_, rfl, -⟩ := Outcome.eq_ok_of_map same
    have rich₁ := ih rich (ready _ List.mem_cons_self) given.left _ _ rfl
    exact iht rich₁ (fun v mem => ready v (List.mem_cons_of_mem _ mem)) given.right _ _ rfl
  | valueText added =>
    intro out s' same
    cases same
    exact (rich_alloc _).of_ok rich added
  | valueMarkup read grafted =>
    intro out s' same
    cases same
    exact (preserves_mapM (fun _ _ h => h) _ : Preserves (RichAll P) (graftAll _)).of_ok rich grafted
  | valueComponent body taken ih =>
    intro out s' same
    cases same
    have rich₁ := ih rich (fun e mem => inherits.nested ready mem) given _ _ rfl
    exact (rich_takeChildren _).of_ok rich₁ taken
  | valueUnknown body added ih =>
    intro out s' same
    cases same
    have rich₁ := ih rich (fun e mem => inherits.nested ready mem) given _ _ rfl
    exact (rich_alloc _).of_ok rich₁ added
  | valueList all ih => exact ih rich (fun v mem => inherits.item ready mem) given
  | within all ih | hostBottom found body ih | slotsGone outside tail ih =>
    intro out s' same
    cases same
    first
    | exact ih rich trivial given _ _ rfl
    | exact ih rich (fun _ mem => nomatch mem) given _ _ rfl
  | hostsCons head tail ih iht => exact iht (ih rich trivial given.left _ _ rfl) trivial given.right
  | hostReplaced found body taken replaced ih =>
    intro out s' same
    cases same
    have rich₁ := ih rich (fun _ mem => nomatch mem) given _ _ rfl
    exact (rich_modifyArena _).of_ok ((rich_takeChildren _).of_ok rich₁ taken) replaced
  | hostKept found body inside ih iht =>
    exact iht (ih rich (fun _ mem => nomatch mem) given.left _ _ rfl) trivial given.right
  | slotsCons inside held content taken replaced tail ih iht =>
    have rich₂ := ih ((rich_holdContent _ _ _).of_ok rich held) trivial given.left _ _ rfl
    exact iht ((rich_modifyArena _).of_ok ((rich_takeChildren _).of_ok rich₂ taken) replaced) trivial
      given.right

/-! ### What calls leave -/

/-- What a call that ends leaves. -/
def Spec (scene : Scene) (simple : Prop) : (call : Call) → Expansion → call.Out → Expansion → Prop
  | .create room name _ host extra, s, out, s' => CreateSpec scene simple room name host extra s s' out
  | .texts _ known _ _ sites, s, _, s' => TextsSpec simple known sites s s'
  | .text _ known _ site, s, _, s' => TextSpec simple known site s s'
  | .pieces _ _ _ ps, s, nodes, s' => LooseSpec simple s s' nodes (ps.flatMap Sketch.pieceTexts)
  | .value _ _ v, s, nodes, s' => LooseSpec simple s s' nodes (Sketch.valueTexts v)
  | .values _ _ _ items, s, nodes, s' => LooseSpec simple s s' nodes (Sketch.itemTexts items)
  | .within room height scope _, s, _, s' => WithinSpec scene simple room height scope s s'
  | .hosts room height hosts, s, _, s' =>
    HostsSpec scene simple room height (hosts.map (·.1)) s s'
  | .host room height host _, s, _, s' => HostSpec scene simple room height host s s'
  | .slots room fragment supplied _ slots, s, _, s' =>
    SlotsSpec scene simple room fragment supplied slots s s'

variable {simple : Prop}

theorem host_missing {room height : Nat} {host : NodeId} (absent : s.arena.element? host = none) :
    HostSpec scene simple room height host s s' := by
  rintro b p sub stands - front custom rfl -
  have content := (stands.children.sub_parent (mem_subsAll_of_front _ front).1).content
  rw [Arena.element?, content] at absent
  rw [Content.isCustom, absent] at custom
  cases custom

theorem host_bottom {room : Nat} {host : NodeId} : HostSpec scene simple room 0 host s s' := by
  rintro b p sub - - - - - short
  exact absurd short (Nat.not_le_of_lt length_ids_pos)

theorem loose_unknown {nodes : List NodeId} {texts : List String}
    (looks : ∀ x, s₁.look x = s.look x) (size : s₁.arena.size = s.arena.size)
    (loose : LooseSpec simple s₁ s' nodes texts) : LooseSpec simple s s' nodes texts := by
  obtain ⟨bs, loose⟩ := loose
  have framed := framed_of_looks looks size []
  exact ⟨bs, { loose with
    fresh := fun x mem => size ▸ loose.fresh x mem
    framed := framed.trans loose.framed fun _ mem _ => mem }⟩

/-- Every call leaves what it is to leave. In simple scenes there are no scripts and values are texts
and lists of texts. -/
theorem spec_of_run {call : Call} {made : List Instance} {r : Outcome call.Out} (tame : Value.Tame P)
    (document : Values.All P scene.document)
    (sound : ∀ id c, scene.library.component? id = some c → c.Sound)
    (silent : simple → ∀ id c, scene.library.component? id = some c → c.script = none)
    (plain : simple → ∀ v, P v → v.Plain) (run : Run scene call s made r) (tidy : Tidy s)
    (rich : RichAll P s) (ready : call.Ready P) (given : GivenAll P made) :
    ∀ out s', r = .ok out s' → Spec scene simple call s out s' := by
  induction run with
  | unknown absent logged =>
    intro out s' same
    cases same
    cases logged
    exact ⟨absent, fun _ => rfl, rfl⟩
  | tooDeep | refused | textsStop | withinStop | textsHeadStop | richTextStop | piecesValueStop
  | valueMarkupStop | valueComponentStop | valuesHeadStop | hostsHeadStop | hostStop | slotsStop =>
    intro out s' same
    cases same
  | created known opened texts bound within slots ih ihw ihs =>
    intro out s' same
    obtain ⟨_, rfl, rfl⟩ := Outcome.eq_ok_of_map same
    obtain ⟨rich₁, all⟩ := rich_openInstance tame.toInherits document rich ready given.head opened
    have tidy₁ := (tidy_openInstance _ _ _ _ _).of_ok tidy opened
    have tidy₂ := tidy_of_run texts tidy₁
    have rich₂ := rich_of_run tame.toInherits document texts rich₁ all given.tail.left _ _ rfl
    have tidy₃ := (tidy_bindRefs _ _ _).of_ok tidy₂ bound
    have rich₃ := (rich_bindRefs _ _ _).of_ok rich₂ bound
    have tidy₄ := tidy_of_run within tidy₃
    have rich₄ := rich_of_run tame.toInherits document within rich₃ trivial given.tail.right.left _ _ rfl
    exact create_made tidy (sound _ _ known) known (fun h => silent h _ _ known) opened
      (ih tidy₁ rich₁ all given.tail.left _ _ rfl) bound
      (ihw tidy₃ rich₃ trivial given.tail.right.left _ _ rfl)
      (ihs tidy₄ rich₄ trivial given.tail.right.right _ _ rfl)
  | textsNil =>
    intro out s' same
    cases same
    exact texts_nil
  | textsCons head tail ih iht =>
    intro out s' same
    have rich₁ := rich_of_run tame.toInherits document head rich ready given.left _ _ rfl
    exact texts_cons (ih tidy rich ready given.left _ _ rfl)
      (iht (tidy_of_run head tidy) rich₁ ready given.right _ _ same)
  | noText absent =>
    intro out s' same
    exact text_none absent
  | plainText found plain written =>
    intro out s' same
    cases same
    exact text_plain found plain written
  | richText found notPlain placed replaced ih =>
    intro out s' same
    cases same
    exact text_rich found notPlain
      (ih tidy rich (fun v mem => all_pieces ready _ _ mem) given _ _ rfl) replaced
  | piecesNil =>
    intro out s' same
    cases same
    exact loose_nil
  | piecesEmpty empty tail ih =>
    intro out s' same
    have rest := ih tidy rich (fun v mem => ready v (List.mem_cons_of_mem _ mem)) given _ _ same
    rw [Spec, List.flatMap_cons, Sketch.pieceTexts, if_pos empty]
    exact rest
  | piecesLiteral more added tail ih =>
    intro out s' same
    obtain ⟨_, rfl, rfl⟩ := Outcome.eq_ok_of_map same
    have rest := ih ((tidy_alloc _).of_ok tidy added) ((rich_alloc _).of_ok rich added)
      (fun v mem => ready v (List.mem_cons_of_mem _ mem)) given _ _ rfl
    rw [Spec, List.flatMap_cons, Sketch.pieceTexts, if_neg (by rw [more]; exact Bool.false_ne_true)]
    exact loose_append (loose_text tidy added) rest
  | piecesValue head tail ih iht =>
    intro out s' same
    obtain ⟨_, rfl, rfl⟩ := Outcome.eq_ok_of_map same
    have own := ready _ List.mem_cons_self
    have rich₁ := rich_of_run tame.toInherits document head rich own given.left _ _ rfl
    rw [Spec, List.flatMap_cons]
    exact loose_append (ih tidy rich own given.left _ _ rfl) (iht (tidy_of_run head tidy) rich₁
      (fun v mem => ready v (List.mem_cons_of_mem _ mem)) given.right _ _ rfl)
  | valueText added =>
    intro out s' same
    cases same
    rw [Spec, Sketch.valueTexts]
    exact loose_text tidy added
  | valueMarkup read grafted =>
    intro out s' same
    cases same
    refine loose_graftAll tidy (fun h => plain h _ ready) (fun t mem c inside => ?_) grafted
    have within := Tree.mem_contents_of_mem_children mem inside
    have slotless := tame.markup ready read within
    cases c with
    | element e =>
      simpa [Content.isSlot, Content.element?] using slotless e rfl
    | root | text _ | comment _ | directive _ => rfl
  | valueComponent body taken ih =>
    intro out s' same
    cases same
    obtain ⟨f, rfl, made⟩ := ih tidy rich (fun e mem => tame.nested ready mem) given _ _ rfl
    exact loose_made (fun h => plain h _ ready) made taken
  | valueUnknown body added ih =>
    intro out s' same
    cases same
    obtain ⟨-, looks, size⟩ := ih tidy rich (fun e mem => tame.nested ready mem) given _ _ rfl
    exact loose_unknown looks size (loose_alloc (tidy_of_run body tidy) added
      fun h => (plain h _ ready).elim)
  | valueList all ih =>
    intro out s' same
    have items := ih tidy rich (fun v mem => tame.item ready mem) given _ _ same
    rw [Spec, Sketch.valueTexts]
    exact items
  | valuesNil =>
    intro out s' same
    cases same
    exact loose_nil
  | valuesCons head tail ih iht =>
    intro out s' same
    obtain ⟨_, rfl, rfl⟩ := Outcome.eq_ok_of_map same
    have own := ready _ List.mem_cons_self
    have rich₁ := rich_of_run tame.toInherits document head rich own given.left _ _ rfl
    rw [Spec, Sketch.itemTexts]
    exact loose_append (ih tidy rich own given.left _ _ rfl) (iht (tidy_of_run head tidy) rich₁
      (fun v mem => ready v (List.mem_cons_of_mem _ mem)) given.right _ _ rfl)
  | within all ih =>
    intro out s' same
    exact within_of_hosts (ih tidy rich trivial given _ _ same)
  | hostsNil =>
    intro out s' same
    cases same
    exact hosts_nil
  | hostsCons head tail ih iht =>
    intro out s' same
    have rich₁ := rich_of_run tame.toInherits document head rich trivial given.left _ _ rfl
    exact hosts_cons (ih tidy rich trivial given.left _ _ rfl)
      (iht (tidy_of_run head tidy) rich₁ trivial given.right _ _ same)
  | noHost absent =>
    intro out s' same
    exact host_missing absent
  | hostReplaced found body taken replaced ih =>
    intro out s' same
    cases same
    have hosted := ih tidy rich (fun _ mem => nomatch mem) given _ _ rfl
    exact host_of_create (hosted _ found rfl rfl) taken replaced
  | hostBottom found body ih =>
    intro out s' same
    exact host_bottom
  | hostKept found body inside ih iht =>
    intro out s' same
    have none : Values.All P [] := fun _ mem => nomatch mem
    obtain ⟨absent, looks, size⟩ := ih tidy rich none given.left _ _ rfl
    have rich₁ := rich_of_run tame.toInherits document body rich none given.left _ _ rfl
    exact host_of_within found absent looks size
      (iht (tidy_of_run body tidy) rich₁ trivial given.right _ _ same)
  | slotsNil =>
    intro out s' same
    cases same
    exact slots_nil
  | slotsGone outside tail ih =>
    intro out s' same
    exact slots_gone outside (ih tidy rich trivial given _ _ same)
  | slotsCons inside held content taken replaced tail ih iht =>
    intro out s' same
    have tidy₁ := (tidy_holdContent _ _ _).of_ok tidy held
    have rich₁ := (rich_holdContent _ _ _).of_ok rich held
    have rich₂ := rich_of_run tame.toInherits document content rich₁ trivial given.left _ _ rfl
    have tidy₃ := (tidy_replaceWith _ _).of_ok ((tidy_takeChildren _).of_ok
      (tidy_of_run content tidy₁) taken) replaced
    have rich₃ := (rich_modifyArena _).of_ok ((rich_takeChildren _).of_ok rich₂ taken) replaced
    exact slots_cons tidy inside held (ih tidy₁ rich₁ trivial given.left _ _ rfl) taken replaced
      (iht tidy₃ rich₃ trivial given.right _ _ same)

/-! ### Pages -/

theorem tidy_ofPage (page : Page) : Tidy (ofPage page) := by
  have empty : Arena.Linked ⟨#[]⟩ := by
    intro x p parent
    rw [Arena.parent?, Arena.node, Array.getD_eq_getD_getElem?] at parent
    simp at parent
  refine ⟨?_, fun _ mem => absurd mem List.not_mem_nil⟩
  have grafted := linked_graft empty page.document.tree
  rwa [Arena.graft, Array.empty_append] at grafted

theorem stands_ofPage (page : Page) :
    Stands (ofPage page) none (ofTree false Arena.root page.document.tree) :=
  have nodes : (ofPage page).arena.nodes =
      #[] ++ (page.document.tree.layout none Arena.root).toArray := Array.empty_append.symm
  stands_copy nodes rfl fun _ _ => rfl

/-- An expanded page has grown from the tree of the page, and nothing in it is left to expand outside
of slots. -/
theorem expands_grows (simple : Prop) {page : Page} {trace : List Instance} (tame : Value.Tame P)
    (document : Values.All P scene.document)
    (sound : ∀ id c, scene.library.component? id = some c → c.Sound)
    (silent : simple → ∀ id c, scene.library.component? id = some c → c.script = none)
    (plain : simple → ∀ v, P v → v.Plain) (run : Expands scene page trace (.ok () s))
    (given : GivenAll P trace) :
    ∃ cs, Grows scene simple maxDepth (ofPage page) s none
        (ofTree false Arena.root page.document.tree) cs ∧ Settled scene.library cs := by
  have within := spec_of_run tame document sound silent plain run (tidy_ofPage page)
    (fun _ mem => nomatch mem) trivial given () s rfl
  have once : (ofTree false Arena.root page.document.tree).ids.Nodup := nodup_ofTree _
  refine within _ none (stands_ofPage page) (id_ofTree _ _) once ?_
  have short := (stands_ofPage page).length_le once
  rw [ids_eq, List.length_cons] at short
  omega

end
end Stencil.Expansion
