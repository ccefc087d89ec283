import Stencil.Proofs.Expansion.Opening
/-!
Values in texts. The nodes of a value come without a place, and take the place of the text. Lists of
texts are read as those texts; markup and components are only known to bring no slot that could be
filled.
-/
namespace Stencil.Expansion
open Markup Branch

/-! ### Nodes of values -/

/-- A text as a node. -/
def textSketch {η : Type} (t : String) : Sketch η := .node (.text t) [] none []

/-- New branches without places. -/
structure Fresh (s s' : Expansion) (nodes : List NodeId) (bs : List Branch) : Prop where
  nodes : bs.map (·.id) = nodes
  stands : StandsAll s' none bs
  once : (idsAll bs).Nodup
  fresh : ∀ x ∈ idsAll bs, s.arena.size ≤ x
  framed : Framed s s' []

/-- New branches without places. In simple scenes they are texts. -/
structure Loose (simple : Prop) (s s' : Expansion) (nodes : List NodeId) (texts : List String)
    (bs : List Branch) : Prop where
  nodes : bs.map (·.id) = nodes
  stands : StandsAll s' none bs
  once : (idsAll bs).Nodup
  fresh : ∀ x ∈ idsAll bs, s.arena.size ≤ x
  bare : ∀ slot ∈ slots bs, BareSlot slot
  framed : Framed s s' []
  texts : simple → sketches bs = texts.map textSketch

def LooseSpec (simple : Prop) (s s' : Expansion) (nodes : List NodeId) (texts : List String) : Prop :=
  ∃ bs, Loose simple s s' nodes texts bs

section
variable {simple : Prop} {s s₁ s' : Expansion} {nodes nodes' : List NodeId}
  {texts texts' : List String} {bs cs : List Branch}

theorem fresh_nil : Fresh s s [] [] :=
  ⟨rfl, standsAll_nil, List.nodup_nil, fun _ mem => (nomatch mem), .refl s []⟩

theorem fresh_append (first : Fresh s s₁ nodes bs) (second : Fresh s₁ s' nodes' cs) :
    Fresh s s' (nodes ++ nodes') (bs ++ cs) := by
  have old : ∀ x ∈ idsAll bs, x ∉ idsAll cs := fun x mem inside =>
    Nat.not_le_of_lt (first.stands.lt mem) (second.fresh x inside)
  refine ⟨?_, ?_, ?_, fun x mem => ?_, first.framed.trans second.framed fun _ mem _ => mem⟩
  · rw [List.map_append, first.nodes, second.nodes]
  · exact standsAll_append.mpr
      ⟨second.framed.standsAll first.stands fun _ _ => List.not_mem_nil, second.stands⟩
  · rw [idsAll_append]
    exact List.nodup_append.mpr ⟨first.once, second.once, fun x mem y mem' same =>
      old x mem (same ▸ mem')⟩
  · rw [idsAll_append, List.mem_append] at mem
    exact mem.elim (first.fresh x) fun mem => Nat.le_trans first.framed.grown (second.fresh x mem)

theorem alloc_ok {c : Content} {node : NodeId} (run : (alloc c).run s = .ok node s') :
    node = s.arena.size ∧ s' = { s with arena := (s.arena.alloc c).2 } := by
  cases run
  exact ⟨rfl, rfl⟩

/-- A new node that has nothing below it. -/
theorem fresh_alloc {c : Content} {node : NodeId} (tidy : Tidy s)
    (run : (alloc c).run s = .ok node s') :
    Fresh s s' [node] [.node node ⟨c, [], false⟩ []] := by
  obtain ⟨rfl, rfl⟩ := alloc_ok run
  refine ⟨rfl, ?_, by simp [idsAll, ids], fun x mem => ?_, framed_alloc tidy c []⟩
  · rw [standsAll_singleton, stands_node]
    refine ⟨⟨by simp, ?_⟩, standsAll_nil⟩
    rw [look_alloc tidy, if_pos rfl]
    rfl
  · rw [idsAll_singleton, ids, idsAll, List.mem_singleton] at mem
    exact Nat.le_of_eq mem.symm

/-- A copy of a tree. -/
theorem fresh_graft (tidy : Tidy s) (t : Tree) : Fresh s
    { s with arena := (s.arena.graft t).2 } [s.arena.size] [ofTree false s.arena.size t] := by
  refine ⟨by rw [List.map_singleton, id_ofTree], ?_, ?_, fun x mem => ?_, ?_, fun x range _ => ?_⟩
  · rw [standsAll_singleton]
    exact stands_copy rfl rfl fun x low => tidy.fresh low
  · rw [idsAll_singleton]
    exact nodup_ofTree t
  · rw [idsAll_singleton, ids_ofTree, List.mem_range'_1] at mem
    exact mem.1
  · rw [Arena.size_graft]
    exact Nat.le_add_right _ _
  · rw [look, look]
    exact Prod.ext ((s.arena.node_graft t x).trans (if_pos range)) rfl

/-- What stands in a new branch. -/
theorem fresh_children {f : Branch} (stands : Stands s₁ none f) (once : f.ids.Nodup)
    (fresh : ∀ x ∈ f.ids, s.arena.size ≤ x) (framed : Framed s s₁ [])
    (taken : (takeChildren f.id).run s₁ = .ok nodes s') : Fresh s s' nodes f.children := by
  obtain ⟨listed, arena, rich⟩ := takeChildren_ok taken
  rw [stands.children_eq] at listed
  obtain ⟨free, -, others⟩ := stands_takeChildren stands once arena rich
  have size : s'.arena.size = s₁.arena.size := by rw [arena, Arena.size_takeChildren]
  refine ⟨listed.symm, free, nodup_children once, fun x mem => fresh x (mem_ids_of_children mem), ?_⟩
  have moved : Framed s₁ s' f.ids := ⟨Nat.le_of_eq size.symm, fun x _ out => others x out⟩
  exact framed.trans moved fun x mem range => absurd (fresh x mem) (Nat.not_le_of_lt range)

theorem Fresh.loose (new : Fresh s s' nodes bs) (bare : ∀ slot ∈ slots bs, BareSlot slot)
    (text : simple → sketches bs = texts.map textSketch) : LooseSpec simple s s' nodes texts :=
  ⟨bs, new.nodes, new.stands, new.once, new.fresh, bare, new.framed, text⟩

theorem Loose.isFresh (loose : Loose simple s s' nodes texts bs) : Fresh s s' nodes bs :=
  ⟨loose.nodes, loose.stands, loose.once, loose.fresh, loose.framed⟩

theorem loose_nil : LooseSpec simple s s [] [] :=
  fresh_nil.loose (fun _ mem => (nomatch mem)) fun _ => rfl

theorem loose_append (first : LooseSpec simple s s₁ nodes texts)
    (second : LooseSpec simple s₁ s' nodes' texts') :
    LooseSpec simple s s' (nodes ++ nodes') (texts ++ texts') := by
  obtain ⟨bs, first⟩ := first
  obtain ⟨cs, second⟩ := second
  refine (fresh_append first.isFresh second.isFresh).loose (fun slot mem => ?_) fun h => ?_
  · rw [slots_append, List.mem_append] at mem
    exact mem.elim (first.bare slot) (second.bare slot)
  · rw [sketches_append, first.texts h, second.texts h, List.map_append]

/-- A new node that has nothing below it. -/
theorem loose_alloc {c : Content} {node : NodeId} (tidy : Tidy s)
    (run : (alloc c).run s = .ok node s')
    (text : simple → sketches [.node node ⟨c, [], false⟩ []] = texts.map textSketch) :
    LooseSpec simple s s' [node] texts := by
  refine (fresh_alloc tidy run).loose (fun slot mem => ?_) text
  obtain ⟨sub, here, -, rfl⟩ := mem_slots.mp mem
  obtain rfl : sub = _ := by simpa [subsAll, subs] using here
  exact ⟨rfl, rfl⟩

theorem loose_text {t : String} {node : NodeId} (tidy : Tidy s)
    (run : (alloc (.text t)).run s = .ok node s') : LooseSpec simple s s' [node] [t] :=
  loose_alloc tidy run fun _ => rfl

/-- A copy of a tree without slots. -/
theorem loose_graft {t : Tree} (tidy : Tidy s) (complex : ¬simple)
    (slotless : ∀ c ∈ t.contents, c.isSlot = false) :
    LooseSpec simple s { s with arena := (s.arena.graft t).2 } [s.arena.size] texts := by
  refine (fresh_graft tidy t).loose (fun slot mem => ?_) fun h => absurd h complex
  obtain ⟨sub, here, is_slot, rfl⟩ := mem_slots.mp mem
  rw [subsAll, subsAll, List.append_nil] at here
  rw [slotless _ (content_of_mem_ofTree here)] at is_slot
  cases is_slot

theorem loose_graftAll {ts : List Tree} (tidy : Tidy s) (complex : ¬simple)
    (slotless : ∀ t ∈ ts, ∀ c ∈ t.contents, c.isSlot = false)
    (run : (graftAll ts).run s = .ok nodes s') : LooseSpec simple s s' nodes texts := by
  induction ts generalizing s nodes texts with
  | nil =>
    cases run
    obtain ⟨bs, loose⟩ : LooseSpec simple s' s' [] [] := loose_nil
    exact ⟨bs, { loose with texts := fun h => absurd h complex }⟩
  | cons t ts ih =>
    rw [graftAll, List.mapM_cons] at run
    obtain ⟨node, s₁, grafted, rest⟩ := eq_ok_of_bind run
    obtain ⟨more, s₂, others, last⟩ := eq_ok_of_bind rest
    cases grafted
    cases last
    rw [List.forall_mem_cons] at slotless
    have first : LooseSpec simple s _ [_] [] := loose_graft tidy complex slotless.1
    exact loose_append first (ih (tidy.graft t) slotless.2 others)

/-- The nodes of an instance without a host. -/
theorem loose_made {scene : Scene} {f : Branch} (complex : ¬simple)
    (made : Made scene s s₁ [] [] f) (taken : (takeChildren f.id).run s₁ = .ok nodes s') :
    LooseSpec simple s s' nodes texts := by
  have fresh : ∀ x ∈ f.ids, s.arena.size ≤ x := by
    intro x mem
    rw [ids_eq, List.mem_cons] at mem
    rcases mem with rfl | mem
    · exact made.fresh
    · exact (mem_ids_of_comes made.comes mem).resolve_left List.not_mem_nil
  exact (fresh_children made.stands made.once fresh made.framed taken).loose
    (fun slot mem => (made.slots slot mem).resolve_left List.not_mem_nil) fun h => absurd h complex

end
/-! ### Nodes in the place of a text -/

section
variable {s s' : Expansion} {values : Values} {work : Work} {x : NodeId} {bs new : List Branch}
  {site : TextSite} {rest : List TextSite} {texts : List String}

/-- Texts on which no work is left. -/
theorem finishAll_texts (raw : Bool) (plain : sketches new = texts.map textSketch)
    (out : ∀ y ∈ idsAll new, ∀ site ∈ work.texts, site.node ≠ y) :
    finishAll values work raw new = texts.map textSketch := by
  induction new generalizing texts with
  | nil => exact plain
  | cons b new ih =>
    cases texts with
    | nil => cases plain
    | cons t texts =>
      rw [sketches, List.map_cons, List.cons.injEq] at plain
      rw [idsAll, List.forall_mem_append] at out
      rw [finishAll, List.map_cons, ih plain.2 out.2]
      cases b with
      | node i stem cs =>
        have own := plain.1
        rw [sketch, textSketch] at own
        injection own with content rich _ kids
        have none : work.texts.filter (·.node = i) = [] :=
          List.filter_eq_nil_iff.mpr fun site mem => by simpa using out.1 i id_mem_ids site mem
        have leaf : cs = [] := by
          cases cs with
          | nil => rfl
          | cons c cs => cases kids
        rw [finish, content, leaf]
        dsimp only
        rw [none, rich]
        rfl

/-- Texts below the node are taken as they are. -/
def rawBelow (a : Arena) (p : Option NodeId) : Bool :=
  (p.bind a.element?).any fun e => rawParents.contains e.name

theorem rawBelow_eq {p : Option NodeId} {b : Branch} (stands : Stands s p b) :
    isRaw s.arena b.id = rawBelow s.arena p := by
  rw [isRaw, rawBelow, stands.parent?]

/-- Branches are what the first text that is left becomes. -/
structure Becomes (s : Expansion) (values : Values) (work : Work) (site : TextSite)
    (rest : List TextSite) (new : List Branch) : Prop where
  todo : work.texts = site :: rest
  text : (s.arena.text? site.node).isSome
  here : finishAll values { work with texts := rest } (isRaw s.arena site.node) new =
    (Sketch.fillTokens values site.tokens (isRaw s.arena site.node)
      ((s.arena.text? site.node).getD "")).map textSketch

mutual

/-- The nodes that take the place of a text are what the text becomes. -/
theorem finish_splice (becomes : Becomes s values work site rest new) (b : Branch)
    {p : Option NodeId} (stands : Stands s p b) :
    finishAll values { work with texts := rest } (rawBelow s.arena p) (splice site.node new b) =
      b.finish values work (rawBelow s.arena p) := by
  cases b with
  | node i stem bs =>
    have content : s.arena.content i = stem.content := stands.content
    rw [splice]
    split
    · next own =>
      have raw : isRaw s.arena i = rawBelow s.arena p := rawBelow_eq stands
      have here := becomes.here
      have text := becomes.text
      rw [← own, raw] at here
      rw [← own] at text
      rw [here, finish]
      rw [Arena.text?, content] at text ⊢
      cases found : stem.content with
      | text t =>
        have first : work.texts.filter (·.node = i) = site :: rest.filter (·.node = i) := by
          rw [becomes.todo, List.filter_cons_of_pos (by simpa using own.symm)]
        dsimp only
        rw [first]
        rfl
      | element _ | root | comment _ | directive _ =>
        rw [found] at text
        cases text
    · next other =>
      have below := finishAll_splice becomes bs stands.children
      have others : rest.filter (·.node = i) = work.texts.filter (·.node = i) := by
        rw [becomes.todo, List.filter_cons_of_neg (by simpa using Ne.symm other)]
      have flag : rawBelow s.arena (some i) =
          stem.content.element?.any fun e => rawParents.contains e.name := by
        rw [rawBelow, Option.bind_some, Arena.element?, content]
      rw [Branch.id, flag] at below
      rw [finishAll, finishAll, List.append_nil, finish, finish]
      dsimp only
      cases found : stem.content with
      | element e =>
        rw [found] at below
        exact congrArg (fun ts => [Sketch.node _ _ _ ts]) below
      | text t =>
        rw [found] at below
        dsimp only
        rw [others]
        split
        · exact congrArg (fun ts => [Sketch.node _ _ _ ts]) below
        · rfl
      | root | comment _ | directive _ =>
        rw [found] at below
        exact congrArg (fun ts => [Sketch.node _ _ _ ts]) below

theorem finishAll_splice (becomes : Becomes s values work site rest new) (bs : List Branch)
    {p : Option NodeId} (stands : StandsAll s p bs) :
    finishAll values { work with texts := rest } (rawBelow s.arena p) (spliceAll site.node new bs) =
      finishAll values work (rawBelow s.arena p) bs := by
  cases bs with
  | nil => rfl
  | cons b bs =>
    obtain ⟨head, tail⟩ := standsAll_cons.mp stands
    rw [spliceAll, finishAll_append, finish_splice becomes b head, finishAll_splice becomes bs tail,
      finishAll]

end
end

/-! ### Texts of an instance -/

section
variable {s s₁ s' : Expansion} {f : Branch} {x first last : NodeId} {pending : List NodeId}
  {new bs : List Branch} {work : Work} {site : TextSite} {rest : List TextSite} {values : Values}

mutual

/-- A splice at a node that has nothing below it keeps the other nodes. -/
theorem mem_subs_splice_of_ne {sub : Branch} (b : Branch)
    (leaf : ∀ old ∈ b.subs, old.id = x → old.children = []) (mem : sub ∈ b.subs) (other : sub.id ≠ x) :
    .node sub.id sub.stem (spliceAll x new sub.children) ∈ subsAll (splice x new b) := by
  cases b with
  | node i stem bs =>
    rw [subs, List.forall_mem_cons] at leaf
    rw [splice]
    rw [subs, List.mem_cons] at mem
    split
    · next own =>
      have none : bs = [] := leaf.1 own
      rcases mem with rfl | mem
      · exact absurd own other
      · rw [none] at mem
        cases mem
    · rw [subsAll, subsAll, List.append_nil, subs]
      rcases mem with rfl | mem
      · exact List.mem_cons_self
      · exact List.mem_cons_of_mem _ (mem_subsAll_splice_of_ne bs leaf.2 mem other)

theorem mem_subsAll_splice_of_ne {sub : Branch} (bs : List Branch)
    (leaf : ∀ old ∈ subsAll bs, old.id = x → old.children = []) (mem : sub ∈ subsAll bs)
    (other : sub.id ≠ x) :
    .node sub.id sub.stem (spliceAll x new sub.children) ∈ subsAll (spliceAll x new bs) := by
  cases bs with
  | nil => cases mem
  | cons b bs =>
    rw [subsAll, List.forall_mem_append] at leaf
    rw [spliceAll, subsAll_append, List.mem_append]
    exact (List.mem_append.mp mem).imp (mem_subs_splice_of_ne b leaf.1 · other)
      (mem_subsAll_splice_of_ne bs leaf.2 · other)

end

/-- Branches have taken the place of a node. They keep the number of the node or have new ones. -/
structure Swapped (s s' : Expansion) (f : Branch) (x : NodeId) (new : List Branch) : Prop where
  stands : Stands s' none (.node f.id f.stem (spliceAll x new f.children))
  framed : Framed s s' f.ids
  once : (idsAll new).Nodup
  ids : ∀ y ∈ idsAll new, y = x ∨ s.arena.size ≤ y

theorem Swapped.turns {sub : Branch} {p : Option NodeId} (swapped : Swapped s s' f sub.id new)
    (stands : Stands s p f) (once : f.ids.Nodup) (part : sub ∈ subsAll f.children) :
    Turns s s' none f (spliceAll sub.id new f.children) :=
  turns_splice swapped.stands once swapped.once part
    (fun y mem => (swapped.ids y mem).imp_left fun own => by rw [own]; exact id_mem_ids)
    (fun y mem => stands.lt mem) swapped.framed

/-- Another text is written into a node. -/
theorem swapped_written {sub : Branch} {text : String} (stands : Stands s none f)
    (once : f.ids.Nodup) (part : sub ∈ subsAll f.children) (leaf : sub.children = [])
    (written : (modifyArena (·.setContent sub.id (.text text))).run s = .ok () s') :
    Swapped s s' f sub.id [.node sub.id ⟨.text text, sub.stem.rich, sub.stem.own⟩ []] := by
  obtain ⟨arena, rich⟩ := modifyArena_ok written
  have here := stands.children.sub_parent part
  have size : s'.arena.size = s.arena.size := by rw [arena, Arena.size_setContent]
  have looks : ∀ y, y ≠ sub.id → s'.look y = s.look y := by
    intro y other
    rw [look, look, arena, rich, Arena.node_setContent, if_neg fun both => other both.1]
  have range := here.lt id_mem_ids
  have node : Stands s' (s.arena.parent? sub.id)
      (.node sub.id ⟨.text text, sub.stem.rich, sub.stem.own⟩ []) := by
    refine stands_node.mpr ⟨⟨size ▸ range, ?_⟩, standsAll_nil⟩
    have before := here.look_eq
    rw [leaf] at before
    have node : s.arena.node sub.id = _ := congrArg (·.1) before
    rw [look, arena, rich, Arena.node_setContent, if_pos ⟨rfl, range⟩, node]
    exact Prod.ext rfl (congrArg (·.2) before)
  have placed := stands_update stands once part node fun y mem out =>
    ⟨size ▸ stands.lt mem, looks y fun own => out (own ▸ id_mem_ids)⟩
  refine ⟨placed, ⟨Nat.le_of_eq size.symm, fun y _ out => looks y fun own => ?_⟩,
    by simp [idsAll, ids], fun y mem => ?_⟩
  · exact out (own ▸ mem_ids_of_children (id_mem_idsAll part))
  · rw [idsAll_singleton, ids, idsAll, List.mem_singleton] at mem
    exact .inl mem

/-- New branches take the place of a node. -/
theorem swapped_fresh {sub : Branch} {s₁ : Expansion} (stands : Stands s none f)
    (once : f.ids.Nodup) (part : sub ∈ subsAll f.children) (free : StandsAll s₁ none new)
    (new_once : (idsAll new).Nodup) (fresh : ∀ y ∈ idsAll new, s.arena.size ≤ y)
    (framed : Framed s s₁ [])
    (replaced : (modifyArena (·.replaceWith sub.id (new.map (·.id)))).run s₁ = .ok () s') :
    Swapped s s' f sub.id new := by
  obtain ⟨arena, rich⟩ := modifyArena_ok replaced
  have still := framed.stands stands fun _ _ => List.not_mem_nil
  obtain ⟨placed, others⟩ := stands_replaceWith still once (id_mem_idsAll part) free new_once
    (fun y mem inside => Nat.not_le_of_lt (stands.lt inside) (fresh y mem)) arena rich
  have size : s'.arena.size = s₁.arena.size := by rw [arena, Arena.size_replaceWith]
  have last : Framed s₁ s' (f.ids ++ idsAll new) :=
    ⟨Nat.le_of_eq size.symm, fun y _ out => by
      rw [List.mem_append, not_or] at out
      exact others y out.1 fun listed => out.2 (mem_map_id listed)⟩
  refine ⟨placed, (framed.mono fun _ mem => (nomatch mem)).trans last fun y mem range => ?_,
    new_once, fun y mem => .inr (fresh y mem)⟩
  exact (List.mem_append.mp mem).resolve_right fun mem => Nat.not_le_of_lt range (fresh y mem)

/-- Branches have taken the place of a node. They keep the number of the node or have new ones, and
nothing of the instance stands below them. -/
structure Replaced (s s' : Expansion) (f : Branch) (x : NodeId) (new : List Branch) : Prop where
  stands : Stands s' none (.node f.id f.stem (spliceAll x new f.children))
  framed : Framed s s' f.ids
  once : (idsAll new).Nodup
  ids : ∀ y ∈ idsAll new, y = x ∨ s.arena.size ≤ y
  below : ∀ sub ∈ subsAll new, ∀ y ∈ idsAll sub.children, s.arena.size ≤ y
  bare : ∀ slot ∈ slots new, BareSlot slot

/-- An instance stays ready when a text in it is replaced. -/
theorem Prepared.replace {t : String} {sub : Branch} (prepared : Prepared s first last pending f)
    (part : sub ∈ subsAll f.children) (text : sub.stem.content = .text t)
    (replaced : Replaced s s' f sub.id new) :
    Prepared s' first last pending (.node f.id f.stem (spliceAll sub.id new f.children)) := by
  have turns := Swapped.turns ⟨replaced.stands, replaced.framed, replaced.once, replaced.ids⟩
    prepared.stands prepared.once part
  refine ⟨turns.stands, turns.once, prepared.id, prepared.root, fun y mem => ?_,
    fun deep mem listed => ?_, fun slot mem => ?_, fun deep mem y inside range => ?_, prepared.known,
    Nat.le_trans prepared.grown replaced.framed.grown⟩
  · have least : first ≤ s.arena.size :=
      Nat.le_of_lt (prepared.id ▸ prepared.stands.lt (x := f.id) id_mem_ids)
    rcases List.mem_cons.mp mem with rfl | mem
    · exact prepared.low _ id_mem_ids
    · exact (turns.ids y mem).elim (fun mem => prepared.low y (mem_ids_of_children mem))
        (Nat.le_trans least)
  · rcases mem_subsAll_splice _ mem with ⟨older, here, same, stem, -⟩ | mem
    · rw [← stem]
      exact prepared.own older here (same ▸ listed)
    · -- the text is none of the slots that are left to fill
      rcases replaced.ids deep.id (id_mem_idsAll mem) with same | fresh
      · have slot := (prepared.own sub part (same ▸ listed)).1
        rw [text] at slot
        cases slot
      · have range := Nat.lt_of_lt_of_le (prepared.known _ listed) prepared.grown
        exact absurd fresh (Nat.not_le_of_lt range)
  · obtain ⟨deep, here, is_slot, rfl⟩ := mem_slots.mp mem
    rcases mem_subsAll_splice _ here with ⟨older, there, same, stem, kids⟩ | here
    · have before := prepared.slots _ (mem_slots.mpr ⟨older, there, by rwa [stem], rfl⟩)
      rw [← same]
      refine before.imp_right fun bare => ⟨stem ▸ bare.1, ?_⟩
      rw [kids, show older.children = [] from bare.2, spliceAll]
    · exact .inr (replaced.bare _ (mem_slots.mpr ⟨deep, here, is_slot, rfl⟩))
  · have late : y < s.arena.size := Nat.lt_of_lt_of_le range prepared.grown
    rcases mem_subsAll_splice _ mem with ⟨older, there, same, -, kids⟩ | mem
    · rw [← same]
      rw [kids] at inside
      by_cases here : sub.id ∈ idsAll older.children
      · rcases mem_idsAll_splice _ inside with inside | inside
        · exact prepared.order older there y (mem_idsAll_of_idsButAll _ inside) range
        · obtain rfl := (replaced.ids y inside).resolve_right (Nat.not_le_of_lt late)
          exact prepared.order older there sub.id here range
      · rw [spliceAll_of_not_mem _ here] at inside
        exact prepared.order older there y inside range
    · exact absurd (replaced.below deep mem y inside) (Nat.not_le_of_lt late)

/-- The other nodes are still there to work on. -/
theorem Workable.replace {sub : Branch} (workable : Workable f work) (once : f.ids.Nodup)
    (part : sub ∈ subsAll f.children) (leaf : sub.children = []) {t : String}
    (text : sub.stem.content = .text t) (done : work.attributes = [])
    (todo : work.texts = site :: rest) (same : sub.id = site.node) :
    Workable (.node f.id f.stem (spliceAll sub.id new f.children)) { work with texts := rest } := by
  have once' := nodup_children once
  have leaf' : ∀ old ∈ subsAll f.children, old.id = sub.id → old.children = [] := by
    intro old mem same
    rw [eq_of_id_eq once' mem part same]
    exact leaf
  have distinct := workable.once
  rw [todo, List.map_cons, List.nodup_cons] at distinct
  refine ⟨fun site mem => ?_, fun y mem => ?_, fun site' mem => ?_, distinct.2⟩
  · rw [done] at mem
    cases mem
  · obtain ⟨old, here, rfl, none⟩ := workable.refs y mem
    have other : old.id ≠ sub.id := by
      intro same
      rw [eq_of_id_eq once' here part same, text] at none
      cases none
    exact ⟨_, mem_subsAll_splice_of_ne _ leaf' here other, rfl, none⟩
  · obtain ⟨old, here, there, old_leaf, old_text⟩ :=
      workable.texts site' (todo ▸ List.mem_cons_of_mem _ mem)
    have other : old.id ≠ sub.id := by
      rw [there, same]
      exact fun again => distinct.1 (List.mem_map.mpr ⟨site', mem, again⟩)
    refine ⟨_, mem_subsAll_splice_of_ne _ leaf' here other, there, ?_, old_text⟩
    rw [old_leaf]
    rfl

/-- Values have been put into the first text that is left. -/
def TextSpec (simple : Prop) (values : Values) (site : TextSite) (s s' : Expansion) : Prop :=
  ∀ first last pending f work rest, Prepared s first last pending f → Workable f work →
    work.attributes = [] → work.texts = site :: rest →
    ∃ f', Worked s s' first last pending f { work with texts := rest } f' ∧
      (simple → finishAll values { work with texts := rest } false f'.children =
        finishAll values work false f.children)

/-- Values have been put into all texts that are left. -/
def TextsSpec (simple : Prop) (values : Values) (sites : List TextSite) (s s' : Expansion) : Prop :=
  ∀ first last pending f work, Prepared s first last pending f → Workable f work →
    work.attributes = [] → work.texts = sites →
    ∃ f', Worked s s' first last pending f { work with texts := [] } f' ∧
      (simple → finishAll values { work with texts := [] } false f'.children =
        finishAll values work false f.children)

variable {simple : Prop}

theorem texts_nil : TextsSpec simple values [] s s := by
  intro first last pending f work prepared workable done todo
  have same : { work with texts := [] } = work := by rw [← todo]
  exact ⟨f, ⟨prepared, same ▸ workable, .refl _ _, fun _ mem => .inl mem⟩, fun _ => by rw [same]⟩

theorem texts_cons (head : TextSpec simple values site s s₁)
    (tail : TextsSpec simple values rest s₁ s') : TextsSpec simple values (site :: rest) s s' := by
  intro first last pending f work prepared workable done todo
  obtain ⟨f₁, worked, same⟩ := head first last pending f work rest prepared workable done todo
  obtain ⟨f', worked', same'⟩ := tail first last pending f₁ { work with texts := rest }
    worked.prepared worked.workable done rfl
  exact ⟨f', worked.trans worked', fun h => (same' h).trans (same h)⟩

/-- What takes the place of a text is what the text becomes. -/
theorem worked_text {sub : Branch} (prepared : Prepared s first last pending f)
    (workable : Workable f work) (done : work.attributes = []) (todo : work.texts = site :: rest)
    (part : sub ∈ subsAll f.children) (same : sub.id = site.node) (replaced : Replaced s s' f sub.id new)
    {t : String} (text : sub.stem.content = .text t)
    (becomes : simple → sketches new =
      (Sketch.fillTokens values site.tokens (isRaw s.arena site.node) t).map textSketch) :
    ∃ f', Worked s s' first last pending f { work with texts := rest } f' ∧
      (simple → finishAll values { work with texts := rest } false f'.children =
        finishAll values work false f.children) := by
  have once := nodup_children prepared.once
  have leaf : sub.children = [] := by
    obtain ⟨old, here, there, leaf, -⟩ := workable.texts site (todo ▸ List.mem_cons_self)
    rwa [eq_of_id_eq once part here (same.trans there.symm)]
  refine ⟨_, ⟨prepared.replace part text replaced,
    workable.replace prepared.once part leaf text done todo same, replaced.framed, fun y mem => ?_⟩,
    fun h => ?_⟩
  · rcases List.mem_cons.mp mem with rfl | mem
    · exact .inl id_mem_ids
    · rcases mem_idsAll_splice _ mem with mem | mem
      · exact .inl (mem_ids_of_children (mem_idsAll_of_idsButAll _ mem))
      · refine (replaced.ids y mem).imp_left fun own => ?_
        rw [own]
        exact mem_ids_of_children (id_mem_idsAll part)
  · -- no work is left on the new nodes
    have out : ∀ y ∈ idsAll new, ∀ other ∈ rest, other.node ≠ y := by
      intro y mem other listed own
      have distinct := workable.once
      rw [todo, List.map_cons, List.nodup_cons] at distinct
      rcases replaced.ids y mem with here | fresh
      · exact distinct.1 (List.mem_map.mpr ⟨other, listed, own.trans (here.trans same)⟩)
      · obtain ⟨old, here, there, -⟩ := workable.texts other (todo ▸ List.mem_cons_of_mem _ listed)
        have range := prepared.stands.lt (mem_ids_of_children (id_mem_idsAll here))
        rw [there, own] at range
        exact Nat.not_le_of_lt range fresh
    have content : s.arena.text? site.node = some t := by
      rw [Arena.text?, ← same, (prepared.stands.children.sub_parent part).content, text]
      rfl
    have below : rawBelow s.arena (some f.id) = false := by
      rw [rawBelow, Option.bind_some, Arena.element?, prepared.stands.content, prepared.root]
      rfl
    have here : finishAll values { work with texts := rest } (isRaw s.arena site.node) new = _ :=
      finishAll_texts _ (becomes h) out
    have spliced := finishAll_splice (s := s)
      ⟨todo, by rw [content]; rfl, by rw [here, content]; rfl⟩ f.children prepared.stands.children
    rwa [below, ← same] at spliced

/-- The first text that is left, in the instance. -/
theorem exists_text (workable : Workable f work) (todo : work.texts = site :: rest) :
    ∃ sub ∈ subsAll f.children, sub.id = site.node ∧ sub.children = [] ∧ sub.stem.rich = [] ∧
      ∃ t, sub.stem.content = .text t :=
  workable.texts site (todo ▸ List.mem_cons_self)

theorem text_none (absent : s.arena.text? site.node = none) : TextSpec simple values site s s' := by
  intro first last pending f work rest prepared workable done todo
  obtain ⟨sub, part, same, -, -, t, text⟩ := exists_text workable todo
  rw [Arena.text?, ← same, (prepared.stands.children.sub_parent part).content, text] at absent
  cases absent

theorem text_plain {raw : String} (found : s.arena.text? site.node = some raw)
    (plain : (pieces values site.tokens raw.toList).all
      (·.isPlain (isRaw s.arena site.node)) = true)
    (written : (modifyArena (·.setContent site.node (.text (String.join
      ((pieces values site.tokens raw.toList).map
        (·.text (isRaw s.arena site.node))))))).run s = .ok () s') :
    TextSpec simple values site s s' := by
  intro first last pending f work rest prepared workable done todo
  obtain ⟨sub, part, same, leaf, bare, t, text⟩ := exists_text workable todo
  have here := prepared.stands.children.sub_parent part
  have content : s.arena.text? sub.id = some t := by
    rw [Arena.text?, here.content, text]
    rfl
  obtain rfl : t = raw := by
    rw [← same, content] at found
    exact Option.some.inj found
  rw [← same] at written
  generalize joined : String.join ((pieces values site.tokens t.toList).map
    (·.text (isRaw s.arena sub.id))) = filled at written
  have swapped := swapped_written prepared.stands prepared.once part leaf written
  have replaced : Replaced s s' f sub.id
      [.node sub.id ⟨.text filled, sub.stem.rich, sub.stem.own⟩ []] := by
    refine ⟨swapped.stands, swapped.framed, swapped.once, swapped.ids, fun deep mem y inside => ?_,
      fun slot mem => ?_⟩
    · obtain rfl : deep = _ := by simpa [subsAll, subs] using mem
      cases inside
    · obtain ⟨deep, inside, is_slot, rfl⟩ := mem_slots.mp mem
      obtain rfl : deep = _ := by simpa [subsAll, subs] using inside
      cases is_slot
  refine worked_text prepared workable done todo part same replaced text fun _ => ?_
  rw [Sketch.fillTokens, if_pos plain, ← same, joined]
  simp [sketches, sketch, textSketch, bare, Content.isSlot, Content.element?]

theorem text_rich {raw : String} {nodes : List NodeId} (found : s.arena.text? site.node = some raw)
    (rich : (pieces values site.tokens raw.toList).all
      (·.isPlain (isRaw s.arena site.node)) = false)
    (placed : LooseSpec simple s s₁ nodes
      ((pieces values site.tokens raw.toList).flatMap Sketch.pieceTexts))
    (replaced : (modifyArena (·.replaceWith site.node nodes)).run s₁ = .ok () s') :
    TextSpec simple values site s s' := by
  intro first last pending f work rest prepared workable done todo
  obtain ⟨sub, part, same, leaf, -, t, text⟩ := exists_text workable todo
  have content : s.arena.text? sub.id = some t := by
    rw [Arena.text?, (prepared.stands.children.sub_parent part).content, text]
    rfl
  obtain rfl : t = raw := by
    rw [← same, content] at found
    exact Option.some.inj found
  obtain ⟨new, loose⟩ := placed
  rw [← loose.nodes, ← same] at replaced
  have swapped := swapped_fresh prepared.stands prepared.once part loose.stands loose.once loose.fresh
    loose.framed replaced
  refine worked_text prepared workable done todo part same ⟨swapped.stands, swapped.framed,
    swapped.once, swapped.ids,
    fun deep mem y inside => loose.fresh y (ids_subset mem (mem_ids_of_children inside)),
    loose.bare⟩ text fun h => ?_
  rw [loose.texts h, Sketch.fillTokens, if_neg (by rw [rich]; exact Bool.false_ne_true)]

end

end Stencil.Expansion
