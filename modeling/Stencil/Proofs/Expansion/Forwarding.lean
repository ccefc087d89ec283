import Stencil.Proofs.Expansion.Keeping
import Stencil.Proofs.Expansion.Offering
import Stencil.Proofs.Expansion.Rewritten
/-!
Values that instances hand on. An element of an instance keeps the value that it has been given for
one of its attributes, wherever it is moved and whatever is expanded before it, until an instance takes
its place and gets the value. So a value is handed on unchanged through any number of levels.
-/
namespace Stencil
open Markup

namespace Expansion
open Branch

/-! ### An element of a copy -/

section
variable {scene : Scene} {s s' : Expansion} {c : Component} {o : Opened} {context : String}
  {host : Option NodeId} {extra values : Values} {e : Element} {n k : NodeId}

/-- Values are put into the attributes of an element one after the other. -/
theorem filled_of_attributes {sites : List AttributeSite} (start : s.arena.content n = .element e)
    (run : (sites.forM (substituteAttribute values)).run s = .ok () s') :
    s'.arena.content n = .element ((sites.filter (·.node = n)).foldl
        (Sketch.fillSite richValue? values) (e, (s.look n).2)).1 ∧
      (s'.look n).2 = ((sites.filter (·.node = n)).foldl
        (Sketch.fillSite richValue? values) (e, (s.look n).2)).2 := by
  induction sites generalizing s e with
  | nil =>
    cases run
    exact ⟨start, rfl⟩
  | cons site rest ih =>
    change (substituteAttribute values site >>= fun _ =>
      rest.forM (substituteAttribute values)).run s = .ok () s' at run
    obtain ⟨_, s₁, first, tail⟩ := eq_ok_of_bind run
    have touches := touches_substituteAttribute first
    by_cases own : n = site.node
    · have here : s₁.arena.content n = _ := touches.content n
      have rich : (s₁.look n).2 = _ := congrArg (·.2) (touches.look n)
      rw [if_pos own, start] at here
      rw [if_pos own, start] at rich
      rw [List.filter_cons_of_pos (by simpa using own.symm), List.foldl_cons]
      have later := ih here tail
      rwa [rich] at later
    · have here : s₁.arena.content n = _ := touches.content n
      rw [if_neg own, start] at here
      have rich : (s₁.look n).2 = (s.look n).2 := by rw [touches.look, if_neg own]
      have later := ih here tail
      rwa [rich, ← List.filter_cons_of_neg (by simpa using Ne.symm own)] at later

/-- An element of a copy is that of the component with values in its attributes. Nothing has waited
beside it before. -/
theorem filled_of_opened (sound : c.Sound) (tidy : Tidy s)
    (opened : (openInstance scene c context host extra).run s = .ok o s')
    (found : c.document.tree.contents[k]? = some (.element e)) :
    s'.arena.content (o.fragment + k) = .element (valued o.values (o.fragment + k) e).1 ∧
      (s'.look (o.fragment + k)).2 = (valued o.values (o.fragment + k) e).2 := by
  obtain ⟨own, s₁, s₂, received, -, fragment, sites, computed, filled⟩ := openInstance_ok opened
  have tidy₁ := (tidy_receive scene host).of_ok tidy received
  obtain ⟨arena, rich⟩ := compute_same computed
  have fragment : o.fragment = s₁.arena.size := fragment
  have start : s₂.arena.content (o.fragment + k) = .element e := by
    rw [arena, fragment]
    exact Arena.content_graft _ found
  have fresh : (s₂.look (o.fragment + k)).2 = [] := by
    have absent := tidy₁.fresh (x := o.fragment + k) (by rw [fragment]; exact Nat.le_add_right _ _)
    rw [look, rich]
    dsimp only
    rw [absent]
    rfl
  have told : o.sites.attributes.filter (·.node = o.fragment + k) =
      Sites.ofAttributes (o.fragment + k) e := by
    rw [sites, fragment]
    exact (Sites.tells_of_numbered (Sites.ofNumbered_shift sound.sites s₁.arena.size)
      (nodup_numbered_copy s₁ c) (Sites.mem_numbered_add s₁.arena.size found)).attributes
  have done := filled_of_attributes start filled
  rwa [told, fresh] at done

end

/-! ### Calls that are led to -/

section
variable {scene : Scene} {good : NodeId → Values → Prop} {call call' : Call} {s s' : Expansion}

theorem size_le_of_enters (enters : Enters scene (call, s) (call', s')) :
    s.arena.size ≤ s'.arena.size := by
  refine size_le_of_lasts fun lasts => (lasts_of_enters (fun _ _ _ => trivial) enters ?_ lasts).2
  cases call with
  | texts => exact fun _ _ _ _ => trivial
  | text => exact fun _ _ => trivial
  | _ => trivial

/-- What a call works on, and what waits beside its nodes, is there for the calls that it leads to. -/
theorem reaches_of_leads {p q : Call × Expansion}
    (sound : ∀ id c, scene.library.component? id = some c → c.Sound) (leads : Leads scene p q)
    (tidy : Tidy p.2) (fresh : ∀ y r, p.2.arena.size ≤ y → good y r) (reaches : p.1.Reaches good p.2) :
    Tidy q.2 ∧ p.2.arena.size ≤ q.2.arena.size ∧ q.1.Reaches good q.2 := by
  induction leads with
  | refl => exact ⟨tidy, Nat.le_refl _, reaches⟩
  | tail _ enters ih =>
    obtain ⟨tidy, grown, reaches⟩ := ih
    exact ⟨tidy_of_enters enters tidy, Nat.le_trans grown (size_le_of_enters enters),
      reaches_of_enters sound tidy (fun y r late => fresh y r (Nat.le_trans grown late)) reaches
        enters⟩

theorem lasts_of_leads {kept : NodeId → Prop} {fits : NodeId → Content → Prop} {p q : Call × Expansion}
    (lasting : Lasting fits) (leads : Leads scene p q) (spares : p.1.Spares kept fits)
    (lasts : Lasts kept fits p.2) : q.1.Spares kept fits ∧ Lasts kept fits q.2 := by
  induction leads with
  | refl => exact ⟨spares, lasts⟩
  | tail _ enters ih => exact lasts_of_enters lasting enters ih.1 ih.2

theorem reaches_page {page : Page} (scene : Scene) :
    (pageCall scene page).Reaches (fun _ _ => True) (ofPage page) :=
  ⟨ofTree false Arena.root page.document.tree,
    ⟨⟨none, stands_ofPage page⟩, id_ofTree _ _, nodup_ofTree _⟩, fun _ _ => trivial⟩

end

/-! ### What an instance hands on -/

/-- An element that offers a value under a name. -/
def Carries (a : String) (v : Value) (c : Content) : Prop := ∃ e, c = .element e ∧ Offers e a v

section
variable {a : String} {v : Value}

theorem lasting_carries (other : a ≠ "slot") : Lasting fun _ => Carries a v := by
  rintro - e ⟨_, same, offers⟩
  cases same
  exact ⟨_, rfl, offers.eraseAttr (Ne.symm other)⟩

/-- The name of an attribute that is read from a file is no alias. -/
theorem not_aliasOf_refAttribute (small : ∀ c ∈ a.toList, c.isUpper = false) :
    ¬ AliasOf refAttribute a := by
  rintro ⟨-, rfl⟩
  exact absurd (small 'T' (by decide +kernel)) (by decide)

end

section
variable {scene : Scene} {s s₁ s₂ s₃ s' : Expansion} {c : Component} {o : Opened} {left : Nat}
  {id context : String} {host : Option NodeId} {extra : Values} {refs : List (String × String)}
  {e : Element} {k : NodeId} {x a : String} {v : Value} {p : Call × Expansion}

theorem same_rich_of_bindRefs (run : (bindRefs c context o).run s = .ok refs s') :
    s'.rich = s.rich := by
  refine Preserves.of_ok (I := fun t => t.rich = s.rich) (preserves_bind ?_ fun _ => ?_) rfl run
  · refine preserves_foldlM (fun _ _ => ?_) _ _
    refine preserves_bind preserves_get fun _ => preserves_bind (fun _ same => same) fun _ => ?_
    split
    · exact preserves_pure _
    · split
      · exact preserves_pure _
      · exact preserves_bind preserves_get fun _ => preserves_bind (fun _ same => same) fun _ =>
          preserves_pure _
  · split
    · exact preserves_bind (fun _ same => same) fun _ => preserves_pure _
    · exact preserves_pure _

/-- The top of a copy is no element. -/
theorem fragment_add_ne (sound : c.Sound)
    (found : c.document.tree.contents[k]? = some (.element e)) : o.fragment + k ≠ o.fragment := by
  intro top
  have root := sound.root
  cases tree : c.document.tree with
  | node content ts =>
    rw [tree] at root found
    cases root
    rw [show k = 0 from Nat.add_eq_left.mp top] at found
    cases found

/-- The values of an instance go into texts, and not into elements. -/
theorem spares_opened_element (sound : c.Sound)
    (opened : (openInstance scene c context host extra).run s = .ok o s₁)
    (found : c.document.tree.contents[k]? = some (.element e)) (fits : NodeId → Content → Prop) :
    (Call.texts left o.values context 0 o.sites.texts).Spares (· = o.fragment + k) fits := by
  intro site mem own
  obtain ⟨j, text, here, there, -⟩ := copied_of_mem_texts sound opened mem
  obtain rfl : j = k := Nat.add_left_cancel (here.symm.trans own)
  rw [found] at there
  cases there

/-- An instance that has been opened goes on with its texts, then with the hosts in it, then with its
slots. -/
theorem enters_opened (known : scene.library.component? id = some c)
    (opened : (openInstance scene c context host extra).run s = .ok o s₁)
    (enters : Enters scene (.create (left + 1) id context host extra, s) p) :
    p = (.texts left o.values context 0 o.sites.texts, s₁) ∨
      ∃ s₂ refs s₃, (substituteTexts scene left o.values context 0 o.sites.texts).run s₁ = .ok () s₂ ∧
        (bindRefs c context o).run s₂ = .ok refs s₃ ∧
        (p = (.within left s₃.arena.size o.fragment context, s₃) ∨
          ∃ s₄, (expandWithin scene left s₃.arena.size o.fragment context).run s₃ = .ok () s₄ ∧
            p = (.slots left o.fragment o.supplied context o.sites.slots, s₄)) := by
  have same : ∀ {c' : Component} {o' : Opened} {t : Expansion},
      scene.library.component? id = some c' →
      (openInstance scene c' context host extra).run s = .ok o' t → c' = c ∧ o' = o ∧ t = s₁ := by
    intro c' o' t known' opened'
    obtain rfl := Option.some.inj (known.symm.trans known')
    rw [opened] at opened'
    cases opened'
    exact ⟨rfl, rfl, rfl⟩
  cases enters with
  | texts known' opened' =>
    obtain ⟨rfl, rfl, rfl⟩ := same known' opened'
    exact .inl rfl
  | inside known' opened' texts bound =>
    obtain ⟨rfl, rfl, rfl⟩ := same known' opened'
    exact .inr ⟨_, _, _, texts, bound, .inl rfl⟩
  | slots known' opened' texts bound within =>
    obtain ⟨rfl, rfl, rfl⟩ := same known' opened'
    exact .inr ⟨_, _, _, texts, bound, .inr ⟨_, within, rfl⟩⟩

variable (sound : ∀ id c, scene.library.component? id = some c → c.Sound)
  (known : scene.library.component? id = some c) (tidy : Tidy s)
  (opened : (openInstance scene c context host extra).run s = .ok o s₁)
  (found : c.document.tree.contents[k]? = some (.element e)) (legible : e.Legible)
  (hands : Hands e x a) (value : Assoc.get? o.values x = some v)
include sound known tidy opened found legible hands value

/-- The copy that an instance starts from has the value at the element that hands it on. -/
theorem carries_opened :
    Lasts (· = o.fragment + k) (fun _ => Carries a v) s₁ ∧ Waits (s₁.look (o.fragment + k)).2 a v := by
  obtain ⟨content, rich⟩ := filled_of_opened (sound _ _ known) tidy opened found
  refine ⟨⟨?_, ?_⟩, ?_⟩
  · rintro y rfl
    exact (Opened.copied_of_content found).lt opened
  · rintro y rfl
    exact ⟨_, content, hands.offers legible.once _ value⟩
  · rw [rich]
    exact hands.waits legible.once _ value

/-- The texts of the instance and its references change nothing of that. -/
theorem carries_bound
    (texts : (substituteTexts scene left o.values context 0 o.sites.texts).run s₁ = .ok () s₂)
    (bound : (bindRefs c context o).run s₂ = .ok refs s₃) :
    Lasts (· = o.fragment + k) (fun _ => Carries a v) s₃ ∧ Waits (s₃.look (o.fragment + k)).2 a v := by
  obtain ⟨lasts, waits⟩ := carries_opened sound known tidy opened found legible hands value
  have tidy₁ := (tidy_openInstance _ _ _ _ _).of_ok tidy opened
  have texts_keep : (s₂.look (o.fragment + k)).2 = (s₁.look (o.fragment + k)).2 := keeps_of_exec
    (.texts left o.values context 0 o.sites.texts) sound texts tidy₁ trivial (lasts.known _ rfl)
  have lasts := lasts_of_exec (.texts left o.values context 0 o.sites.texts) texts
    (lasting_carries hands.slot) (spares_opened_element (sound _ _ known) opened found _) lasts
  obtain ⟨b, mem, rfl⟩ := hands.exists_attribute
  have free := not_aliasOf_refAttribute (legible.attributes b mem).small
  refine ⟨(lasts_bindRefs ?_ ?_).of_ok lasts bound, ?_⟩
  · rintro - - - e' ⟨_, same, offers⟩
    cases same
    exact ⟨_, rfl, offers.eraseAttr (Ne.symm hands.ref)⟩
  · rintro - - - e' n ⟨_, same, offers⟩
    cases same
    exact ⟨_, rfl, offers.setAttr (Ne.symm hands.number) free⟩
  · rw [look_of_rich (same_rich_of_bindRefs bound), texts_keep]
    exact waits

/-- Every call that the instance makes comes to the element with the value, if it comes to it. -/
theorem reaches_of_hands
    (reaches : (Call.create (left + 1) id context host extra).Reaches (fun _ _ => True) s)
    (enters : Enters scene (.create (left + 1) id context host extra, s) p) :
    p.1.Reaches (fun y r => y = o.fragment + k → Waits r a v) p.2 ∧
      p.1.Spares (· = o.fragment + k) (fun _ => Carries a v) ∧
      Lasts (· = o.fragment + k) (fun _ => Carries a v) p.2 := by
  rcases enters_opened known opened enters with rfl | ⟨s₂, refs, s₃, texts, bound, rest⟩
  · exact ⟨trivial, spares_opened_element (sound _ _ known) opened found _,
      (carries_opened sound known tidy opened found legible hands value).1⟩
  obtain ⟨lasts, waits⟩ :=
    carries_bound sound known tidy opened found legible hands value texts bound
  have tidy₁ := (tidy_openInstance _ _ _ _ _).of_ok tidy opened
  obtain ⟨s₀, light₀, f₀, drafted⟩ := exists_drafted (sound _ _ known) tidy reaches.placed opened
    (leaves_of_exec (.texts left o.values context 0 o.sites.texts) sound texts tidy₁) bound
  rcases rest with rfl | ⟨s₄, within, rfl⟩
  · exact ⟨⟨f₀, drafted.upright, fun y _ own => own ▸ waits⟩, trivial, lasts⟩
  · have tidy₃ := (tidy_bindRefs _ _ _).of_ok
      (tidy_of_exec (.texts left o.values context 0 o.sites.texts) texts tidy₁) bound
    have keeps : KeepsRich (o.fragment + k) s₃ s₄ := keeps_of_exec
      (.within left s₃.arena.size o.fragment context) sound within tidy₃ drafted.upright.placed
      (lasts.known _ rfl)
    obtain ⟨f, light, serving, late, early⟩ :=
      reaches_slots sound tidy reaches known opened texts bound within
    refine ⟨⟨f, light, serving, fun y mem own => ?_⟩, trivial,
      lasts_of_exec (.within left s₃.arena.size o.fragment context) within
        (lasting_carries hands.slot) trivial lasts⟩
    subst own
    rcases List.mem_append.mp mem with mem | mem
    · -- below the top of the instance a node has its place, so what waits beside it is still there
      rw [ids_eq, List.mem_cons] at mem
      have below := mem.resolve_left fun top =>
        fragment_add_ne (sound _ _ known) found (top.trans serving.id)
      have once := (List.nodup_append.mp serving.stocked.once).1
      rw [keeps.resolve_right (serving.stocked.stands.exists_parent once below)]
      exact waits
    · -- the children of the host have been there before the instance
      exact absurd (Nat.le_trans (fragment_late opened) (Nat.le_add_right _ k))
        (Nat.not_le_of_lt (early _ mem).1)

end

/-! ### The values that an instance starts from -/

/-- The values that an instance gets from the page, from its host and from where it is used. They are
there before its script is run. -/
def StartsFrom (scene : Scene) (host : Option NodeId) (extra : Values) (s : Expansion)
    (own : Values) : Prop :=
  ∃ values supplied s', (receive scene host).run s = .ok (values, supplied) s' ∧
    own = values.putAll extra

section
variable {scene : Scene} {s s' : Expansion} {host : NodeId} {e : Element}

theorem startsFrom_opened {c : Component} {context : String} {host : Option NodeId} {extra : Values}
    {o : Opened} (opened : (openInstance scene c context host extra).run s = .ok o s') :
    StartsFrom scene host extra s o.own := by
  obtain ⟨values, s₁, -, received, own, -⟩ := openInstance_ok opened
  exact ⟨values, o.supplied, s₁, received, own⟩

theorem StartsFrom.unique {host : Option NodeId} {extra own own' : Values}
    (starts : StartsFrom scene host extra s own) (starts' : StartsFrom scene host extra s own') :
    own = own' := by
  obtain ⟨values, supplied, s₁, received, rfl⟩ := starts
  obtain ⟨values', supplied', s₂, received', rfl⟩ := starts'
  rw [received] at received'
  cases received'
  rfl

theorem startsFrom_host (found : s.arena.content host = .element e) :
    StartsFrom scene (some host) [] s (Sketch.hostValues scene.document e (s.look host).2) := by
  obtain ⟨⟨values, supplied⟩, s', received⟩ := total_receive scene (some host) s
  refine ⟨values, supplied, s', received, ?_⟩
  rw [receive] at received
  obtain ⟨merged, s₁, merge, rest⟩ := eq_ok_of_bind received
  obtain ⟨slots, s₂, -, last⟩ := eq_ok_of_bind rest
  cases last
  have element : s.arena.element? host = some e := by
    rw [Arena.element?, found]
    rfl
  obtain ⟨rfl, -⟩ := mergeHost_ok element merge
  rfl

end

/-! ### Levels of instances -/

/-- An instance that is to take the place of an element. -/
structure Hosted where
  room : Nat
  id : String
  context : String
  home : NodeId
  extra : Values
  before : Expansion

def Hosted.call (h : Hosted) : Call × Expansion :=
  (.create h.room h.id h.context (some h.home) h.extra, h.before)

section
variable {scene : Scene} {first : Call} {s : Expansion}

def Birth.call (b : Birth scene first s) : Call × Expansion :=
  (.create (b.left + 1) b.id b.context b.host b.extra, b.before)

/-- An instance hands the value that it has under a name to the element at a node. -/
def Birth.HandsTo (b : Birth scene first s) (x : String) (home : NodeId) (a : String) : Prop :=
  ∃ k e, b.component.document.tree.contents[k]? = some (.element e) ∧ Hands e x a ∧
    home = b.opened.fragment + k

/-- What an instance has under a name is handed on, from level to level, to an instance that is to
take the place of an element. The scripts of the instances in between leave it as it is. -/
inductive Birth.Passes : Birth scene first s → String → Hosted → String → Prop where
  | host {b : Birth scene first s} {x h a} (hands : b.HandsTo x h.home a)
      (led : Leads scene b.call h.call) : Passes b x h a
  | level {b q : Birth scene first s} {x y h home a} (hands : b.HandsTo x home y)
      (led : Leads scene b.call q.call) (host : q.host = some home)
      (kept : Assoc.get? q.opened.values y = Assoc.get? q.opened.own y) (rest : Passes q y h a) :
      Passes b x h a

variable {b : Birth scene first s} {x a id context : String} {v : Value} {home : NodeId} {room : Nat}
  {extra : Values} {s' : Expansion}

/-- The instance in the place of the element gets the value. -/
theorem Birth.HandsTo.starts (files : scene.library.FromFiles) (tidy : Tidy b.before)
    (reaches : b.call.1.Reaches (fun _ _ => True) b.before) (hands : b.HandsTo x home a)
    (led : Leads scene b.call (.create room id context (some home) extra, s'))
    (value : Assoc.get? b.opened.values x = some v) :
    ∃ own, StartsFrom scene (some home) extra s' own ∧ Assoc.get? own a = some v := by
  obtain ⟨k, e, found, hands, rfl⟩ := hands
  have legible : e.Legible := by
    obtain ⟨root, rules, r, read⟩ := files _ _ b.known
    exact Component.legible_ofRecord read (List.mem_of_getElem? found)
  rcases Relation.ReflTransGen.cases_head led with same | ⟨p, enters, rest⟩
  · -- the element is newer than the host of its own instance
    injection same with same before
    injection same with _ _ _ host _
    rw [Birth.call, host] at reaches
    obtain ⟨-, top, ⟨⟨_, stands⟩, id, -⟩, -⟩ := reaches
    have old := stands.lt id_mem_ids
    rw [id] at old
    exact absurd (Nat.le_trans (fragment_late b.opens) (Nat.le_add_right _ k)) (Nat.not_le_of_lt old)
  · obtain ⟨reaches, spares, lasts⟩ := reaches_of_hands files.sound b.known tidy b.opens found legible
      hands value reaches enters
    have fresh : ∀ y r, p.2.arena.size ≤ y → y = b.opened.fragment + k → Waits r a v :=
      fun y r late own => absurd (lasts.known y own) (Nat.not_lt_of_le late)
    obtain ⟨-, -, none, top, ⟨-, id, -⟩, -, waits⟩ := reaches_of_leads files.sound rest
      (tidy_of_enters enters tidy) fresh reaches
    obtain ⟨-, lasts⟩ := lasts_of_leads (lasting_carries hands.slot) rest spares lasts
    obtain ⟨e', content, offers⟩ := lasts.holds _ rfl
    rw [none]
    exact ⟨_, startsFrom_host content, offers.get? (waits _ (id ▸ id_mem_ids) rfl) scene.document⟩

/-- A value is handed on unchanged through any number of levels of a page: text goes into attributes
and is read from them again, and other values wait beside their elements. The instance at the end
starts with the value itself. -/
theorem values_are_handed_on {page : Page} {b : Birth scene (pageCall scene page) (ofPage page)}
    {h : Hosted} (files : scene.library.FromFiles) (passes : b.Passes x h a)
    (value : Assoc.get? b.opened.values x = some v) :
    ∃ own, StartsFrom scene (some h.home) h.extra h.before own ∧ Assoc.get? own a = some v := by
  have start : ∀ b : Birth scene (pageCall scene page) (ofPage page),
      Tidy b.before ∧ b.call.1.Reaches (fun _ _ => True) b.before := fun b => by
    obtain ⟨tidy, -, reaches⟩ := reaches_of_leads files.sound b.led (tidy_ofPage page)
      (fun _ _ _ => trivial) (reaches_page scene)
    exact ⟨tidy, reaches⟩
  induction passes with
  | @host b x h a hands led => exact hands.starts files (start b).1 (start b).2 led value
  | @level b q x y h home a hands led host kept rest ih =>
    have here : q.call = (.create (q.left + 1) q.id q.context (some home) q.extra, q.before) := by
      rw [Birth.call, host]
    rw [here] at led
    obtain ⟨own, starts, bound⟩ := hands.starts files (start b).1 (start b).2 led value
    rw [← host] at starts
    refine ih ?_
    rw [kept, ← starts.unique (startsFrom_opened q.opens)]
    exact bound

end

/-! ### A list that is handed on twice -/

section
variable {scene : Scene} {s s₁ s₃ : Expansion} {room height left : Nat} {scope home : NodeId}
  {id context inner : String} {e : Element} {c : Component} {o : Opened}
  {host : Option NodeId} {extra : Values} {refs : List (String × String)}

/-- The first host below a node is expanded. -/
theorem leads_within (rest : List (NodeId × String))
    (listed : hosts s.arena scope context = (home, inner) :: rest)
    (found : s.arena.element? home = some e) :
    Leads scene (.within room height scope context, s)
      (.create room e.name inner (some home) [], s) := by
  refine .head .hosts ?_
  rw [listed]
  exact .head .host (.single (.hosted found))

/-- So is the first host of an instance that has no tokens in its texts. -/
theorem leads_inside (rest : List (NodeId × String))
    (known : scene.library.component? id = some c)
    (opened : (openInstance scene c context host extra).run s = .ok o s₁)
    (none : o.sites.texts = []) (bound : (bindRefs c context o).run s₁ = .ok refs s₃)
    (listed : hosts s₃.arena o.fragment context = (home, inner) :: rest)
    (found : s₃.arena.element? home = some e) :
    Leads scene (.create (left + 1) id context host extra, s)
      (.create left e.name inner (some home) [], s₃) := by
  refine .head (.inside known opened ?_ bound) (leads_within rest listed found)
  rw [none]
  exact exec_of_run (.textsNil : Run scene (.texts left o.values context 0 []) s₁ [] (.ok () s₁))

end

def shelf : Component where
  id := "x-shelf"
  path := "shelf.html"
  dir := ""
  document := ⟨.node .root
      [.node (.element ⟨"x-row", [⟨"items", some "{{tags}}"⟩, ⟨"data-kind", some "wide"⟩]⟩) []],
    { attributes := [⟨1, "items", [⟨"tags", "{{tags}}"⟩]⟩], customs := [1] }⟩
  script := none

def row : Component where
  id := "x-row"
  path := "row.html"
  dir := ""
  document := ⟨.node .root [.node (.element ⟨"x-tags", [⟨"items", some "{{items}}"⟩]⟩) []],
    { attributes := [⟨1, "items", [⟨"items", "{{items}}"⟩]⟩], customs := [1] }⟩
  script := none

def shelfLibrary : Library where
  component? id :=
    if id = "x-shelf" then some shelf else if id = "x-row" then some row
    else if id = "x-tags" then some tags else none
  templates := ["x-shelf", "x-row", "x-tags"]
  pages := []

def shelfPage : Page where
  values := [("tags", .sequence [.string "a", .string "\"b\" & c"])]
  document := ⟨.node .root [.node (.element ⟨"x-shelf", []⟩) []], { customs := [1] }⟩

def shelfScene : Scene := .ofPage shelfLibrary failingSandbox "" shelfPage

/-- What the page has under `tags`. -/
def shelfTags : Value := .list [.text "a", .text "\"b\" & c"]

theorem shelf_read : (Component.ofRecord "" [] (.ofText "shelf.html" ("<template id=\"x-shelf\">" ++
    "<x-row items=\"{{tags}}\" data-kind=\"wide\"></x-row></template>"))).toOption = some shelf := by
  decide +kernel

theorem row_read : (Component.ofRecord "" [] (.ofText "row.html"
    "<template id=\"x-row\"><x-tags items=\"{{items}}\"></x-tags></template>")).toOption =
      some row := by
  decide +kernel

theorem fromFiles_shelfLibrary : shelfLibrary.FromFiles := by
  intro id c known
  simp only [shelfLibrary] at known
  split at known
  · obtain rfl := Option.some.inj known
    exact ⟨_, _, _, ok_of_toOption shelf_read⟩
  split at known
  · obtain rfl := Option.some.inj known
    exact ⟨_, _, _, ok_of_toOption row_read⟩
  split at known
  · obtain rfl := Option.some.inj known
    exact ⟨_, _, _, ok_of_toOption tags_read⟩
  · cases known

theorem hands_shelf : Hands ⟨"x-row", [⟨"items", some "{{tags}}"⟩, ⟨"data-kind", some "wide"⟩]⟩
    "tags" "items" where
  custom := by decide
  token := ⟨⟨"tags", "{{tags}}"⟩, by decide +kernel⟩
  apart := by decide +kernel
  ref := by decide
  slot := by decide
  number := by decide

theorem hands_row : Hands ⟨"x-tags", [⟨"items", some "{{items}}"⟩]⟩ "items" "items" where
  custom := by decide
  token := ⟨⟨"items", "{{items}}"⟩, by decide +kernel⟩
  apart := by decide +kernel
  ref := by decide
  slot := by decide
  number := by decide

theorem leads_to_shelf : Leads shelfScene (pageCall shelfScene shelfPage, ofPage shelfPage)
    (.create maxDepth "x-shelf" "/0:x-shelf" (some 1) [], ofPage shelfPage) :=
  leads_within (e := ⟨"x-shelf", []⟩) [] (by decide +kernel) rfl

def shelfBirth : Birth shelfScene (pageCall shelfScene shelfPage) (ofPage shelfPage) :=
  ⟨_, _, _, _, _, shelf, _, _, _, leads_to_shelf, rfl, rfl⟩

theorem leads_to_row : Leads shelfScene shelfBirth.call
    (.create 63 "x-row" "/0:x-shelf/0:x-row" (some 3) [], shelfBirth.after) :=
  leads_inside (e := ⟨"x-row", _⟩) [] rfl shelfBirth.opens rfl rfl (by decide +kernel) rfl

def rowBirth : Birth shelfScene (pageCall shelfScene shelfPage) (ofPage shelfPage) :=
  ⟨_, _, _, _, _, row, _, _, _, leads_to_shelf.trans leads_to_row, rfl, rfl⟩

theorem leads_to_tags : Leads shelfScene rowBirth.call
    (.create 62 "x-tags" "/0:x-shelf/0:x-row/0:x-tags" (some 5) [], rowBirth.after) :=
  leads_inside (e := ⟨"x-tags", _⟩) [] rfl rowBirth.opens rfl rfl (by decide +kernel) rfl

def tagsHosted : Hosted := ⟨62, "x-tags", "/0:x-shelf/0:x-row/0:x-tags", 5, [], rowBirth.after⟩

theorem passes_shelf : shelfBirth.Passes "tags" tagsHosted "items" := by
  have outer : shelfBirth.HandsTo "tags" 3 "items" :=
    ⟨1, _, rfl, hands_shelf, by decide +kernel⟩
  have inner : rowBirth.HandsTo "items" 5 "items" := ⟨1, _, rfl, hands_row, by decide +kernel⟩
  exact .level (q := rowBirth) outer leads_to_row rfl rfl (.host inner leads_to_tags)

theorem shelf_tags_are_handed_on :
    shelfLibrary.FromFiles ∧ shelfBirth.Passes "tags" tagsHosted "items" ∧
      Assoc.get? shelfBirth.opened.values "tags" = some shelfTags ∧
      ∃ own, StartsFrom shelfScene (some tagsHosted.home) tagsHosted.extra tagsHosted.before own ∧
        Assoc.get? own "items" = some shelfTags :=
  have value : Assoc.get? shelfBirth.opened.values "tags" = some shelfTags := rfl
  ⟨fromFiles_shelfLibrary, passes_shelf, value,
    values_are_handed_on fromFiles_shelfLibrary passes_shelf value⟩

end Expansion
end Stencil
