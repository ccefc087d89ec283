import Stencil.Proofs.Expansion.Instance
import Stencil.Proofs.Expansion.Lasting
import Stencil.Proofs.Expansion.Rewritten
import Stencil.Proofs.Expansion.Simultaneous
import Stencil.Proofs.Expansion.Upkeep
import Stencil.Proofs.Markup.Built
import Stencil.Proofs.Markup.Told
/-!
What stands in the place of a text of an instance. The text is cut at its tokens, and each part is
spelt where it stands: what is written as it is, and values as their kind has it. Whether one text is
written or nodes take its place does not show.
-/
namespace Stencil
open Markup

/-! ### The parts of a text -/

namespace Text

/-- A pattern that starts nowhere before a place is found at that place. -/
theorem cut?_at {c : Char} {p before after : List Char}
    (first : ∀ x y, before = x ++ y → y ≠ [] → dropPrefix? (c :: p) (y ++ (c :: p ++ after)) = none) :
    cut? (c :: p) (before ++ (c :: p ++ after)) = some (before, after) := by
  induction before with
  | nil =>
    rw [List.nil_append, List.cons_append, cut?, ← List.cons_append, dropPrefix?_append]
  | cons d before ih =>
    have later := ih fun x y ends => first (d :: x) y (by rw [ends]; rfl)
    have here := first [] (d :: before) rfl (List.cons_ne_nil _ _)
    rw [List.cons_append] at here
    rw [List.cons_append, cut?, here]
    dsimp only
    rw [later, Option.map_some]

end Text

namespace Expansion
open Branch

/-- A token as a part of a text: the value that is bound to its name, or else the token itself. -/
def tokenPiece (values : Values) (t : Token) : Piece :=
  match Assoc.get? values t.name with
  | some v => .value v
  | none => .literal t.raw

/-- The parts of a text: what stands before each token, the token, and what is left behind the last
one. -/
def parts (values : Values) (s : List Char) : List Piece :=
  ((Token.cut s).1.flatMap fun (before, t) =>
    [.literal (String.ofList before), tokenPiece values t]) ++
      [.literal (String.ofList (Token.cut s).2)]

/-- The text of the first token is found where the token is. -/
theorem cut?_first {s before rest : List Char} {t : Token}
    (found : Token.first? s = some (before, t, rest)) :
    Text.cut? t.raw.toList s = some (before, rest) := by
  obtain ⟨still, same, body, rfl, -⟩ := Token.first?_eq_some found
  -- the token starts with double braces, and there are none before it
  rw [same, List.append_assoc, Token.toList_raw, List.cons_append]
  refine Text.cut?_at fun x y ends proper => ?_
  exact Text.dropPrefix?_append_eq_none (Text.dropPrefix?_of_not_beginsIn still _ ends proper) _

/-- Looking for the text of each token in what is left finds the token itself. -/
theorem pieces_eq_parts (values : Values) (s : List Char) :
    pieces values (Token.ofChars s) s = parts values s := by
  rw [parts]
  fun_induction Token.cut s with
  | case1 s none =>
    rw [Token.ofChars_eq, none]
    rfl
  | case2 s before t rest found ih =>
    rw [Token.ofChars_eq, found]
    dsimp only
    rw [pieces, cut?_first found]
    dsimp only
    rw [ih]
    rfl

/-! ### What parts are spelt like -/

mutual

/-- The markup of a value that stands in the text of an instance, in the state in which its nodes are
made. What a failing value is spelt like does not matter. -/
def valueSpelling (scene : Scene) (left : Nat) (context : String) (s : Expansion) : Value → String
  | .text t => Entity.escapeText t
  | .markup source =>
    match Document.ofSource .page [] source with
    | .ok d => d.tree.html
    | .error _ => ""
  | .component name values =>
    match (create scene left name (context ++ ":" ++ name) none values).run s with
    | .ok (some fragment) s' => (s'.arena.tree fragment).innerHtml
    | _ => (Markup.Tree.node (.element { name }) []).html
  | .list items => itemsSpelling scene left context s 0 items

/-- Items are spelt one after the other; each is made in the state that the ones before it leave. -/
def itemsSpelling (scene : Scene) (left : Nat) (context : String) (s : Expansion) (index : Nat) :
    List Value → String
  | [] => ""
  | v :: rest =>
    valueSpelling scene left (context ++ "[" ++ toString index ++ "]") s v ++
      itemsSpelling scene left context
        (Outcome.state
          ((materialize scene left (context ++ "[" ++ toString index ++ "]") v).run s))
        (index + 1) rest

end

/-- A literal is spelt as it is written. -/
def pieceSpelling (scene : Scene) (left : Nat) (context : String) (s : Expansion) : Piece → String
  | .literal t => t
  | .value v => valueSpelling scene left context s v

/-- Pieces are spelt one after the other, as items are. -/
def piecesSpelling (scene : Scene) (left : Nat) (context : String) (s : Expansion) (index : Nat) :
    List Piece → String
  | [] => ""
  | p :: rest =>
    pieceSpelling scene left (context ++ "." ++ toString index) s p ++
      piecesSpelling scene left context
        (Outcome.state ((placePieces scene left context index [p]).run s)) (index + 1) rest

/-- What a text is spelt like with values in it. In a script or a style, values are plain. -/
def textSpelling (scene : Scene) (left : Nat) (values : Values) (context : String) (s : Expansion)
    (node : NodeId) (text : String) : String :=
  if isRaw s.arena node then String.join ((parts values text.toList).map (·.text true))
  else piecesSpelling scene left context s 0 (parts values text.toList)

/-- Pieces that need no nodes are spelt alike in every state. -/
theorem piecesSpelling_plain {scene : Scene} {left : Nat} {context : String} {s : Expansion}
    {index : Nat} {ps : List Piece} (plain : ps.all (·.isPlain false) = true) :
    piecesSpelling scene left context s index ps = String.join (ps.map (·.text false)) := by
  induction ps generalizing s index with
  | nil => rfl
  | cons p ps ih =>
    rw [List.all_cons, Bool.and_eq_true] at plain
    rw [piecesSpelling, ih plain.2, List.map_cons, String.join_cons]
    congr 1
    cases p with
    | literal t => rfl
    | value v =>
      cases v with
      | text t => rw [pieceSpelling, valueSpelling]; rfl
      | markup _ | component _ _ | list _ => cases plain.1

/-- In a script or a style no piece needs nodes. -/
theorem all_plain_raw (ps : List Piece) : ps.all (·.isPlain true) = true := by
  refine List.all_eq_true.mpr fun p _ => ?_
  cases p with
  | literal t => rfl
  | value v => rw [Piece.isPlain, Bool.or_true]

end Expansion

/-! ### The markup of branches -/

theorem Markup.Tree.join_html (ts : List Tree) :
    String.join (ts.map (·.html)) = String.ofList (Tree.writeAll ts) := by
  induction ts with
  | nil => rfl
  | cons t ts ih => rw [List.map_cons, String.join_cons, ih, Tree.writeAll, String.ofList_append]; rfl

namespace Branch

/-- Branches as they are written. -/
def markup (bs : List Branch) : String := String.join (bs.map (·.sketch.tree.html))

theorem markup_cons (b : Branch) (bs : List Branch) :
    markup (b :: bs) = b.sketch.tree.html ++ markup bs := by
  rw [markup, List.map_cons, String.join_cons, markup]

theorem markup_singleton (b : Branch) : markup [b] = b.sketch.tree.html := by
  rw [markup_cons]
  exact String.append_empty

theorem markup_append (bs cs : List Branch) : markup (bs ++ cs) = markup bs ++ markup cs := by
  induction bs with
  | nil => exact String.empty_append.symm
  | cons b bs ih => rw [List.cons_append, markup_cons, markup_cons, ih, String.append_assoc]

theorem trees_sketches (bs : List Branch) :
    Sketch.trees (sketches bs) = bs.map (·.sketch.tree) := by
  induction bs with
  | nil => rfl
  | cons b bs ih => rw [sketches, Sketch.trees, ih, List.map_cons]

theorem markup_children (b : Branch) : markup b.children = b.sketch.tree.innerHtml := by
  cases b with
  | node i stem bs =>
    rw [sketch, Sketch.tree, Markup.Tree.innerHtml, Markup.Tree.children, trees_sketches,
      ← Markup.Tree.join_html, List.map_map]
    rfl

end Branch

namespace Expansion
open Branch

/-! ### The nodes of values -/

section
variable {scene : Scene} {s s₁ s' : Expansion} {nodes : List NodeId} {bs : List Branch}

/-- New nodes that stand nowhere yet, as they are written. -/
def Writes (s s' : Expansion) (nodes : List NodeId) (out : String) : Prop :=
  ∃ bs, Fresh s s' nodes bs ∧ markup bs = out

/-- The markup of a text node is the text. -/
theorem writes_text {t : String} {node : NodeId} (tidy : Tidy s)
    (added : (alloc (.text t)).run s = .ok node s') : Writes s s' [node] t := by
  refine ⟨_, fresh_alloc tidy added, ?_⟩
  rw [markup_singleton]
  exact String.ofList_toList

theorem writes_append {nodes' : List NodeId} {out out' : String} (first : Writes s s₁ nodes out)
    (second : Writes s₁ s' nodes' out') : Writes s s' (nodes ++ nodes') (out ++ out') := by
  obtain ⟨bs, fresh, rfl⟩ := first
  obtain ⟨cs, fresh', rfl⟩ := second
  exact ⟨bs ++ cs, fresh_append fresh fresh', markup_append bs cs⟩

theorem writes_graftAll {ts : List Tree} (tidy : Tidy s)
    (run : (graftAll ts).run s = .ok nodes s') :
    Writes s s' nodes (String.ofList (Tree.writeAll ts)) := by
  rw [← Tree.join_html]
  induction ts generalizing s nodes with
  | nil =>
    cases run
    exact ⟨[], fresh_nil, rfl⟩
  | cons t ts ih =>
    rw [graftAll, List.mapM_cons] at run
    obtain ⟨node, s₁, grafted, rest⟩ := eq_ok_of_bind run
    obtain ⟨more, s₂, others, last⟩ := eq_ok_of_bind rest
    cases grafted
    cases last
    rw [List.map_cons, String.join_cons]
    have first : Writes s { s with arena := (s.arena.graft t).2 } [s.arena.size] t.html := by
      refine ⟨_, fresh_graft tidy t, ?_⟩
      rw [markup_singleton, sketch_ofTree_false, Sketch.tree_ofTree]
    exact writes_append first (ih (tidy.graft t) others)

theorem writes_document {source : String} {d : Document} (tidy : Tidy s)
    (read : Document.ofSource .page [] source = .ok d)
    (grafted : (graftAll d.tree.children).run s = .ok nodes s') : Writes s s' nodes d.tree.html := by
  obtain ⟨sites, listed, made⟩ := ok_of_bind read
  cases made
  obtain ⟨ts, root, -⟩ := Tree.ofSource_built [] source
  dsimp only at grafted ⊢
  rw [root] at grafted ⊢
  exact writes_graftAll tidy grafted

/-- What stands in a new instance. -/
theorem writes_children {f : Branch} (raised : Raised s s₁ [] [] f)
    (taken : (takeChildren f.id).run s₁ = .ok nodes s') :
    Writes s s' nodes (s₁.arena.tree f.id).innerHtml := by
  refine ⟨_, fresh_children raised.stands raised.once (fun x mem =>
    (raised.ids x mem).resolve_left List.not_mem_nil) raised.framed taken, ?_⟩
  rw [raised.stands.tree raised.once, markup_children]

theorem writes_unknown {name : String} {node : NodeId} (tidy : Tidy s₁)
    (looks : ∀ x, s₁.look x = s.look x) (size : s₁.arena.size = s.arena.size)
    (added : (alloc (.element { name })).run s₁ = .ok node s') :
    Writes s s' [node] (Markup.Tree.node (.element { name }) []).html := by
  have fresh := fresh_alloc tidy added
  refine ⟨_, { fresh with
    fresh := fun x mem => size ▸ fresh.fresh x mem
    framed := (framed_of_looks looks size []).trans fresh.framed fun _ mem _ => mem }, ?_⟩
  rw [markup_singleton]
  rfl

/-- What a call that makes nodes of values leaves. -/
def Spells (scene : Scene) : (call : Call) → Expansion → call.Out → Expansion → Prop
  | .pieces left context index ps, s, nodes, s' =>
    Writes s s' nodes (piecesSpelling scene left context s index ps)
  | .value left context v, s, nodes, s' =>
    Writes s s' nodes (valueSpelling scene left context s v)
  | .values left context index items, s, nodes, s' =>
    Writes s s' nodes (itemsSpelling scene left context s index items)
  | _, _, _, _ => True

theorem piecesSpelling_cons {left index : Nat} {context : String} {p : Piece} {rest : List Piece}
    {made : List Instance} {ids : List NodeId}
    (alone : Run scene (.pieces left context index [p]) s made (.ok ids s₁)) :
    piecesSpelling scene left context s index (p :: rest) =
      pieceSpelling scene left (context ++ "." ++ toString index) s p ++
        piecesSpelling scene left context s₁ (index + 1) rest := by
  have run : (placePieces scene left context index [p]).run s = .ok ids s₁ := exec_of_run alone
  rw [piecesSpelling, run]
  rfl

theorem spells_of_run {call : Call} {made : List Instance} {r : Outcome call.Out}
    (sound : ∀ id c, scene.library.component? id = some c → c.Sound) (run : Run scene call s made r)
    (tidy : Tidy s) : ∀ out s', r = .ok out s' → Spells scene call s out s' := by
  induction run with
  | piecesNil | valuesNil =>
    intro out s' same
    cases same
    exact ⟨[], fresh_nil, rfl⟩
  | piecesEmpty empty tail ih =>
    intro out s' same
    have rest := ih tidy _ _ same
    rw [Spells, piecesSpelling_cons (.piecesEmpty empty .piecesNil), pieceSpelling,
      String.isEmpty_iff.mp empty, String.empty_append]
    exact rest
  | piecesLiteral more added tail ih =>
    intro out s' same
    obtain ⟨_, rfl, rfl⟩ := Outcome.eq_ok_of_map same
    rw [Spells, piecesSpelling_cons (.piecesLiteral more added (r := .ok _ _) .piecesNil)]
    exact writes_append (writes_text tidy added) (ih ((tidy_alloc _).of_ok tidy added) _ _ rfl)
  | piecesValue head tail ih iht =>
    intro out s' same
    obtain ⟨_, rfl, rfl⟩ := Outcome.eq_ok_of_map same
    rw [Spells, piecesSpelling_cons (.piecesValue head (r := .ok _ _) .piecesNil)]
    exact writes_append (ih tidy _ _ rfl) (iht (tidy_of_run head tidy) _ _ rfl)
  | valueText added =>
    intro out s' same
    cases same
    rw [Spells, valueSpelling]
    exact writes_text tidy added
  | valueMarkup read grafted =>
    intro out s' same
    cases same
    rw [Spells, valueSpelling, read]
    exact writes_document tidy read grafted
  | valueComponent body taken ih =>
    intro out s' same
    cases same
    obtain ⟨f, rfl, raised⟩ := leaves_of_run sound body tidy _ _ rfl
    have made := exec_of_run body
    rw [exec] at made
    rw [Spells, valueSpelling, made]
    exact writes_children raised taken
  | valueUnknown body added ih =>
    intro out s' same
    cases same
    obtain ⟨looks, size⟩ := leaves_of_run sound body tidy _ _ rfl
    have made := exec_of_run body
    rw [exec] at made
    rw [Spells, valueSpelling, made]
    exact writes_unknown (tidy_of_run body tidy) looks size added
  | valueList all ih =>
    intro out s' same
    have items := ih tidy _ _ same
    rw [Spells, valueSpelling]
    exact items
  | valuesCons head tail ih iht =>
    intro out s' same
    obtain ⟨_, rfl, rfl⟩ := Outcome.eq_ok_of_map same
    have made := exec_of_run head
    rw [exec] at made
    rw [Spells, itemsSpelling, made]
    exact writes_append (ih tidy _ _ rfl) (iht (tidy_of_run head tidy) _ _ rfl)
  | valueMarkupStop | piecesValueStop | valueComponentStop | valuesHeadStop =>
    intro out s' same
    cases same
  | _ => exact fun _ _ _ => trivial

end

/-! ### Texts of an instance -/

section
variable {scene : Scene} {c : Component} {context : String} {host : Option NodeId} {extra : Values}
  {s s₁ s₂ s' : Expansion} {o : Opened} {left : Nat} {values : Values} {site : TextSite}

/-- Values have been put into some of the texts of a copy. -/
theorem draft_texts {s₀ : Expansion} {f : Branch} {done : List TextSite} {todo : List NodeId}
    {index : Nat} (sound : ∀ id c, scene.library.component? id = some c → c.Sound) (tidy : Tidy s)
    (draft : Draft s₀ s c (done.map (·.node) ++ todo) f)
    (run : (substituteTexts scene left values context index done).run s = .ok () s') :
    Tidy s' ∧ ∃ f', Draft s₀ s' c todo f' := by
  induction done generalizing s f index with
  | nil =>
    rw [substituteTexts] at run
    cases run
    exact ⟨tidy, f, draft⟩
  | cons site done ih =>
    rw [substituteTexts] at run
    obtain ⟨_, s₁, head, tail⟩ := eq_ok_of_bind run
    obtain ⟨made, first⟩ := (exec_eq_iff scene (.text left values _ site) s _).mp head
    obtain ⟨f₁, draft⟩ := leaves_of_run sound first tidy _ _ rfl _ _ _ _ draft
    exact ih (tidy_of_run first tidy) draft tail

/-- What has taken the place of a node, as it is written. -/
theorem html_of_swapped {f sub : Branch} {new : List Branch} {p : Option NodeId}
    (swapped : Swapped s s' f sub.id new) (stands : Stands s p f) (once : f.ids.Nodup)
    (part : sub ∈ subsAll f.children) :
    String.join ((new.map (·.id)).map s'.arena.html) = markup new := by
  have turns := swapped.turns stands once part
  have apart := nodup_children turns.once
  rw [markup, List.map_map]
  refine congrArg String.join (List.map_congr_left fun b mem => ?_)
  have placed : b ∈ subsAll (spliceAll sub.id new f.children) :=
    mem_subsAll_spliceAll_of_new _ (id_mem_idsAll part) (mem_subsAll.mpr ⟨b, mem, self_mem_subs⟩)
  exact congrArg Tree.html ((turns.stands.children.sub_parent placed).tree (nodup_sub apart placed))

/-- New nodes that take the place of another one stand where it stood. -/
theorem Fresh.children_replaceWith {f : Branch} {nodes : List NodeId} {new : List Branch}
    {p : Option NodeId} {x q : NodeId} (fresh : Fresh s s₁ nodes new) (stands : Stands s p f)
    (above : Above s f x q) (mem : x ∈ idsAll f.children) :
    (s₁.arena.replaceWith x nodes).children q = Arena.swap x nodes (s.arena.children q) := by
  have same : ∀ y ∈ f.ids, s₁.arena.node y = s.arena.node y := fun y mem =>
    congrArg (·.1) (fresh.framed.same y (stands.lt mem) List.not_mem_nil)
  have here : s₁.arena.parent? x = some q := by
    rw [Arena.parent?, same x (mem_ids_of_children mem)]
    exact above.parent
  have kids : s₁.arena.children q = s.arena.children q := by
    rw [Arena.children, same q above.mem, Arena.children]
  have new_id : ∀ i ∈ nodes, ∃ b ∈ new, b.id = i := by
    rw [← fresh.nodes]
    exact fun i mem => List.mem_map.mp mem
  have apart : q ∉ nodes := fun mem => by
    obtain ⟨b, mem, same⟩ := new_id q mem
    refine Nat.not_le_of_lt (stands.lt above.mem) (fresh.fresh q ?_)
    exact same ▸ mem_idsAll.mpr ⟨b, mem, id_mem_ids⟩
  have free : ∀ i ∈ nodes, s₁.arena.parent? i = none ∧ i < s₁.arena.size := by
    intro i mem
    obtain ⟨b, listed, rfl⟩ := new_id i mem
    exact ⟨(standsAll_iff.mp fresh.stands b listed).parent?,
      fresh.stands.lt (mem_idsAll.mpr ⟨b, listed, id_mem_ids⟩)⟩
  have node := s₁.arena.node_replaceWith here (kids.symm ▸ above.child) (kids.symm ▸ above.once)
    above.apart (fun i mem => (free i mem).1) (fun i mem => (free i mem).2) apart q
  rw [Arena.children, node, if_neg apart, if_neg above.apart.symm, if_pos rfl, kids]

/-- What takes the place of a text of an instance is spelt as the text is. -/
theorem spelt_of_text {s₀ : Expansion} {f : Branch} {todo : List NodeId} {text : String}
    (sound : ∀ id c, scene.library.component? id = some c → c.Sound) (tidy : Tidy s)
    (run : (substituteText scene left values context site).run s = .ok () s')
    (draft : Draft s₀ s c (site.node :: todo) f) (found : s.arena.text? site.node = some text)
    (tokens : site.tokens = Token.ofText text) :
    ∃ q ids, s.arena.parent? site.node = some q ∧
      s'.arena.children q = Arena.swap site.node ids (s.arena.children q) ∧
      String.join (ids.map s'.arena.html) =
        textSpelling scene left values context s site.node text := by
  obtain ⟨sub, part, own, leaf, -⟩ := draft.texts _ List.mem_cons_self
  rw [← own] at found ⊢
  obtain ⟨q, above⟩ := Stands.above f draft.stands draft.once (id_mem_idsAll part)
  refine ⟨q, ?_⟩
  have cut : pieces values site.tokens text.toList = parts values text.toList := by
    rw [tokens, Token.ofText, pieces_eq_parts]
  rw [substituteText, run_get_bind, ← own] at run
  dsimp only at run
  rw [found] at run
  dsimp only at run
  rw [cut] at run
  split at run
  · next plain =>
    obtain ⟨arena, -⟩ := modifyArena_ok run
    have swapped := swapped_written draft.stands draft.once part leaf run
    refine ⟨[sub.id], above.parent, ?_, (html_of_swapped swapped draft.stands draft.once part).trans
      ((markup_singleton _).trans (String.ofList_toList.trans ?_))⟩
    · rw [Arena.swap_self, Arena.children, arena, Arena.node_setContent]
      split
      · rfl
      · rfl
    · rw [textSpelling]
      cases raw : isRaw s.arena sub.id with
      | true => rfl
      | false =>
        rw [raw] at plain
        rw [if_neg Bool.false_ne_true, piecesSpelling_plain plain]
  · next rich =>
    obtain ⟨nodes, s₁, placed, replaced⟩ := eq_ok_of_bind run
    obtain ⟨made, placing⟩ := (exec_eq_iff scene (.pieces left context 0 _) s _).mp placed
    obtain ⟨new, fresh, written⟩ := spells_of_run sound placing tidy _ _ rfl
    obtain ⟨arena, -⟩ := modifyArena_ok replaced
    rw [← fresh.nodes] at replaced
    have swapped := swapped_fresh draft.stands draft.once part fresh.stands fresh.once fresh.fresh
      fresh.framed replaced
    refine ⟨nodes, above.parent, ?_, ?_⟩
    · rw [arena, fresh.children_replaceWith draft.stands above (id_mem_idsAll part)]
    · have raw : isRaw s.arena sub.id = false := by
        by_contra raw
        rw [Bool.not_eq_false] at raw
        rw [raw] at rich
        exact rich (all_plain_raw _)
      rw [← fresh.nodes, html_of_swapped swapped draft.stands draft.once part, written,
        textSpelling, raw, if_neg Bool.false_ne_true]

/-- A text of a component is in an instance what it is in the component, until it is its turn. -/
theorem text_lasts {k : NodeId} {text : String} {done : List TextSite} {todo : List NodeId}
    {s₀ : Expansion} {f : Branch} {index : Nat}
    (opened : (openInstance scene c context host extra).run s = .ok o s₁)
    (found : c.document.tree.contents[k]? = some (.text text))
    (draft : Draft s₀ s₁ c (done.map (·.node) ++ (o.fragment + k) :: todo) f)
    (before : (substituteTexts scene left values context index done).run s₁ = .ok () s₂) :
    s₂.arena.text? (o.fragment + k) = some text := by
  -- an element does not become a text
  have copied : Lasts (· = o.fragment + k) (fun _ c => c.lasting = .text text) s₁ :=
    lasts_opened opened (fun y own => ⟨k, .text text, own, found, rfl⟩) fun _ _ _ _ _ _ same =>
      nomatch same
  obtain ⟨made, run⟩ := (exec_eq_iff scene (.texts left values context index done) s₁ _).mp before
  have lasts := lasts_of_run run (lasting_eq _) (fun site mem own =>
    absurd own ((List.nodup_append.mp draft.distinct).2.2 _ (List.mem_map_of_mem mem) _
      List.mem_cons_self)) copied
  have same : (s₂.arena.content (o.fragment + k)).lasting = .text text := lasts.holds _ rfl
  rw [Arena.text?, ← text?_lasting, same]
  rfl

/-- Values are put into the texts of an instance one after the other. In the place of a text of the
component then stand nodes, be it the text node or others, that are spelt as the text with its tokens
replaced by values. -/
theorem instance_text_is_spelt {id : String} {done rest : List TextSite} {label : String}
    (files : scene.library.FromFiles) (known : scene.library.component? id = some c) (tidy : Tidy s)
    (opened : (openInstance scene c context host extra).run s = .ok o s₁)
    (texts : o.sites.texts = done ++ site :: rest)
    (before : (substituteTexts scene left values context 0 done).run s₁ = .ok () s₂)
    (put : (substituteText scene left values label site).run s₂ = .ok () s') :
    ∃ k text q ids, site.node = o.fragment + k ∧
      c.document.tree.contents[k]? = some (.text text) ∧ s₂.arena.parent? site.node = some q ∧
      s'.arena.children q = Arena.swap site.node ids (s₂.arena.children q) ∧
      String.join (ids.map s'.arena.html) =
        textSpelling scene left values label s₂ site.node text := by
  have sound := files.sound _ _ known
  obtain ⟨own, s₀, u, received, -, fragment, sites, computed, filled⟩ := openInstance_ok opened
  obtain ⟨f, draft⟩ := draft_opened sound ((tidy_receive scene host).of_ok tidy received) sites
    computed filled
  rw [texts, List.map_append, List.map_cons] at draft
  obtain ⟨tidy₂, f₂, ready⟩ :=
    draft_texts files.sound ((tidy_openInstance _ _ _ _ _).of_ok tidy opened) draft before
  have mem : site ∈ o.sites.texts := texts ▸ List.mem_append_right _ List.mem_cons_self
  rw [sites] at mem
  obtain ⟨inner, listed, rfl⟩ := List.mem_map.mp mem
  obtain ⟨text, found, tokens⟩ := sound.exists_text listed
  have place : s₀.arena.size + inner.node = o.fragment + inner.node := by rw [fragment]; rfl
  dsimp only at draft ready put ⊢
  rw [place] at draft ready put ⊢
  obtain ⟨q, ids, parent, children, html⟩ := spelt_of_text files.sound tidy₂ put ready
    (text_lasts opened found draft before) tokens
  exact ⟨inner.node, text, q, ids, rfl, found, parent, children, html⟩

end

/-! ### A text with a list in it -/

/-- Says two things in one text. -/
def remark : Component where
  id := "x-remark"
  path := "remark.html"
  dir := ""
  document := ⟨.node .root [.node (.element ⟨"p", []⟩) [.node (.text "a {{x}} & {{y}}") []]],
    { texts := [⟨2, [⟨"x", "{{x}}"⟩, ⟨"y", "{{y}}"⟩]⟩] }⟩
  script := none

def remarkLibrary : Library where
  component? id := if id = "x-remark" then some remark else none
  templates := ["x-remark"]
  pages := []

def remarkPage : Page where
  values := []
  document := ⟨.node .root [], {}⟩

def remarkScene : Scene := .ofPage remarkLibrary failingSandbox "" remarkPage

/-- One of the names has a value: a text, markup and a component that there is not. -/
def remarked : Values := [("x", .list [.text "<", .markup "<b>m</b>", .component "x-none" []])]

theorem remark_read : (Component.ofRecord "" [] (.ofText "remark.html"
    "<template id=\"x-remark\"><p>a {{x}} & {{y}}</p></template>")).toOption = some remark := by
  decide +kernel

theorem fromFiles_remarkLibrary : remarkLibrary.FromFiles := by
  intro id c known
  simp only [remarkLibrary] at known
  split at known
  · obtain rfl := Option.some.inj known
    exact ⟨_, _, _, ok_of_toOption remark_read⟩
  · cases known

def boldMarkup : Document where
  tree := .node .root [.node (.element ⟨"b", []⟩) [.node (.text "m") []]]
  sites := {}

theorem bold_read : (Document.ofSource .page [] "<b>m</b>").toOption = some boldMarkup := by
  decide +kernel

theorem remark_puts : ∃ o s₁ s' site made,
    (openInstance remarkScene remark "" none []).run (ofPage remarkPage) = .ok o s₁ ∧
    o.sites.texts = [] ++ site :: [] ∧
    Run remarkScene (.text 1 remarked "/#0" site) s₁ made (.ok () s') ∧
    s'.arena.html o.fragment = "<p>a &lt;<b>m</b><x-none></x-none> & {{y}}</p>" := by
  apply Exists.intro
  apply Exists.intro
  apply Exists.intro
  apply Exists.intro
  apply Exists.intro
  apply And.intro
  · rfl
  · apply And.intro
    · rfl
    · apply And.intro
      · apply Run.richText
        · rfl
        · rfl
        · apply Run.piecesLiteral (r := .ok _ _)
          · rfl
          · rfl
          · apply Run.piecesValue (r := .ok _ _)
            · apply Run.valueList
              apply Run.valuesCons (r := .ok _ _)
              · exact .valueText rfl
              · apply Run.valuesCons (r := .ok _ _)
                · exact .valueMarkup (ok_of_toOption bold_read) rfl
                · apply Run.valuesCons (r := .ok _ _)
                  · apply Run.valueUnknown
                    · exact .unknown rfl rfl
                    · rfl
                  · exact .valuesNil
            · apply Run.piecesLiteral (r := .ok _ _)
              · rfl
              · rfl
              · apply Run.piecesLiteral (r := .ok _ _)
                · rfl
                · rfl
                · exact .piecesEmpty rfl .piecesNil
        · rfl
      · decide +kernel

theorem remark_text_is_spelt :
    remarkLibrary.FromFiles ∧ remarkLibrary.component? "x-remark" = some remark ∧
    Tidy (ofPage remarkPage) ∧ ∃ o s₁ s' site,
      (openInstance remarkScene remark "" none []).run (ofPage remarkPage) = .ok o s₁ ∧
      o.sites.texts = [] ++ site :: [] ∧
      (substituteTexts remarkScene 1 remarked "" 0 []).run s₁ = .ok () s₁ ∧
      (substituteText remarkScene 1 remarked "/#0" site).run s₁ = .ok () s' ∧
      s'.arena.html o.fragment = "<p>a &lt;<b>m</b><x-none></x-none> & {{y}}</p>" ∧
      ∃ k text q ids, site.node = o.fragment + k ∧
        remark.document.tree.contents[k]? = some (.text text) ∧
        s₁.arena.parent? site.node = some q ∧
        s'.arena.children q = Arena.swap site.node ids (s₁.arena.children q) ∧
        String.join (ids.map s'.arena.html) =
          textSpelling remarkScene 1 remarked "/#0" s₁ site.node text := by
  obtain ⟨o, s₁, s', site, made, opened, texts, run, html⟩ := remark_puts
  have put : (substituteText remarkScene 1 remarked "/#0" site).run s₁ = .ok () s' :=
    exec_of_run run
  have before : (substituteTexts remarkScene 1 remarked "" 0 []).run s₁ = .ok () s₁ :=
    (exec_eq_iff remarkScene (.texts 1 remarked "" 0 []) s₁ _).mpr ⟨[], .textsNil⟩
  have known : remarkScene.library.component? "x-remark" = some remark := rfl
  exact ⟨fromFiles_remarkLibrary, known, tidy_ofPage _, o, s₁, s', site, opened, texts, before, put,
    html, instance_text_is_spelt fromFiles_remarkLibrary known (tidy_ofPage _) opened texts before
      put⟩

end Expansion
end Stencil
