import Stencil.Proofs.Expansion.Tidy
import Stencil.Proofs.Markup.Forest
/-!
Expansion that keeps a journal. The functions here do what those of expansion do, and write down each
change of the store as they make it. When the journal is played from the start, the store goes through
all the states that it has been in.
-/
namespace Stencil
open Markup

namespace Markup

/-- A change of a store. -/
inductive Move where
  | alloc (c : Content)
  | graft (t : Tree)
  | setContent (id : NodeId) (c : Content)
  | modifyElement (id : NodeId) (f : Element → Element)
  | takeChildren (id : NodeId)
  | append (parent child : NodeId)
  | replaceWith (target : NodeId) (ids : List NodeId)

namespace Move

def apply (a : Arena) : Move → Arena
  | alloc c => (a.alloc c).2
  | graft t => (a.graft t).2
  | setContent id c => a.setContent id c
  | modifyElement id f => a.modifyElement id f
  | takeChildren id => (a.takeChildren id).2
  | append parent child => a.append parent child
  | replaceWith target ids => a.replaceWith target ids

/-- What a move asks of a forest that it is to keep. -/
def Legal (a : Arena) : Move → Prop
  | append parent child => parent < a.size ∧ a.Loose parent [child]
  | replaceWith target ids => a.Replaceable target ids
  | _ => True

end Move

namespace Arena

def play (a : Arena) (ms : List Move) : Arena := ms.foldl Move.apply a

/-- Every move is legal where it is made. -/
def Lawful (a : Arena) : List Move → Prop
  | [] => True
  | m :: ms => m.Legal a ∧ Lawful (m.apply a) ms

theorem play_append (a : Arena) (ms ns : List Move) : a.play (ms ++ ns) = (a.play ms).play ns :=
  List.foldl_append

theorem lawful_append {a : Arena} {ms ns : List Move} :
    a.Lawful (ms ++ ns) ↔ a.Lawful ms ∧ (a.play ms).Lawful ns := by
  induction ms generalizing a with
  | nil => exact (and_iff_right trivial).symm
  | cons m ms ih =>
    change m.Legal a ∧ Lawful (m.apply a) (ms ++ ns) ↔ (m.Legal a ∧ Lawful (m.apply a) ms) ∧ _
    rw [ih, and_assoc]
    rfl

end Arena
end Markup

/-- Expands a page and adds its script. -/
def Expansion.compilePage (scene : Scene) (settings : Expansion.ClientSettings) : Expand Unit := do
  Expansion.expandPage scene
  modify (·.addBundle settings)

theorem Scene.compile_eq (scene : Scene) (settings : Expansion.ClientSettings) (page : Page) :
    scene.compile settings page =
      match (Expansion.compilePage scene settings).run (Expansion.ofPage page) with
      | .ok _ s => (.ok s.html, s.logs)
      | .error e s => (.error e, s.logs) := by
  rw [Scene.compile, Expansion.compilePage, EStateM.run_bind]
  cases (Expansion.expandPage scene).run (Expansion.ofPage page) with
  | ok _ s => rfl
  | error e s => rfl

/-- A page that is being expanded, and how its nodes have been moved so far. -/
structure Journal where
  page : Expansion
  moves : List Move

/-- A change of a page that is written down. -/
abbrev Journaled := EStateM CompileError Journal

namespace Journaled
open Expansion (Opened scriptRequest hosts)

/-- The page as it is. -/
def look : Journaled Expansion := fun j => .ok j.page j

/-- A step that leaves the store alone. It could not change it if it tried, so a journal has every
change. -/
def quietly {α : Type} (m : Expand α) : Journaled α := fun j =>
  match m.run j.page with
  | .ok a s => .ok a { j with page := { s with arena := j.page.arena } }
  | .error e s => .error e { j with page := { s with arena := j.page.arena } }

def move (m : Move) : Journaled Unit := fun j =>
  .ok () ⟨{ j.page with arena := m.apply j.page.arena }, j.moves ++ [m]⟩

def alloc (c : Content) : Journaled NodeId := do
  let id := (← look).arena.size
  move (.alloc c)
  return id

def takeChildren (id : NodeId) : Journaled (List NodeId) := do
  let ids := (← look).arena.children id
  move (.takeChildren id)
  return ids

def graftAll (ts : List Tree) : Journaled (List NodeId) :=
  ts.mapM fun t => do
    let id := (← look).arena.size
    move (.graft t)
    return id

def partitionSlots (host : NodeId) : Journaled (Assoc (List NodeId)) := do
  let ids ← takeChildren host
  ids.foldlM (fun slots id => do
    let a := (← look).arena
    let name := slotName ((a.element? id).bind fun e => (e.attribute? "slot").bind (·.value))
    move (.modifyElement id (·.eraseAttr "slot"))
    return slots.put name ((Assoc.get? slots name).getD [] ++ [id])) []

def receive (scene : Scene) (host : Option NodeId) : Journaled (Values × Assoc (List NodeId)) :=
  match host with
  | none => return (scene.document, [])
  | some host => do
    let values ← quietly (Expansion.mergeHost host scene.document)
    let supplied ← partitionSlots host
    return (values, supplied)

def substituteAttribute (values : Values) (site : AttributeSite) : Journaled Unit := do
  let a := (← look).arena
  match a.element? site.node with
  | none => return
  | some e =>
    match e.attr? site.name with
    | none => return
    | some text =>
      if e.isCustom then
        if let some v := Expansion.richValue? values site.tokens text then
          quietly (modify fun s =>
            { s with rich := Expansion.putRich site.node site.name v s.rich })
      let filled := Expansion.fillAttribute values site.tokens text
      move (.modifyElement site.node (·.setAttr site.name filled))

def captureRefs (sites : Sites) (hasClient : Bool) : Journaled (List (String × String)) :=
  sites.refs.foldlM (fun refs node => do
    let name := ((← look).arena.element? node).bind fun e => (e.attribute? "ref").bind (·.value)
    move (.modifyElement node (·.eraseAttr "ref"))
    match name with
    | none => return refs
    | some name =>
      if !hasClient || name.isEmpty then return refs
      let n := (← look).nextRef
      quietly (modify fun s => { s with nextRef := n + 1 })
      move (.modifyElement node (·.setAttr refAttribute (toString n)))
      return refs ++ [(name, refSelector n)]) []

def bindRefs (c : Component) (context : String) (o : Opened) :
    Journaled (List (String × String)) := do
  let refs ← captureRefs o.sites o.client.isSome
  if let some source := o.client then
    quietly (Expansion.register (Expansion.clientInstance context c source o.values refs))
  return refs

def holdContent (supplied : Assoc (List NodeId)) (name : String) (slot : NodeId) :
    Journaled NodeId := do
  let given := (Assoc.get? supplied name).filter (Expansion.isContent (← look).arena)
  let holder ← alloc .root
  let ids ← match given with
    | some ids => pure ids
    | none => takeChildren slot
  ids.forM fun id => move (.append holder id)
  return holder

def openInstance (scene : Scene) (c : Component) (context : String) (host : Option NodeId)
    (extra : Values) : Journaled Opened := do
  let (values, supplied) ← receive scene host
  let own := values.putAll extra
  let (fragment, sites, _) := c.instantiate (← look).arena
  move (.graft c.document.tree)
  let given ← quietly (Expansion.compute scene c context own)
  let o : Opened := { fragment, sites, supplied, own, given }
  sites.attributes.forM (substituteAttribute o.values)
  return o

mutual

def create (scene : Scene) (room : Nat) (id context : String) (host : Option NodeId)
    (extra : Values) : Journaled (Option NodeId) := do
  match scene.library.component? id with
  | none =>
    quietly (Expansion.logUnknown scene id)
    return none
  | some c =>
    match room with
    | 0 => throw (.recursionLimit id scene.path)
    | left + 1 =>
      let o ← openInstance scene c context host extra
      substituteTexts scene left o.values context 0 o.sites.texts
      let _ ← bindRefs c context o
      expandWithin scene left (← look).arena.size o.fragment context
      fillSlots scene left o.fragment o.supplied context o.sites.slots
      return some o.fragment
termination_by (room, 0, 5, 0)

def substituteTexts (scene : Scene) (left : Nat) (values : Values) (context : String) (index : Nat)
    (sites : List TextSite) : Journaled Unit := do
  match sites with
  | [] => return
  | site :: rest =>
    substituteText scene left values (context ++ "/#" ++ toString index) site
    substituteTexts scene left values context (index + 1) rest
termination_by (left + 1, 0, 4, sizeOf sites)

def substituteText (scene : Scene) (left : Nat) (values : Values) (context : String)
    (site : TextSite) : Journaled Unit := do
  let a := (← look).arena
  match a.text? site.node with
  | none => return
  | some text =>
    let ps := Expansion.pieces values site.tokens text.toList
    let raw := Expansion.isRaw a site.node
    if ps.all (·.isPlain raw) then
      move (.setContent site.node (.text (String.join (ps.map (·.text raw)))))
    else
      let nodes ← placePieces scene left context 0 ps
      move (.replaceWith site.node nodes)
termination_by (left + 1, 0, 3, 0)

def placePieces (scene : Scene) (left : Nat) (context : String) (index : Nat)
    (ps : List Expansion.Piece) : Journaled (List NodeId) := do
  match ps with
  | [] => return []
  | .literal s :: rest =>
    if s.isEmpty then placePieces scene left context (index + 1) rest
    else
      let id ← alloc (.text s)
      return id :: (← placePieces scene left context (index + 1) rest)
  | .value v :: rest =>
    let ids ← materialize scene left (context ++ "." ++ toString index) v
    return ids ++ (← placePieces scene left context (index + 1) rest)
termination_by (left + 1, 0, 2, sizeOf ps)

def materialize (scene : Scene) (left : Nat) (context : String) (v : Value) :
    Journaled (List NodeId) := do
  match v with
  | .text s => return [← alloc (.text (Entity.escapeText s))]
  | .markup s =>
    match Document.ofSource .page [] s with
    | .error cause => throw (.markup context cause)
    | .ok d => graftAll d.tree.children
  | .component id values =>
    match ← create scene left id (context ++ ":" ++ id) none values with
    | some fragment => takeChildren fragment
    | none => return [← alloc (.element { name := id })]
  | .list items => materializeAll scene left context 0 items
termination_by (left + 1, 0, 1, sizeOf v)

def materializeAll (scene : Scene) (left : Nat) (context : String) (index : Nat)
    (items : List Value) : Journaled (List NodeId) := do
  match items with
  | [] => return []
  | v :: rest =>
    let ids ← materialize scene left (context ++ "[" ++ toString index ++ "]") v
    return ids ++ (← materializeAll scene left context (index + 1) rest)
termination_by (left + 1, 0, 1, sizeOf items)

def expandWithin (scene : Scene) (room height : Nat) (scope : NodeId) (context : String) :
    Journaled Unit := do
  expandHosts scene room height (hosts (← look).arena scope context)
termination_by (room, 1, 3 * height + 2, 0)

def expandHosts (scene : Scene) (room height : Nat) (hosts : List (NodeId × String)) :
    Journaled Unit := do
  match hosts with
  | [] => return
  | (host, context) :: rest =>
    expandHost scene room height host context
    expandHosts scene room height rest
termination_by (room, 1, 3 * height + 1, sizeOf hosts)

def expandHost (scene : Scene) (room height : Nat) (host : NodeId) (context : String) :
    Journaled Unit := do
  match (← look).arena.element? host with
  | none => return
  | some e =>
    match ← create scene room e.name context (some host) [] with
    | some fragment =>
      let ids ← takeChildren fragment
      move (.replaceWith host ids)
    | none =>
      match height with
      | 0 => return
      | height + 1 => expandWithin scene (room - 1) height host context
termination_by (room, 1, 3 * height, 0)
decreasing_by
  · decreasing_tactic
  · simp [Prod.lex_def]; omega

def fillSlots (scene : Scene) (room : Nat) (fragment : NodeId) (supplied : Assoc (List NodeId))
    (context : String) (slots : List (String × NodeId)) : Journaled Unit := do
  match slots with
  | [] => return
  | (name, slot) :: rest =>
    if (← look).arena.isBelow slot fragment then
      let holder ← holdContent supplied name slot
      expandWithin scene room (← look).arena.size holder (context ++ "/slot:" ++ name)
      let ids ← takeChildren holder
      move (.replaceWith slot ids)
    fillSlots scene room fragment supplied context rest
termination_by (room, 2, 0, sizeOf slots)

end

def exec (scene : Scene) : (call : Expansion.Call) → Journaled call.Out
  | .create room id context host extra => create scene room id context host extra
  | .texts left values context index sites => substituteTexts scene left values context index sites
  | .text left values context site => substituteText scene left values context site
  | .pieces left context index ps => placePieces scene left context index ps
  | .value left context v => materialize scene left context v
  | .values left context index items => materializeAll scene left context index items
  | .within room height scope context => expandWithin scene room height scope context
  | .hosts room height hs => expandHosts scene room height hs
  | .host room height node context => expandHost scene room height node context
  | .slots room fragment supplied context sites =>
    fillSlots scene room fragment supplied context sites

def expandPage (scene : Scene) : Journaled Unit := do
  let height := (← look).arena.size
  expandWithin scene Expansion.maxDepth height Arena.root scene.path

/-- Puts the script of a page into the store. -/
def inject (b : Bundle) : Journaled Unit := do
  let a := (← look).arena
  let target := (a.findElement? Arena.root "body").getD Arena.root
  let e : Element := { name := "script" }
  let script ← alloc (.element (if b.isModule then e.setAttr "type" "module" else e))
  let text ← alloc (.text b.source)
  move (.append script text)
  move (.append target script)

def addBundle (settings : Expansion.ClientSettings) : Journaled Unit := do
  match Bundle.ofInstances settings.minify settings.modules (← look).instances with
  | none => return
  | some (b, logs) =>
    inject b
    quietly (modify fun s => { s with logs := s.logs ++ logs })

def compilePage (scene : Scene) (settings : Expansion.ClientSettings) : Journaled Unit := do
  expandPage scene
  addBundle settings

end Journaled
end Stencil
