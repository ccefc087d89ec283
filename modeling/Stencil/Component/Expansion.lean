import Stencil.Component.Client
import Stencil.Component.Library
import Stencil.Markup.Entity
/-!
Expansion of a page. Every custom element that names a component is replaced by an instance of it:
tokens get the values of the instance, custom elements in the instance are expanded in turn, and its
slots are filled with what stood in the element, or keep their own content.

How deep instances nest is limited, and a page has finitely many elements, so expansion ends whatever
the components are.
-/
namespace Stencil
open Markup

/-- What a behavior script is run with. -/
structure ScriptRequest where
  /-- The path that the script is known by. -/
  path : String
  source : String
  values : Json
  page : Json
  templates : List String
  pages : List String

structure ScriptOutput where
  values : List (String × Json)
  /-- The text of the client behavior. -/
  client : Option String

/-- Runs behavior scripts. What a script logs is given whether it fails or not. -/
abbrev Sandbox := ScriptRequest → Except ScriptError ScriptOutput × List LogEntry

/-- What a script has given for an instance. -/
structure Computed where
  values : Values
  client : Option String

/-- What does not change while a page is expanded. -/
structure Scene where
  library : Library
  sandbox : Sandbox
  path : String
  /-- The values that the page declares. -/
  document : Values

/-- The scene in which a page is expanded. -/
def Scene.ofPage (library : Library) (sandbox : Sandbox) (path : String) (page : Page) : Scene where
  library
  sandbox
  path
  document := Values.ofDocument page.values

/-- A page that is being expanded. -/
structure Expansion where
  arena : Arena
  /-- Results of scripts by context. -/
  cache : Assoc Computed := []
  instances : List ClientInstance := []
  /-- Values other than text that attributes of custom elements stand for. -/
  rich : List (NodeId × Values) := []
  nextRef : Nat := 0
  logs : List LogEntry := []

/-- A change of a page that is being expanded. What has been done before a failure stays done. -/
abbrev Expand := EStateM CompileError Expansion

namespace Expansion

/-- How deep instances may nest. -/
def maxDepth : Nat := 64

/-- Elements whose text is never escaped. -/
def rawParents : List String := ["script", "style"]

def ofPage (page : Page) : Expansion := { arena := .ofTree page.document.tree }

def modifyArena (f : Arena → Arena) : Expand Unit := modify fun s => { s with arena := f s.arena }

def alloc (c : Content) : Expand NodeId := do
  let (id, arena) := (← get).arena.alloc c
  modify fun s => { s with arena }
  return id

def takeChildren (id : NodeId) : Expand (List NodeId) := do
  let (ids, arena) := (← get).arena.takeChildren id
  modify fun s => { s with arena }
  return ids

/-- Puts copies of trees into the store. Their roots have no place. -/
def graftAll (ts : List Tree) : Expand (List NodeId) :=
  ts.mapM fun t => do
    let (id, arena) := (← get).arena.graft t
    modify fun s => { s with arena }
    return id

/-! ### The host of an instance -/

/-- The attributes of a host as values; rich values come last. -/
def hostValues (e : Element) (rich : Values) : Values :=
  e.attributes.map (fun a => (a.name, Value.text (Entity.decodeText (a.value.getD "")))) ++ rich

/-- Puts the value of an attribute. A name with hyphens has a form without them as well. -/
def putHostValue (values : Values) (entry : String × Value) : Values :=
  let values :=
    if entry.1.toList.contains '-' then values.put (Text.camelCase entry.1) entry.2 else values
  values.put entry.1 entry.2

def mergeHost (host : NodeId) (values : Values) : Expand Values := do
  let s ← get
  match s.arena.element? host with
  | none => return values
  | some e =>
    let rich := (s.rich.lookup host).getD []
    set { s with rich := s.rich.filter (·.1 != host) }
    return (hostValues e rich).foldl putHostValue values

/-- Takes the children of a host and sorts them by the slot that they name. -/
def partitionSlots (host : NodeId) : Expand (Assoc (List NodeId)) := do
  let ids ← takeChildren host
  ids.foldlM (fun slots id => do
    let a := (← get).arena
    let name := slotName ((a.element? id).bind fun e => (e.attribute? "slot").bind (·.value))
    modifyArena (·.modifyElement id (·.eraseAttr "slot"))
    return slots.put name ((Assoc.get? slots name).getD [] ++ [id])) []

/-! ### Scripts -/

def scriptRequest (scene : Scene) (c : Component) (script : String) (values : Values) :
    ScriptRequest where
  path := c.scriptPath
  source := script
  values := values.toJson
  page := .object [("path", .string scene.path), ("values", scene.document.toJson)]
  templates := scene.library.templates
  pages := scene.library.pages

/-- What the result of a script says about an instance of a component. -/
def computedOf (c : Component) : Except ScriptError ScriptOutput → Except CompileError Computed
  | .error .missingDefaultExport => .error (.missingDefaultExport c.id)
  | .error cause => .error (.script c.id cause)
  | .ok out =>
    match Values.ofJson? out.values with
    | .error e => .error (.invalidValue e.key)
    | .ok values => .ok ⟨values, out.client⟩

/-- What the sandbox answers to the request of an instance, and what it logs. -/
def answer (scene : Scene) (c : Component) (script : String) (values : Values) :
    Except CompileError Computed × List LogEntry :=
  let (result, logs) := scene.sandbox (scriptRequest scene c script values)
  (computedOf c result, logs)

/-- Runs the script of an instance, unless that has been done in this context. -/
def evaluate (scene : Scene) (c : Component) (script context : String) (values : Values) :
    Expand Computed := do
  if let some done := Assoc.get? (← get).cache context then
    return done
  let (result, logs) := answer scene c script values
  modify fun s => { s with logs := s.logs ++ logs }
  match result with
  | .error e => throw e
  | .ok done =>
    modify fun s => { s with cache := s.cache.put context done }
    return done

/-- What the script of a component gives, if there is a script. -/
def compute (scene : Scene) (c : Component) (context : String) (values : Values) :
    Expand (Option Computed) :=
  match c.script with
  | none => return none
  | some script => some <$> evaluate scene c script context values

/-! ### Tokens -/

/-- Puts values into the value of an attribute, one token after the other. -/
def fillAttribute (values : Values) (tokens : List Token) (text : String) : String :=
  tokens.foldl (fun text t =>
    match Assoc.get? values t.name with
    | some v => Text.replaceText t.raw (Entity.escapeAttribute v.plain) text
    | none => text) text

/-- The value of an attribute that holds a single token and nothing else, unless it is text. -/
def richValue? (values : Values) (tokens : List Token) (text : String) : Option Value :=
  match tokens with
  | [t] =>
    if Text.trimmed text = t.raw then
      (Assoc.get? values t.name).filter fun v => v.text?.isNone
    else none
  | _ => none

def putRich (node : NodeId) (name : String) (v : Value) (rich : List (NodeId × Values)) :
    List (NodeId × Values) :=
  match rich.lookup node with
  | none => rich ++ [(node, [(name, v)])]
  | some old => rich.map fun (n, vs) => if n = node then (n, old.put name v) else (n, vs)

def substituteAttribute (values : Values) (site : AttributeSite) : Expand Unit := do
  let a := (← get).arena
  match a.element? site.node with
  | none => return
  | some e =>
    match e.attr? site.name with
    | none => return
    | some text =>
      if e.isCustom then
        if let some v := richValue? values site.tokens text then
          modify fun s => { s with rich := putRich site.node site.name v s.rich }
      let filled := fillAttribute values site.tokens text
      modifyArena (·.modifyElement site.node (·.setAttr site.name filled))

/-- A part of a text: as it is written, or a value. -/
inductive Piece where
  | literal (s : String)
  | value (v : Value)

/-- A text cut at its tokens. A token that no value is bound to stays as it is. -/
def pieces (values : Values) : List Token → List Char → List Piece
  | [], s => [.literal (String.ofList s)]
  | t :: ts, s =>
    match Text.cut? t.raw.toList s with
    | none => pieces values ts s
    | some (before, rest) =>
      .literal (String.ofList before) ::
        (match Assoc.get? values t.name with
          | some v => .value v
          | none => .literal t.raw) :: pieces values ts rest

/-- The node stands right in an element whose text is never escaped. -/
def isRaw (a : Arena) (node : NodeId) : Bool :=
  ((a.parent? node).bind a.element?).any fun e => rawParents.contains e.name

/-- The piece does not need nodes of its own. -/
def Piece.isPlain (raw : Bool) : Piece → Bool
  | .literal _ => true
  | .value v => v.text?.isSome || raw

/-- The text of a piece that needs no nodes. -/
def Piece.text (raw : Bool) : Piece → String
  | .literal s => s
  | .value v => if raw then v.plain else Entity.escapeText v.plain

/-! ### Client behaviors -/

/-- Takes away the `ref` attributes. In an instance with a client behavior their elements get
numbers. -/
def captureRefs (sites : Sites) (hasClient : Bool) : Expand (List (String × String)) :=
  sites.refs.foldlM (fun refs node => do
    let name := ((← get).arena.element? node).bind fun e => (e.attribute? "ref").bind (·.value)
    modifyArena (·.modifyElement node (·.eraseAttr "ref"))
    match name with
    | none => return refs
    | some name =>
      if !hasClient || name.isEmpty then return refs
      let n := (← get).nextRef
      modify fun s => { s with
        nextRef := n + 1
        arena := s.arena.modifyElement node (·.setAttr refAttribute (toString n)) }
      return refs ++ [(name, refSelector n)]) []

/-- The record of an instance with a client behavior. -/
def clientInstance (context : String) (c : Component) (source : String) (values : Values)
    (refs : List (String × String)) : ClientInstance where
  context
  template := c.id
  source
  values := values.filter fun (key, _) => mentions source key
  refs

/-- Adds a record, once for a context. -/
def addRecord (records : List ClientInstance) (i : ClientInstance) : List ClientInstance :=
  if records.any (·.context == i.context) then records else records ++ [i]

/-- Records an instance with a client behavior. -/
def register (i : ClientInstance) : Expand Unit :=
  modify fun s => { s with instances := addRecord s.instances i }

/-! ### Instances -/

/-- The custom elements below a node that stand neither in another custom element nor in a slot, with
the context of each. -/
def hosts (a : Arena) (scope : NodeId) (context : String) : List (NodeId × String) :=
  (a.descendants scope).filterMap fun id =>
    match a.element? id with
    | none => none
    | some e =>
      let covers : Content → Bool := fun c =>
        c.element?.any fun e => e.isCustom || e.name == "slot"
      if id != scope && e.isCustom && !a.hasAncestorBefore scope covers id then
        some (id, context ++ "/" ++ toString ((a.indexInParent? id).getD 0) ++ ":" ++ e.name)
      else none

/-- Content that a slot is given counts if it is more than blanks. -/
def isContent (a : Arena) (ids : List NodeId) : Bool := ids.any fun id => !a.isBlankText id

/-- Puts what a slot is supplied with below a new root without a place, or else what stands in it. -/
def holdContent (supplied : Assoc (List NodeId)) (name : String) (slot : NodeId) :
    Expand NodeId := do
  let given := (Assoc.get? supplied name).filter (isContent (← get).arena)
  let holder ← alloc .root
  let ids ← match given with
    | some ids => pure ids
    | none => takeChildren slot
  modifyArena fun a => ids.foldl (·.append holder ·) a
  return holder

def logUnknown (scene : Scene) (id : String) : Expand Unit :=
  modify fun s => { s with
    logs := s.logs ++ [⟨.warn, "Unknown component <" ++ id ++ "> in " ++ scene.path⟩] }

/-- An instance that has its nodes and its values. Nothing in it has been expanded yet, and it has no
place. -/
structure Opened where
  /-- The root of the instance. -/
  fragment : NodeId
  sites : Sites
  /-- What the slots are given, by name. -/
  supplied : Assoc (List NodeId)
  /-- The values that the instance gets from the page and from where it is used. -/
  own : Values
  /-- What the script has given, if there is a script. -/
  given : Option Computed

/-- The values that tokens are replaced with. Those of the script win. -/
def Opened.values (o : Opened) : Values :=
  match o.given with
  | none => o.own
  | some computed => o.own.putAll computed.values

def Opened.client (o : Opened) : Option String := o.given.bind (·.client)

/-- What an instance gets from its host: the values of the page with those of the attributes, and
content for its slots. -/
def receive (scene : Scene) (host : Option NodeId) : Expand (Values × Assoc (List NodeId)) :=
  match host with
  | none => return (scene.document, [])
  | some host => do
    let values ← mergeHost host scene.document
    let supplied ← partitionSlots host
    return (values, supplied)

/-- Copies a component, and computes the values of the copy. -/
def openInstance (scene : Scene) (c : Component) (context : String) (host : Option NodeId)
    (extra : Values) : Expand Opened := do
  let (values, supplied) ← receive scene host
  let own := values.putAll extra
  let (fragment, sites, arena) := c.instantiate (← get).arena
  modify fun s => { s with arena }
  let given ← compute scene c context own
  let o : Opened := { fragment, sites, supplied, own, given }
  sites.attributes.forM (substituteAttribute o.values)
  return o

/-- Gives numbers to the elements that the client behavior of an instance refers to, and records the
instance. -/
def bindRefs (c : Component) (context : String) (o : Opened) : Expand (List (String × String)) := do
  let refs ← captureRefs o.sites o.client.isSome
  if let some source := o.client then register (clientInstance context c source o.values refs)
  return refs

mutual

/-- Makes an instance of a component; `room` counts the levels that may still nest. Gives the root of
the instance, which has no place yet, or none for an unknown id. A host gives its attributes to the
values of the instance and its children to the slots. -/
def create (scene : Scene) (room : Nat) (id context : String) (host : Option NodeId)
    (extra : Values) : Expand (Option NodeId) := do
  match scene.library.component? id with
  | none =>
    logUnknown scene id
    return none
  | some c =>
    match room with
    | 0 => throw (.recursionLimit id scene.path)
    | left + 1 =>
      let o ← openInstance scene c context host extra
      substituteTexts scene left o.values context 0 o.sites.texts
      let _ ← bindRefs c context o
      expandWithin scene left (← get).arena.size o.fragment context
      fillSlots scene left o.fragment o.supplied context o.sites.slots
      return some o.fragment
termination_by (room, 0, 5, 0)

/-- Puts values into texts, which are numbered from `index` on. `left` counts the levels that may nest
in the instance. -/
def substituteTexts (scene : Scene) (left : Nat) (values : Values) (context : String) (index : Nat)
    (sites : List TextSite) : Expand Unit := do
  match sites with
  | [] => return
  | site :: rest =>
    substituteText scene left values (context ++ "/#" ++ toString index) site
    substituteTexts scene left values context (index + 1) rest
termination_by (left + 1, 0, 4, sizeOf sites)

/-- Puts values into a text. A text of plain pieces stays one text; otherwise nodes take its place. -/
def substituteText (scene : Scene) (left : Nat) (values : Values) (context : String)
    (site : TextSite) : Expand Unit := do
  let a := (← get).arena
  match a.text? site.node with
  | none => return
  | some text =>
    let ps := pieces values site.tokens text.toList
    let raw := isRaw a site.node
    if ps.all (·.isPlain raw) then
      modifyArena (·.setContent site.node (.text (String.join (ps.map (·.text raw)))))
    else
      let nodes ← placePieces scene left context 0 ps
      modifyArena (·.replaceWith site.node nodes)
termination_by (left + 1, 0, 3, 0)

/-- The nodes of pieces, which are numbered from `index` on. A literal without text has none. -/
def placePieces (scene : Scene) (left : Nat) (context : String) (index : Nat) (ps : List Piece) :
    Expand (List NodeId) := do
  match ps with
  | [] => return []
  | .literal s :: rest =>
    if s.isEmpty then placePieces scene left context (index + 1) rest
    else
      let id ← alloc (.text s)
      return id :: (← placePieces scene left context (index + 1) rest)
  | .value v :: rest =>
    let ids ← materialize scene left (context ++ "." ++ toString index) v
    return ids ++ (← placePieces scene left context (index + 1) rest)
termination_by (left + 1, 0, 2, sizeOf ps)

/-- The nodes that a value stands for. -/
def materialize (scene : Scene) (left : Nat) (context : String) (v : Value) :
    Expand (List NodeId) := do
  match v with
  | .text s => return [← alloc (.text (Entity.escapeText s))]
  | .markup s =>
    match Document.ofSource .page [] s with
    | .error cause => throw (.markup context cause)
    | .ok d => graftAll d.tree.children
  | .component id values =>
    match ← create scene left id (context ++ ":" ++ id) none values with
    | some fragment => takeChildren fragment
    | none => return [← alloc (.element { name := id })]
  | .list items => materializeAll scene left context 0 items
termination_by (left + 1, 0, 1, sizeOf v)

/-- The nodes of values, which are numbered from `index` on. -/
def materializeAll (scene : Scene) (left : Nat) (context : String) (index : Nat)
    (items : List Value) : Expand (List NodeId) := do
  match items with
  | [] => return []
  | v :: rest =>
    let ids ← materialize scene left (context ++ "[" ++ toString index ++ "]") v
    return ids ++ (← materializeAll scene left context (index + 1) rest)
termination_by (left + 1, 0, 1, sizeOf items)

/-- Expands the custom elements below a node. `height` bounds how deep they can stand in one
another. -/
def expandWithin (scene : Scene) (room height : Nat) (scope : NodeId) (context : String) :
    Expand Unit := do
  expandHosts scene room height (hosts (← get).arena scope context)
termination_by (room, 1, 3 * height + 2, 0)

/-- Expands custom elements one after the other, each in its context. -/
def expandHosts (scene : Scene) (room height : Nat) (hosts : List (NodeId × String)) :
    Expand Unit := do
  match hosts with
  | [] => return
  | (host, context) :: rest =>
    expandHost scene room height host context
    expandHosts scene room height rest
termination_by (room, 1, 3 * height + 1, sizeOf hosts)

/-- Replaces a custom element by an instance of its component. An unknown one stays, and what stands
in it is expanded. -/
def expandHost (scene : Scene) (room height : Nat) (host : NodeId) (context : String) :
    Expand Unit := do
  match (← get).arena.element? host with
  | none => return
  | some e =>
    match ← create scene room e.name context (some host) [] with
    | some fragment =>
      let ids ← takeChildren fragment
      modifyArena (·.replaceWith host ids)
    | none =>
      match height with
      | 0 => return
      | height + 1 => expandWithin scene (room - 1) height host context
termination_by (room, 1, 3 * height, 0)
decreasing_by
  · decreasing_tactic
  · simp [Prod.lex_def]; omega

/-- Puts into each slot what it is supplied with, or else what stands in it. -/
def fillSlots (scene : Scene) (room : Nat) (fragment : NodeId) (supplied : Assoc (List NodeId))
    (context : String) (slots : List (String × NodeId)) : Expand Unit := do
  match slots with
  | [] => return
  | (name, slot) :: rest =>
    if (← get).arena.isBelow slot fragment then
      let holder ← holdContent supplied name slot
      expandWithin scene room (← get).arena.size holder (context ++ "/slot:" ++ name)
      let ids ← takeChildren holder
      modifyArena (·.replaceWith slot ids)
    fillSlots scene room fragment supplied context rest
termination_by (room, 2, 0, sizeOf slots)

end

/-- Expands every custom element of a page. -/
def expandPage (scene : Scene) : Expand Unit := do
  let height := (← get).arena.size
  expandWithin scene maxDepth height Arena.root scene.path

/-- How the script of a page is made. -/
structure ClientSettings where
  /-- Shortens a script, if that is asked for. It may fail. -/
  minify : Option (String → Option String) := none
  modules : List ClientModule := []

/-- Adds the script of the page. -/
def addBundle (settings : ClientSettings) (s : Expansion) : Expansion :=
  match Bundle.ofInstances settings.minify settings.modules s.instances with
  | none => s
  | some (b, logs) => { s with arena := b.inject s.arena, logs := s.logs ++ logs }

def html (s : Expansion) : String := s.arena.html Arena.root

end Expansion

/-- The HTML of a page, and what has been logged. -/
def Scene.compile (scene : Scene) (settings : Expansion.ClientSettings) (page : Page) :
    Except CompileError String × List LogEntry :=
  match (Expansion.expandPage scene).run (Expansion.ofPage page) with
  | .ok _ s =>
    let s := s.addBundle settings
    (.ok s.html, s.logs)
  | .error e s => (.error e, s.logs)

end Stencil
