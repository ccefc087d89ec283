import Stencil.Script.Evaluate
import Stencil.Script.Library.Catalog
/-!
The machine that does what evaluations request. Its frames say what is to be done with what the
current request gives, the innermost first. A function that waits, or that gives a value before its
end, is parked with its frames until it goes on.
-/
namespace Stencil.Script

inductive Frame where
  /-- A call, and what is done with its value. -/
  | ret (next : Datum → Heap → Request)
  | attempt (next : Except Datum Outcome → Heap → Request)
  | loop (body : Nat → Option Cursor → Heap → Request) (next : Outcome → Heap → Request)
  /-- The frames before this one belong to a function that settles a promise with its value. -/
  | task (promise : Ref)
  /-- The frames before this one belong to a generator. -/
  | generator (ref : Ref)

/-- A function that goes on later. -/
structure Parked where
  frames : List Frame
  next : Datum → Heap → Request

structure Machine where
  frames : List Frame := []
  parked : Array (Option Parked) := #[]
  /-- How many calls have not ended. -/
  depth : Nat := 0

inductive Status where
  | running (r : Request) (m : Machine)
  /-- The frames are used up. -/
  | idle (h : Heap) (m : Machine)

namespace Machine
open Action

/-- Calls may nest no deeper than this. -/
def maxDepth : Nat := 4000

/-- An evaluation as a request that gives its value. -/
def request (x : Action Datum) (h : Heap) : Request := x (fun v h => .done (.normal v) h) h

def countCalls (fs : List Frame) : Nat :=
  (fs.filter fun
    | .ret _ => true
    | _ => false).length

/-- The frames up to one that belongs to a task, its promise, and the frames after it. -/
def splitTask? : List Frame → Option (List Frame × Ref × List Frame)
  | [] => none
  | .task p :: rest => some ([.task p], p, rest)
  | f :: rest => (splitTask? rest).map fun (inner, p, outer) => (f :: inner, p, outer)

/-- The frames up to one that belongs to a generator, the generator, and the frames after it. -/
def splitGenerator? : List Frame → Option (List Frame × Ref × List Frame)
  | [] => none
  | .generator g :: rest => some ([.generator g], g, rest)
  | f :: rest => (splitGenerator? rest).map fun (inner, g, outer) => (f :: inner, g, outer)

def setGenerator (h : Heap) (g : Ref) (task : Option Nat) : Heap :=
  h.modify g fun o => { o with shape := .generator task }

def park (m : Machine) (p : Parked) : Nat × Machine :=
  (m.parked.size, { m with parked := m.parked.push (some p) })

/-- A parked function, which is parked no longer. -/
def unpark (m : Machine) (task : Nat) : Option Parked × Machine :=
  (m.parked[task]?.join, { m with parked := m.parked.setIfInBounds task none })

/-- A value has come to the innermost frame. -/
def deliver (m : Machine) (o : Outcome) (h : Heap) : Status :=
  match m.frames with
  | [] => .idle h m
  | .ret next :: fs => .running (next o.value h) { m with frames := fs, depth := m.depth - 1 }
  | .attempt next :: fs => .running (next (.ok o) h) { m with frames := fs }
  | .loop body next :: fs =>
    match o with
    | .again scope cursor => .running (body scope cursor h) m
    | o => .running (next o h) { m with frames := fs }
  | .task p :: fs =>
    .running (request (do
      resolve p o.value
      return .object p) h) { m with frames := fs }
  | .generator g :: fs =>
    .running (request (stepResult o.value true) (setGenerator h g none)) { m with frames := fs }

/-- An exception has come to the innermost frame. -/
def raise (m : Machine) (e : Datum) (h : Heap) : Status :=
  match m.frames with
  | [] => .idle h m
  | .ret _ :: fs => .running (.throw e h) { m with frames := fs, depth := m.depth - 1 }
  | .attempt next :: fs => .running (next (.error e) h) { m with frames := fs }
  | .loop _ _ :: fs => .running (.throw e h) { m with frames := fs }
  | .task p :: fs =>
    .running (request (do
      settle p true e
      return .object p) h) { m with frames := fs }
  | .generator g :: fs => .running (.throw e (setGenerator h g none)) { m with frames := fs }

def refuse (m : Machine) (message : String) (h : Heap) : Status :=
  .running (request (typeError message) h) m

/-- A function of a script is called. -/
def enter (m : Machine) (f : Ref) (c : Closure) (this : Datum) (args : List Datum) (h : Heap)
    (next : Datum → Heap → Request) : Status :=
  if maxDepth ≤ m.depth then
    .running (request (rangeError "Maximum call stack size exceeded") h) m
  else if c.info.kind == .constructor || c.info.kind == .derivedConstructor then
    m.refuse "class constructors must be invoked with 'new'" h
  else
    let body := request (applyClosure f c this args)
    if c.info.isGenerator then
      if c.info.isAsync then m.refuse "not a function" h
      else
        let start : Action Datum := do
          let proto ← protoFor (.object f) Heap.generatorProto
          newObject { proto := some proto, shape := .generator (some m.parked.size) }
        let g := h.objects.size
        let (_, m) := m.park ⟨[.generator g], fun _ h => body h⟩
        .running (start next h) m
    else if c.info.isAsync then
      let (p, h) := h.alloc { proto := some Heap.promiseProto, shape := .promise .pending [] }
      .running (body h)
        { m with frames := .task p :: .ret next :: m.frames, depth := m.depth + 1 }
    else
      .running (body h) { m with frames := .ret next :: m.frames, depth := m.depth + 1 }

/-- An object is made. -/
def build (m : Machine) (f : Ref) (c : Closure) (args : List Datum) (target : Datum) (h : Heap)
    (next : Datum → Heap → Request) : Status :=
  if maxDepth ≤ m.depth then
    .running (request (rangeError "Maximum call stack size exceeded") h) m
  else
    let makes := match c.info.kind with
      | .plain => !c.info.isAsync && !c.info.isGenerator
      | .constructor | .derivedConstructor => true
      | _ => false
    if makes then
      .running (request (construct f c args target) h)
        { m with frames := .ret next :: m.frames, depth := m.depth + 1 }
    else m.refuse "not a constructor" h

/-- Does what is requested, as far as the next request. -/
def step (m : Machine) : Request → Status
  | .done o h => m.deliver o h
  | .throw e h => m.raise e h
  | .call f this args h next =>
    match f with
    | .object r =>
      match h.shape r with
      | .closure c => m.enter r c this args h next
      | .native n _ => .running (Library.applyNative n this args next h) m
      | .bound g this more => .running (.call g this (more ++ args) h next) m
      | _ => m.refuse "not a function" h
    | _ => m.refuse "not a function" h
  | .make f args target h next =>
    match f with
    | .object r =>
      match h.shape r with
      | .closure c => m.build r c args target h next
      | .native n true => .running (Library.constructNative n args target next h) m
      | .bound g _ more =>
        .running (.make g (more ++ args) (if target.same f then g else target) h next) m
      | _ => m.refuse "not a constructor" h
    | _ => m.refuse "not a constructor" h
  | .attempt body h next => .running (body h) { m with frames := .attempt next :: m.frames }
  | .loop scope cursor body h next =>
    .running (body scope cursor h) { m with frames := .loop body next :: m.frames }
  | .await p h next =>
    match splitTask? m.frames with
    | none => .idle h m
    | some (inner, q, outer) =>
      let (task, m) := m.park ⟨inner, next⟩
      .running (.done (.normal (.object q)) (react h p (.resume task)))
        { m with frames := outer, depth := m.depth - countCalls inner }
  | .resume g throws v h next =>
    match h.shape g with
    | .generator (some task) =>
      match m.unpark task with
      | (some p, m) =>
        let h := setGenerator h g none
        .running (if throws then .throw v h else p.next v h)
          { m with frames := p.frames ++ .ret next :: m.frames
                   depth := m.depth + countCalls p.frames + 1 }
      | (none, m) => m.refuse "not a generator" h
    | _ => .running (if throws then .throw v h else stepResult .undefined true next h) m
  | .yield v h next =>
    match splitGenerator? m.frames with
    | none => .idle h m
    | some (inner, g, outer) =>
      let (task, m) := m.park ⟨inner, next⟩
      .running (request (stepResult v false) (setGenerator h g (some task)))
        { m with frames := outer, depth := m.depth - countCalls inner }

/-- Begins a piece of work that has been put off. -/
def begin (m : Machine) (j : Job) (h : Heap) : Status :=
  match j with
  | .react (.handle f g q) rejected v =>
    .running (request (do
      runHandler f g q rejected v
      return .undefined) h) m
  | .react (.resume task) rejected v =>
    match m.unpark task with
    | (some p, m) =>
      .running (if rejected then .throw v h else p.next v h)
        { m with frames := p.frames, depth := countCalls p.frames }
    | (none, m) => .idle h m
  | .adopt p object thenMethod =>
    .running (request (do
      adopt p object thenMethod
      return .undefined) h) m

/-- How a run ends. -/
inductive Finish where
  | fulfilled (v : Datum)
  | rejected (e : Datum)
  /-- Nothing is left that could settle the promise. -/
  | stuck
  /-- The steps have been used up. -/
  | overdue

/-- Works until a promise is settled, for so many steps. Gives the steps that are left too. -/
def run (goal : Ref) : (fuel : Nat) → Status → Finish × Heap × Machine × Nat
  | 0, .running r m => (.overdue, r.heap, m, 0)
  | 0, .idle h m => (.overdue, h, m, 0)
  | fuel + 1, .running r m => run goal fuel (m.step r)
  | fuel + 1, .idle h m =>
    match h.shape goal with
    | .promise (.fulfilled v) _ => (.fulfilled v, h, m, fuel)
    | .promise (.rejected e) _ => (.rejected e, h, m, fuel)
    | _ =>
      match h.jobs[h.nextJob]? with
      | none => (.stuck, h, m, fuel)
      | some j => run goal fuel (m.begin j { h with nextJob := h.nextJob + 1 })

/-- Runs an evaluation that may wait, until its promise is settled. -/
def perform (x : Action Datum) (fuel : Nat) (h : Heap) (m : Machine) :
    Finish × Heap × Machine × Nat :=
  let (p, h) := h.alloc { proto := some Heap.promiseProto, shape := .promise .pending [] }
  run p fuel (.running (request x h) { m with frames := [.task p], depth := 0 })

end Machine
end Stencil.Script
