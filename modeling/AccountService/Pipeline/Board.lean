import AccountService.Pipeline.Exchange

/-!
# Contexts of many requests

Requests are handled side by side. Each time that a request begins, a new context is made and put
into its extensions, in place of the one that was there; who began it keeps a handle on the context.
So one context is reached through the extensions of a request and through handles, and contexts
that a request no longer carries may still be reached. All contexts are kept on one board.

## Main definitions

* `Pipeline.Recorded` — a context object
* `Pipeline.Board` — the objects, and what each request has to reach them by
* `Pipeline.Board.begin`, `Pipeline.Board.get`, `Pipeline.Board.setStatus`,
  `Pipeline.Board.respond` — beginning, asking, recording a status, and answering
* `Pipeline.Board.step` — any of this, as one step that is done on a request
-/

namespace AccountService.Pipeline

open Http

/-! ### Context objects -/

/-- A context with the register in which a status is recorded. -/
structure Recorded where
  context : Context
  /-- The code of the status; zero as long as none was recorded. -/
  register : Nat
  deriving DecidableEq, Repr

/-- A status whose code can be sent. -/
structure SentStatus extends Status where
  inRange : 100 ≤ code ∧ code ≤ 999
  deriving DecidableEq, Repr

namespace Recorded

/-- A context in which no status was recorded. -/
def new (c : Context) : Recorded := ⟨c, 0⟩

/-- The status recorded in a context, if its register holds one. -/
def status (r : Recorded) : Option Status :=
  if 100 ≤ r.register ∧ r.register ≤ 999 then some ⟨r.register⟩ else none

/-- Records a status. -/
def write (r : Recorded) (s : Status) : Recorded := { r with register := s.code }

end Recorded

/-! ### The board -/

/-- What one request has: its extensions, and the handles that were returned when it began. Objects
go by their place on the board. -/
structure Slot where
  /-- The object in the extensions. -/
  current : Option Nat
  /-- The metrics in the extensions. -/
  metrics : Option Metrics
  /-- The objects that the handles are on, in the order in which they were begun. -/
  handles : List Nat
  deriving DecidableEq, Repr

/-- All context objects, and what each request has, by its name. -/
structure Board where
  objects : List Recorded
  slots : String → Slot

namespace Board

/-- No request has begun. -/
def empty : Board := ⟨[], fun _ => ⟨none, none, []⟩⟩

/-- Changes what one request has. -/
def update (b : Board) (name : String) (f : Slot → Slot) : Board :=
  { b with slots := fun n => if n = name then f (b.slots n) else b.slots n }

/-- Begins a request with a fresh context. -/
def begin (b : Board) (name : String) (c : Context) : Board :=
  let i := b.objects.length
  { b with objects := b.objects ++ [Recorded.new c] }.update name fun s =>
    { s with current := some i, handles := s.handles ++ [i] }

/-- Records a status in an object. -/
def write (b : Board) (i : Nat) (s : Status) : Board :=
  { b with objects := b.objects.modify i (·.write s) }

/-- The object that a request carries; it has to have begun. -/
def get (b : Board) (name : String) : Except Error Nat :=
  match (b.slots name).current with
  | some i => .ok i
  | none => .error noContext

/-- What the object holds that a request carries. -/
def context? (b : Board) (name : String) : Option Recorded :=
  (b.slots name).current.bind (b.objects[·]?)

/-- Records a status in the object that a request carries. -/
def setStatus (b : Board) (name : String) (s : Status) : Except Error Board :=
  (b.get name).map (b.write · s)

/-- The identifier of a request for the log. -/
def traceId (b : Board) (name : String) : String :=
  (((b.context? name).map (·.context.traceId)).getD Uuid.nil).text

/-- Gives a request metrics of its own. -/
def addMetrics (b : Board) (name : String) (m : Metrics) : Board :=
  b.update name fun s => { s with metrics := some m }

/-- The metrics of a request. -/
def metrics? (b : Board) (name : String) : Option Metrics := (b.slots name).metrics

/-- The object of a handle of a request. -/
def handle? (b : Board) (name : String) (k : Nat) : Option Nat := (b.slots name).handles[k]?

/-- Answers with a value in JSON, with a handle on a context, and records the status in it. -/
def respond (b : Board) (i : Nat) (data : Option Json) (s : Status) :
    Board × Except Error Response :=
  (b.write i s, answer data s)

/-! ### Steps -/

/-- What is done on a request. A handle goes by how often the request had begun before. -/
inductive Step where
  | begin (c : Context)
  | get
  | setStatus (s : SentStatus)
  | traceId
  | addMetrics (m : Metrics)
  | metrics
  /-- The request is answered, with a handle on one of its contexts. -/
  | respond (handle : Nat) (data : Option Json) (s : SentStatus)
  /-- A status is recorded through a handle. -/
  | write (handle : Nat) (s : SentStatus)
  /-- A context is read through a handle. -/
  | read (handle : Nat)

/-- What a step gives. -/
inductive Answer where
  /-- A context: the handle of the request that is on it, and what it holds. -/
  | context (handle : Nat) (c : Context) (status : Option Status)
  | refused (e : Error)
  | traceId (id : String)
  | metrics (m : Option Metrics)
  | responded (result : Except Error Response)
  | done
  /-- There is no such handle. -/
  | unknown

/-- What is seen of an object, by a request that looks for it among its handles. -/
def look (b : Board) (name : String) (i : Nat) : Answer :=
  match b.objects[i]? with
  | some r => .context ((b.slots name).handles.idxOf i) r.context r.status
  | none => .unknown

/-- What is done through a handle, which has to be there. -/
def through (b : Board) (name : String) (k : Nat) (f : Nat → Board × Answer) : Board × Answer :=
  match b.handle? name k with
  | some i => f i
  | none => (b, .unknown)

/-- A step that is done on a request. -/
def step (b : Board) (name : String) : Step → Board × Answer
  | .begin c =>
    let started := b.begin name c
    (started, started.look name b.objects.length)
  | .get =>
    match b.get name with
    | .ok i => (b, b.look name i)
    | .error e => (b, .refused e)
  | .setStatus s =>
    match b.setStatus name s.toStatus with
    | .ok b => (b, .done)
    | .error e => (b, .refused e)
  | .traceId => (b, .traceId (b.traceId name))
  | .addMetrics m => (b.addMetrics name m, .done)
  | .metrics => (b, .metrics (b.metrics? name))
  | .respond k data s => b.through name k fun i =>
    let (b, result) := b.respond i data s.toStatus
    (b, .responded result)
  | .write k s => b.through name k fun i => (b.write i s.toStatus, .done)
  | .read k => b.through name k fun i => (b, b.look name i)

/-- The board that comes of steps on requests, the last of them first. -/
def run : List (String × Step) → Board
  | [] => empty
  | (name, t) :: past => ((run past).step name t).1

end Board

end AccountService.Pipeline
