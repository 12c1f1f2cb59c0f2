import AccountService.Pipeline.Log

/-!
# Shutdown signals

Any number of handles can ask the service to stop; one listener waits for it. Once asked for,
a shutdown stays asked for, also when the handle that did it is gone. The flag is written once for
every request to stop, and the listener goes by the number of times that it was written: where it
has not seen the last of them it looks at the flag, and where it has, it waits for the next or for
the last handle to go.

## Main definitions

* `Shutdown` — the flag, its handles and its listener
* `Shutdown.signal`, `Shutdown.clone`, `Shutdown.drop` — what is done through the handles
* `Shutdown.Wait`, `Shutdown.poll` — a call of the listener, as far as it has come
* `Shutdown.step`, `Shutdown.run` — one use of a handle or of the listener, and any of them in turn
-/

namespace AccountService

namespace Shutdown

/-- How far a call of the listener has come that is not over: it was not polled yet, it waits for
the flag to be written or for the last handle to go, or it waits for good. -/
inductive Wait where
  | unpolled
  | watching
  | lapsed
  deriving DecidableEq, Repr

end Shutdown

/-- The flag, the names of its handles and its listener. -/
structure Shutdown where
  flag : Bool
  /-- How often the flag was written. -/
  version : Nat
  handles : List String
  /-- The last handle is gone. -/
  closed : Bool
  /-- The version that the listener saw last. -/
  seen : Nat
  /-- The last call of the listener, if it is not over. -/
  wait : Option Shutdown.Wait
  deriving DecidableEq, Repr

namespace Shutdown

/-- A signal that nobody has raised, with one handle. -/
def new (handle : String) : Shutdown := ⟨false, 0, [handle], false, 0, none⟩

/-- Whether a handle is there. -/
def isLive (s : Shutdown) (handle : String) : Bool := s.handles.contains handle

/-! ### Handles -/

/-- The warning that a first signal leaves. -/
def warning : Log.Event := ⟨.warn, "shutdown requested by the request pipeline", []⟩

/-- Raises the flag; only the first time is worth a warning. -/
def signal (s : Shutdown) : Shutdown × List Log.Event :=
  ({ s with flag := true, version := s.version + 1 }, if s.flag then [] else [warning])

/-- A further handle. The one that had its name is dropped when it is there. -/
def clone (s : Shutdown) (further : String) : Shutdown :=
  { s with handles := further :: s.handles.filter (· != further) }

/-- A handle less. The last one closes the signal. -/
def drop (s : Shutdown) (handle : String) : Shutdown :=
  let left := s.handles.filter (· != handle)
  { s with handles := left, closed := s.closed || left.isEmpty }

/-! ### The listener -/

/-- Waits for the flag to be written or for the last handle to go. -/
def watch (s : Shutdown) : Option Wait := some (if s.closed then .lapsed else .watching)

/-- Looks at the flag; if it is not raised, waits. -/
def look (s : Shutdown) : Shutdown × Option Wait :=
  let s := { s with seen := s.version }
  (s, if s.flag then none else s.watch)

/-- Polls a call of the listener, and gives how far it has come unless it is over. A flag that was
written counts for more than handles that are gone. -/
def poll (s : Shutdown) : Wait → Shutdown × Option Wait
  | .unpolled => s.look
  | .watching => if s.seen = s.version then (s, s.watch) else s.look
  | .lapsed => (s, some .lapsed)

/-- Polls a call of the listener, which is over if the answer is positive. -/
def await (s : Shutdown) (w : Wait) : Shutdown × Bool :=
  let (s, wait) := s.poll w
  ({ s with wait := wait }, wait.isNone)

/-! ### Steps -/

/-- A use of a handle or of the listener. -/
inductive Step where
  | signal (handle : String)
  | clone (handle further : String)
  | drop (handle : String)
  | isSignalled (handle : String)
  /-- A new call of the listener is polled. A call that was not over is given up. -/
  | recv
  /-- The last call of the listener is polled once more. -/
  | again
  deriving DecidableEq, Repr

/-- What a step gives. -/
inductive Answer where
  | done
  | signalled (raised : Bool)
  | polled (ready : Bool)
  deriving DecidableEq, Repr

/-- What there is to be seen of a step: what it gives, and what it logs. -/
structure Told where
  answer : Answer
  log : List Log.Event
  deriving DecidableEq, Repr

/-- What is done through a handle, which has to be there. -/
def through (s : Shutdown) (handle : String) (f : Shutdown → Shutdown × Told) :
    Option (Shutdown × Told) :=
  if s.isLive handle then some (f s) else none

/-- A step. There is none through a handle that is gone, and a call that is over cannot be
polled. -/
def step (s : Shutdown) : Step → Option (Shutdown × Told)
  | .signal handle => s.through handle fun s =>
    let (s, events) := s.signal
    (s, ⟨.done, events⟩)
  | .clone handle further => s.through handle fun s => (s.clone further, ⟨.done, []⟩)
  | .drop handle => s.through handle fun s => (s.drop handle, ⟨.done, []⟩)
  | .isSignalled handle => s.through handle fun s => (s, ⟨.signalled s.flag, []⟩)
  | .recv =>
    let (s, ready) := s.await .unpolled
    some (s, ⟨.polled ready, []⟩)
  | .again => s.wait.map fun w =>
    let (s, ready) := s.await w
    (s, ⟨.polled ready, []⟩)

/-- Any steps in turn, with what is seen of each. -/
def run (s : Shutdown) : List Step → Option (Shutdown × List Told)
  | [] => some (s, [])
  | t :: later => do
    let (s, told) ← s.step t
    let (s, rest) ← s.run later
    return (s, told :: rest)

end Shutdown

end AccountService
