import AccountService.Pipeline.Metrics
import AccountService.Shared

/-!
# Handles on metrics

Several handles may count in the same metrics. A guard marks a request as being handled for
as long as it is held; it may outlive the handle that it was taken from.

## Main definitions

* `Meters` — handles on metrics, and guards
* `Meters.create`, `Meters.share`, `Meters.drop` — new metrics, a further handle, a handle less
* `Meters.count`, `Meters.enter`, `Meters.leave` — counting, taking and dropping a guard
-/

namespace AccountService

/-- Handles on metrics, and the guards that are held, each with the number of its metrics. -/
structure Meters where
  handles : Shared Metrics
  guards : List (String × Nat)
  deriving Repr

namespace Meters

/-- No handle and no guard. -/
def empty : Meters := ⟨.empty, []⟩

/-- New metrics under a handle, in place of what it counted in. -/
def create (m : Meters) (handle : String) : Meters :=
  { m with handles := m.handles.fresh handle .zero }

/-- The metrics of a handle. -/
def read (m : Meters) (handle : String) : Metrics := (m.handles.get? handle).getD .zero

/-- Counts through a handle. -/
def count (m : Meters) (handle : String) (f : Metrics → Metrics) : Meters :=
  { m with handles := m.handles.update handle f }

/-- A further handle on the same metrics. -/
def share (m : Meters) (handle further : String) : Meters :=
  { m with handles := m.handles.share handle further }

/-- A handle less. Guards that were taken from it stay. -/
def drop (m : Meters) (handle : String) : Meters := { m with handles := m.handles.drop handle }

/-- The number of the metrics that the guard of a name was taken from, if one is held. -/
def guard? (m : Meters) (guard : String) : Option Nat :=
  (m.guards.find? (·.1 == guard)).map (·.2)

/-- Drops the guard of a name, if one is held. -/
def leave (m : Meters) (guard : String) : Meters :=
  match m.guard? guard with
  | some i => ⟨m.handles.updateCell i Metrics.leave, m.guards.filter (·.1 != guard)⟩
  | none => m

/-- Takes a guard from a handle. A guard that the name held is dropped afterwards. -/
def enter (m : Meters) (handle guard : String) : Meters :=
  match m.handles.cell? handle with
  | none => m
  | some i =>
    let m := ({ m with handles := m.handles.updateCell i Metrics.enter } : Meters).leave guard
    { m with guards := (guard, i) :: m.guards }

end Meters

end AccountService
