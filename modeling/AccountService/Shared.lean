/-!
# Shared cells

Several handles may refer to one cell: what is done through one of them is seen through all.
Handles go by names.

## Main definitions

* `Shared` — cells and the names that refer to them
* `Shared.get?`, `Shared.update` — reading and changing through a name
* `Shared.fresh`, `Shared.share`, `Shared.drop` — a new cell, a further name, a name less
-/

namespace AccountService

/-- Cells and the names that refer to them. -/
structure Shared (α : Type) where
  /-- The cells; they are never removed. -/
  cells : List α
  /-- The names, each with the number of its cell. The first binding of a name counts. -/
  names : List (String × Nat)
  deriving Repr

namespace Shared

variable {α : Type}

/-- No cell and no name. -/
def empty : Shared α := ⟨[], []⟩

/-- The number of the cell that a name refers to. -/
def cell? (s : Shared α) (name : String) : Option Nat :=
  (s.names.find? (·.1 == name)).map (·.2)

/-- What a name refers to. -/
def get? (s : Shared α) (name : String) : Option α := (s.cell? name).bind fun i => s.cells[i]?

/-- A name for a cell, in place of what it referred to. -/
def point (s : Shared α) (name : String) (i : Nat) : Shared α :=
  { s with names := (name, i) :: s.names.filter (·.1 != name) }

/-- A new cell under a name. -/
def fresh (s : Shared α) (name : String) (a : α) : Shared α :=
  { s with cells := s.cells ++ [a] }.point name s.cells.length

/-- A new cell under a name that refers to nothing yet. -/
def ensure (s : Shared α) (name : String) (a : α) : Shared α :=
  match s.cell? name with
  | some _ => s
  | none => s.fresh name a

/-- A further name for what a name refers to. -/
def share (s : Shared α) (name further : String) : Shared α :=
  match s.cell? name with
  | some i => s.point further i
  | none => s

/-- A name less; the cell stays. -/
def drop (s : Shared α) (name : String) : Shared α :=
  { s with names := s.names.filter (·.1 != name) }

/-- Changes a cell. -/
def updateCell (s : Shared α) (i : Nat) (f : α → α) : Shared α :=
  { s with cells := s.cells.modify i f }

/-- Changes what a name refers to. -/
def update (s : Shared α) (name : String) (f : α → α) : Shared α :=
  match s.cell? name with
  | some i => s.updateCell i f
  | none => s

end Shared

end AccountService
