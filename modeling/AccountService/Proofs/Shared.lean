import AccountService.Auth.KeyStore
import AccountService.Shared
import Mathlib.Data.List.Basic

/-!
# What a shared cell holds

Each operation on shared cells changes either what the names refer to or what the cells hold. A
name that refers to nothing is given a new cell at the end, so the numbers of cells never change.

## Main statements

* `Shared.cell?_point`, `Shared.cell?_fresh`, `Shared.cell?_share`, `Shared.cell?_drop` — what the
  names refer to
* `Shared.cells_ensure`, `Shared.cells_share`, `Shared.cells_update` — what the cells hold
* `Shared.exists_cell?_ensure` — a name that is needed refers to a cell
-/

namespace AccountService.Shared

variable {α : Type} {s : Shared α} {name further other : String} {a : α} {i : Nat} {f g : α → α}

/-! ### Names -/

theorem cell?_point : (s.point name i).cell? other =
    if other = name then some i else s.cell? other := by
  rw [cell?, point]
  by_cases h : other = name
  · simp [h]
  · have hne : (name == other) = false := by simpa using Ne.symm h
    rw [List.find?_cons, if_neg h]
    simp only [hne]
    rw [Auth.KeyStore.find?_filter_ne, if_neg h, cell?]

theorem cell?_fresh : (s.fresh name a).cell? other =
    if other = name then some s.cells.length else s.cell? other :=
  cell?_point

theorem cell?_share (h : s.cell? name = some i) : (s.share name further).cell? other =
    if other = further then some i else s.cell? other := by
  rw [share, h]
  exact cell?_point

theorem cell?_drop : (s.drop name).cell? other = if other = name then none else s.cell? other := by
  rw [cell?, drop, Auth.KeyStore.find?_filter_ne]
  split <;> rfl

@[simp] theorem cell?_update : (s.update name f).cell? other = s.cell? other := by
  rw [update]
  split <;> rfl

theorem cell?_ensure (h : s.cell? name = none) : (s.ensure name a).cell? other =
    if other = name then some s.cells.length else s.cell? other := by
  rw [ensure, h]
  exact cell?_fresh

theorem ensure_eq_self (h : s.cell? name = some i) : s.ensure name a = s := by
  rw [ensure, h]

/-- A name that is needed refers to a cell. -/
theorem exists_cell?_ensure (s : Shared α) (name : String) (a : α) :
    ∃ i, (s.ensure name a).cell? name = some i := by
  cases h : s.cell? name with
  | none => exact ⟨_, (cell?_ensure h).trans (if_pos rfl)⟩
  | some i => exact ⟨i, by rw [ensure_eq_self h, h]⟩

/-! ### Cells -/

theorem cells_ensure (h : s.cell? name = none) : (s.ensure name a).cells = s.cells ++ [a] := by
  rw [ensure, h]
  rfl

@[simp] theorem cells_share : (s.share name further).cells = s.cells := by
  rw [share]
  split <;> rfl

theorem getElem?_updateCell (j : Nat) :
    (s.updateCell i f).cells[j]? = (s.cells[j]?).map fun a => if i = j then f a else a := by
  rw [updateCell, List.getElem?_modify]
  split <;> simp

theorem cells_update (h : s.cell? name = some i) :
    (s.update name f).cells = s.cells.modify i f := by
  rw [update, h]
  rfl

theorem get?_eq (h : s.cell? name = some i) : s.get? name = s.cells[i]? := by
  rw [get?, h, Option.bind_some]

/-- What a change makes of the cell is all that counts of it. -/
theorem update_congr (h : ∀ a, s.get? name = some a → f a = g a) :
    s.update name f = s.update name g := by
  rw [update, update]
  cases hcell : s.cell? name with
  | none => rfl
  | some i =>
    have hcells : s.cells.modify i f = s.cells.modify i g := by
      apply List.ext_getElem?
      intro j
      rw [List.getElem?_modify, List.getElem?_modify]
      by_cases hj : i = j
      · subst hj
        rw [get?_eq hcell] at h
        cases hcontent : s.cells[i]? with
        | none => rfl
        | some a => simp [h a hcontent]
      · simp [hj]
    simp only [updateCell, hcells]

theorem update_eq_self (h : ∀ a, s.get? name = some a → f a = a) : s.update name f = s := by
  have hid : s.update name f = s.update name id := update_congr h
  rw [hid, update]
  split
  · rw [updateCell, List.modify_id]
  · rfl

end AccountService.Shared
