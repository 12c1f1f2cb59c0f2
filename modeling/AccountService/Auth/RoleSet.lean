/-!
# Roles

A holder of claims has a finite set of roles, each a text. The set is kept as a strictly
ascending list, so that equal sets are equal values.

## Main definitions

* `Auth.RoleSet` — a set of roles
* `Auth.RoleSet.ofList`, `Auth.RoleSet.contains` — making one and asking it
* `Auth.admin`, `Auth.user`, `Auth.knownRoles` — the roles of the service

## Main statements

* `Auth.RoleSet.mem_ofList` — the set of a list has exactly its members
* `Auth.RoleSet.ext` — sets with the same members are equal
-/

namespace AccountService.Auth

/-- The role that may do everything. -/
def admin : String := "ADMIN"

/-- The role of everybody else. -/
def user : String := "USER"

/-- The roles that an account can have. -/
def knownRoles : List String := [admin, user]

/-- A set of roles. -/
structure RoleSet where
  /-- The roles, in ascending order. -/
  toList : List String
  ascending : toList.Pairwise (· < ·)
  deriving DecidableEq

namespace RoleSet

/-- A role put into an ascending list, unless it is there. -/
def insertSorted (r : String) : List String → List String
  | [] => [r]
  | s :: rest => if r < s then r :: s :: rest else if r = s then s :: rest else s :: insertSorted r rest

theorem mem_insertSorted (r x : String) (rs : List String) :
    x ∈ insertSorted r rs ↔ x = r ∨ x ∈ rs := by
  induction rs with
  | nil => simp [insertSorted]
  | cons s rest ih =>
    rw [insertSorted]
    split
    · simp
    · split
      · next h => subst h; simp
      · simp only [List.mem_cons, ih]
        constructor
        · rintro (h | h | h) <;> simp [h]
        · rintro (h | h | h) <;> simp [h]

theorem ascending_insertSorted (r : String) {rs : List String} (h : rs.Pairwise (· < ·)) :
    (insertSorted r rs).Pairwise (· < ·) := by
  induction rs with
  | nil => simp [insertSorted]
  | cons s rest ih =>
    have hs := List.pairwise_cons.1 h
    rw [insertSorted]
    split
    · next hr =>
      refine List.pairwise_cons.2 ⟨fun x hx => ?_, h⟩
      rcases List.mem_cons.1 hx with rfl | hx
      · exact hr
      · exact String.lt_trans hr (hs.1 x hx)
    · split
      · exact h
      · next hr hne =>
        refine List.pairwise_cons.2 ⟨fun x hx => ?_, ih hs.2⟩
        rcases (mem_insertSorted r x rest).1 hx with rfl | hx
        · exact Std.lt_of_le_of_ne (String.not_lt.1 hr) (Ne.symm hne)
        · exact hs.1 x hx

/-- The empty set. -/
def empty : RoleSet := ⟨[], .nil⟩

/-- A set with one more role. -/
def insert (r : String) (rs : RoleSet) : RoleSet :=
  ⟨insertSorted r rs.toList, ascending_insertSorted r rs.ascending⟩

/-- The set of the roles in a list; order and repetition do not matter. -/
def ofList (rs : List String) : RoleSet := rs.foldr insert empty

/-- Whether a role is in a set. -/
def contains (rs : RoleSet) (r : String) : Bool := rs.toList.contains r

theorem mem_insert (r x : String) (rs : RoleSet) :
    x ∈ (rs.insert r).toList ↔ x = r ∨ x ∈ rs.toList :=
  mem_insertSorted r x rs.toList

@[simp] theorem mem_ofList (x : String) (rs : List String) : x ∈ (ofList rs).toList ↔ x ∈ rs := by
  induction rs with
  | nil => simp [ofList, empty]
  | cons r rest ih => rw [List.mem_cons, ← ih]; exact mem_insert r x (ofList rest)

@[simp] theorem contains_ofList (r : String) (rs : List String) :
    (ofList rs).contains r = true ↔ r ∈ rs := by
  simp [contains]

theorem ascending_ext {xs ys : List String} (hx : xs.Pairwise (· < ·)) (hy : ys.Pairwise (· < ·))
    (h : ∀ r, r ∈ xs ↔ r ∈ ys) : xs = ys := by
  induction xs generalizing ys with
  | nil =>
    cases ys with
    | nil => rfl
    | cons y ys => exact absurd ((h y).2 (by simp)) (by simp)
  | cons x xs ih =>
    cases ys with
    | nil => exact absurd ((h x).1 (by simp)) (by simp)
    | cons y ys =>
      have hx' := List.pairwise_cons.1 hx
      have hy' := List.pairwise_cons.1 hy
      have hxy : x = y := by
        rcases List.mem_cons.1 ((h x).1 (by simp)) with e | e
        · exact e
        · rcases List.mem_cons.1 ((h y).2 (by simp)) with e' | e'
          · exact e'.symm
          · exact absurd (String.lt_trans (hy'.1 x e) (hx'.1 y e')) (String.lt_irrefl y)
      subst hxy
      congr 1
      refine ih hx'.2 hy'.2 fun r => ⟨fun hr => ?_, fun hr => ?_⟩
      · rcases List.mem_cons.1 ((h r).1 (List.mem_cons_of_mem _ hr)) with e | e
        · exact absurd (e ▸ hx'.1 r hr) (String.lt_irrefl x)
        · exact e
      · rcases List.mem_cons.1 ((h r).2 (List.mem_cons_of_mem _ hr)) with e | e
        · exact absurd (e ▸ hy'.1 r hr) (String.lt_irrefl x)
        · exact e

theorem ext {a b : RoleSet} (h : ∀ r, r ∈ a.toList ↔ r ∈ b.toList) : a = b := by
  obtain ⟨xs, hx⟩ := a
  obtain ⟨ys, hy⟩ := b
  obtain rfl : xs = ys := ascending_ext hx hy h
  rfl

end RoleSet

end AccountService.Auth
