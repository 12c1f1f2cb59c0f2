import Mathlib.Data.List.Nodup

/-!
# Searches with at most one answer

Where no two members of a list can be meant, a search finds the one that is, whatever the order.

## Main statements

* `find?_eq_some_iff_of_unique` — at most one member has what is searched for
* `find?_key_iff` — the members are told apart by a key
-/

namespace AccountService

variable {α : Type} {l : List α} {x : α}

/-- A search for what at most one member of a list has finds the one that has it. -/
theorem find?_eq_some_iff_of_unique {p : α → Bool}
    (h : ∀ y ∈ l, ∀ z ∈ l, p y = true → p z = true → y = z) :
    l.find? p = some x ↔ x ∈ l ∧ p x = true := by
  constructor
  · intro hfind
    exact ⟨List.mem_of_find?_eq_some hfind, List.find?_some hfind⟩
  · rintro ⟨hx, hp⟩
    obtain ⟨y, hy⟩ := Option.isSome_iff_exists.1 (List.find?_isSome.2 ⟨x, hx, hp⟩)
    rw [hy, h x hx y (List.mem_of_find?_eq_some hy) hp (List.find?_some hy)]

/-- A search by a key that no two members of a list share finds the member of this key. -/
theorem find?_key_iff {key : α → String} (h : (l.map key).Nodup) {k : String} :
    l.find? (key · == k) = some x ↔ x ∈ l ∧ key x = k := by
  rw [find?_eq_some_iff_of_unique, beq_iff_eq]
  intro y hy z hz hyk hzk
  exact List.inj_on_of_nodup_map h hy hz ((beq_iff_eq.1 hyk).trans (beq_iff_eq.1 hzk).symm)

end AccountService
