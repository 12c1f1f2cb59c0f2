import AccountService.Json.Reading
import Mathlib.Data.List.Basic

/-!
# Members of a record

A record is read in two ways: the reader that wants a member to occur at most once, and the one
that takes the last of them. On a member that occurs exactly once the two agree.

## Main definitions

* `Json.OccursOnce` — a member of a name occurs, and no other of that name

## Main statements

* `Json.occurrence_eq_once_iff`, `Json.occurrence_eq_absent_iff` — what the strict reader reports
* `Json.last?_eq_none_iff`, `Json.last?_of_occursOnce` — what the lenient reader finds
-/

namespace AccountService.Json

variable {name : String} {v : Node} {members : List (String × Node)}

/-- A member of this name and value occurs, and it is the only one of its name. -/
structure OccursOnce (name : String) (v : Node) (members : List (String × Node)) : Prop where
  mem : (name, v) ∈ members
  unique : (members.map (·.1)).count name = 1

theorem count_eq_length_filter (name : String) (members : List (String × Node)) :
    (members.map (·.1)).count name = (members.filter (·.1 == name)).length := by
  rw [List.count, List.countP_map, List.countP_eq_length_filter]
  rfl

/-- The strict reader reports a member exactly if it is the only one of its name. -/
theorem occurrence_eq_once_iff :
    occurrence name members = .once v ↔ OccursOnce name v members := by
  have hcount := count_eq_length_filter name members
  have hmem (m : String × Node) : m ∈ members.filter (·.1 == name) ↔ m ∈ members ∧ m.1 = name := by
    simp
  -- The cases are those of the members of this name: none, one, or more than one.
  rw [occurrence]
  split
  · next hnone =>
    rw [hnone] at hcount
    refine iff_of_false (fun h => by cases h) fun h => ?_
    rw [h.unique] at hcount
    cases hcount
  · next k w hone =>
    rw [hone] at hcount hmem
    obtain ⟨hw, hk⟩ := (hmem (k, w)).1 (by simp)
    obtain rfl : k = name := hk
    constructor
    · intro h
      obtain rfl := Occurrence.once.inj h
      exact ⟨hw, hcount⟩
    · intro h
      have hv := (hmem (k, v)).2 ⟨h.mem, rfl⟩
      obtain rfl : v = w := by simpa using hv
      rfl
  · next hnone hone =>
    refine iff_of_false (fun h => by cases h) fun h => ?_
    have hlength : (members.filter (·.1 == name)).length = 1 := hcount.symm.trans h.unique
    obtain ⟨⟨k, w⟩, hm⟩ := List.length_eq_one_iff.1 hlength
    exact hone k w hm

/-- The strict reader misses a member exactly if none has its name. -/
theorem occurrence_eq_absent_iff :
    occurrence name members = .absent ↔ name ∉ members.map (·.1) := by
  have hnone : members.filter (·.1 == name) = [] ↔ name ∉ members.map (·.1) := by
    rw [List.filter_eq_nil_iff, List.mem_map]
    constructor
    · rintro h ⟨m, hm, hname⟩
      exact h m hm (by simpa using hname)
    · rintro h m hm hname
      exact h ⟨m, hm, by simpa using hname⟩
  rw [occurrence, ← hnone]
  split
  · next h => exact iff_of_true rfl h
  · next h => exact iff_of_false (fun h' => by cases h') (by simp [h])
  · next h _ => exact iff_of_false (fun h' => by cases h') h

/-- A member that occurs once has the value of every member of its name. -/
theorem OccursOnce.eq_of_mem (h : OccursOnce name v members) {w : Node}
    (hw : (name, w) ∈ members) : w = v := by
  have hlength : (members.filter (·.1 == name)).length = 1 := by
    rw [← count_eq_length_filter]
    exact h.unique
  obtain ⟨m, hm⟩ := List.length_eq_one_iff.1 hlength
  have hfilter (u : Node) (hu : (name, u) ∈ members) : (name, u) = m := by
    have : (name, u) ∈ members.filter (·.1 == name) := List.mem_filter.2 ⟨hu, by simp⟩
    rwa [hm, List.mem_singleton] at this
  exact congrArg Prod.snd ((hfilter w hw).trans (hfilter v h.mem).symm)

/-- The lenient reader finds nothing exactly if no member has the name. -/
theorem last?_eq_none_iff : last? name members = none ↔ name ∉ members.map (·.1) := by
  rw [last?, Option.map_eq_none_iff, List.find?_eq_none, List.mem_map]
  constructor
  · rintro h ⟨m, hm, rfl⟩
    exact h m (List.mem_reverse.2 hm) (beq_self_eq_true _)
  · rintro h m hm hname
    exact h ⟨m, List.mem_reverse.1 hm, beq_iff_eq.1 hname⟩

/-- The lenient reader finds the only member of a name. -/
theorem last?_of_occursOnce (h : OccursOnce name v members) : last? name members = some v := by
  -- There is nothing else of this name, so it does not matter from which end the search begins.
  rw [last?]
  cases hfind : members.reverse.find? (·.1 == name) with
  | none =>
    have := List.find?_eq_none.1 hfind (name, v) (by simpa using h.mem)
    simp at this
  | some m =>
    obtain ⟨k, w⟩ := m
    have hm : (k, w) ∈ members := by simpa using List.mem_of_find?_eq_some hfind
    obtain rfl : k = name := by simpa using List.find?_some hfind
    rw [h.eq_of_mem hm]
    rfl

/-- A member that the lenient reader finds is not missed by the strict one. -/
theorem occurrence_ne_absent_of_last? (h : last? name members = some v) :
    occurrence name members ≠ .absent := by
  intro habsent
  rw [last?, Option.map_eq_some_iff] at h
  obtain ⟨m, hfind, rfl⟩ := h
  have hm : m ∈ members := by simpa using List.mem_of_find?_eq_some hfind
  have hname : m.1 = name := by simpa using List.find?_some hfind
  exact occurrence_eq_absent_iff.1 habsent (List.mem_map.2 ⟨m, hm, hname⟩)

end AccountService.Json
