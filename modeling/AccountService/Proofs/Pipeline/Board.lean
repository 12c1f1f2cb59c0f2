import AccountService.Pipeline.Board
import Mathlib.Data.List.Basic

/-!
# What a request sees of its contexts

Contexts are objects that may be reached in several ways at once, and the objects of all requests
are on one board. No two handles are on one object, though, and the extensions of a request hold
the one that it last began with. So a request sees what was done on it and nothing else: what it
began with, and in each of its contexts the status that was recorded there last.

## Main definitions

* `Pipeline.Board.begun`, `Pipeline.Board.recorded`, `Pipeline.Board.metered` — what the history of
  a request says of its contexts and of its metrics
* `Pipeline.Board.tell` — what a step gives, as the history has it
* `Pipeline.Board.Tracks` — a board is what a history has made of it

## Main statements

* `Pipeline.Board.Tracks.begin`, `Pipeline.Board.Tracks.write` — a new object, and a status
* `Pipeline.Board.Tracks.step`, `Pipeline.Board.tracks_run` — one step, and any steps
* `Pipeline.Board.tell_filter` — a request sees what was done on it
* `Pipeline.Board.contexts_run` — what is seen of contexts
-/

namespace AccountService.Pipeline.Board

open Http

/-! ### What a history says

A history has the last step first. -/

/-- The contexts that a request began with, in their order. -/
def begun (name : String) : List (String × Step) → List Context
  | [] => []
  | (n, .begin c) :: past => if n = name then begun name past ++ [c] else begun name past
  | _ :: past => begun name past

/-- The status that a step records in the context of a handle, if any, where the request began that
many times before it. -/
def Step.writes? (times handle : Nat) : Step → Option Status
  | .setStatus s => if times = handle + 1 then some s.toStatus else none
  | .respond k _ s | .write k s => if k = handle ∧ handle < times then some s.toStatus else none
  | _ => none

/-- The status that was recorded last in the context of a handle. -/
def recorded (name : String) (handle : Nat) : List (String × Step) → Option Status
  | [] => none
  | (n, t) :: past =>
    (if n = name then t.writes? (begun name past).length handle else none).or
      (recorded name handle past)

/-- The metrics that a request was given last. -/
def metered (name : String) : List (String × Step) → Option Metrics
  | [] => none
  | (n, .addMetrics m) :: past => if n = name then some m else metered name past
  | _ :: past => metered name past

/-- What a step gives, as the history of its request has it. -/
def tell (past : List (String × Step)) (name : String) : Step → Answer
  | .begin c => .context (begun name past).length c none
  | .get =>
    match (begun name past).getLast? with
    | some c =>
      let last := (begun name past).length - 1
      .context last c (recorded name last past)
    | none => .refused noContext
  | .setStatus _ => if begun name past = [] then .refused noContext else .done
  | .traceId => .traceId (((begun name past).getLast?.map (·.traceId)).getD Uuid.nil).text
  | .addMetrics _ => .done
  | .metrics => .metrics (metered name past)
  | .respond k data s =>
    if k < (begun name past).length then .responded (answer data s.toStatus) else .unknown
  | .write k _ => if k < (begun name past).length then .done else .unknown
  | .read k =>
    match (begun name past)[k]? with
    | some c => .context k c (recorded name k past)
    | none => .unknown

section History

variable {name other : String} {past : List (String × Step)} {t : Step} {k : Nat}

theorem begun_begin (c : Context) : begun name ((other, .begin c) :: past) =
    if other = name then begun name past ++ [c] else begun name past := rfl

theorem begun_cons (h : ∀ c, t ≠ .begin c) : begun name ((other, t) :: past) = begun name past := by
  cases t with
  | begin c => exact absurd rfl (h c)
  | _ => rfl

theorem begun_of_ne (h : other ≠ name) : begun name ((other, t) :: past) = begun name past := by
  cases t with
  | begin c => rw [begun_begin, if_neg h]
  | _ => rfl

theorem metered_cons (h : ∀ m, t ≠ .addMetrics m) :
    metered name ((other, t) :: past) = metered name past := by
  cases t with
  | addMetrics m => exact absurd rfl (h m)
  | _ => rfl

theorem metered_of_ne (h : other ≠ name) :
    metered name ((other, t) :: past) = metered name past := by
  cases t with
  | addMetrics m => simp only [metered, if_neg h]
  | _ => rfl

theorem recorded_cons_of_none (h : other = name → t.writes? (begun name past).length k = none) :
    recorded name k ((other, t) :: past) = recorded name k past := by
  rw [recorded]
  split
  · next heq => rw [h heq, Option.none_or]
  · rw [Option.none_or]

/-- Nothing is recorded in a context that is still to be made. -/
theorem recorded_eq_none (h : (begun name past).length ≤ k) : recorded name k past = none := by
  induction past with
  | nil => rfl
  | cons x past ih =>
    obtain ⟨other, t⟩ := x
    have hle : (begun name past).length ≤ k := by
      refine Nat.le_trans ?_ h
      cases t with
      | begin c =>
        rw [begun_begin]
        split
        · rw [List.length_append]
          exact Nat.le_add_right _ _
        · exact Nat.le_refl _
      | _ => exact Nat.le_refl _
    refine (recorded_cons_of_none fun _ => ?_).trans (ih hle)
    have hne : (begun name past).length ≠ k + 1 := Nat.ne_of_lt (Nat.lt_succ_of_le hle)
    cases t with
    | setStatus s => exact if_neg hne
    | respond | write => exact if_neg fun h => Nat.not_lt_of_le hle h.2
    | _ => rfl

/-- What was done on other requests is of no account. -/
theorem history_filter (name : String) (past : List (String × Step)) :
    begun name (past.filter (·.1 = name)) = begun name past ∧
    (∀ k, recorded name k (past.filter (·.1 = name)) = recorded name k past) ∧
    metered name (past.filter (·.1 = name)) = metered name past := by
  induction past with
  | nil => exact ⟨rfl, fun _ => rfl, rfl⟩
  | cons x past ih =>
    obtain ⟨other, t⟩ := x
    obtain ⟨hbegun, hrecorded, hmetered⟩ := ih
    by_cases h : other = name
    · subst h
      rw [List.filter_cons, if_pos (decide_eq_true rfl)]
      refine ⟨?_, fun k => by rw [recorded, recorded, hbegun, hrecorded], ?_⟩
      · cases t with
        | begin c => rw [begun_begin, begun_begin, hbegun]
        | _ => exact hbegun
      · cases t with
        | addMetrics m => rw [metered, metered, hmetered]
        | _ => exact hmetered
    · rw [List.filter_cons, if_neg (by simpa using h)]
      exact ⟨hbegun.trans (begun_of_ne h).symm,
        fun k => (hrecorded k).trans (recorded_cons_of_none fun heq => absurd heq h).symm,
        hmetered.trans (metered_of_ne h).symm⟩

/-- A request sees what was done on it, and nothing else. -/
theorem tell_filter : tell (past.filter (·.1 = name)) name t = tell past name t := by
  obtain ⟨hbegun, hrecorded, hmetered⟩ := history_filter name past
  cases t <;> simp only [tell, hbegun, hrecorded, hmetered]

end History

/-! ### The invariant -/

/-- A board is what a history has made of it. -/
structure Tracks (b : Board) (past : List (String × Step)) : Prop where
  length : ∀ name, (b.slots name).handles.length = (begun name past).length
  /-- The extensions of a request hold the object that it last began with. -/
  current : ∀ name, (b.slots name).current = (b.slots name).handles.getLast?
  metrics : ∀ name, (b.slots name).metrics = metered name past
  /-- A handle is on an object that holds what it began with and what was recorded through it. -/
  objects : ∀ name k i, b.handle? name k = some i → ∃ r, b.objects[i]? = some r ∧
    (begun name past)[k]? = some r.context ∧ r.status = recorded name k past
  /-- No two handles are on one object. -/
  apart : ∀ name k name' k' i, b.handle? name k = some i → b.handle? name' k' = some i →
    name = name' ∧ k = k'

variable {b : Board} {past : List (String × Step)} {name : String} {t : Step} {k i : Nat}

theorem tracks_empty : Tracks empty [] where
  length := fun _ => rfl
  current := fun _ => rfl
  metrics := fun _ => rfl
  objects := nofun
  apart := nofun

theorem Tracks.handle?_eq_none_iff (h : Tracks b past) :
    b.handle? name k = none ↔ (begun name past).length ≤ k := by
  rw [handle?, List.getElem?_eq_none_iff, h.length]

theorem look_of_getElem? {r : Recorded} (hr : b.objects[i]? = some r) :
    b.look name i = .context ((b.slots name).handles.idxOf i) r.context r.status := by
  rw [Board.look, hr]

/-- A request that looks at an object of its own sees what the history says of it. -/
theorem Tracks.look (h : Tracks b past) (hk : b.handle? name k = some i) :
    ∃ c, (begun name past)[k]? = some c ∧
      b.look name i = .context k c (recorded name k past) := by
  obtain ⟨r, hr, hc, hstatus⟩ := h.objects name k i hk
  have hfound : b.handle? name ((b.slots name).handles.idxOf i) = some i :=
    List.getElem?_idxOf (List.mem_of_getElem? hk)
  exact ⟨r.context, hc, by rw [look_of_getElem? hr, hstatus, (h.apart _ _ _ _ _ hfound hk).2]⟩

/-- The object that a request carries is the one that its last handle is on. -/
theorem Tracks.handle?_of_current (h : Tracks b past) (hi : (b.slots name).current = some i) :
    ∃ k, (begun name past).length = k + 1 ∧ b.handle? name k = some i := by
  rw [h.current, List.getLast?_eq_getElem?] at hi
  have hlt := (List.getElem?_eq_some_iff.1 hi).1
  refine ⟨(b.slots name).handles.length - 1, ?_, hi⟩
  rw [← h.length]
  omega

theorem Tracks.current_eq_none_iff (h : Tracks b past) :
    (b.slots name).current = none ↔ begun name past = [] := by
  rw [h.current, List.getLast?_eq_none_iff, ← List.length_eq_zero_iff, h.length,
    List.length_eq_zero_iff]

/-- A step of which the history shows nothing leaves the board as it is. -/
theorem Tracks.cons (h : Tracks b past) (hbegin : ∀ c, t ≠ .begin c)
    (hmetrics : ∀ m, t ≠ .addMetrics m)
    (hwrites : ∀ k, t.writes? (begun name past).length k = none) : Tracks b ((name, t) :: past) where
  length := fun other => by rw [h.length, begun_cons hbegin]
  current := h.current
  metrics := fun other => by rw [h.metrics, metered_cons hmetrics]
  objects := fun other k i hk => by
    have hrecorded : recorded other k ((name, t) :: past) = recorded other k past :=
      recorded_cons_of_none fun heq => heq ▸ hwrites k
    rw [begun_cons hbegin, hrecorded]
    exact h.objects other k i hk
  apart := h.apart

theorem Recorded.status_write (r : Recorded) (s : SentStatus) :
    (r.write s.toStatus).status = some s.toStatus := by
  rw [Recorded.status, Recorded.write]
  exact if_pos s.inRange

/-- A status that is recorded through a handle is the last one that was recorded there, and no
other context shows it. -/
theorem Tracks.write (h : Tracks b past) (hk : b.handle? name k = some i) (s : SentStatus)
    (hbegin : ∀ c, t ≠ .begin c) (hmetrics : ∀ m, t ≠ .addMetrics m)
    (hwrites : ∀ k', t.writes? (begun name past).length k' =
      if k' = k then some s.toStatus else none) :
    Tracks (b.write i s.toStatus) ((name, t) :: past) where
  length := fun other => by
    rw [begun_cons hbegin]
    exact h.length other
  current := h.current
  metrics := fun other => by
    rw [metered_cons hmetrics]
    exact h.metrics other
  objects := fun other k' j hj => by
    obtain ⟨r, hr, hc, hstatus⟩ := h.objects other k' j hj
    have hobjects : (b.write i s.toStatus).objects[j]? =
        some (if i = j then r.write s.toStatus else r) := by
      rw [Board.write, List.getElem?_modify, hr]
      split <;> rfl
    refine ⟨_, hobjects, ?_, ?_⟩
    · rw [begun_cons hbegin, hc]
      split <;> rfl
    · by_cases hij : i = j
      · subst hij
        obtain ⟨rfl, rfl⟩ := h.apart _ _ _ _ _ hk hj
        rw [if_pos rfl, Recorded.status_write, recorded, if_pos rfl, hwrites, if_pos rfl,
          Option.some_or]
      · have hnot : name = other → t.writes? (begun other past).length k' = none := by
          rintro rfl
          have hne : k' ≠ k := fun heq => hij (Option.some.inj (hk.symm.trans (heq ▸ hj)))
          rw [hwrites, if_neg hne]
        rw [if_neg hij, recorded_cons_of_none hnot, hstatus]
  apart := h.apart

theorem slots_begin_self (c : Context) : (b.begin name c).slots name =
    { b.slots name with
      current := some b.objects.length
      handles := (b.slots name).handles ++ [b.objects.length] } :=
  if_pos rfl

theorem slots_begin_of_ne {other : String} (c : Context) (h : other ≠ name) :
    (b.begin name c).slots other = b.slots other :=
  if_neg h

/-- The handles that are there once a request has begun: those that were there, and a new one. -/
theorem handle?_begin_eq_some_iff {other : String} {c : Context} :
    (b.begin name c).handle? other k = some i ↔ b.handle? other k = some i ∨
      other = name ∧ k = (b.slots name).handles.length ∧ i = b.objects.length := by
  by_cases hother : other = name
  · subst hother
    rw [handle?, slots_begin_self, List.getElem?_append, handle?]
    obtain hlt | rfl | hgt := Nat.lt_trichotomy k (b.slots other).handles.length
    · simp [hlt, Nat.ne_of_lt hlt]
    · simp [eq_comm]
    · simp [Nat.not_lt_of_lt hgt, Nat.ne_of_gt hgt, Nat.sub_ne_zero_of_lt hgt]
  · rw [handle?, slots_begin_of_ne c hother, handle?]
    simp [hother]

/-- A request that begins gets an object of its own, and all others stay as they were. -/
theorem Tracks.begin (h : Tracks b past) (name : String) (c : Context) :
    Tracks (b.begin name c) ((name, .begin c) :: past) where
  length := fun other => by
    by_cases hother : other = name
    · subst hother
      rw [slots_begin_self, begun_begin, if_pos rfl, List.length_append, List.length_append,
        h.length]
      rfl
    · rw [slots_begin_of_ne c hother, begun_of_ne (Ne.symm hother), h.length]
  current := fun other => by
    by_cases hother : other = name
    · subst hother
      rw [slots_begin_self, List.getLast?_concat]
    · rw [slots_begin_of_ne c hother, h.current]
  metrics := fun other => by
    rw [metered_cons (by simp), ← h.metrics]
    by_cases hother : other = name
    · subst hother
      rw [slots_begin_self]
    · rw [slots_begin_of_ne c hother]
  objects := fun other k i hk => by
    have hrecorded : recorded other k ((name, .begin c) :: past) = recorded other k past :=
      recorded_cons_of_none fun _ => rfl
    rw [hrecorded]
    obtain hold | ⟨rfl, rfl, rfl⟩ := handle?_begin_eq_some_iff.1 hk
    · obtain ⟨r, hr, hc, hstatus⟩ := h.objects other k i hold
      refine ⟨r, ?_, ?_, hstatus⟩
      · exact (List.getElem?_append_left (List.getElem?_eq_some_iff.1 hr).1).trans hr
      · rw [begun_begin]
        split
        · rwa [List.getElem?_append_left (List.getElem?_eq_some_iff.1 hc).1]
        · exact hc
    · refine ⟨.new c, List.getElem?_concat_length, ?_, ?_⟩
      · rw [begun_begin, if_pos rfl, h.length, List.getElem?_concat_length]
        rfl
      · rw [h.length, recorded_eq_none (Nat.le_refl _)]
        rfl
  apart := fun n k n' k' i hk hk' => by
    -- The place of the new object is not taken by any handle that was there.
    have hfree (n : String) (k : Nat) : b.handle? n k ≠ some b.objects.length := fun hhandle => by
      obtain ⟨r, hr, -⟩ := h.objects n k _ hhandle
      exact Nat.lt_irrefl _ (List.getElem?_eq_some_iff.1 hr).1
    obtain hold | ⟨rfl, rfl, rfl⟩ := handle?_begin_eq_some_iff.1 hk
    · obtain hold' | ⟨-, -, rfl⟩ := handle?_begin_eq_some_iff.1 hk'
      · exact h.apart _ _ _ _ _ hold hold'
      · exact absurd hold (hfree n k)
    · obtain hold' | ⟨rfl, rfl, -⟩ := handle?_begin_eq_some_iff.1 hk'
      · exact absurd hold' (hfree n' k')
      · exact ⟨rfl, rfl⟩

theorem slots_addMetrics (m : Metrics) (other : String) : (b.addMetrics name m).slots other =
    if other = name then { b.slots other with metrics := some m } else b.slots other := rfl

theorem Tracks.addMetrics (h : Tracks b past) (name : String) (m : Metrics) :
    Tracks (b.addMetrics name m) ((name, .addMetrics m) :: past) := by
  have hhandles (other : String) :
      ((b.addMetrics name m).slots other).handles = (b.slots other).handles := by
    rw [slots_addMetrics]
    split <;> rfl
  have hhandle (other : String) (k : Nat) :
      (b.addMetrics name m).handle? other k = b.handle? other k := by
    rw [handle?, hhandles, handle?]
  exact {
    length := fun other => by rw [hhandles, h.length, begun_cons (by simp)]
    current := fun other => by
      rw [hhandles, ← h.current, slots_addMetrics]
      split <;> rfl
    metrics := fun other => by
      rw [slots_addMetrics, metered]
      simp only [eq_comm (a := name)]
      split
      · rfl
      · exact h.metrics other
    objects := fun other k i hk => by
      have hrecorded : recorded other k ((name, .addMetrics m) :: past) = recorded other k past :=
        recorded_cons_of_none fun _ => rfl
      rw [hrecorded, begun_cons (by simp)]
      exact h.objects other k i (hhandle other k ▸ hk)
    apart := fun n k n' k' i hk hk' => h.apart _ _ _ _ _ (hhandle n k ▸ hk) (hhandle n' k' ▸ hk') }

/-! ### Steps -/

/-- What is done through a handle, if it is there and if it is not. -/
theorem Tracks.through (h : Tracks b past) (f : Nat → Board × Answer) :
    (∃ i, b.handle? name k = some i ∧ k < (begun name past).length ∧ b.through name k f = f i) ∨
      (begun name past).length ≤ k ∧ b.through name k f = (b, .unknown) := by
  cases hk : b.handle? name k with
  | none => exact .inr ⟨h.handle?_eq_none_iff.1 hk, by rw [Board.through, hk]⟩
  | some i =>
    have hlt : k < (begun name past).length :=
      h.length name ▸ (List.getElem?_eq_some_iff.1 hk).1
    exact .inl ⟨i, rfl, hlt, by rw [Board.through, hk]⟩

theorem writes?_of_lt {s : Status} {times : Nat} (h : k < times) (k' : Nat) :
    (if k = k' ∧ k' < times then some s else none) = if k' = k then some s else none := by
  by_cases heq : k' = k
  · rw [if_pos heq, if_pos ⟨heq.symm, heq ▸ h⟩]
  · rw [if_neg heq, if_neg fun hand => heq hand.1.symm]

theorem writes?_of_le {s : Status} {times : Nat} (h : times ≤ k) (k' : Nat) :
    (if k = k' ∧ k' < times then some s else none) = none :=
  if_neg fun ⟨heq, hlt⟩ => Nat.not_lt_of_le h (heq ▸ hlt)

/-- A request that has not begun carries nothing, and one that has carries what it last began
with. -/
theorem Tracks.carries (h : Tracks b past) (name : String) :
    ((b.slots name).current = none ∧ begun name past = []) ∨
      ∃ k i c, (b.slots name).current = some i ∧ b.handle? name k = some i ∧
        (begun name past).length = k + 1 ∧ (begun name past).getLast? = some c ∧
        b.look name i = .context k c (recorded name k past) ∧ b.traceId name = c.traceId.text := by
  cases hcurrent : (b.slots name).current with
  | none => exact .inl ⟨rfl, h.current_eq_none_iff.1 hcurrent⟩
  | some i =>
    obtain ⟨k, hlength, hk⟩ := h.handle?_of_current hcurrent
    obtain ⟨c, hc, hlook⟩ := h.look hk
    have hlast : (begun name past).getLast? = some c := by
      rw [List.getLast?_eq_getElem?, hlength]
      exact hc
    obtain ⟨r, hr, hr', -⟩ := h.objects name k i hk
    obtain rfl := Option.some.inj (hc.symm.trans hr')
    refine .inr ⟨k, i, r.context, rfl, hk, hlength, hlast, hlook, ?_⟩
    rw [traceId, context?, hcurrent, Option.bind_some, hr]
    rfl

theorem traceId_of_current (h : (b.slots name).current = none) :
    b.traceId name = Uuid.nil.text := by
  rw [traceId, context?, h]
  rfl

/-- A step gives what the history has it give, and is added to it. -/
theorem Tracks.step (h : Tracks b past) (name : String) (t : Step) :
    (b.step name t).2 = tell past name t ∧ Tracks (b.step name t).1 ((name, t) :: past) := by
  have hquiet (hbegin : ∀ c, t ≠ .begin c) (hmetrics : ∀ m, t ≠ .addMetrics m)
      (hwrites : ∀ k, t.writes? (begun name past).length k = none) := h.cons hbegin hmetrics hwrites
  cases t with
  | begin c =>
    have hbegin := h.begin name c
    have hnew : (b.begin name c).handle? name (begun name past).length = some b.objects.length :=
      handle?_begin_eq_some_iff.2 (.inr ⟨rfl, (h.length name).symm, rfl⟩)
    obtain ⟨c', hc', hlook⟩ := hbegin.look hnew
    rw [begun_begin, if_pos rfl, List.getElem?_concat_length] at hc'
    obtain rfl := Option.some.inj hc'
    have hnone : recorded name (begun name past).length ((name, .begin c) :: past) = none :=
      (recorded_cons_of_none fun _ => rfl).trans (recorded_eq_none (Nat.le_refl _))
    exact ⟨hlook.trans (hnone ▸ rfl), hbegin⟩
  | get =>
    have hsame := hquiet (by simp) (by simp) fun _ => rfl
    obtain ⟨hcurrent, hnone⟩ | ⟨k, i, c, hcurrent, -, hlength, hlast, hlook, -⟩ := h.carries name
    · simp only [Board.step, get, hcurrent, tell, hnone, List.getLast?_nil]
      exact ⟨trivial, hsame⟩
    · simp only [Board.step, get, hcurrent, tell, hlast, hlength, Nat.add_sub_cancel, hlook]
      exact ⟨trivial, hsame⟩
  | setStatus s =>
    obtain ⟨hcurrent, hnone⟩ | ⟨k, i, c, hcurrent, hk, hlength, -⟩ := h.carries name
    · simp only [Board.step, setStatus, get, hcurrent, tell, hnone]
      refine ⟨rfl, hquiet (by simp) (by simp) fun k => ?_⟩
      have hne : (begun name past).length ≠ k + 1 := fun h => by simp [hnone] at h
      exact if_neg hne
    · have hsome : begun name past ≠ [] := fun hnil => by simp [hnil] at hlength
      simp only [Board.step, setStatus, get, hcurrent, tell, if_neg hsome]
      refine ⟨rfl, h.write hk s (by simp) (by simp) fun k' => ?_⟩
      rw [hlength, Step.writes?]
      simp only [Nat.add_right_cancel_iff, eq_comm]
  | traceId =>
    refine ⟨?_, hquiet (by simp) (by simp) fun _ => rfl⟩
    obtain ⟨hcurrent, hnone⟩ | ⟨k, i, c, -, -, -, hlast, -, htrace⟩ := h.carries name
    · rw [Board.step, traceId_of_current hcurrent, tell, hnone]
      rfl
    · rw [Board.step, htrace, tell, hlast]
      rfl
  | addMetrics m => exact ⟨rfl, h.addMetrics name m⟩
  | metrics =>
    refine ⟨?_, hquiet (by simp) (by simp) fun _ => rfl⟩
    rw [Board.step, metrics?, h.metrics, tell]
  | respond k data s =>
    rw [Board.step]
    obtain ⟨i, hk, hlt, heq⟩ | ⟨hle, heq⟩ := h.through _
    · rw [heq, tell, if_pos hlt]
      exact ⟨rfl, h.write hk s (by simp) (by simp) (writes?_of_lt hlt)⟩
    · rw [heq, tell, if_neg (Nat.not_lt_of_le hle)]
      exact ⟨rfl, hquiet (by simp) (by simp) (writes?_of_le hle)⟩
  | write k s =>
    rw [Board.step]
    obtain ⟨i, hk, hlt, heq⟩ | ⟨hle, heq⟩ := h.through _
    · rw [heq, tell, if_pos hlt]
      exact ⟨rfl, h.write hk s (by simp) (by simp) (writes?_of_lt hlt)⟩
    · rw [heq, tell, if_neg (Nat.not_lt_of_le hle)]
      exact ⟨rfl, hquiet (by simp) (by simp) (writes?_of_le hle)⟩
  | read k =>
    have hsame := hquiet (by simp) (by simp) fun _ => rfl
    rw [Board.step]
    obtain ⟨i, hk, hlt, heq⟩ | ⟨hle, heq⟩ := h.through _
    · obtain ⟨c, hc, hlook⟩ := h.look hk
      rw [heq, tell, hc, hlook]
      exact ⟨rfl, hsame⟩
    · rw [heq, tell, List.getElem?_eq_none hle]
      exact ⟨rfl, hsame⟩

/-- A board is what its history has made of it. -/
theorem tracks_run (past : List (String × Step)) : Tracks (run past) past := by
  induction past with
  | nil => exact tracks_empty
  | cons x past ih => exact (ih.step x.1 x.2).2

/-! ### What is seen of contexts -/

/-- What a step gives, whatever was done on whatever requests before. -/
theorem step_run (past : List (String × Step)) (name : String) (t : Step) :
    ((run past).step name t).2 = tell past name t :=
  ((tracks_run past).step name t).1

theorem step_read_fst (b : Board) (name : String) (k : Nat) : (b.step name (.read k)).1 = b := by
  rw [Board.step, Board.through]
  split <;> rfl

/-- After any steps on any requests: a request that has begun carries the context that it last began
with, and one that has not is refused and left as it is. Through every handle one sees the context
that it was returned for, and the status that was recorded there last. A request that begins anew
gets a context without a status, and what is seen through the handles that were there stays. Each
step on a request gives what it would give if nothing had been done on the others. -/
theorem contexts_run (past : List (String × Step)) (name : String) :
    (∀ c, (begun name past).getLast? = some c → ∃ k, (begun name past).length = k + 1 ∧
      (run past).step name .get = (run past, .context k c (recorded name k past)) ∧
      (run past).step name .traceId = (run past, .traceId c.traceId.text)) ∧
    (begun name past = [] →
      (run past).step name .get =
        (run past, .refused (.shutdown "web value missing from context")) ∧
      (∀ s, (run past).step name (.setStatus s) =
        (run past, .refused (.shutdown "web value missing from context"))) ∧
      (run past).step name .traceId = (run past, .traceId Uuid.nil.text)) ∧
    (∀ k c, (begun name past)[k]? = some c →
      (run past).step name (.read k) = (run past, .context k c (recorded name k past))) ∧
    (∀ c, ((run past).step name (.begin c)).2 = .context (begun name past).length c none ∧
      ∀ other k, k < (begun other past).length →
        (((run past).step name (.begin c)).1.step other (.read k)).2 =
          ((run past).step other (.read k)).2) ∧
    (∀ t, ((run past).step name t).2 = ((run (past.filter (·.1 = name))).step name t).2) ∧
    (∀ other, other ≠ name → ∀ t' t,
      (((run past).step other t').1.step name t).2 = ((run past).step name t).2) := by
  have h := tracks_run past
  refine ⟨fun c hc => ?_, fun hnone => ?_, fun k c hc => ?_, fun c => ⟨?_, fun other k hk => ?_⟩,
    fun t => ?_, fun other hother t' t => ?_⟩
  · obtain ⟨-, hnil⟩ | ⟨k, i, c', hcurrent, -, hlength, hlast, hlook, htrace⟩ := h.carries name
    · rw [hnil] at hc
      cases hc
    · obtain rfl := Option.some.inj (hc.symm.trans hlast)
      refine ⟨k, hlength, ?_, ?_⟩
      · simp only [Board.step, get, hcurrent, hlook]
      · rw [Board.step, htrace]
  · have hcurrent := h.current_eq_none_iff.2 hnone
    refine ⟨?_, fun s => ?_, ?_⟩
    · simp only [Board.step, get, hcurrent, noContext]
    · simp only [Board.step, setStatus, get, hcurrent, noContext, Except.map]
    · rw [Board.step, traceId_of_current hcurrent]
  · refine Prod.ext (step_read_fst ..) ((step_run past name (.read k)).trans ?_)
    simp only [tell, hc]
  · exact step_run past name (.begin c)
  · have hrun : ((run past).step name (.begin c)).1 = run ((name, .begin c) :: past) := rfl
    have hrecorded : recorded other k ((name, .begin c) :: past) = recorded other k past :=
      recorded_cons_of_none fun _ => rfl
    have hbegun : (begun other ((name, .begin c) :: past))[k]? = (begun other past)[k]? := by
      rw [begun_begin]
      split
      · exact List.getElem?_append_left hk
      · rfl
    rw [hrun, step_run, step_run]
    simp only [tell, hbegun, hrecorded]
  · rw [step_run, step_run, tell_filter]
  · have hrun : ((run past).step other t').1 = run ((other, t') :: past) := rfl
    rw [hrun, step_run, step_run, ← tell_filter, List.filter_cons, if_neg (by simpa using hother),
      tell_filter]

-- A request that has begun twice and is answered with the handle that it got first.
example (first second : Context) :
    let past : List (String × Step) :=
      [("a", .respond 0 none ⟨.noContent, by decide⟩), ("a", .begin second), ("a", .begin first)]
    ((run past).step "a" .get).2 = .context 1 second none ∧
      ((run past).step "a" (.read 0)).2 = .context 0 first (some .noContent) :=
  ⟨rfl, rfl⟩

end AccountService.Pipeline.Board
