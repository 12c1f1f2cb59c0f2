import AccountService.Http.Route
import AccountService.Proofs.Text.Blank
import Mathlib.Data.List.TakeWhile

/-!
# What patterns match

The parts of a pattern match a path from the front: each takes what it stands for and leaves the
rest to those behind it. Of two patterns that match the same path, the one with a literal character
where they part comes first. A path without parameters writes a pattern that matches nothing but
itself.

## Main definitions

* `Http.Matches` — parts match a path and take values from it
* `Http.Precedes` — of two lists of parts one comes first
* `Http.IsWritten` — a text stands for itself

## Main statements

* `Http.matches_literals_append`, `Http.matches_segment_iff` — what parts match
* `Http.clash_or_precedes` — what matches the same path clashes, or one of it comes first
* `Http.parse?_eq_literals_iff` — only the path itself writes parts without parameters
* `Http.getLast?_of_parse?` — a pattern that ends in a character is written by a path that does
-/

namespace AccountService.Http

/-- Parts match a path and take values from it. -/
inductive Matches : List Part → List Char → List (List Char) → Prop where
  | finish : Matches [] [] []
  | literal {c : Char} {parts : List Part} {cs : List Char} {values : List (List Char)} :
    Matches parts cs values → Matches (.literal c :: parts) (c :: cs) values
  /-- A segment reaches up to the next slash. It may be empty in front of one, but not at the end of
  a path. -/
  | segment {value rest : List Char} {parts : List Part} {values : List (List Char)}
    (nonempty : value ++ rest ≠ []) (slash : '/' ∉ value) (whole : ∀ d ∈ rest.head?, d = '/') :
    Matches parts rest values → Matches (.segment :: parts) (value ++ rest) (value :: values)
  | rest {cs : List Char} {parts : List Part} (nonempty : cs ≠ []) :
    Matches (.rest :: parts) cs [cs]

/-! ### Matching by hand -/

theorem takeWhile_slash {value rest : List Char} (hslash : '/' ∉ value)
    (hwhole : ∀ d ∈ rest.head?, d = '/') :
    (value ++ rest).takeWhile (· != '/') = value ∧ (value ++ rest).dropWhile (· != '/') = rest := by
  refine Text.cut_append (fun c hc => bne_iff_ne.2 fun h => hslash (h ▸ hc)) fun d hd => ?_
  rw [hwhole d hd]
  rfl

theorem head?_dropWhile_slash {cs : List Char} :
    ∀ d ∈ (cs.dropWhile (· != '/')).head?, d = '/' := by
  intro d hd
  have := List.head?_dropWhile_not (· != '/') cs
  rw [Option.mem_def.1 hd] at this
  simpa using this

theorem getLast?_of_dropWhile {p : Char → Bool} {cs : List Char} {c : Char}
    (h : (cs.dropWhile p).getLast? = some c) : cs.getLast? = some c := by
  rw [← List.takeWhile_append_dropWhile (p := p) (l := cs), List.getLast?_append, h,
    Option.some_or]

theorem slash_notMem_takeWhile (cs : List Char) : '/' ∉ cs.takeWhile (· != '/') := by
  intro h
  simpa using List.mem_takeWhile_imp h

section Parts

variable {parts : List Part} {path : List Char} {values : List (List Char)}

theorem matches_nil_iff : Matches [] path values ↔ path = [] ∧ values = [] := by
  constructor
  · rintro ⟨⟩
    exact ⟨rfl, rfl⟩
  · rintro ⟨rfl, rfl⟩
    exact .finish

theorem matches_literal_iff {c : Char} :
    Matches (.literal c :: parts) path values ↔
      ∃ rest, path = c :: rest ∧ Matches parts rest values := by
  constructor
  · rintro (_ | h)
    exact ⟨_, rfl, h⟩
  · rintro ⟨rest, rfl, h⟩
    exact .literal h

/-- A segment takes what stands before the next slash. -/
theorem matches_segment_iff :
    Matches (.segment :: parts) path values ↔
      path ≠ [] ∧ ∃ values', values = path.takeWhile (· != '/') :: values' ∧
        Matches parts (path.dropWhile (· != '/')) values' := by
  constructor
  · intro h
    -- As an index of `Matches` the parts have to be a variable.
    generalize hparts : Part.segment :: parts = parts' at h
    cases h with
    | finish => cases hparts
    | literal h => cases hparts
    | segment nonempty slash whole h =>
      obtain rfl := (List.cons.inj hparts).2
      obtain ⟨htake, hdrop⟩ := takeWhile_slash slash whole
      exact ⟨nonempty, _, by rw [htake], hdrop.symm ▸ h⟩
    | rest nonempty => cases hparts
  · rintro ⟨hne, values', rfl, h⟩
    have hpath := List.takeWhile_append_dropWhile (p := (· != '/')) (l := path)
    have hwhole := Matches.segment (hpath.symm ▸ hne) (slash_notMem_takeWhile path)
      head?_dropWhile_slash h
    rwa [hpath] at hwhole

/-- What stands before a slash that is added belongs to the segment before it. -/
theorem matches_segment_concat
    (h : Matches parts (path.dropWhile (· != '/') ++ ['/']) values) :
    Matches (.segment :: parts) (path ++ ['/']) (path.takeWhile (· != '/') :: values) := by
  have hwhole : ∀ d ∈ (path.dropWhile (· != '/') ++ ['/']).head?, d = '/' := by
    -- The next slash is the one that is added, if the path has no other.
    intro d hd
    cases hrest : path.dropWhile (· != '/') with
    | nil =>
      rw [hrest] at hd
      exact (Option.some.inj hd).symm
    | cons e es =>
      have hd : d ∈ (path.dropWhile (· != '/')).head? := by rwa [hrest] at hd ⊢
      exact head?_dropWhile_slash d hd
  have hsegment := Matches.segment (by simp) (slash_notMem_takeWhile path) hwhole h
  rwa [← List.append_assoc, List.takeWhile_append_dropWhile] at hsegment

theorem Matches.eq_nil (h : Matches parts [] values) : parts = [] := by
  generalize hpath : [] = path at h
  cases h with
  | finish => rfl
  | literal h => cases hpath
  | segment nonempty slash whole h => exact absurd hpath.symm nonempty
  | rest nonempty => exact absurd hpath.symm nonempty

/-- The parts of a text that stands for itself. -/
def literals (cs : List Char) : List Part := cs.map .literal

theorem matches_literals_append {cs : List Char} :
    Matches (literals cs ++ parts) path values ↔
      ∃ rest, path = cs ++ rest ∧ Matches parts rest values := by
  induction cs generalizing path with
  | nil => simp [literals]
  | cons c cs ih =>
    rw [literals, List.map_cons, List.cons_append, matches_literal_iff]
    constructor
    · rintro ⟨_, rfl, h⟩
      obtain ⟨rest, rfl, hrest⟩ := ih.1 h
      exact ⟨rest, rfl, hrest⟩
    · rintro ⟨rest, rfl, hrest⟩
      exact ⟨_, rfl, ih.2 ⟨rest, rfl, hrest⟩⟩

theorem matches_literals {cs : List Char} :
    Matches (literals cs) path values ↔ path = cs ∧ values = [] := by
  rw [← List.append_nil (literals cs), matches_literals_append]
  simp only [matches_nil_iff]
  constructor
  · rintro ⟨rest, rfl, rfl, rfl⟩
    exact ⟨List.append_nil cs, rfl⟩
  · rintro ⟨rfl, rfl⟩
    exact ⟨[], (List.append_nil path).symm, rfl, rfl⟩

/-- At the end of a path a segment is all that remains, and not empty. -/
theorem matches_segment :
    Matches [.segment] path values ↔ path ≠ [] ∧ '/' ∉ path ∧ values = [path] := by
  rw [matches_segment_iff]
  simp only [matches_nil_iff]
  constructor
  · rintro ⟨hne, _, rfl, hdrop, rfl⟩
    have htake := List.takeWhile_append_dropWhile (p := (· != '/')) (l := path)
    rw [hdrop, List.append_nil] at htake
    exact ⟨hne, htake ▸ slash_notMem_takeWhile path, by rw [htake]⟩
  · rintro ⟨hne, hslash, rfl⟩
    have hnone : ∀ d ∈ ([] : List Char).head?, d = '/' := nofun
    obtain ⟨htake, hdrop⟩ := takeWhile_slash hslash hnone
    rw [List.append_nil] at htake hdrop
    exact ⟨hne, [], by rw [htake], hdrop, rfl⟩

end Parts

/-! ### Precedence -/

/-- Of two lists of parts the first comes first: where they part, it stands for itself and the other
does not. -/
inductive Precedes : List Part → List Part → Prop where
  | beforeSegment {c : Char} {ps qs : List Part} : Precedes (.literal c :: ps) (.segment :: qs)
  | beforeRest {c : Char} {ps qs : List Part} : Precedes (.literal c :: ps) (.rest :: qs)
  | literal {c : Char} {ps qs : List Part} :
    Precedes ps qs → Precedes (.literal c :: ps) (.literal c :: qs)
  | segment {ps qs : List Part} : Precedes ps qs → Precedes (.segment :: ps) (.segment :: qs)

section Precedes

variable {parts ps qs : List Part}

theorem not_precedes_nil : ¬ Precedes parts [] := nofun

theorem precedes_literal_iff {c : Char} :
    Precedes parts (.literal c :: qs) ↔ ∃ ps, parts = .literal c :: ps ∧ Precedes ps qs := by
  constructor
  · rintro (_ | _ | h | _)
    exact ⟨_, rfl, h⟩
  · rintro ⟨ps, rfl, h⟩
    exact .literal h

theorem precedes_segment_iff :
    Precedes parts (.segment :: qs) ↔
      (∃ c ps, parts = .literal c :: ps) ∨ ∃ ps, parts = .segment :: ps ∧ Precedes ps qs := by
  constructor
  · rintro (_ | _ | _ | h)
    · exact .inl ⟨_, _, rfl⟩
    · exact .inr ⟨_, rfl, h⟩
  · rintro (⟨c, ps, rfl⟩ | ⟨ps, rfl, h⟩)
    · exact .beforeSegment
    · exact .segment h

theorem precedes_rest_iff :
    Precedes parts (.rest :: qs) ↔ ∃ c ps, parts = .literal c :: ps := by
  constructor
  · rintro (_ | _)
    exact ⟨_, _, rfl⟩
  · rintro ⟨c, ps, rfl⟩
    exact .beforeRest

/-- Of two different lists of parts that match the same path one comes first, unless they clash. -/
theorem clash_or_precedes {path : List Char} {values values' : List (List Char)}
    (h : Matches ps path values) (h' : Matches qs path values') :
    clash ps qs = true ∨ Precedes ps qs ∨ Precedes qs ps := by
  -- On the parts of the first list: where both begin alike, both have the same path left.
  induction ps generalizing qs path values values' with
  | nil =>
    obtain ⟨rfl, -⟩ := matches_nil_iff.1 h
    obtain rfl := h'.eq_nil
    exact .inl rfl
  | cons p ps ih =>
    cases qs with
    | nil =>
      obtain ⟨rfl, -⟩ := matches_nil_iff.1 h'
      cases h.eq_nil
    | cons q qs =>
      cases p with
      | literal c =>
        cases q with
        | literal d =>
          obtain ⟨rest, rfl, hrest⟩ := matches_literal_iff.1 h
          obtain ⟨_, heq, hrest'⟩ := matches_literal_iff.1 h'
          obtain ⟨rfl, rfl⟩ := List.cons.inj heq
          refine (ih hrest hrest').imp (fun hclash => ?_) (Or.imp .literal .literal)
          rw [clash, beq_self_eq_true, Bool.true_and, hclash]
        | segment => exact .inr (.inl .beforeSegment)
        | rest => exact .inr (.inl .beforeRest)
      | segment =>
        cases q with
        | literal d => exact .inr (.inr .beforeSegment)
        | segment =>
          obtain ⟨-, _, -, hrest⟩ := matches_segment_iff.1 h
          obtain ⟨-, _, -, hrest'⟩ := matches_segment_iff.1 h'
          exact (ih hrest hrest').imp_right (Or.imp .segment .segment)
        | rest => exact .inl rfl
      | rest =>
        cases q with
        | literal d => exact .inr (.inr .beforeRest)
        | segment => exact .inl rfl
        | rest => exact .inl rfl

theorem clash_comm : ∀ ps qs : List Part, clash ps qs = clash qs ps
  | [], [] => rfl
  | [], _ :: _ => by simp [clash]
  | _ :: _, [] => by simp [clash]
  | p :: ps, q :: qs => by
    cases p <;> cases q <;> simp [clash, clash_comm ps qs, Bool.beq_comm]

end Precedes

/-! ### Paths without parameters -/

/-- A text stands for itself: no parameter begins in it. -/
def IsWritten (cs : List Char) : Prop := ':' ∉ cs ∧ '*' ∉ cs

theorem isWritten_cons_iff {c : Char} {cs : List Char} :
    IsWritten (c :: cs) ↔ (c ≠ ':' ∧ c ≠ '*') ∧ IsWritten cs := by
  simp only [IsWritten, List.mem_cons, not_or, ne_eq, eq_comm (b := c)]
  tauto

/-- The parts of a text that stands for itself are those of no other text. -/
theorem readPattern_eq_literals_iff {fuel : ℕ} {last : Char} {cs ds : List Char}
    (hfuel : cs.length ≤ fuel) :
    (readPattern fuel last cs).map (·.parts) = some (literals ds) ↔ cs = ds ∧ IsWritten cs := by
  induction cs generalizing fuel last ds with
  | nil => cases ds <;> simp [readPattern, literals, IsWritten]
  | cons c cs ih =>
    cases fuel with
    | zero => cases hfuel
    | succ fuel =>
      rw [isWritten_cons_iff, readPattern]
      -- A parameter would write a part that is no character.
      by_cases hcolon : c = ':'
      · cases ds <;> simp [hcolon, literals]
      · by_cases hstar : c = '*'
        · cases ds <;> simp [hstar, literals]
        · have hrest (ds : List Char) : (readPattern fuel c cs).map (·.parts) =
              some (literals ds) ↔ cs = ds ∧ IsWritten cs := ih (Nat.le_of_succ_le_succ hfuel)
          rw [if_neg hcolon, if_neg hstar, Option.map_map]
          constructor
          · intro h
            obtain ⟨p, hp, heq⟩ := Option.map_eq_some_iff.1 h
            cases ds with
            | nil => cases heq
            | cons d ds =>
              obtain ⟨hc, hparts⟩ := List.cons.inj heq
              obtain ⟨rfl, hwritten⟩ := (hrest ds).1 (Option.map_eq_some_iff.2 ⟨p, hp, hparts⟩)
              exact ⟨by rw [Part.literal.inj hc], ⟨hcolon, hstar⟩, hwritten⟩
          · rintro ⟨rfl, -, hwritten⟩
            obtain ⟨p, hp, hparts⟩ := Option.map_eq_some_iff.1 ((hrest cs).2 ⟨rfl, hwritten⟩)
            exact Option.map_eq_some_iff.2 ⟨p, hp, congrArg (Part.literal c :: ·) hparts⟩

theorem head?_of_parse? {path : String} {pattern : Pattern}
    (h : Pattern.parse? path = some pattern) : path.toList.head? = some '/' := by
  rw [Pattern.parse?] at h
  split at h
  · next cs hpath =>
    rw [hpath]
    rfl
  · cases h

/-- The first part of a pattern is a segment, the rest, or the first character itself. -/
theorem readPattern_cons_cases {fuel : ℕ} {last c : Char} {cs : List Char} {p : Pattern}
    (h : readPattern fuel last (c :: cs) = some p) :
    ∃ fuel', fuel = fuel' + 1 ∧
      ((∃ q, readPattern fuel' ':' (cs.dropWhile (· != '/')) = some q ∧
          p.parts = .segment :: q.parts) ∨
        p.parts = [.rest] ∨
        ∃ q, readPattern fuel' c cs = some q ∧ p.parts = .literal c :: q.parts) := by
  cases fuel with
  | zero => cases h
  | succ fuel =>
    rw [readPattern] at h
    dsimp only at h
    refine ⟨fuel, rfl, ?_⟩
    split at h
    · split at h
      · obtain ⟨q, hq, rfl⟩ := Option.map_eq_some_iff.1 h
        exact .inl ⟨q, hq, rfl⟩
      · cases h
    · split at h
      · split at h <;> cases h
        exact .inr (.inl rfl)
      · obtain ⟨q, hq, rfl⟩ := Option.map_eq_some_iff.1 h
        exact .inr (.inr ⟨q, hq, rfl⟩)

theorem eq_nil_of_readPattern {fuel : ℕ} {last : Char} {cs : List Char} {p : Pattern}
    (hread : readPattern fuel last cs = some p) (hparts : p.parts = []) : cs = [] := by
  cases cs with
  | nil => rfl
  | cons c cs =>
    obtain ⟨_, -, ⟨_, -, hfirst⟩ | hfirst | ⟨_, -, hfirst⟩⟩ := readPattern_cons_cases hread <;>
      cases hparts.symm.trans hfirst

/-- A pattern that ends in a character that stands for itself is written by a text that ends in
it. -/
theorem getLast?_of_readPattern {fuel : ℕ} {last c : Char} {cs : List Char} {p : Pattern}
    (hread : readPattern fuel last cs = some p) (hlast : p.parts.getLast? = some (.literal c)) :
    cs.getLast? = some c := by
  induction fuel generalizing last cs p with
  | zero =>
    cases cs <;> cases hread
    cases hlast
  | succ fuel ih =>
    cases cs with
    | nil =>
      cases hread
      cases hlast
    | cons d cs =>
      obtain ⟨_, heq, hfirst⟩ := readPattern_cons_cases hread
      obtain rfl := Nat.succ.inj heq
      rcases hfirst with ⟨q, hq, hparts⟩ | hparts | ⟨q, hq, hparts⟩
      · rw [hparts, List.getLast?_cons] at hlast
        cases hrest : q.parts.getLast? with
        | none =>
          rw [hrest] at hlast
          cases hlast
        | some part =>
          rw [hrest] at hlast
          exact List.mem_getLast?_cons (getLast?_of_dropWhile (ih hq (hrest.trans hlast)))
      · rw [hparts] at hlast
        cases hlast
      · rw [hparts, List.getLast?_cons] at hlast
        cases hrest : q.parts.getLast? with
        | none =>
          -- The character is the last one, since nothing is read after it.
          obtain rfl := eq_nil_of_readPattern hq (List.getLast?_eq_none_iff.1 hrest)
          rw [hrest] at hlast
          cases hlast
          rfl
        | some part =>
          rw [hrest] at hlast
          exact List.mem_getLast?_cons (ih hq (hrest.trans hlast))

theorem getLast?_of_parse? {path : String} {pattern : Pattern} {c : Char}
    (h : Pattern.parse? path = some pattern) (hlast : pattern.parts.getLast? = some (.literal c)) :
    path.toList.getLast? = some c := by
  rw [Pattern.parse?] at h
  split at h
  · next cs hpath =>
    rw [hpath]
    exact getLast?_of_readPattern (Option.filter_eq_some_iff.1 h).1 hlast
  · cases h

theorem count_segment_literals (cs : List Char) : (literals cs).count .segment = 0 := by
  rw [List.count_eq_zero, literals]
  simp

/-- Only a path that stands for itself writes its parts. -/
theorem parse?_eq_literals_iff {path : String} {cs : List Char} :
    (Pattern.parse? path).map (·.parts) = some (literals cs) ↔
      path.toList = cs ∧ cs.head? = some '/' ∧ IsWritten cs := by
  rw [Pattern.parse?]
  split
  · next cs' hpath =>
    have hread : (readPattern (cs'.length + 1) ' ' ('/' :: cs')).map (·.parts) =
        some (literals cs) ↔ '/' :: cs' = cs ∧ IsWritten ('/' :: cs') :=
      readPattern_eq_literals_iff (Nat.le_refl _)
    rw [hpath]
    constructor
    · intro h
      obtain ⟨p, hp, hparts⟩ := Option.map_eq_some_iff.1 h
      obtain ⟨rfl, hwritten⟩ := hread.1
        (Option.map_eq_some_iff.2 ⟨p, (Option.filter_eq_some_iff.1 hp).1, hparts⟩)
      exact ⟨rfl, rfl, hwritten⟩
    · rintro ⟨rfl, -, hwritten⟩
      obtain ⟨p, hp, hparts⟩ := Option.map_eq_some_iff.1 (hread.2 ⟨rfl, hwritten⟩)
      refine Option.map_eq_some_iff.2 ⟨p, Option.filter_eq_some_iff.2 ⟨hp, ?_⟩, hparts⟩
      rw [hparts, count_segment_literals]
      rfl
  · next hpath =>
    refine iff_of_false nofun ?_
    rintro ⟨rfl, hhead, -⟩
    cases hcs : path.toList with
    | nil =>
      rw [hcs] at hhead
      cases hhead
    | cons c cs =>
      rw [hcs] at hhead
      exact hpath cs (hcs.trans (congrArg (· :: cs) (Option.some.inj hhead)))

end AccountService.Http
