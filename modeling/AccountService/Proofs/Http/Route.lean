import AccountService.Proofs.Http.Pattern

/-!
# What a route search finds

The search goes through a path from the front and narrows down the candidates on its way. What
it finds is a candidate that matches the whole path, and of two candidates that match, the one that
comes first. It comes to nothing only where no candidate matches. Only a dead end hides a candidate
that does, and a dead end is about a slash: the path ends in one, or it lacks the one in which
another candidate ends. A candidate that stands for the path itself comes before all others, and no
dead end hides it.

## Main definitions

* `Http.Leads` — no candidate that matches comes first

## Main statements

* `Http.not_matches_of_search_eq_nothing` — where nothing is found, nothing matches
* `Http.search_first`, `Http.search_sound` — what is found matches, and nothing that does comes
  first
* `Http.slash_of_search_eq_deadEnd` — where there is a dead end
* `Http.search_literals` — a candidate without parameters that matches is found first
* `Http.search_map` — what candidates are for has no part in the search
-/

namespace AccountService.Http

variable {α β : Type}

/-! ### The search step by step -/

namespace Found

variable {found other : Found α} {final : Bool} {values : List (List Char)} {target : α}

@[simp] theorem orElse_eq_nothing_iff :
    found.orElse other = nothing ↔ found = nothing ∧ other = nothing := by
  cases found <;> simp [orElse]

@[simp] theorem orElse_eq_route_iff :
    found.orElse other = route values target ↔
      found = route values target ∨ found = nothing ∧ other = route values target := by
  cases found <;> simp [orElse]

@[simp] theorem orElse_eq_deadEnd_iff :
    found.orElse other = deadEnd ↔ found = deadEnd ∨ found = nothing ∧ other = deadEnd := by
  cases found <;> simp [orElse]

@[simp] theorem orDeadEnd_eq_nothing_iff :
    found.orDeadEnd final = nothing ↔ found = nothing ∧ final = false := by
  cases found <;> cases final <;> simp [orDeadEnd]

@[simp] theorem orDeadEnd_eq_route_iff :
    found.orDeadEnd final = route values target ↔ found = route values target := by
  cases found <;> cases final <;> simp [orDeadEnd]

@[simp] theorem orDeadEnd_eq_deadEnd_iff :
    found.orDeadEnd final = deadEnd ↔ found = deadEnd ∨ found = nothing ∧ final = true := by
  cases found <;> cases final <;> simp [orDeadEnd]

@[simp] theorem ofOption_eq_nothing_iff {o : Option (List (List Char) × α)} :
    ofOption o = nothing ↔ o = none := by
  cases o <;> simp [ofOption]

@[simp] theorem ofOption_eq_route_iff {o : Option (List (List Char) × α)} :
    ofOption o = route values target ↔ o = some (values, target) := by
  cases o <;> simp [ofOption, Prod.ext_iff]

@[simp] theorem ofOption_ne_deadEnd {o : Option (List (List Char) × α)} :
    ofOption o ≠ deadEnd := by
  cases o <;> simp [ofOption]

end Found

theorem literal_eq_some_iff {c : Char} {k k' : Candidate α} :
    Candidate.literal c k = some k' ↔
      k.parts = .literal c :: k'.parts ∧ k'.taken = k.taken ∧ k'.target = k.target := by
  obtain ⟨parts, taken, target⟩ := k
  obtain ⟨parts', taken', target'⟩ := k'
  cases parts with
  | nil => simp [Candidate.literal]
  | cons p parts =>
    cases p with
    | literal d =>
      by_cases hd : d = c
      · simp [Candidate.literal, hd, eq_comm]
      · simp [Candidate.literal, hd]
    | segment => simp [Candidate.literal]
    | rest => simp [Candidate.literal]

theorem segment_eq_some_iff {value : List Char} {k k' : Candidate α} :
    Candidate.segment value k = some k' ↔
      k.parts = .segment :: k'.parts ∧ k'.taken = value :: k.taken ∧ k'.target = k.target := by
  obtain ⟨parts, taken, target⟩ := k
  obtain ⟨parts', taken', target'⟩ := k'
  cases parts with
  | nil => simp [Candidate.segment]
  | cons p parts => cases p <;> simp [Candidate.segment, eq_comm]

theorem rest_eq_some_iff {value : List Char} {k : Candidate α} {found : List (List Char) × α} :
    Candidate.rest value k = some found ↔
      (∃ parts, k.parts = .rest :: parts) ∧ found = ((value :: k.taken).reverse, k.target) := by
  obtain ⟨parts, taken, target⟩ := k
  cases parts with
  | nil => simp [Candidate.rest]
  | cons p parts => cases p <;> simp [Candidate.rest, eq_comm]

theorem finish_eq_some_iff {k : Candidate α} {found : List (List Char) × α} :
    k.finish = some found ↔ k.parts = [] ∧ found = (k.taken.reverse, k.target) := by
  obtain ⟨parts, taken, target⟩ := k
  cases parts <;> simp [Candidate.finish, eq_comm]

/-- A candidate whose next part is a character is still there after the character. -/
theorem mem_filterMap_literal {ks : List (Candidate α)} {k : Candidate α} {c : Char}
    {parts : List Part} (hk : k ∈ ks) (hparts : k.parts = .literal c :: parts) :
    ⟨parts, k.taken, k.target⟩ ∈ ks.filterMap (Candidate.literal c) :=
  List.mem_filterMap.2 ⟨k, hk, literal_eq_some_iff.2 ⟨hparts, rfl, rfl⟩⟩

/-- A candidate whose next part is a segment is still there after the segment. -/
theorem mem_filterMap_segment {ks : List (Candidate α)} {k : Candidate α} {parts : List Part}
    (value : List Char) (hk : k ∈ ks) (hparts : k.parts = .segment :: parts) :
    ⟨parts, value :: k.taken, k.target⟩ ∈ ks.filterMap (Candidate.segment value) :=
  List.mem_filterMap.2 ⟨k, hk, segment_eq_some_iff.2 ⟨hparts, rfl, rfl⟩⟩

variable {ks : List (Candidate α)}

@[simp] theorem search_no_candidates (after : Bool) (cs : List Char) :
    search after cs ([] : List (Candidate α)) = .nothing := by
  rw [search]

theorem search_nil (hks : ks ≠ []) (after : Bool) :
    search after [] ks =
      (Found.ofOption (ks.findSome? Candidate.finish)).orDeadEnd
        ((after || !isNode ks) && ks.any (·.parts == [.literal '/'])) := by
  obtain ⟨k, ks, rfl⟩ := List.exists_cons_of_ne_nil hks
  rw [search]

/-- The search looks for a literal character, then for a segment, then for the rest. -/
theorem search_cons (hks : ks ≠ []) (after : Bool) (c : Char) (cs : List Char) :
    search after (c :: cs) ks =
      (((search false cs (ks.filterMap (Candidate.literal c))).orDeadEnd
          (((after || isNode ks) && c :: cs == ['/']) &&
            !(ks.filterMap (Candidate.literal c)).isEmpty)).orElse
        ((search true ((c :: cs).dropWhile (· != '/'))
            (ks.filterMap (Candidate.segment ((c :: cs).takeWhile (· != '/'))))).orElse
          (.ofOption (ks.findSome? (Candidate.rest (c :: cs)))))).orDeadEnd
        ((after || isNode ks) && c :: cs == ['/']) := by
  obtain ⟨k, ks, rfl⟩ := List.exists_cons_of_ne_nil hks
  rw [search]

/-! ### What is found -/

/-- Where nothing is found, nothing matches. -/
theorem not_matches_of_search_eq_nothing (after : Bool) (cs : List Char) (ks : List (Candidate α))
    (hnothing : search after cs ks = .nothing) :
    ∀ k ∈ ks, ∀ values, ¬ Matches k.parts cs values := by
  induction after, cs, ks using search.induct with
  | case1 after cs => nofun
  | case2 after k₀ ks =>
    intro k hk values hmatch
    simp only [search, Found.orDeadEnd_eq_nothing_iff, Found.ofOption_eq_nothing_iff,
      List.findSome?_eq_none_iff] at hnothing
    cases (finish_eq_some_iff.2 ⟨hmatch.eq_nil, rfl⟩).symm.trans (hnothing.1 k hk)
  | case3 after c cs k₀ ks value literals segments _ _ ihLiteral ihSegment =>
    intro k hk values hmatch
    simp only [search, Found.orDeadEnd_eq_nothing_iff, Found.orElse_eq_nothing_iff,
      Found.ofOption_eq_nothing_iff, List.findSome?_eq_none_iff] at hnothing
    obtain ⟨⟨⟨hliteral, -⟩, hsegment, hrest⟩, -⟩ := hnothing
    -- The candidate is still among the others after the step that its first part takes.
    cases hparts : k.parts with
    | nil =>
      rw [hparts] at hmatch
      cases (matches_nil_iff.1 hmatch).1
    | cons p ps =>
      rw [hparts] at hmatch
      cases p with
      | literal d =>
        obtain ⟨_, heq, hmatch⟩ := matches_literal_iff.1 hmatch
        obtain ⟨rfl, rfl⟩ := List.cons.inj heq
        exact ihLiteral hliteral _ (mem_filterMap_literal hk hparts) _ hmatch
      | segment =>
        obtain ⟨-, _, -, hmatch⟩ := matches_segment_iff.1 hmatch
        exact ihSegment hsegment _ (mem_filterMap_segment value hk hparts) _ hmatch
      | rest => cases (rest_eq_some_iff.2 ⟨⟨ps, hparts⟩, rfl⟩).symm.trans (hrest k hk)

/-- No candidate that matches a path comes before these parts. -/
def Leads (ks : List (Candidate α)) (cs : List Char) (parts : List Part) : Prop :=
  ∀ k ∈ ks, ∀ values, Matches k.parts cs values → ¬ Precedes k.parts parts

section Leads

variable {ks : List (Candidate α)} {c : Char} {cs : List Char} {parts : List Part}

theorem Leads.literal (h : Leads (ks.filterMap (Candidate.literal c)) cs parts) :
    Leads ks (c :: cs) (.literal c :: parts) := by
  intro k hk values hmatch hprecedes
  obtain ⟨ps, hparts, hprecedes⟩ := precedes_literal_iff.1 hprecedes
  rw [hparts] at hmatch
  obtain ⟨_, heq, hmatch⟩ := matches_literal_iff.1 hmatch
  obtain ⟨-, rfl⟩ := List.cons.inj heq
  exact h _ (mem_filterMap_literal hk hparts) values hmatch hprecedes

/-- Where no literal character leads to anything, nothing that matches begins with one. -/
theorem ne_literal_of_search_eq_nothing {after : Bool}
    (hnothing : search after cs (ks.filterMap (Candidate.literal c)) = .nothing) {k : Candidate α}
    (hk : k ∈ ks) {values : List (List Char)} (hmatch : Matches k.parts (c :: cs) values) (d : Char)
    (ps : List Part) : k.parts ≠ .literal d :: ps := by
  intro hparts
  rw [hparts] at hmatch
  obtain ⟨_, heq, hmatch⟩ := matches_literal_iff.1 hmatch
  obtain ⟨rfl, rfl⟩ := List.cons.inj heq
  exact not_matches_of_search_eq_nothing _ _ _ hnothing _ (mem_filterMap_literal hk hparts) _ hmatch

theorem Leads.segment {after : Bool}
    (hnothing : search after cs (ks.filterMap (Candidate.literal c)) = .nothing)
    {value : List Char}
    (h : Leads (ks.filterMap (Candidate.segment value)) ((c :: cs).dropWhile (· != '/')) parts) :
    Leads ks (c :: cs) (.segment :: parts) := by
  intro k hk values hmatch hprecedes
  rcases precedes_segment_iff.1 hprecedes with ⟨d, ps, hparts⟩ | ⟨ps, hparts, hprecedes⟩
  · exact ne_literal_of_search_eq_nothing hnothing hk hmatch d ps hparts
  · rw [hparts] at hmatch
    obtain ⟨-, _, -, hmatch⟩ := matches_segment_iff.1 hmatch
    exact h _ (mem_filterMap_segment value hk hparts) _ hmatch hprecedes

theorem Leads.rest {after : Bool}
    (hnothing : search after cs (ks.filterMap (Candidate.literal c)) = .nothing) :
    Leads ks (c :: cs) (.rest :: parts) := by
  intro k hk values hmatch hprecedes
  obtain ⟨d, ps, hparts⟩ := precedes_rest_iff.1 hprecedes
  exact ne_literal_of_search_eq_nothing hnothing hk hmatch d ps hparts

end Leads

/-- What is found matches the whole path, and nothing that does comes before it. -/
theorem search_first (after : Bool) (cs : List Char) (ks : List (Candidate α))
    {values : List (List Char)} {target : α} (hfound : search after cs ks = .route values target) :
    ∃ k ∈ ks, ∃ taken, Matches k.parts cs taken ∧ values = k.taken.reverse ++ taken ∧
      target = k.target ∧ Leads ks cs k.parts := by
  induction after, cs, ks using search.induct with
  | case1 after cs => cases (search_no_candidates after cs).symm.trans hfound
  | case2 after k₀ ks =>
    simp only [search, Found.orDeadEnd_eq_route_iff, Found.ofOption_eq_route_iff] at hfound
    obtain ⟨k, hk, hfinish⟩ := List.exists_of_findSome?_eq_some hfound
    obtain ⟨hparts, heq⟩ := finish_eq_some_iff.1 hfinish
    obtain ⟨rfl, rfl⟩ := Prod.mk.inj heq
    exact ⟨k, hk, [], hparts ▸ .finish, (List.append_nil _).symm, rfl,
      hparts ▸ fun _ _ _ _ => not_precedes_nil⟩
  | case3 after c cs k₀ ks value literals segments _ _ ihLiteral ihSegment =>
    simp only [search, Found.orDeadEnd_eq_route_iff, Found.orElse_eq_route_iff,
      Found.orDeadEnd_eq_nothing_iff, Found.ofOption_eq_route_iff] at hfound
    -- The first character was found as a literal, as that of a segment, or as that of the rest.
    rcases hfound with hfound | ⟨⟨hnothing, -⟩, hfound | ⟨-, hfound⟩⟩
    · obtain ⟨k', hk', taken, hmatch, rfl, rfl, hleads⟩ := ihLiteral hfound
      obtain ⟨k, hk, hliteral⟩ := List.mem_filterMap.1 hk'
      obtain ⟨hparts, htaken, htarget⟩ := literal_eq_some_iff.1 hliteral
      exact ⟨k, hk, taken, hparts ▸ .literal hmatch, by rw [htaken], htarget,
        hparts ▸ hleads.literal⟩
    · obtain ⟨k', hk', taken, hmatch, rfl, rfl, hleads⟩ := ihSegment hfound
      obtain ⟨k, hk, hsegment⟩ := List.mem_filterMap.1 hk'
      obtain ⟨hparts, htaken, htarget⟩ := segment_eq_some_iff.1 hsegment
      refine ⟨k, hk, value :: taken, hparts ▸ ?_, ?_, htarget, hparts ▸ hleads.segment hnothing⟩
      · exact matches_segment_iff.2 ⟨List.cons_ne_nil c cs, taken, rfl, hmatch⟩
      · rw [htaken, List.reverse_cons, List.append_assoc]
        rfl
    · obtain ⟨k, hk, hrest⟩ := List.exists_of_findSome?_eq_some hfound
      obtain ⟨⟨parts, hparts⟩, heq⟩ := rest_eq_some_iff.1 hrest
      obtain ⟨rfl, rfl⟩ := Prod.mk.inj heq
      exact ⟨k, hk, [c :: cs], hparts ▸ .rest (List.cons_ne_nil c cs), List.reverse_cons, rfl,
        hparts ▸ .rest hnothing⟩

/-- What is found matches the whole path. -/
theorem search_sound {after : Bool} {cs : List Char} {ks : List (Candidate α)}
    {values : List (List Char)} {target : α} (hfound : search after cs ks = .route values target) :
    ∃ k ∈ ks, ∃ taken, Matches k.parts cs taken ∧ values = k.taken.reverse ++ taken ∧
      target = k.target := by
  obtain ⟨k, hk, taken, hmatch, hvalues, htarget, -⟩ := search_first after cs ks hfound
  exact ⟨k, hk, taken, hmatch, hvalues, htarget⟩

example :
    search false "/users//tweets".toList
      [⟨literals "/users/".toList ++ .segment :: literals "/tweets".toList, [], "tweets"⟩] =
      .route [[]] "tweets" := by
  decide +kernel

/-- The search ends for good only where the path ends in a slash, or lacks the one in which a
candidate ends. -/
theorem slash_of_search_eq_deadEnd (after : Bool) (cs : List Char) (ks : List (Candidate α))
    (hdead : search after cs ks = .deadEnd) :
    cs.getLast? = some '/' ∨ ∃ k ∈ ks, k.parts.getLast? = some (.literal '/') ∧
      ∃ values, Matches k.parts (cs ++ ['/']) values := by
  induction after, cs, ks using search.induct with
  | case1 after cs => cases (search_no_candidates after cs).symm.trans hdead
  | case2 after k₀ ks =>
    simp only [search, Found.orDeadEnd_eq_deadEnd_iff, Found.ofOption_ne_deadEnd, false_or,
      Bool.and_eq_true, List.any_eq_true, beq_iff_eq] at hdead
    obtain ⟨-, -, k, hk, hparts⟩ := hdead
    exact .inr ⟨k, hk, hparts ▸ rfl, [], hparts ▸ .literal .finish⟩
  | case3 after c cs k₀ ks value literals segments _ _ ihLiteral ihSegment =>
    simp only [search, Found.orDeadEnd_eq_deadEnd_iff, Found.orElse_eq_deadEnd_iff,
      Found.ofOption_ne_deadEnd, and_false, or_false, Bool.and_eq_true, beq_iff_eq] at hdead
    -- The dead end lies behind the character, behind the segment, or here, with a slash left.
    rcases hdead with ((hdead | ⟨-, ⟨-, hpath⟩, -⟩) | ⟨-, hdead⟩) | ⟨-, -, hpath⟩
    · rcases ihLiteral hdead with hlast | ⟨k', hk', hslashed, values, hmatch⟩
      · exact .inl (List.mem_getLast?_cons hlast)
      · obtain ⟨k, hk, hliteral⟩ := List.mem_filterMap.1 hk'
        obtain ⟨hparts, -⟩ := literal_eq_some_iff.1 hliteral
        exact .inr ⟨k, hk, hparts ▸ List.mem_getLast?_cons hslashed, values,
          hparts ▸ .literal hmatch⟩
    · exact .inl (hpath ▸ rfl)
    · rcases ihSegment hdead with hlast | ⟨k', hk', hslashed, values, hmatch⟩
      · exact .inl (getLast?_of_dropWhile hlast)
      · obtain ⟨k, hk, hsegment⟩ := List.mem_filterMap.1 hk'
        obtain ⟨hparts, -⟩ := segment_eq_some_iff.1 hsegment
        exact .inr ⟨k, hk, hparts ▸ List.mem_getLast?_cons hslashed, value :: values,
          hparts ▸ matches_segment_concat hmatch⟩
    · exact .inl (hpath ▸ rfl)

example :
    search false "/users/me/".toList
      [⟨literals "/users/me".toList, [], "me"⟩,
        ⟨literals "/users/".toList ++ [.segment, .literal '/'], [], "user"⟩] =
      .deadEnd := by
  decide +kernel

/-- A candidate that stands for the path itself is found before all others. -/
theorem search_literals (after : Bool) {cs : List Char} {ks : List (Candidate α)}
    {k : Candidate α} (hk : k ∈ ks) (hparts : k.parts = literals cs) :
    ∃ k' ∈ ks, k'.parts = literals cs ∧
      search after cs ks = .route k'.taken.reverse k'.target := by
  induction cs generalizing after ks k with
  | nil =>
    obtain ⟨k₀, ks, rfl⟩ := List.exists_cons_of_ne_nil (List.ne_nil_of_mem hk)
    cases hfind : (k₀ :: ks).findSome? Candidate.finish with
    | none =>
      have := List.findSome?_eq_none_iff.1 hfind k hk
      rw [finish_eq_some_iff.2 ⟨hparts, rfl⟩] at this
      cases this
    | some found =>
      obtain ⟨k', hk', hfinish⟩ := List.exists_of_findSome?_eq_some hfind
      obtain ⟨hparts', rfl⟩ := finish_eq_some_iff.1 hfinish
      exact ⟨k', hk', hparts', by rw [search, hfind]; rfl⟩
  | cons c cs ih =>
    obtain ⟨k₀, ks, rfl⟩ := List.exists_cons_of_ne_nil (List.ne_nil_of_mem hk)
    -- Literal characters are looked for first, so nothing else gets its turn.
    obtain ⟨k₁, hk₁, hparts₁, hsearch⟩ := ih false (mem_filterMap_literal hk hparts) rfl
    obtain ⟨k', hk', hliteral'⟩ := List.mem_filterMap.1 hk₁
    obtain ⟨hparts', htaken, htarget⟩ := literal_eq_some_iff.1 hliteral'
    refine ⟨k', hk', by rw [hparts', hparts₁]; rfl, ?_⟩
    rw [search, hsearch, htaken, htarget]
    rfl

/-! ### What candidates are for -/

/-- A candidate for something else. -/
def Candidate.map (f : α → β) (k : Candidate α) : Candidate β := ⟨k.parts, k.taken, f k.target⟩

/-- What is found, as something else. -/
def Found.map (f : α → β) : Found α → Found β
  | route values target => route values (f target)
  | nothing => nothing
  | deadEnd => deadEnd

section Map

variable {f : α → β} {ks : List (Candidate α)}

theorem Found.orElse_map (found other : Found α) :
    (found.map f).orElse (other.map f) = (found.orElse other).map f := by
  cases found <;> rfl

theorem Found.orDeadEnd_map (found : Found α) (final : Bool) :
    (found.map f).orDeadEnd final = (found.orDeadEnd final).map f := by
  cases found <;> cases final <;> rfl

theorem Found.ofOption_map (o : Option (List (List Char) × α)) :
    ofOption (o.map fun found => (found.1, f found.2)) = (ofOption o).map f := by
  cases o <;> rfl

theorem Candidate.literal_map (c : Char) (k : Candidate α) :
    (k.map f).literal c = (k.literal c).map (·.map f) := by
  obtain ⟨parts, taken, target⟩ := k
  rcases parts with - | ⟨d | - | -, parts⟩
  · rfl
  · by_cases hd : d = c <;> simp [Candidate.literal, Candidate.map, hd]
  · rfl
  · rfl

theorem Candidate.segment_map (value : List Char) (k : Candidate α) :
    (k.map f).segment value = (k.segment value).map (·.map f) := by
  obtain ⟨parts, taken, target⟩ := k
  rcases parts with - | ⟨d | - | -, parts⟩ <;> rfl

theorem Candidate.rest_map (value : List Char) (k : Candidate α) :
    (k.map f).rest value = (k.rest value).map fun found => (found.1, f found.2) := by
  obtain ⟨parts, taken, target⟩ := k
  rcases parts with - | ⟨d | - | -, parts⟩ <;> rfl

theorem Candidate.finish_map (k : Candidate α) :
    (k.map f).finish = k.finish.map fun found => (found.1, f found.2) := by
  obtain ⟨parts, taken, target⟩ := k
  cases parts <;> rfl

theorem filterMap_map {step : Candidate α → Option (Candidate α)}
    {step' : Candidate β → Option (Candidate β)}
    (hstep : ∀ k, step' (k.map f) = (step k).map (·.map f)) :
    (ks.map (·.map f)).filterMap step' = (ks.filterMap step).map (·.map f) := by
  rw [List.filterMap_map, List.map_filterMap]
  exact List.filterMap_congr fun k _ => hstep k

theorem findSome?_map {step : Candidate α → Option (List (List Char) × α)}
    {step' : Candidate β → Option (List (List Char) × β)}
    (hstep : ∀ k, step' (k.map f) = (step k).map fun found => (found.1, f found.2)) :
    (ks.map (·.map f)).findSome? step' =
      (ks.findSome? step).map fun found => (found.1, f found.2) := by
  rw [List.findSome?_map, List.map_findSome?]
  exact congrArg (ks.findSome? ·) (funext hstep)

theorem isNode_map : isNode (ks.map (·.map f)) = isNode ks := by
  cases ks with
  | nil => rfl
  | cons k ks =>
    rw [List.map_cons, isNode, isNode, List.any_map]
    rfl

/-- What candidates are for has no part in the search. -/
theorem search_map (f : α → β) (after : Bool) (cs : List Char) (ks : List (Candidate α)) :
    search after cs (ks.map (·.map f)) = (search after cs ks).map f := by
  induction after, cs, ks using search.induct with
  | case1 after cs => rw [List.map_nil, search_no_candidates, search_no_candidates]; rfl
  | case2 after k ks =>
    have hmap : (k :: ks).map (·.map f) ≠ [] := List.cons_ne_nil _ _
    rw [search_nil hmap, search_nil (List.cons_ne_nil k ks), isNode_map,
      findSome?_map Candidate.finish_map, List.any_map, Found.ofOption_map,
      Found.orDeadEnd_map]
    rfl
  | case3 after c cs k ks value literals segments _ _ ihLiteral ihSegment =>
    have hmap : (k :: ks).map (·.map f) ≠ [] := List.cons_ne_nil _ _
    rw [search_cons hmap, search_cons (List.cons_ne_nil k ks), isNode_map,
      filterMap_map (Candidate.literal_map c),
      filterMap_map (Candidate.segment_map _),
      findSome?_map (Candidate.rest_map _), ihLiteral, ihSegment, List.isEmpty_map,
      Found.ofOption_map, Found.orElse_map, Found.orDeadEnd_map, Found.orElse_map,
      Found.orDeadEnd_map]

end Map

end AccountService.Http
