import AccountService.Proofs.Find
import AccountService.Proofs.Http.Route

/-!
# What a router holds

A router keeps every target under the pattern that its path writes. Whatever holds of all targets
when they are bound therefore holds of the one that a request meets, together with what the
request has in common with the binding. Which path a request's path is taken for depends on the
paths that are bound and on nothing else.

## Main definitions

* `Http.Router.Holds` — a property of all bindings of a router
* `Http.StandsFor`, `Http.Serves` — a request has the path, and the method, of a binding
* `Http.Outranks` — of two paths that stand for a path one counts
* `Http.chosen` — of several paths the one that a path is taken for
* `Http.Decides` — how several paths are told apart
* `Http.Router.Binds` — a target is bound to a method and a path
* `Http.Router.Orderly` — nothing is bound twice, and no two paths clash

## Main statements

* `Http.Router.Holds.register` — binding a target that has the property keeps it
* `Http.Router.Holds.find` — what a request meets has the property
* `Http.Router.register_cases`, `Http.Router.binds_register` — what binding a target changes
* `Http.Router.Orderly.exists_register_iff` — when a target can be bound
* `Http.decides_of_apart` — paths that do not clash are told apart
* `Http.Router.Holds.find_cases`, `Http.Router.Orderly.find` — what a request meets
-/

namespace AccountService.Http

variable {α : Type}

/-- Every path of a router is kept with the pattern that it writes, and every method, path and
target that are bound to each other have a property. -/
def Router.Holds (r : Router α) (p : String → String → α → Prop) : Prop :=
  ∀ e ∈ r.entries, Pattern.parse? e.path = some e.pattern ∧
    ∀ target ∈ e.targets, p target.1 e.path target.2

/-- The path of a request is one that the path of a binding stands for. -/
def StandsFor (path target : String) : Prop :=
  ∃ pattern taken, Pattern.parse? path = some pattern ∧ Matches pattern.parts target.toList taken

/-- A request has the method of a binding, or is a `HEAD` for a `GET`, and its path is one that
the path of the binding stands for, with these values by name. -/
structure Serves (bound path : String) (method target : String)
    (values : List (String × List Char)) : Prop where
  method : method = bound ∨ method = "HEAD" ∧ bound = "GET"
  path : ∃ pattern taken, Pattern.parse? path = some pattern ∧
    Matches pattern.parts target.toList taken ∧ values = pattern.names.zip taken

/-- Of two paths the first outranks the second: where they part, it stands for itself and the second
does not. -/
def Outranks (path path' : String) : Prop :=
  ∃ pattern pattern', Pattern.parse? path = some pattern ∧ Pattern.parse? path' = some pattern' ∧
    Precedes pattern.parts pattern'.parts

/-! ### The choice of a path -/

/-- The candidates that paths make, each for itself. -/
def pathCandidates (paths : List String) : List (Candidate String) :=
  paths.filterMap fun path => (Pattern.parse? path).map fun pattern => ⟨pattern.parts, [], path⟩

/-- The path, of several, that a path is taken for, with the values that it takes. -/
def chosen (paths : List String) (sought : String) : Found String :=
  search false sought.toList (pathCandidates paths)

/-- No two paths clash. -/
def Apart (paths : List String) : Prop :=
  ∀ path ∈ paths, ∀ path' ∈ paths, path ≠ path' → ∀ pattern pattern',
    Pattern.parse? path = some pattern → Pattern.parse? path' = some pattern' →
    clash pattern.parts pattern'.parts = false

/-- How several paths are told apart. -/
structure Decides (paths : List String) : Prop where
  /-- The path that is chosen stands for the one that is sought, and outranks all others that do. -/
  first : ∀ sought taken path, chosen paths sought = .route taken path →
    path ∈ paths ∧ (∃ pattern, Pattern.parse? path = some pattern ∧
      Matches pattern.parts sought.toList taken) ∧
      ∀ path' ∈ paths, StandsFor path' sought → path' = path ∨ Outranks path path'
  /-- A path without parameters is chosen for itself. -/
  written : ∀ path ∈ paths, IsWritten path.toList → chosen paths path = .route [] path
  /-- Where a path stands for the one that is sought, one is chosen, unless the one that is sought
  ends in a slash, or lacks the one in which a path ends. -/
  found : ∀ sought, (∃ path ∈ paths, StandsFor path sought) → sought.toList.getLast? ≠ some '/' →
    (∀ path ∈ paths, path.toList.getLast? = some '/' → ¬ StandsFor path (sought ++ "/")) →
    ∃ taken path, chosen paths sought = .route taken path

section Choice

variable {paths : List String} {sought path : String} {taken : List (List Char)}

theorem mem_pathCandidates {k : Candidate String} :
    k ∈ pathCandidates paths ↔
      ∃ path ∈ paths, ∃ pattern, Pattern.parse? path = some pattern ∧
        k = ⟨pattern.parts, [], path⟩ := by
  simp only [pathCandidates, List.mem_filterMap, Option.map_eq_some_iff, eq_comm (a := k)]

/-- The path that is chosen stands for the one that is sought. -/
theorem matches_of_chosen (h : chosen paths sought = .route taken path) :
    path ∈ paths ∧ ∃ pattern, Pattern.parse? path = some pattern ∧
      Matches pattern.parts sought.toList taken := by
  obtain ⟨k, hk, taken, hmatch, rfl, rfl⟩ := search_sound h
  obtain ⟨path, hpath, pattern, hparse, rfl⟩ := mem_pathCandidates.1 hk
  exact ⟨hpath, pattern, hparse, hmatch⟩

/-- The path that is chosen outranks all others that stand for the one that is sought. -/
theorem outranks_of_chosen (hapart : Apart paths) (h : chosen paths sought = .route taken path)
    {path' : String} (hpath' : path' ∈ paths) (hstands : StandsFor path' sought) :
    path' = path ∨ Outranks path path' := by
  obtain ⟨k, hk, taken, hmatch, rfl, rfl, hleads⟩ := search_first _ _ _ h
  obtain ⟨path, hpath, pattern, hparse, rfl⟩ := mem_pathCandidates.1 hk
  obtain ⟨pattern', taken', hparse', hmatch'⟩ := hstands
  by_cases hsame : path' = path
  · exact .inl hsame
  · -- Paths do not clash, and the one that was not found does not come first.
    rcases clash_or_precedes hmatch hmatch' with hclash | hprecedes | hprecedes
    · have hfalse := hapart path hpath path' hpath' (Ne.symm hsame) _ _ hparse hparse'
      cases hfalse.symm.trans hclash
    · exact .inr ⟨_, _, hparse, hparse', hprecedes⟩
    · have hk' := mem_pathCandidates.2 ⟨path', hpath', pattern', hparse', rfl⟩
      exact absurd hprecedes (hleads _ hk' taken' hmatch')

/-- A path without parameters is chosen for itself. -/
theorem chosen_of_isWritten (hpath : path ∈ paths) (hreadable : (Pattern.parse? path).isSome = true)
    (hwritten : IsWritten path.toList) : chosen paths path = .route [] path := by
  obtain ⟨pattern, hparse⟩ := Option.isSome_iff_exists.1 hreadable
  have hslash : path.toList.head? = some '/' := head?_of_parse? hparse
  have hparts := parse?_eq_literals_iff.2 ⟨rfl, hslash, hwritten⟩
  rw [hparse] at hparts
  have hk := mem_pathCandidates.2 ⟨path, hpath, pattern, hparse, rfl⟩
  obtain ⟨k, hk, hsame, hsearch⟩ := search_literals false hk (Option.some.inj hparts)
  obtain ⟨path', -, pattern', hparse', rfl⟩ := mem_pathCandidates.1 hk
  -- No other path writes the same parts.
  have hparts' : (Pattern.parse? path').map (·.parts) = some (literals path.toList) := by
    rw [hparse']
    exact congrArg some hsame
  obtain rfl := String.toList_inj.1 (parse?_eq_literals_iff.1 hparts').1
  exact hsearch

/-- Where a path stands for the one that is sought, one is chosen, unless there is a dead end. -/
theorem exists_chosen (hstands : ∃ path ∈ paths, StandsFor path sought)
    (hlast : sought.toList.getLast? ≠ some '/')
    (hslash : ∀ path ∈ paths, path.toList.getLast? = some '/' → ¬ StandsFor path (sought ++ "/")) :
    ∃ taken path, chosen paths sought = .route taken path := by
  cases h : chosen paths sought with
  | route taken path => exact ⟨taken, path, rfl⟩
  | nothing =>
    obtain ⟨path, hpath, pattern, taken, hparse, hmatch⟩ := hstands
    have hk := mem_pathCandidates.2 ⟨path, hpath, pattern, hparse, rfl⟩
    exact absurd hmatch (not_matches_of_search_eq_nothing _ _ _ h _ hk taken)
  | deadEnd =>
    rcases slash_of_search_eq_deadEnd _ _ _ h with hend | ⟨k, hk, hslashed, taken, hmatch⟩
    · exact absurd hend hlast
    · obtain ⟨path, hpath, pattern, hparse, rfl⟩ := mem_pathCandidates.1 hk
      refine absurd ⟨pattern, taken, hparse, ?_⟩
        (hslash path hpath (getLast?_of_parse? hparse hslashed))
      rwa [String.toList_append]

/-- Paths that can be read and do not clash are told apart. -/
theorem decides_of_apart (hreadable : ∀ path ∈ paths, (Pattern.parse? path).isSome = true)
    (hapart : Apart paths) : Decides paths where
  first _ _ _ h :=
    have ⟨hpath, hmatch⟩ := matches_of_chosen h
    ⟨hpath, hmatch, fun _ hpath' hstands => outranks_of_chosen hapart h hpath' hstands⟩
  written path hpath hwritten := chosen_of_isWritten hpath (hreadable path hpath) hwritten
  found _ hstands hlast hslash := exists_chosen hstands hlast hslash

end Choice

namespace Router

variable {p : String → String → α → Prop} {r r' : Router α} {method path : String} {target : α}

theorem holds_empty : (Router.empty : Router α).Holds p := by
  intro e he
  cases he

/-- A path that is bound already takes one more method. -/
def extend (r : Router α) (method path : String) (target : α) : Router α :=
  ⟨r.entries.map fun e =>
    if e.path = path then { e with targets := e.targets ++ [(method, target)] } else e⟩

theorem map_path_extend :
    (r.extend method path target).entries.map (·.path) = r.entries.map (·.path) := by
  rw [extend, List.map_map]
  refine List.map_congr_left fun e _ => ?_
  rw [Function.comp_apply]
  split <;> rfl

/-- An entry of the router after that is one from before, perhaps with one more target. -/
theorem mem_extend {e : PathEntry α} (h : e ∈ (r.extend method path target).entries) :
    ∃ e' ∈ r.entries, e.path = e'.path ∧ e.pattern = e'.pattern ∧
      e.targets = if e'.path = path then e'.targets ++ [(method, target)] else e'.targets := by
  obtain ⟨e', he', rfl⟩ := List.mem_map.1 h
  refine ⟨e', he', ?_⟩
  split <;> exact ⟨rfl, rfl, rfl⟩

/-- Binding adds a method to a path that is bound already, or it adds a path. -/
theorem register_cases (h : r.register method path target = .ok r') :
    ∃ pattern, Pattern.parse? path = some pattern ∧
      ((∃ e ∈ r.entries, e.path = path ∧ (∀ t ∈ e.targets, t.1 ≠ method) ∧
          r' = r.extend method path target) ∨
        (∀ e ∈ r.entries, e.path ≠ path ∧ clash e.pattern.parts pattern.parts = false) ∧
          r' = ⟨r.entries ++ [⟨path, pattern, [(method, target)]⟩]⟩) := by
  rw [Router.register] at h
  cases hpattern : Pattern.parse? path with
  | none =>
    rw [hpattern] at h
    cases h
  | some pattern =>
    simp only [hpattern] at h
    refine ⟨pattern, rfl, ?_⟩
    split at h
    · next e hfind =>
      split at h <;> cases h
      next hmethod =>
      refine .inl ⟨e, List.mem_of_find?_eq_some hfind, by simpa using List.find?_some hfind,
        fun t ht heq => hmethod ?_, rfl⟩
      exact List.any_eq_true.2 ⟨t, ht, beq_iff_eq.2 heq⟩
    · next hfind =>
      split at h <;> cases h
      next hclash =>
      refine .inr ⟨fun e he => ⟨fun heq => ?_, ?_⟩, rfl⟩
      · exact List.find?_eq_none.1 hfind e he (beq_iff_eq.2 heq)
      · exact Bool.eq_false_iff.2 fun h => hclash (List.any_eq_true.2 ⟨e, he, h⟩)

/-- Binding a target that has the property keeps it. -/
theorem Holds.register (h : r.Holds p) (hregister : r.register method path target = .ok r')
    (hp : p method path target) : r'.Holds p := by
  obtain ⟨pattern, hpattern, ⟨-, -, -, -, rfl⟩ | ⟨-, rfl⟩⟩ := register_cases hregister
  · intro e he
    obtain ⟨e', he', hpath, hsame, htargets⟩ := mem_extend he
    obtain ⟨hparse, hall⟩ := h e' he'
    rw [hpath, hsame, htargets]
    refine ⟨hparse, fun t ht => ?_⟩
    split at ht
    · next hbound =>
      rcases List.mem_append.1 ht with ht | ht
      · exact hall t ht
      · obtain rfl := List.mem_singleton.1 ht
        exact hbound ▸ hp
    · exact hall t ht
  · intro e he
    rcases List.mem_append.1 he with he | he
    · exact h e he
    · obtain rfl := List.mem_singleton.1 he
      refine ⟨hpattern, fun t ht => ?_⟩
      obtain rfl := List.mem_singleton.1 ht
      exact hp

/-! ### Every binding is kept -/

/-- A target is bound to a method and a path. -/
def Binds (r : Router α) (method path : String) (target : α) : Prop :=
  ∃ e ∈ r.entries, e.path = path ∧ (method, target) ∈ e.targets

/-- No path stands twice in a router, no method twice at a path, no path without a method, and no
two paths clash. -/
structure Orderly (r : Router α) : Prop where
  paths : (r.entries.map (·.path)).Nodup
  methods : ∀ e ∈ r.entries, (e.targets.map (·.1)).Nodup
  bound : ∀ e ∈ r.entries, e.targets ≠ []
  apart : ∀ e ∈ r.entries, ∀ e' ∈ r.entries, e.path ≠ e'.path →
    clash e.pattern.parts e'.pattern.parts = false

section Register

variable {e : PathEntry α} {pattern : Pattern} {method' path' : String} {target' : α}

theorem binds_extend (he : e ∈ r.entries) :
    (r.extend method e.path target).Binds method' path' target' ↔
      r.Binds method' path' target' ∨ method' = method ∧ path' = e.path ∧ target' = target := by
  constructor
  · rintro ⟨_, hmem, rfl, htarget⟩
    obtain ⟨e', he', hpath, -, htargets⟩ := mem_extend hmem
    rw [htargets] at htarget
    rw [hpath]
    split at htarget
    · next hbound =>
      rcases List.mem_append.1 htarget with htarget | htarget
      · exact .inl ⟨e', he', rfl, htarget⟩
      · obtain ⟨rfl, rfl⟩ := Prod.mk.inj (List.mem_singleton.1 htarget)
        exact .inr ⟨rfl, hbound, rfl⟩
    · exact .inl ⟨e', he', rfl, htarget⟩
  · rintro (⟨e', he', rfl, htarget⟩ | ⟨rfl, rfl, rfl⟩)
    · refine ⟨_, List.mem_map_of_mem he', ?_, ?_⟩
      · split <;> rfl
      · split
        · exact List.mem_append_left _ htarget
        · exact htarget
    · refine ⟨_, List.mem_map_of_mem he, ?_, ?_⟩
      · rw [if_pos rfl]
      · rw [if_pos rfl]
        exact List.mem_append_right _ (List.mem_singleton_self _)

theorem binds_concat :
    (⟨r.entries ++ [⟨path, pattern, [(method, target)]⟩]⟩ : Router α).Binds method' path' target' ↔
      r.Binds method' path' target' ∨ method' = method ∧ path' = path ∧ target' = target := by
  constructor
  · rintro ⟨e', he', rfl, htarget⟩
    rcases List.mem_append.1 he' with he' | he'
    · exact .inl ⟨e', he', rfl, htarget⟩
    · obtain rfl := List.mem_singleton.1 he'
      obtain ⟨rfl, rfl⟩ := Prod.mk.inj (List.mem_singleton.1 htarget)
      exact .inr ⟨rfl, rfl, rfl⟩
  · rintro (⟨e', he', rfl, htarget⟩ | ⟨rfl, rfl, rfl⟩)
    · exact ⟨e', List.mem_append_left _ he', rfl, htarget⟩
    · exact ⟨_, List.mem_append_right _ (List.mem_singleton_self _), rfl, List.mem_singleton_self _⟩

/-- Binding a target keeps what was bound before. -/
theorem binds_register (hregister : r.register method path target = .ok r') :
    r'.Binds method' path' target' ↔
      r.Binds method' path' target' ∨ method' = method ∧ path' = path ∧ target' = target := by
  obtain ⟨pattern, -, ⟨e, he, rfl, -, rfl⟩ | ⟨-, rfl⟩⟩ := register_cases hregister
  · exact binds_extend he
  · exact binds_concat

theorem orderly_empty : (Router.empty : Router α).Orderly where
  paths := List.nodup_nil
  methods e he := by cases he
  bound e he := by cases he
  apart e he := by cases he

theorem Orderly.extend (h : r.Orderly) (he : e ∈ r.entries)
    (hmethod : ∀ t ∈ e.targets, t.1 ≠ method) : (r.extend method e.path target).Orderly := by
  refine ⟨?_, fun _ hmem => ?_, fun _ hmem => ?_, fun _ hmem _ hmem' hne => ?_⟩
  · rw [map_path_extend]
    exact h.paths
  · obtain ⟨e', he', -, -, htargets⟩ := mem_extend hmem
    rw [htargets]
    split
    · next hsame =>
      -- Paths stand once, so this is the entry whose methods were looked at.
      obtain rfl := List.inj_on_of_nodup_map h.paths he' he hsame
      rw [List.map_append]
      refine List.Nodup.append (h.methods e' he') (List.nodup_singleton _) ?_
      intro m hm hm'
      obtain ⟨t, ht, rfl⟩ := List.mem_map.1 hm
      exact hmethod t ht (List.mem_singleton.1 hm')
    · exact h.methods e' he'
  · obtain ⟨e', he', -, -, htargets⟩ := mem_extend hmem
    rw [htargets]
    split
    · exact List.append_ne_nil_of_right_ne_nil _ (List.cons_ne_nil _ _)
    · exact h.bound e' he'
  · obtain ⟨e₁, he₁, hpath₁, hpattern₁, -⟩ := mem_extend hmem
    obtain ⟨e₂, he₂, hpath₂, hpattern₂, -⟩ := mem_extend hmem'
    rw [hpattern₁, hpattern₂]
    rw [hpath₁, hpath₂] at hne
    exact h.apart e₁ he₁ e₂ he₂ hne

theorem Orderly.concat (h : r.Orderly)
    (hnew : ∀ e ∈ r.entries, e.path ≠ path ∧ clash e.pattern.parts pattern.parts = false) :
    Orderly ⟨r.entries ++ [⟨path, pattern, [(method, target)]⟩]⟩ := by
  refine ⟨?_, ?_, ?_, ?_⟩
  · rw [List.map_append]
    refine List.Nodup.append h.paths (List.nodup_singleton _) ?_
    intro q hq hq'
    obtain ⟨e, he, rfl⟩ := List.mem_map.1 hq
    exact (hnew e he).1 (List.mem_singleton.1 hq')
  · rw [List.forall_mem_append, List.forall_mem_singleton]
    exact ⟨h.methods, List.nodup_singleton _⟩
  · rw [List.forall_mem_append, List.forall_mem_singleton]
    exact ⟨h.bound, List.cons_ne_nil _ _⟩
  · simp only [List.forall_mem_append, List.forall_mem_singleton]
    refine ⟨fun e he => ⟨h.apart e he, fun _ => (hnew e he).2⟩, fun e he _ => ?_, fun hne => ?_⟩
    · rw [clash_comm]
      exact (hnew e he).2
    · exact absurd rfl hne

theorem Orderly.register (h : r.Orderly) (hregister : r.register method path target = .ok r') :
    r'.Orderly := by
  obtain ⟨pattern, -, ⟨e, he, rfl, hmethod, rfl⟩ | ⟨hnew, rfl⟩⟩ := register_cases hregister
  · exact h.extend he hmethod
  · exact h.concat hnew

/-- A target can be bound exactly if its path can be read, nothing is bound to its method there, and
no other path that is bound clashes with it. -/
theorem Orderly.exists_register_iff (h : r.Orderly) (hholds : r.Holds p) :
    (∃ r', r.register method path target = .ok r') ↔
      ∃ pattern, Pattern.parse? path = some pattern ∧ (∀ t, ¬ r.Binds method path t) ∧
        ∀ bound path' t pattern', r.Binds bound path' t → path' ≠ path →
          Pattern.parse? path' = some pattern' → clash pattern'.parts pattern.parts = false := by
  constructor
  · rintro ⟨r', hregister⟩
    obtain ⟨pattern, hpattern, hcases⟩ := register_cases hregister
    refine ⟨pattern, hpattern, ?_, ?_⟩
    · rintro t ⟨e', he', hpath, ht⟩
      obtain ⟨e, he, hsame, hmethods, -⟩ | ⟨hnew, -⟩ := hcases
      · obtain rfl := List.inj_on_of_nodup_map h.paths he' he (hpath.trans hsame.symm)
        exact hmethods _ ht rfl
      · exact (hnew e' he').1 hpath
    · rintro _ _ t pattern' ⟨e', he', rfl, ht⟩ hne hpattern'
      obtain rfl := Option.some.inj (hpattern'.symm.trans (hholds e' he').1)
      obtain ⟨e, he, rfl, -, -⟩ | ⟨hnew, -⟩ := hcases
      · obtain rfl := Option.some.inj (hpattern.symm.trans (hholds e he).1)
        exact h.apart e' he' e he hne
      · exact (hnew e' he').2
  · rintro ⟨pattern, hpattern, hfree, hapart⟩
    simp only [Router.register, hpattern]
    split
    · next e hfind =>
      have he := List.mem_of_find?_eq_some hfind
      have hpath : e.path = path := by simpa using List.find?_some hfind
      rw [if_neg]
      · exact ⟨_, rfl⟩
      · rw [List.any_eq_true]
        rintro ⟨t, ht, hmethod⟩
        exact hfree t.2 ⟨e, he, hpath, beq_iff_eq.1 hmethod ▸ ht⟩
    · next hfind =>
      rw [if_neg]
      · exact ⟨_, rfl⟩
      · rw [List.any_eq_true]
        rintro ⟨e, he, hclash⟩
        obtain ⟨t, ht⟩ := List.exists_mem_of_ne_nil _ (h.bound e he)
        have hne : e.path ≠ path := fun heq => List.find?_eq_none.1 hfind e he (beq_iff_eq.2 heq)
        have hfalse := hapart t.1 _ t.2 e.pattern ⟨e, he, rfl, ht⟩ hne (hholds e he).1
        cases hfalse.symm.trans hclash

end Register

/-! ### What a request meets -/

theorem mem_of_dispatch? {targets : List (String × α)}
    (h : dispatch? targets method = some target) :
    ∃ bound, (bound, target) ∈ targets ∧
      (method = bound ∨ method = "HEAD" ∧ bound = "GET" ∧ ∀ t ∈ targets, t.1 ≠ "HEAD") := by
  rw [dispatch?] at h
  split at h
  · next bound target' hfind =>
    obtain rfl := Option.some.inj h
    have hbound := List.find?_some hfind
    exact ⟨bound, List.mem_of_find?_eq_some hfind, .inl (beq_iff_eq.1 hbound).symm⟩
  · next hnone =>
    split at h
    · next hhead =>
      obtain ⟨⟨bound, target'⟩, hfind, rfl⟩ := Option.map_eq_some_iff.1 h
      have hbound := List.find?_some hfind
      exact ⟨bound, List.mem_of_find?_eq_some hfind, .inr ⟨hhead, beq_iff_eq.1 hbound,
        fun t ht heq => List.find?_eq_none.1 hnone t ht (beq_iff_eq.2 (heq.trans hhead.symm))⟩⟩
    · cases h

theorem dispatch?_of_mem {targets : List (String × α)} (h : (targets.map (·.1)).Nodup)
    (hmem : (method, target) ∈ targets) : dispatch? targets method = some target := by
  rw [dispatch?, (find?_key_iff h).2 ⟨hmem, rfl⟩]

/-- A `HEAD` falls back on a `GET`, where it is not bound itself. -/
theorem dispatch?_head {targets : List (String × α)} (h : (targets.map (·.1)).Nodup)
    (hget : ("GET", target) ∈ targets) (hhead : ∀ t ∈ targets, t.1 ≠ "HEAD") :
    dispatch? targets "HEAD" = some target := by
  have hnone : targets.find? (·.1 == "HEAD") = none :=
    List.find?_eq_none.2 fun t ht heq => hhead t ht (beq_iff_eq.1 heq)
  rw [dispatch?, hnone]
  simp only [if_true, (find?_key_iff h).2 ⟨hget, rfl⟩, Option.map_some]

/-- The entries of a router as candidates of a search. -/
def candidates (r : Router α) : List (Candidate (PathEntry α)) :=
  r.entries.map fun e => ⟨e.pattern.parts, [], e⟩

/-- What a request meets is bound to the path that its path is taken for. -/
theorem Holds.map_search (h : r.Holds p) (sought : String) :
    (search false sought.toList r.candidates).map (·.path) =
      chosen (r.entries.map (·.path)) sought := by
  have hcandidates : r.candidates.map (·.map (·.path)) =
      pathCandidates (r.entries.map (·.path)) := by
    rw [candidates, pathCandidates, List.map_map, List.filterMap_map, ← List.filterMap_eq_map]
    refine List.filterMap_congr fun e he => ?_
    simp only [Function.comp_apply, (h e he).1, Option.map_some]
    rfl
  rw [chosen, ← hcandidates, search_map]

/-- What a request meets: nothing, if its path is taken for none that is bound, and otherwise what
is bound to the path that it is taken for. -/
theorem Holds.find_cases (h : r.Holds p) (method sought : String) :
    ((∀ taken path, chosen (r.entries.map (·.path)) sought ≠ .route taken path) ∧
        r.find method sought = .notFound) ∨
      ∃ e ∈ r.entries, ∃ taken, chosen (r.entries.map (·.path)) sought = .route taken e.path ∧
        Matches e.pattern.parts sought.toList taken ∧
        r.find method sought =
          match dispatch? e.targets method with
          | some target => .route target (e.pattern.names.zip taken)
          | none => .notAllowed (allowed (e.targets.map (·.1))) := by
  have hchosen := h.map_search sought
  rw [candidates] at hchosen
  rw [← hchosen, Router.find]
  cases hsearch : search false sought.toList
      (r.entries.map fun e => (⟨e.pattern.parts, [], e⟩ : Candidate (PathEntry α))) with
  | route taken e =>
    obtain ⟨k, hk, taken, hmatch, rfl, rfl⟩ := search_sound hsearch
    obtain ⟨e, he, rfl⟩ := List.mem_map.1 hk
    exact .inr ⟨e, he, taken, rfl, hmatch, rfl⟩
  | nothing => exact .inl ⟨nofun, rfl⟩
  | deadEnd => exact .inl ⟨nofun, rfl⟩

/-- What a request meets has the property, and the request is one for its binding. -/
theorem Holds.find (h : r.Holds p) {values : List (String × List Char)} {sought : String}
    (hfind : r.find method sought = .route target values) :
    ∃ bound path, p bound path target ∧ Serves bound path method sought values := by
  obtain ⟨-, hnone⟩ | ⟨e, he, taken, -, hmatch, hfound⟩ := h.find_cases method sought
  · cases hnone.symm.trans hfind
  · cases hdispatch : dispatch? e.targets method with
    | none =>
      rw [hdispatch] at hfound
      cases hfound.symm.trans hfind
    | some target' =>
      rw [hdispatch] at hfound
      cases hfound.symm.trans hfind
      obtain ⟨bound, hbound, hmethod⟩ := mem_of_dispatch? hdispatch
      obtain ⟨hparse, htargets⟩ := h e he
      exact ⟨bound, e.path, htargets _ hbound, hmethod.imp_right fun h => ⟨h.1, h.2.1⟩,
        e.pattern, taken, hparse, hmatch, rfl⟩

/-- A request for a binding meets it, if its path is taken for that of the binding. -/
theorem Orderly.find (h : r.Orderly) (hholds : r.Holds p) {bound sought : String}
    {taken : List (List Char)} (hbinds : r.Binds bound path target)
    (hmethod : method = bound ∨ method = "HEAD" ∧ bound = "GET" ∧ ∀ t, ¬ r.Binds "HEAD" path t)
    (hchosen : chosen (r.entries.map (·.path)) sought = .route taken path) :
    ∃ values, Serves bound path method sought values ∧
      r.find method sought = .route target values := by
  obtain ⟨e, he, rfl, htarget⟩ := hbinds
  obtain ⟨hnone, -⟩ | ⟨e', he', taken', hchosen', hmatch, hfind⟩ := hholds.find_cases method sought
  · exact absurd hchosen (hnone taken e.path)
  · obtain ⟨rfl, hsame⟩ := Found.route.inj (hchosen'.symm.trans hchosen)
    obtain rfl := List.inj_on_of_nodup_map h.paths he' he hsame
    have hdispatch : dispatch? e'.targets method = some target := by
      rcases hmethod with rfl | ⟨rfl, rfl, hhead⟩
      · exact dispatch?_of_mem (h.methods _ he) htarget
      · exact dispatch?_head (h.methods _ he) htarget fun t ht hname =>
          hhead t.2 ⟨_, he, rfl, hname ▸ ht⟩
    rw [hdispatch] at hfind
    exact ⟨_, ⟨hmethod.imp_right fun h => ⟨h.1, h.2.1⟩, _, _, (hholds _ he).1, hmatch, rfl⟩, hfind⟩

end Router

end AccountService.Http
