import Mathlib.Data.List.Pairwise
import AccountService.Proofs.Except
import AccountService.Proofs.Pipeline.Bindings

/-!
# Putting an application together

Whoever puts an application together calls for one binding after another. A call takes the router
out of the application, and puts it back with one more route; but a method that cannot be bound is
refused before that. So a call that is refused leaves the application as it was, and in the end the
application has the routes of all other calls and no more.

## Main definitions

* `Pipeline.Assembly` — calls that put an application together
* `Pipeline.Binding.call`, `Pipeline.calls` — the call for a binding, and for one after another
* `Pipeline.Binding.conflicts`, `Pipeline.Compatible` — bindings that can stand side by side
* `Pipeline.Intact` — what comes of all calls

## Main statements

* `Pipeline.Binding.run_call` — a call does what binding a route does
* `Pipeline.run_calls_eq_ok_iff`, `Pipeline.exists_run_calls_iff` — what calls come to, and when
  they come to an end
* `Pipeline.Compatible.eq_of_chosenBy` — a request is for one route
* `Pipeline.intact_calls` — calls that are refused leave the application intact
* `Pipeline.not_intact_coffee` — a path that is none
-/

namespace AccountService.Pipeline

open Http

variable {σ : Type} {layers : List (Layer σ)} {done bs : List (Binding σ)} {app app' : App σ}
  {b : Binding σ}

/-! ### Calls -/

/-- Calls with an application in hand. A route that the router cannot take ends them all. -/
abbrev Assembly (σ : Type) := StateT (App σ) (Except RouteConflict)

/-- Whether the method of a binding can be bound. -/
def Binding.isBindable (b : Binding σ) : Bool := bindableMethods.contains b.method

/-- Why it cannot. -/
def Binding.refusal (b : Binding σ) : Error :=
  .route (b.method ++ " " ++ b.path ++ ": no `MethodFilter` for `" ++ b.method ++ "`")

/-- What the caller is told. -/
def Binding.verdict (b : Binding σ) : Except Error Unit :=
  if b.isBindable then .ok () else .error b.refusal

/-- The call for a binding. -/
def Binding.call (b : Binding σ) : Assembly σ (Except Error Unit) := do
  let app ← get
  let handler := compose app.layers b.inner
  if b.isBindable then
    let path := if b.group.isEmpty then b.path else b.group ++ b.path
    -- The router is not in the application while it is rebuilt.
    set { app with router := .empty }
    let router ← app.router.register b.method path handler
    modify fun app => { app with router := router }
    return .ok ()
  else return .error b.refusal

/-- The calls for one binding after another, with what the caller is told about each. -/
def calls (bs : List (Binding σ)) : Assembly σ (List (Except Error Unit)) := bs.mapM Binding.call

theorem App.bound_of_bindable (app : App σ) (hb : b.isBindable = true) :
    app.bound b =
      match app.router.register b.method (b.group ++ b.path) (compose app.layers b.inner) with
      | .ok router => .ok { app with router := router }
      | .error c => .error (.conflict c) := if_pos hb

theorem App.bound_of_not_bindable (app : App σ) (hb : b.isBindable = false) :
    app.bound b = .error (.refused b.refusal) := if_neg (Bool.eq_false_iff.1 hb)

/-- A call does what binding a route does, and the application is in order again after it. -/
theorem Binding.run_call (b : Binding σ) (app : App σ) :
    b.call.run app =
      match app.bound b with
      | .ok app' => .ok (.ok (), app')
      | .error (.refused e) => .ok (.error e, app)
      | .error (.conflict c) => .error c := by
  cases hb : b.isBindable with
  | false =>
    rw [app.bound_of_not_bindable hb, Binding.call, hb]
    rfl
  | true =>
    have hpath : (if b.group.isEmpty then b.path else b.group ++ b.path) = b.group ++ b.path := by
      split
      · next hempty => rw [String.isEmpty_iff.1 hempty, String.empty_append]
      · rfl
    rw [app.bound_of_bindable hb, Binding.call, hb]
    simp only [if_true, hpath, StateT.run_bind, StateT.run_get, StateT.run_set, pure_bind]
    cases app.router.register b.method (b.group ++ b.path) (compose app.layers b.inner) <;> rfl

/-- A call tells whether the method can be bound, and binds the route if it can. -/
theorem Binding.run_call_eq_ok_iff {result : Except Error Unit} :
    b.call.run app = .ok (result, app') ↔
      result = b.verdict ∧ if b.isBindable then app.bound b = .ok app' else app' = app := by
  rw [b.run_call, Binding.verdict]
  cases hb : b.isBindable with
  | false =>
    rw [app.bound_of_not_bindable hb]
    simp [eq_comm]
  | true =>
    rw [app.bound_of_bindable hb]
    cases app.router.register b.method (b.group ++ b.path) (compose app.layers b.inner) <;>
      simp [eq_comm]

theorem calls_cons (b : Binding σ) (bs : List (Binding σ)) :
    calls (b :: bs) = do
      let result ← b.call
      let rest ← calls bs
      return result :: rest := List.mapM_cons

/-- The first of several calls binds its route if the method can be bound, and the others go on from
there. -/
theorem run_calls_cons_eq_ok_iff {results : List (Except Error Unit)} :
    (calls (b :: bs)).run app = .ok (results, app') ↔
      ∃ app₁ rest, (if b.isBindable then app.bound b = .ok app₁ else app₁ = app) ∧
        (calls bs).run app₁ = .ok (rest, app') ∧ results = b.verdict :: rest := by
  simp only [calls_cons, StateT.run_bind, bind_eq_ok_iff, Prod.exists, Binding.run_call_eq_ok_iff]
  constructor
  · rintro ⟨_, app₁, ⟨rfl, hfirst⟩, rest, _, hrest, hdone⟩
    obtain ⟨rfl, rfl⟩ := Prod.mk.inj (Except.ok.inj hdone)
    exact ⟨app₁, rest, hfirst, hrest, rfl⟩
  · rintro ⟨app₁, rest, hfirst, hrest, rfl⟩
    exact ⟨_, app₁, ⟨rfl, hfirst⟩, rest, _, hrest, rfl⟩

/-- A call that is refused leaves the application as it was. -/
theorem Binding.run_call_of_refused (hb : b.isBindable = false) (app : App σ) :
    b.call.run app = .ok (.error b.refusal, app) := by
  rw [Binding.run_call_eq_ok_iff, Binding.verdict, hb]
  exact ⟨rfl, rfl⟩

/-! ### Several calls -/

/-- The bindings whose method can be bound. -/
def bindable (bs : List (Binding σ)) : List (Binding σ) := bs.filter (·.isBindable)

theorem bindable_cons (b : Binding σ) (bs : List (Binding σ)) :
    bindable (b :: bs) = if b.isBindable then b :: bindable bs else bindable bs := List.filter_cons

@[simp] theorem bindable_bindable (bs : List (Binding σ)) :
    bindable (bindable bs) = bindable bs := List.filter_filter.trans (by simp [bindable])

/-- Calls that come to an end tell of each binding whether its method can be bound, and bind the
routes of those for which it can. -/
theorem run_calls_eq_ok_iff {results : List (Except Error Unit)} :
    (calls bs).run app = .ok (results, app') ↔
      results = bs.map Binding.verdict ∧ (bindable bs).foldlM App.bound app = .ok app' := by
  induction bs generalizing app results with
  | nil =>
    constructor
    · intro h
      obtain ⟨rfl, rfl⟩ := Prod.mk.inj (Except.ok.inj h)
      exact ⟨rfl, rfl⟩
    · rintro ⟨rfl, h⟩
      obtain rfl := Except.ok.inj h
      rfl
  | cons b bs ih =>
    rw [run_calls_cons_eq_ok_iff, bindable_cons, List.map_cons]
    simp only [ih]
    cases hb : b.isBindable with
    | false =>
      constructor
      · rintro ⟨_, _, rfl, ⟨rfl, hrest⟩, rfl⟩
        exact ⟨rfl, hrest⟩
      · rintro ⟨rfl, hrest⟩
        exact ⟨_, _, rfl, ⟨rfl, hrest⟩, rfl⟩
    | true =>
      simp only [if_true, List.foldlM_cons, bind_eq_ok_iff]
      constructor
      · rintro ⟨app₁, _, hfirst, ⟨rfl, hrest⟩, rfl⟩
        exact ⟨rfl, app₁, hfirst, hrest⟩
      · rintro ⟨rfl, app₁, hfirst, hrest⟩
        exact ⟨app₁, _, hfirst, ⟨rfl, hrest⟩, rfl⟩

/-! ### Bindings side by side -/

/-- Whether two bindings cannot stand side by side: both have the same method at the same path, or
they have paths that clash. -/
def Binding.conflicts (b b' : Binding σ) : Bool :=
  if b.group ++ b.path = b'.group ++ b'.path then b.method == b'.method
  else
    match Pattern.parse? (b.group ++ b.path), Pattern.parse? (b'.group ++ b'.path) with
    | some pattern, some pattern' => clash pattern.parts pattern'.parts
    | _, _ => false

theorem Binding.conflicts_eq_false_iff {b b' : Binding σ} :
    b.conflicts b' = false ↔
      (b.group ++ b.path = b'.group ++ b'.path → b.method ≠ b'.method) ∧
        (b.group ++ b.path ≠ b'.group ++ b'.path → ∀ pattern pattern',
          Pattern.parse? (b.group ++ b.path) = some pattern →
          Pattern.parse? (b'.group ++ b'.path) = some pattern' →
          clash pattern.parts pattern'.parts = false) := by
  rw [Binding.conflicts]
  split
  · next hsame => simp [hsame]
  · next hne =>
    simp only [hne, false_implies, not_false_eq_true, true_implies, true_and, ne_eq]
    cases Pattern.parse? (b.group ++ b.path) <;> cases Pattern.parse? (b'.group ++ b'.path) <;>
      simp

theorem Binding.conflicts_comm (b b' : Binding σ) : b.conflicts b' = b'.conflicts b := by
  rw [Binding.conflicts, Binding.conflicts]
  by_cases hsame : b.group ++ b.path = b'.group ++ b'.path
  · rw [if_pos hsame, if_pos hsame.symm, Bool.beq_comm]
  · rw [if_neg hsame, if_neg (Ne.symm hsame)]
    cases Pattern.parse? (b.group ++ b.path) <;> cases Pattern.parse? (b'.group ++ b'.path) <;>
      simp [clash_comm]

/-- Bindings whose paths can be read, and of which no two conflict. -/
structure Compatible (bs : List (Binding σ)) : Prop where
  readable : ∀ b ∈ bs, (Pattern.parse? (b.group ++ b.path)).isSome = true
  apart : bs.Pairwise fun b b' => b.conflicts b' = false

theorem compatible_nil : Compatible ([] : List (Binding σ)) := ⟨nofun, .nil⟩

theorem Compatible.sublist {bs' : List (Binding σ)} (h : Compatible bs) (hsub : bs'.Sublist bs) :
    Compatible bs' :=
  ⟨fun b hb => h.readable b (hsub.subset hb), h.apart.sublist hsub⟩

/-- A request is for no more than one of several compatible bindings. -/
theorem Compatible.eq_of_chosenBy {b' : Binding σ} {r : Incoming} (h : Compatible bs)
    (hb : b.ChosenBy bs r) (hb' : b'.ChosenBy bs r) : b = b' := by
  obtain ⟨taken, hchosen⟩ := hb.path
  obtain ⟨taken', hchosen'⟩ := hb'.path
  have hpath : b.group ++ b.path = b'.group ++ b'.path :=
    (Found.route.inj (hchosen.symm.trans hchosen')).2
  have hmethod : b.method = b'.method := by
    rcases hb.method with hmethod | ⟨hhead, hget, hnone⟩ <;>
      rcases hb'.method with hmethod' | ⟨hhead', hget', hnone'⟩
    · exact hmethod.symm.trans hmethod'
    · exact absurd (hmethod.symm.trans hhead') (hnone' b hb.mem hpath)
    · exact absurd (hmethod'.symm.trans hhead) (hnone b' hb'.mem hpath.symm)
    · exact hget.trans hget'.symm
  by_contra hne
  have hsymm : Std.Symm fun b b' : Binding σ => b.conflicts b' = false :=
    ⟨fun b b' h => (b'.conflicts_comm b).trans h⟩
  exact (Binding.conflicts_eq_false_iff.1 (h.apart.forall hb.mem hb'.mem hne)).1 hpath hmethod

/-- The paths of compatible bindings are told apart. -/
theorem Compatible.decides (h : Compatible bs) : Decides (paths bs) := by
  refine decides_of_apart (fun path hpath => ?_) fun path hpath path' hpath' hne => ?_
  · obtain ⟨b, hb, rfl⟩ := mem_paths_iff.1 hpath
    exact h.readable b hb
  · obtain ⟨b, hb, rfl⟩ := mem_paths_iff.1 hpath
    obtain ⟨b', hb', rfl⟩ := mem_paths_iff.1 hpath'
    have hsymm : Std.Symm fun b b' : Binding σ => b.conflicts b' = false :=
      ⟨fun b b' h => (b'.conflicts_comm b).trans h⟩
    have hapart := h.apart.forall hb hb' fun heq => hne (heq ▸ rfl)
    exact (Binding.conflicts_eq_false_iff.1 hapart).2 hne

theorem compatible_concat_iff :
    Compatible (bs ++ [b]) ↔
      Compatible bs ∧ (Pattern.parse? (b.group ++ b.path)).isSome = true ∧
        ∀ b' ∈ bs, b'.conflicts b = false := by
  constructor
  · rintro ⟨hreadable, hapart⟩
    rw [List.forall_mem_append, List.forall_mem_singleton] at hreadable
    rw [List.pairwise_append] at hapart
    exact ⟨⟨hreadable.1, hapart.1⟩, hreadable.2,
      fun b' hb' => hapart.2.2 b' hb' b (List.mem_singleton_self b)⟩
  · rintro ⟨⟨hreadable, hapart⟩, hparse, hnew⟩
    refine ⟨List.forall_mem_append.2 ⟨hreadable, List.forall_mem_singleton.2 hparse⟩,
      List.pairwise_append.2 ⟨hapart, List.pairwise_singleton _ _, fun b' hb' _ hb => ?_⟩⟩
    rw [List.mem_singleton.1 hb]
    exact hnew b' hb'

/-- A route whose method can be bound is bound exactly if its path can be read and it conflicts with
none that was bound before. -/
theorem App.Built.exists_bound_iff (h : App.Built layers done app) (hb : b.isBindable = true) :
    (∃ app', app.bound b = .ok app') ↔
      (Pattern.parse? (b.group ++ b.path)).isSome = true ∧ ∀ b' ∈ done, b'.conflicts b = false := by
  have hbound : (∃ app', app.bound b = .ok app') ↔ ∃ router, app.router.register b.method
      (b.group ++ b.path) (compose app.layers b.inner) = .ok router := by
    rw [app.bound_of_bindable hb]
    cases app.router.register b.method (b.group ++ b.path) (compose app.layers b.inner) <;> simp
  rw [hbound, h.orderly.exists_register_iff h.holds.2, Option.isSome_iff_exists]
  simp only [h.binds_iff, Binding.conflicts_eq_false_iff]
  constructor
  · rintro ⟨pattern, hparse, hfree, hapart⟩
    refine ⟨⟨pattern, hparse⟩, fun b' hb' => ⟨fun hpath hmethod => ?_, ?_⟩⟩
    · exact hfree _ ⟨b', hb', hmethod, hpath, rfl⟩
    · intro hne pattern₁ pattern₂ hparse₁ hparse₂
      obtain rfl := Option.some.inj (hparse.symm.trans hparse₂)
      exact hapart _ _ _ pattern₁ ⟨b', hb', rfl, rfl, rfl⟩ hne hparse₁
  · rintro ⟨⟨pattern, hparse⟩, hdone⟩
    refine ⟨pattern, hparse, ?_, ?_⟩
    · rintro _ ⟨b', hb', hmethod, hpath, -⟩
      exact (hdone b' hb').1 hpath hmethod
    · rintro _ _ _ pattern' ⟨b', hb', -, rfl, -⟩ hne hparse'
      exact (hdone b' hb').2 hne pattern' pattern hparse' hparse

/-- Routes whose methods can be bound are bound one after another exactly if they are compatible
with each other and with those that were bound before. -/
theorem App.Built.exists_foldlM_iff (h : App.Built layers done app) (hdone : Compatible done)
    (hbs : ∀ b ∈ bs, b.isBindable = true) :
    (∃ app', bs.foldlM App.bound app = .ok app') ↔ Compatible (done ++ bs) := by
  induction bs generalizing done app with
  | nil => exact iff_of_true ⟨app, rfl⟩ ((List.append_nil done).symm ▸ hdone)
  | cons b bs ih =>
    rw [List.forall_mem_cons] at hbs
    have hstep := compatible_concat_iff.trans
      (and_congr_right fun _ => (h.exists_bound_iff hbs.1).symm)
    rw [List.append_cons, List.foldlM_cons]
    simp only [bind_eq_ok_iff]
    constructor
    · rintro ⟨app', app₁, hfirst, hrest⟩
      exact (ih (h.handle b hfirst) (hstep.2 ⟨hdone, app₁, hfirst⟩) hbs.2).1 ⟨app', hrest⟩
    · intro hall
      obtain ⟨-, app₁, hfirst⟩ := hstep.1 (hall.sublist (List.sublist_append_left _ bs))
      obtain ⟨app', hrest⟩ := (ih (h.handle b hfirst) (hstep.2 ⟨hdone, app₁, hfirst⟩) hbs.2).2 hall
      exact ⟨app', app₁, hfirst, hrest⟩

/-- The calls come to an end exactly if the bindings whose methods can be bound are compatible. -/
theorem exists_run_calls_iff (layers : List (Layer σ)) {bs : List (Binding σ)} :
    (∃ results app, (calls bs).run (App.new layers) = .ok (results, app)) ↔
      Compatible (bindable bs) := by
  have hbindable : ∀ b ∈ bindable bs, b.isBindable = true := fun _ hb => (List.mem_filter.1 hb).2
  have hnew : App.Built layers [] (App.new layers) := .new
  rw [← List.nil_append (bindable bs), ← hnew.exists_foldlM_iff compatible_nil hbindable]
  simp only [run_calls_eq_ok_iff]
  exact ⟨fun ⟨_, app, _, h⟩ => ⟨app, h⟩, fun ⟨app, h⟩ => ⟨_, app, rfl, h⟩⟩

/-! ### What comes of all calls -/

/-- A request is answered with a status, and nothing happens at all. -/
def App.TurnsAway (app : App σ) (r : Incoming) (status : Status) : Prop :=
  ∃ response : Response, response.status = status ∧ ∀ (site : Site σ) (clock : Instant),
    site.run clock (app.serve r) = (.ok response, site, [])

/-- What comes of calls for one binding after another: what the caller is told, and the application
in the end. -/
structure Intact (layers : List (Layer σ)) (bs : List (Binding σ))
    (results : List (Except Error Unit)) (app : App σ) : Prop where
  /-- Exactly the bindings whose methods cannot be bound are refused. -/
  told : results = bs.map Binding.verdict
  /-- A call that is refused changes no application. -/
  unchanged : ∀ b ∈ bs, b.isBindable = false → ∀ app' : App σ,
    b.call.run app' = .ok (.error b.refusal, app')
  /-- It is as if the calls that are refused had never been made. -/
  same : (calls (bindable bs)).run (App.new layers) = .ok ((bindable bs).map Binding.verdict, app)
  /-- Which path a request's path is taken for is decided by the paths of the routes that were not
  refused. -/
  decides : Decides (paths (bindable bs))
  /-- A request is for no more than one route. -/
  single : ∀ (b b' : Binding σ) (r : Incoming), b.ChosenBy (bindable bs) r →
    b'.ChosenBy (bindable bs) r → b = b'
  /-- A request for a route that was not refused runs through its handler, inside the layers of the
  application and then those of the route. -/
  served : ∀ (b : Binding σ) (r : Incoming), b.ChosenBy (bindable bs) r →
    ∃ values, Serves b.method (b.group ++ b.path) r.method r.path values ∧
      app.serve r = routed (compose (layers ++ b.layers) b.handler) r values
  /-- A request whose path is taken for that of no route is turned away. -/
  notFound : ∀ r : Incoming,
    (∀ taken path, chosen (paths (bindable bs)) r.path ≠ .route taken path) →
    app.TurnsAway r .notFound
  /-- And so is one that is for no route although its path is taken for that of one. -/
  notAllowed : ∀ (r : Incoming) taken path,
    chosen (paths (bindable bs)) r.path = .route taken path →
    (∀ b : Binding σ, ¬ b.ChosenBy (bindable bs) r) → app.TurnsAway r .methodNotAllowed

section TurnsAway

variable {r : Incoming} (h : App.Built layers bs app)

include h

theorem App.Built.turnsAway_notFound
    (hnone : ∀ taken path, chosen (paths bs) r.path ≠ .route taken path) :
    app.TurnsAway r .notFound := by
  obtain ⟨-, hfind⟩ | ⟨⟨taken, path, hchosen⟩, -⟩ :=
    h.find_of_not_chosenBy (r := r) fun b hb => hb.path.elim fun taken => hnone taken _
  · refine ⟨.ofStatus .notFound, rfl, fun site clock => ?_⟩
    rw [App.serve, hfind]
    rfl
  · exact absurd hchosen (hnone taken path)

theorem App.Built.turnsAway_notAllowed {taken : List (List Char)} {path : String}
    (hchosen : chosen (paths bs) r.path = .route taken path)
    (hnone : ∀ b : Binding σ, ¬ b.ChosenBy bs r) : app.TurnsAway r .methodNotAllowed := by
  obtain ⟨hnothing, -⟩ | ⟨-, allowed, hfind⟩ := h.find_of_not_chosenBy hnone
  · exact absurd hchosen (hnothing taken path)
  · refine ⟨⟨.methodNotAllowed, [("allow", allowed)], ""⟩, rfl, fun site clock => ?_⟩
    rw [App.serve, hfind]
    rfl

end TurnsAway

/-- Calls for one binding after another, of which those that can be bound are compatible, leave an
application that serves these and nothing else, whatever calls were refused among them. -/
theorem intact_calls (layers : List (Layer σ)) {bs : List (Binding σ)}
    (hcompatible : Compatible (bindable bs)) :
    ∃ results app, (calls bs).run (App.new layers) = .ok (results, app) ∧
      Intact layers bs results app := by
  obtain ⟨results, app, hrun⟩ := (exists_run_calls_iff layers).2 hcompatible
  obtain ⟨htold, hfold⟩ := run_calls_eq_ok_iff.1 hrun
  have hbuilt : App.Built layers (bindable bs) app := App.Built.new.foldlM hfold
  refine ⟨results, app, hrun, ?_⟩
  exact
    { told := htold
      unchanged := fun b _ hb app' => Binding.run_call_of_refused hb app'
      same := run_calls_eq_ok_iff.2 ⟨rfl, (bindable_bindable bs).symm ▸ hfold⟩
      decides := hcompatible.decides
      single := fun b b' r hb hb' => hcompatible.eq_of_chosenBy hb hb'
      served := fun b r hchosen => by
        obtain ⟨values, hserves, hfind⟩ := hbuilt.find_of_chosenBy hchosen
        exact ⟨values, hserves, serve_of_find hfind⟩
      notFound := fun r hnone => hbuilt.turnsAway_notFound hnone
      notAllowed := fun r taken path hchosen hnone => hbuilt.turnsAway_notAllowed hchosen hnone }

/-! ### A teapot -/

/-- A route for a path that is written out. -/
def testBinding : Binding Unit := ⟨"GET", "/v1", "/test", fun _ => pure greeting, []⟩

/-- A route for which it might be taken. -/
def nameBinding : Binding Unit := ⟨"GET", "", "/v1/:name", falling, []⟩

/-- Both routes, and between them one whose method cannot be bound. -/
def teapotBindings : List (Binding Unit) :=
  [testBinding, ⟨"BREW", "", "/coffee", falling, []⟩, nameBinding]

theorem forall_mem_bindable_teapotBindings {p : Binding Unit → Prop} :
    (∀ b ∈ bindable teapotBindings, p b) ↔ p testBinding ∧ p nameBinding := by
  have hbindable : bindable teapotBindings = [testBinding, nameBinding] := rfl
  rw [hbindable, List.forall_mem_cons, List.forall_mem_singleton]

/-- A path without parameters is taken for itself, also where another one stands for it. -/
theorem chosenBy_testBinding (h : Decides (paths (bindable teapotBindings))) :
    testBinding.ChosenBy (bindable teapotBindings) ⟨"HEAD", "/v1/test", [], [], none⟩ where
  mem := List.mem_cons_self
  method := .inr ⟨rfl, rfl, forall_mem_bindable_teapotBindings.2
    ⟨fun _ => by decide, fun _ => by decide⟩⟩
  path := ⟨[], h.written _ (mem_paths_iff.2 ⟨testBinding, List.mem_cons_self, rfl⟩)
    ⟨by decide, by decide⟩⟩

theorem parse?_testBinding :
    Pattern.parse? (testBinding.group ++ testBinding.path) =
      some ⟨literals "/v1/test".toList, []⟩ := by
  decide +kernel

theorem parse?_nameBinding :
    Pattern.parse? (nameBinding.group ++ nameBinding.path) =
      some ⟨literals "/v1/".toList ++ [.segment], ["name"]⟩ := by
  decide +kernel

theorem not_standsFor_coffee :
    ∀ b ∈ bindable teapotBindings, ¬ StandsFor (b.group ++ b.path) "/coffee" := by
  refine forall_mem_bindable_teapotBindings.2 ⟨?_, ?_⟩
  · rintro ⟨pattern, taken, hparse, hmatch⟩
    obtain rfl := Option.some.inj (hparse.symm.trans parse?_testBinding)
    exact absurd (matches_literals.1 hmatch).1 (by decide)
  · rintro ⟨pattern, taken, hparse, hmatch⟩
    obtain rfl := Option.some.inj (hparse.symm.trans parse?_nameBinding)
    obtain ⟨rest, hrest, -⟩ := matches_literals_append.1 hmatch
    exact absurd (List.cons.inj (List.cons.inj hrest).2).1 (by decide)

/-- There is no coffee. -/
theorem chosen_ne_coffee (h : Decides (paths (bindable teapotBindings)))
    (taken : List (List Char)) (path : String) :
    chosen (paths (bindable teapotBindings)) "/coffee" ≠ .route taken path := by
  intro hchosen
  obtain ⟨hpath, ⟨pattern, hparse, hmatch⟩, -⟩ := h.first _ _ _ hchosen
  obtain ⟨b, hb, rfl⟩ := mem_paths_iff.1 hpath
  exact not_standsFor_coffee b hb ⟨pattern, taken, hparse, hmatch⟩

theorem intact_calls_teapotBindings :
    Compatible (bindable teapotBindings) ∧
      ∃ app, (calls teapotBindings).run (App.new []) =
          .ok ([.ok (), .error (.route "BREW /coffee: no `MethodFilter` for `BREW`"), .ok ()],
            app) ∧
        (∃ values, app.serve ⟨"HEAD", "/v1/test", [], [], none⟩ =
          routed (fun _ => pure greeting) ⟨"HEAD", "/v1/test", [], [], none⟩ values) ∧
        app.TurnsAway ⟨"BREW", "/coffee", [], [], none⟩ .notFound := by
  have hcompatible : Compatible (bindable teapotBindings) := by
    constructor <;> decide +kernel
  obtain ⟨results, app, hrun, hintact⟩ := intact_calls [] hcompatible
  refine ⟨hcompatible, app, ?_, ?_, hintact.notFound _ (chosen_ne_coffee hintact.decides)⟩
  · rw [hrun, hintact.told]
    rfl
  · obtain ⟨values, -, hserve⟩ := hintact.served _ _ (chosenBy_testBinding hintact.decides)
    exact ⟨values, hserve⟩

/-- Not all calls come to an end: a path that does not begin with a slash is none, although its
method can be bound and it conflicts with nothing. -/
theorem not_intact_coffee :
    ∃ bs : List (Binding Unit), bs = [⟨"GET", "", "coffee", falling, []⟩] ∧
      (bs.Pairwise fun b b' => b.conflicts b' = false) ∧
      (calls bs).run (App.new []) = .error .malformed := by
  refine ⟨_, rfl, List.pairwise_singleton _ _, ?_⟩
  rw [calls_cons, StateT.run_bind, Binding.run_call]
  rfl

end AccountService.Pipeline
