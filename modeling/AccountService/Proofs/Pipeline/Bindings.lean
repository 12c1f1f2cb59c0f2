import AccountService.Proofs.Pipeline.Outcome

/-!
# What becomes of a binding

An application keeps every route that was bound in it, and nothing else. So a request that is for a
route runs through the handler of this route, inside the layers of the application and then those
of the route. Which route a request is for depends on the paths and methods that were bound.

## Main definitions

* `Pipeline.paths` — the paths of bindings
* `Pipeline.Binding.ChosenBy` — of the routes that were bound a request is for this one
* `Pipeline.routed` — a request on its way through a handler
* `Pipeline.Wraps` — every route of an application runs inside its layers

## Main statements

* `Pipeline.App.Built.binds_iff` — an application keeps what was bound in it
* `Pipeline.App.Built.map_path_entries` — its router keeps the paths in order
* `Pipeline.App.Built.find_of_chosenBy`, `Pipeline.App.Built.find_of_not_chosenBy` — what a request
  meets
* `Pipeline.App.Built.wraps` — in every application routes run inside their layers
-/

namespace AccountService.Pipeline

open Http

variable {σ : Type} {layers : List (Layer σ)} {bs : List (Binding σ)} {app : App σ} {b : Binding σ}
  {method path : String} {target : Handler σ}

/-! ### Every binding is kept -/

/-- An application keeps what was bound in it, and nothing else. -/
theorem App.Built.binds_iff (h : App.Built layers bs app) :
    app.router.Binds method path target ↔ Bound layers bs method path target := by
  induction h with
  | new =>
    constructor
    · rintro ⟨e, he, -⟩
      cases he
    · rintro ⟨b, hb, -⟩
      cases hb
  | @handle bs app app' b hbuilt hhandle ih =>
    -- The router binds what it bound before and this binding, inside the layers it was built with.
    obtain ⟨-, hregister⟩ := App.register_of_handle hhandle
    rw [Router.binds_register hregister, ih, hbuilt.holds.1]
    constructor
    · rintro (⟨b', hb', hbound⟩ | ⟨rfl, rfl, rfl⟩)
      · exact ⟨b', List.mem_append_left _ hb', hbound⟩
      · exact ⟨b, List.mem_append_right _ (List.mem_singleton_self b), rfl, rfl, rfl⟩
    · rintro ⟨b', hb', rfl, rfl, rfl⟩
      rcases List.mem_append.1 hb' with hb' | hb'
      · exact .inl ⟨b', hb', rfl, rfl, rfl⟩
      · obtain rfl := List.mem_singleton.1 hb'
        exact .inr ⟨rfl, rfl, rfl⟩

theorem App.Built.orderly (h : App.Built layers bs app) : app.router.Orderly := by
  induction h with
  | new => exact Router.orderly_empty
  | handle b _ hhandle ih => exact ih.register (App.register_of_handle hhandle).2

/-! ### Requests and the routes that they are for -/

/-- The paths of bindings, each once, in the order in which they are bound. -/
def paths (bs : List (Binding σ)) : List String := (bs.map fun b => b.group ++ b.path).eraseDups

theorem mem_paths_iff {path : String} : path ∈ paths bs ↔ ∃ b ∈ bs, b.group ++ b.path = path := by
  rw [paths, List.mem_eraseDups, List.mem_map]

theorem paths_concat_of_mem (h : b.group ++ b.path ∈ paths bs) : paths (bs ++ [b]) = paths bs := by
  have hnone : [b.group ++ b.path].removeAll (bs.map fun b => b.group ++ b.path) = [] := by
    rw [paths, List.mem_eraseDups] at h
    rw [List.removeAll, List.filter_eq_nil_iff]
    simpa using h
  rw [paths, List.map_append, List.map_singleton, List.eraseDups_append, hnone, List.eraseDups_nil,
    List.append_nil, paths]

theorem paths_concat_of_notMem (h : b.group ++ b.path ∉ paths bs) :
    paths (bs ++ [b]) = paths bs ++ [b.group ++ b.path] := by
  have hall : [b.group ++ b.path].removeAll (bs.map fun b => b.group ++ b.path) =
      [b.group ++ b.path] := by
    rw [paths, List.mem_eraseDups] at h
    rw [List.removeAll, List.filter_eq_self]
    simpa using h
  rw [paths, List.map_append, List.map_singleton, List.eraseDups_append, hall,
    List.eraseDups_cons, List.filter_nil, List.eraseDups_nil, paths]

/-- The router of an application keeps the paths that were bound, in order. -/
theorem App.Built.map_path_entries (h : App.Built layers bs app) :
    app.router.entries.map (·.path) = paths bs := by
  induction h with
  | new => rfl
  | @handle bs app app' b hbuilt hhandle ih =>
    obtain ⟨-, hregister⟩ := App.register_of_handle hhandle
    obtain ⟨pattern, -, ⟨e, he, hpath, -, hrouter⟩ | ⟨hnew, hrouter⟩⟩ :=
      Router.register_cases hregister
    · have hmem : b.group ++ b.path ∈ paths bs := ih ▸ List.mem_map.2 ⟨e, he, hpath⟩
      rw [hrouter, Router.map_path_extend, ih, paths_concat_of_mem hmem]
    · have hmem : b.group ++ b.path ∉ paths bs := by
        rw [← ih, List.mem_map]
        rintro ⟨e, he, hpath⟩
        exact (hnew e he).1 hpath
      rw [hrouter, List.map_append, ih, paths_concat_of_notMem hmem]
      rfl

/-- A request is for a route: its path is taken for that of the route, and it has its method, or it
is a `HEAD` for a `GET` without a route of its own. -/
structure Binding.ChosenBy (bs : List (Binding σ)) (b : Binding σ) (r : Incoming) : Prop where
  mem : b ∈ bs
  method : r.method = b.method ∨ r.method = "HEAD" ∧ b.method = "GET" ∧
    ∀ b' ∈ bs, b'.group ++ b'.path = b.group ++ b.path → b'.method ≠ "HEAD"
  path : ∃ taken, chosen (paths bs) r.path = .route taken (b.group ++ b.path)

/-- A request that is for a route meets it. -/
theorem App.Built.find_of_chosenBy (h : App.Built layers bs app) {r : Incoming}
    (hchosen : b.ChosenBy bs r) :
    ∃ values, Serves b.method (b.group ++ b.path) r.method r.path values ∧
      app.router.find r.method r.path = .route (compose (layers ++ b.layers) b.handler) values := by
  have hbinds : app.router.Binds b.method (b.group ++ b.path)
      (compose (layers ++ b.layers) b.handler) :=
    h.binds_iff.2 ⟨b, hchosen.mem, rfl, rfl, compose_append _ _ _⟩
  obtain ⟨taken, hpath⟩ := hchosen.path
  refine h.orderly.find h.holds.2 hbinds ?_ (h.map_path_entries.symm ▸ hpath)
  refine hchosen.method.imp_right fun ⟨hhead, hget, hnone⟩ => ⟨hhead, hget, fun t hbinds => ?_⟩
  obtain ⟨b', hb', hmethod, hpath, -⟩ := h.binds_iff.1 hbinds
  exact hnone b' hb' hpath hmethod

/-- A request that is for no route meets none. -/
theorem App.Built.find_of_not_chosenBy (h : App.Built layers bs app) {r : Incoming}
    (hnone : ∀ b : Binding σ, ¬ b.ChosenBy bs r) :
    ((∀ taken path, chosen (paths bs) r.path ≠ .route taken path) ∧
        app.router.find r.method r.path = .notFound) ∨
      (∃ taken path, chosen (paths bs) r.path = .route taken path) ∧
        ∃ allowed, app.router.find r.method r.path = .notAllowed allowed := by
  rw [← h.map_path_entries]
  obtain ⟨hnothing, hfind⟩ | ⟨e, he, taken, hchosen, -, hfind⟩ :=
    h.holds.2.find_cases r.method r.path
  · exact .inl ⟨hnothing, hfind⟩
  · cases hdispatch : dispatch? e.targets r.method with
    | none =>
      rw [hdispatch] at hfind
      exact .inr ⟨⟨taken, e.path, hchosen⟩, _, hfind⟩
    | some target =>
      -- What answers the method at the path that is chosen would be a route for the request.
      obtain ⟨bound, htarget, hmethod⟩ := Router.mem_of_dispatch? hdispatch
      obtain ⟨b, hb, rfl, hpath, -⟩ := h.binds_iff.1 ⟨e, he, rfl, htarget⟩
      rw [h.map_path_entries, ← hpath] at hchosen
      refine absurd ⟨hb, hmethod.imp_right fun ⟨hhead, hget, hother⟩ =>
        ⟨hhead, hget, fun b' hb' hsame hname => ?_⟩, taken, hchosen⟩ (hnone b)
      obtain ⟨e', he', hpath', ht⟩ := h.binds_iff.2 ⟨b', hb', rfl, rfl, rfl⟩
      obtain rfl := List.inj_on_of_nodup_map h.orderly.paths he' he
        (hpath'.trans (hsame.trans hpath))
      exact hother _ ht hname

/-- What is done about a request that meets a route with this handler. -/
def routed (target : Handler σ) (r : Incoming) (values : List (String × List Char)) :
    Action σ Response := do
  let response ← serveRoute target r (readParams values)
  return response.sentFor r.method

theorem serve_of_find {r : Incoming} {values : List (String × List Char)}
    (hfind : app.router.find r.method r.path = .route target values) :
    app.serve r = routed target r values := by
  rw [App.serve, hfind]
  rfl

/-- Every route of an application runs inside its layers. -/
structure Wraps (layers : List (Layer σ)) (bs : List (Binding σ)) (app : App σ) : Prop where
  /-- What a request meets is a route that was bound, inside the layers. -/
  met : ∀ (r : Incoming) target values,
    app.router.find r.method r.path = .route target values →
      ∃ b ∈ bs, Serves b.method (b.group ++ b.path) r.method r.path values ∧
        app.serve r = routed (compose (layers ++ b.layers) b.handler) r values
  /-- Every route that was bound is met by the requests that are for it. -/
  meant : ∀ b (r : Incoming), Binding.ChosenBy bs b r →
    ∃ values, Serves b.method (b.group ++ b.path) r.method r.path values ∧
      app.serve r = routed (compose (layers ++ b.layers) b.handler) r values

/-- In every application routes run inside their layers. -/
theorem App.Built.wraps (h : App.Built layers bs app) : Wraps layers bs app where
  met r target values hfind := by
    obtain ⟨b, hb, hserves, rfl⟩ := h.find hfind
    rw [Binding.inner, ← compose_append] at hfind
    exact ⟨b, hb, hserves, serve_of_find hfind⟩
  meant b r hchosen := by
    obtain ⟨values, hserves, hfind⟩ := h.find_of_chosenBy hchosen
    exact ⟨values, hserves, serve_of_find hfind⟩

end AccountService.Pipeline
