import AccountService.Service.Api
import AccountService.Proofs.Http.Route

/-!
# The routes of the service

The application binds six endpoints, and every path names the resource of at most one of them.
What a request meets is decided by the resource that its path names and by its method.

## Main definitions

* `Api.Endpoint`, `Api.entry` — the six endpoints as the router holds them
* `Api.Resource`, `Api.Resource.Proper`, `Api.Resource.path` — what a path can name
* `Api.Resource.Answers` — the methods that a resource answers

## Main statements

* `Api.app_eq_ok` — the application can be put together, and holds the six endpoints
* `Api.find_of_path` — what a request for a resource meets
* `Api.find_of_no_path` — what any other request meets
-/

namespace AccountService.Api

open Http Pipeline

/-! ### Endpoints -/

/-- What the application binds to routes. -/
inductive Endpoint where
  | test
  | testauth
  | token
  | create
  | byId
  | byEmail
  deriving DecidableEq

namespace Endpoint

/-- All endpoints, in the order in which they are bound. -/
def all : List Endpoint := [test, testauth, token, create, byId, byEmail]

/-- The path that an endpoint is bound to. -/
def path : Endpoint → String
  | test => "/v1/test"
  | testauth => "/v1/testauth"
  | token => "/v1/users/token"
  | create => "/v1/users"
  | byId => "/v1/users/:id"
  | byEmail => "/v1/users/email/:email"

/-- The pattern that the path writes. -/
def pattern : Endpoint → Pattern
  | byId => ⟨literals "/v1/users/".toList ++ [.segment], ["id"]⟩
  | byEmail => ⟨literals "/v1/users/email/".toList ++ [.segment], ["email"]⟩
  | p => ⟨literals p.path.toList, []⟩

/-- The method that an endpoint is bound to. -/
def method : Endpoint → String
  | create => "POST"
  | _ => "GET"

variable {σ : Type} (s : Settings σ)

/-- What answers at an endpoint, inside the standard layers. -/
def inner : Endpoint → Handler (World σ)
  | test => Api.test
  | testauth =>
    authenticate s.engine World.keys (authorize Auth.admin Api.test)
  | token => Api.token s
  | create => authenticate s.engine World.keys (authorize Auth.admin (Api.create s))
  | byId => authenticate s.engine World.keys (queryById s)
  | byEmail => authenticate s.engine World.keys (authorize Auth.admin (queryByEmail s))

end Endpoint

variable {σ : Type} (s : Settings σ)

/-- An endpoint as the router holds it. -/
def entry (p : Endpoint) : PathEntry (Handler (World σ)) :=
  ⟨p.path, p.pattern, [(p.method, compose standard (p.inner s))]⟩

/-- The application with its six endpoints. -/
def application : App (World σ) := ⟨standard, ⟨Endpoint.all.map (entry s)⟩⟩

/-- The application can be put together, and holds the six endpoints. -/
theorem app_eq_ok : app s = .ok (application s) := by
  rfl

/-! ### Resources -/

/-- What a path can name. -/
inductive Resource where
  | test
  | testauth
  | token
  | users
  /-- The account of an identifier, as it stands in the path. -/
  | user (id : List Char)
  /-- The account of an email, as it stands in the path. -/
  | email (address : List Char)

namespace Resource

/-- The path that names a resource. -/
def path : Resource → List Char
  | test => "/v1/test".toList
  | testauth => "/v1/testauth".toList
  | token => "/v1/users/token".toList
  | users => "/v1/users".toList
  | user id => "/v1/users/".toList ++ id
  | email address => "/v1/users/email/".toList ++ address

/-- A parameter is one segment that is not empty. -/
def Formed : Resource → Prop
  | user id => id ≠ [] ∧ '/' ∉ id
  | email address => address ≠ [] ∧ '/' ∉ address
  | _ => True

/-- A parameter is one segment that is not empty, and no identifier is taken for the name of the
token. -/
def Proper : Resource → Prop
  | user id => id ≠ [] ∧ '/' ∉ id ∧ id ≠ "token".toList
  | email address => address ≠ [] ∧ '/' ∉ address
  | _ => True

/-- Where a resource is served. -/
def endpoint : Resource → Endpoint
  | test => .test
  | testauth => .testauth
  | token => .token
  | users => .create
  | user _ => .byId
  | email _ => .byEmail

/-- What a resource takes from its path. -/
def taken : Resource → List (List Char)
  | user id => [id]
  | email address => [address]
  | _ => []

/-- What a resource takes from its path, by name. -/
def values : Resource → List (String × List Char)
  | user id => [("id", id)]
  | email address => [("email", address)]
  | _ => []

/-- The method that a resource answers; whatever answers `GET` answers `HEAD`. -/
def Answers (res : Resource) (method : String) : Prop :=
  method = res.endpoint.method ∨ method = "HEAD" ∧ res.endpoint.method = "GET"

instance (res : Resource) (method : String) : Decidable (res.Answers method) :=
  inferInstanceAs (Decidable (_ ∨ _ ∧ _))

theorem Proper.formed {res : Resource} (h : res.Proper) : res.Formed := by
  cases res with
  | user id => exact ⟨h.1, h.2.1⟩
  | email address => exact h
  | _ => trivial

theorem ne_append_of_take_ne {front path : List Char} (h : path.take front.length ≠ front)
    (rest : List Char) : path ≠ front ++ rest := by
  rintro rfl
  exact h List.take_left

/-- An identifier is no longer path. -/
theorem users_append_ne_email {id address : List Char} (hslash : '/' ∉ id) :
    "/v1/users/".toList ++ id ≠ "/v1/users/email/".toList ++ address := by
  intro h
  have hsplit : "/v1/users/email/".toList = "/v1/users/".toList ++ "email/".toList := by decide
  rw [hsplit, List.append_assoc, List.append_cancel_left_eq] at h
  exact hslash (h ▸ List.mem_append_left _ (by decide))

/-- A path names one resource, but for that of the token, which might be taken for an
identifier. -/
theorem eq_of_path_eq {a b : Resource} (ha : a.Proper) (hb : b.Formed) (h : a.path = b.path) :
    a = b ∨ a = token ∧ b = user "token".toList := by
  -- The texts tell all paths apart but those of accounts, which have one segment where those of
  -- emails have two.
  cases a with
  | user id =>
    cases b with
    | user id' => exact .inl (congrArg user (List.append_cancel_left h))
    | email address => exact absurd h (users_append_ne_email ha.2.1)
    | token =>
      have hid : id = "token".toList :=
        List.append_cancel_left (show _ = "/v1/users/".toList ++ "token".toList from h)
      exact absurd hid ha.2.2
    | _ => exact absurd h.symm (ne_append_of_take_ne (by decide) _)
  | email address =>
    cases b with
    | user id => exact absurd h.symm (users_append_ne_email hb.2)
    | email address' => exact .inl (congrArg email (List.append_cancel_left h))
    | _ => exact absurd h.symm (ne_append_of_take_ne (by decide) _)
  | token =>
    cases b with
    | user id =>
      have hid : "token".toList = id :=
        List.append_cancel_left (show "/v1/users/".toList ++ "token".toList = _ from h)
      exact .inr ⟨rfl, congrArg user hid.symm⟩
    | email address => exact absurd h (ne_append_of_take_ne (by decide) _)
    | token => exact .inl rfl
    | _ => exact absurd h (by decide)
  | test =>
    cases b with
    | test => exact .inl rfl
    | user id => exact absurd h (ne_append_of_take_ne (by decide) _)
    | email address => exact absurd h (ne_append_of_take_ne (by decide) _)
    | _ => exact absurd h (by decide)
  | testauth =>
    cases b with
    | testauth => exact .inl rfl
    | user id => exact absurd h (ne_append_of_take_ne (by decide) _)
    | email address => exact absurd h (ne_append_of_take_ne (by decide) _)
    | _ => exact absurd h (by decide)
  | users =>
    cases b with
    | users => exact .inl rfl
    | user id => exact absurd h (ne_append_of_take_ne (by decide) _)
    | email address => exact absurd h (ne_append_of_take_ne (by decide) _)
    | _ => exact absurd h (by decide)

/-- A path names one resource. -/
theorem Proper.eq_of_path_eq {a b : Resource} (ha : a.Proper) (hb : b.Proper)
    (h : a.path = b.path) : a = b := by
  rcases Resource.eq_of_path_eq ha hb.formed h with hab | ⟨_, rfl⟩
  · exact hab
  · exact absurd rfl hb.2.2

end Resource

theorem eq_token_of_endpoint_eq {res : Resource} (h : res.endpoint = Resource.token.endpoint) :
    res = .token := by
  cases res <;> first | rfl | cases h

theorem eq_users_of_endpoint_eq {res : Resource} (h : res.endpoint = Resource.users.endpoint) :
    res = .users := by
  cases res <;> first | rfl | cases h

/-- A pattern without parameters matches the path of the one resource of its endpoint. -/
theorem matches_literals_path_iff (res : Resource) (hformed : res.Formed)
    (htaken : res.taken = [])
    (hunique : ∀ res' : Resource, res'.endpoint = res.endpoint → res' = res)
    {path : List Char} {taken : List (List Char)} :
    Matches (literals res.path) path taken ↔
      ∃ res' : Resource, res'.endpoint = res.endpoint ∧ res'.Formed ∧ path = res'.path ∧
        taken = res'.taken := by
  rw [matches_literals]
  constructor
  · rintro ⟨hpath, rfl⟩
    exact ⟨res, rfl, hformed, hpath, htaken.symm⟩
  · rintro ⟨res', hres', _, hpath, htaken'⟩
    obtain rfl := hunique res' hres'
    exact ⟨hpath, htaken'.trans htaken⟩

/-- The pattern of an endpoint matches the paths of its resources. -/
theorem matches_pattern_iff {p : Endpoint} {path : List Char} {taken : List (List Char)} :
    Matches p.pattern.parts path taken ↔
      ∃ res : Resource, res.endpoint = p ∧ res.Formed ∧ path = res.path ∧ taken = res.taken := by
  cases p with
  | test =>
    apply matches_literals_path_iff .test trivial rfl
    intro res h
    cases res <;> cases h
    rfl
  | testauth =>
    apply matches_literals_path_iff .testauth trivial rfl
    intro res h
    cases res <;> cases h
    rfl
  | token =>
    apply matches_literals_path_iff .token trivial rfl
    intro res h
    cases res <;> cases h
    rfl
  | create =>
    apply matches_literals_path_iff .users trivial rfl
    intro res h
    cases res <;> cases h
    rfl
  | byId =>
    rw [show Endpoint.byId.pattern.parts = literals "/v1/users/".toList ++ [.segment] from rfl,
      matches_literals_append]
    simp only [matches_segment]
    constructor
    · rintro ⟨id, rfl, hne, hslash, rfl⟩
      exact ⟨.user id, rfl, ⟨hne, hslash⟩, rfl, rfl⟩
    · rintro ⟨res, hres, hformed, rfl, rfl⟩
      cases res with
      | user id => exact ⟨id, rfl, hformed.1, hformed.2, rfl⟩
      | _ => cases hres
  | byEmail =>
    rw [show Endpoint.byEmail.pattern.parts = literals "/v1/users/email/".toList ++ [.segment]
      from rfl, matches_literals_append]
    simp only [matches_segment]
    constructor
    · rintro ⟨address, rfl, hne, hslash, rfl⟩
      exact ⟨.email address, rfl, ⟨hne, hslash⟩, rfl, rfl⟩
    · rintro ⟨res, hres, hformed, rfl, rfl⟩
      cases res with
      | email address => exact ⟨address, rfl, hformed.1, hformed.2, rfl⟩
      | _ => cases hres

/-! ### What a request meets -/

/-- The endpoints as candidates of a search. -/
def candidates : List (Candidate (PathEntry (Handler (World σ)))) :=
  (Endpoint.all.map (entry s)).map fun e => ⟨e.pattern.parts, [], e⟩

theorem mem_candidates {k : Candidate (PathEntry (Handler (World σ)))} :
    k ∈ candidates s ↔ ∃ p : Endpoint, k = ⟨p.pattern.parts, [], entry s p⟩ := by
  simp only [candidates, List.map_map, List.mem_map]
  constructor
  · rintro ⟨p, _, rfl⟩
    exact ⟨p, rfl⟩
  · rintro ⟨p, rfl⟩
    exact ⟨p, by cases p <;> decide, rfl⟩

/-- No resource has a path that ends in a slash. -/
theorem Resource.Formed.getLast?_path {res : Resource} (h : res.Formed) :
    res.path.getLast? ≠ some '/' := by
  have hparameter {front value : List Char} (hne : value ≠ []) (hslash : '/' ∉ value) :
      (front ++ value).getLast? ≠ some '/' := by
    intro hlast
    rw [List.getLast?_append_of_ne_nil front hne] at hlast
    exact hslash (List.mem_of_getLast? hlast)
  cases res with
  | user id => exact hparameter h.1 h.2
  | email address => exact hparameter h.1 h.2
  | _ => decide

/-- The search finds the endpoint of the resource that a path names. -/
theorem search_candidates {res : Resource} (h : res.Proper) :
    search false res.path (candidates s) = .route res.taken (entry s res.endpoint) := by
  -- Something is found, and what is found has this path, so it is this resource.
  cases hfound : search false res.path (candidates s) with
  | nothing =>
    have hmatch := matches_pattern_iff.2 ⟨res, rfl, h.formed, rfl, rfl⟩
    have hmem := (mem_candidates s).2 ⟨res.endpoint, rfl⟩
    exact absurd hmatch (not_matches_of_search_eq_nothing _ _ _ hfound _ hmem _)
  | deadEnd =>
    rcases slash_of_search_eq_deadEnd _ _ _ hfound with hlast | ⟨k, hk, -, taken, hmatch⟩
    · exact absurd hlast h.formed.getLast?_path
    · obtain ⟨p, rfl⟩ := (mem_candidates s).1 hk
      obtain ⟨res', -, hformed, hpath, -⟩ := matches_pattern_iff.1 hmatch
      exact absurd (by rw [← hpath, List.getLast?_concat]) hformed.getLast?_path
  | route values target =>
    obtain ⟨k, hk, taken, hmatch, rfl, rfl⟩ := search_sound hfound
    obtain ⟨p, rfl⟩ := (mem_candidates s).1 hk
    obtain ⟨res', rfl, hformed, hpath, rfl⟩ := matches_pattern_iff.1 hmatch
    rcases Resource.eq_of_path_eq h hformed hpath with rfl | ⟨rfl, rfl⟩
    · rfl
    · -- The path of the token stands for itself at its own endpoint.
      have hmem := (mem_candidates s).2 ⟨.token, rfl⟩
      obtain ⟨k', hk', hparts, hsearch⟩ := search_literals false hmem rfl
      obtain ⟨p', rfl⟩ := (mem_candidates s).1 hk'
      have hp : p'.pattern.parts = literals Endpoint.token.path.toList := hparts
      obtain rfl : p' = .token := by
        clear hk' hparts hsearch
        revert hp
        cases p' <;> decide
      exact hfound.symm.trans hsearch

theorem dispatch?_singleton {α : Type} (bound method : String) (target : α) :
    dispatch? [(bound, target)] method =
      if method = bound ∨ method = "HEAD" ∧ bound = "GET" then some target else none := by
  by_cases hbound : bound = method
  · simp [dispatch?, hbound]
  · have hmethod : method ≠ bound := fun h => hbound h.symm
    by_cases hhead : method = "HEAD"
    · by_cases hget : bound = "GET"
      · simp [dispatch?, hhead, hget]
      · simp [dispatch?, hbound, hmethod, hget]
    · simp [dispatch?, hbound, hmethod, hhead]

/-- What a request for a resource meets. -/
theorem find_of_path {res : Resource} {path : String} (h : res.Proper)
    (hpath : path.toList = res.path) (method : String) :
    (application s).router.find method path =
      if res.Answers method then .route (compose standard (res.endpoint.inner s)) res.values
      else .notAllowed (allowed [res.endpoint.method]) := by
  have hsearch := search_candidates s h
  rw [candidates] at hsearch
  rw [Router.find, hpath, application, hsearch]
  by_cases hanswers : res.Answers method
  · have hdispatch := (dispatch?_singleton res.endpoint.method method
      (compose standard (res.endpoint.inner s))).trans (if_pos hanswers)
    simp only [entry, hdispatch, if_pos hanswers]
    cases res <;> rfl
  · have hdispatch := (dispatch?_singleton res.endpoint.method method
      (compose standard (res.endpoint.inner s))).trans (if_neg hanswers)
    simp only [entry, hdispatch, if_neg hanswers]
    rfl

/-- What a request meets whose path names nothing. -/
theorem find_of_no_path {path : String} (h : ∀ res : Resource, res.Proper → path.toList ≠ res.path)
    (method : String) : (application s).router.find method path = .notFound := by
  have hsearch (values : List (List Char)) (e : PathEntry (Handler (World σ))) :
      search false path.toList (candidates s) ≠ .route values e := by
    intro hfound
    obtain ⟨k, hk, taken, hmatch, -, -⟩ := search_sound hfound
    obtain ⟨p, rfl⟩ := (mem_candidates s).1 hk
    obtain ⟨res, _, hformed, hpath, _⟩ := matches_pattern_iff.1 hmatch
    -- The one improper identifier stands for the path of the token.
    by_cases htoken : res = .user "token".toList
    · exact absurd (hpath.trans (by rw [htoken]; decide)) (h .token trivial)
    · refine absurd hpath (h res ?_)
      cases res with
      | user id => exact ⟨hformed.1, hformed.2, fun hid => htoken (hid ▸ rfl)⟩
      | email address => exact hformed
      | _ => trivial
  rw [candidates] at hsearch
  rw [Router.find, application]
  split
  · next values e hfound => exact absurd hfound (hsearch values e)
  · rfl

end AccountService.Api
