import AccountService.Proofs.Auth.Engine
import AccountService.Proofs.Pipeline.Narration
import AccountService.Proofs.Service.Conduct
import AccountService.Proofs.Service.Routes

/-!
# What the log tells of the service

The handlers of the service answer by what is recorded, so that the log tells what the client got
of whatever meets one of their routes.

## Main definitions

* `Api.bindings` — what the service binds to its routes

## Main statements

* `Api.built_application` — the application comes about from its bindings
* `Api.gated_bindings` — the log can tell of every handler of the service
* `Api.narrated_serve` — the log of every request that meets a route
* `Api.not_narrated_before_1970` — no log while the clock cannot be read
-/

namespace AccountService.Api

open Http Pipeline

variable {σ : Type} (s : Settings σ)

/-! ### The application -/

/-- What the service binds to its routes. -/
def bindings : List (Binding (World σ)) :=
  let authen := authenticate s.engine World.keys
  let admin := authorize Auth.admin
  [⟨"GET", version, "/test", Api.test, []⟩,
    ⟨"GET", version, "/testauth", Api.test, [authen, admin]⟩,
    ⟨"GET", version, "/users/token", Api.token s, []⟩,
    ⟨"POST", version, "/users", Api.create s, [authen, admin]⟩,
    ⟨"GET", version, "/users/:id", queryById s, [authen]⟩,
    ⟨"GET", version, "/users/email/:email", queryByEmail s, [authen, admin]⟩]

/-- The application comes about from its bindings, one after another. -/
theorem built_application : App.Built standard (bindings s) (application s) := by
  have hbound : (bindings s).foldlM App.bound (App.new standard) = .ok (application s) := by
    rw [← app_eq_ok s]
    simp only [bindings, List.foldlM_cons, List.foldlM_nil, App.bound, bind_pure]
    rfl
  exact App.Built.new.foldlM hbound

/-- Events that are not worded as the logger words its own. -/
def Unassuming (e : Log.Event) : Prop := e.message ∉ framing

theorem unassuming_of_message {e : Log.Event} {message : String} (hmessage : message ∉ framing)
    (h : e.message = message) : Unassuming e := by
  rw [Unassuming, h]
  exact hmessage

/-- The routes of the service have gates around handlers of which the log can tell, and none of
these handlers speaks for the logger. -/
theorem gated_bindings : Gated Unassuming (bindings s) := by
  have hall : Allows s fun _ => True := ⟨fun _ _ => trivial, fun _ _ => trivial⟩
  have hforthright {h : Handler (World σ)}
      (hensures : ∀ r l, Ensures (Extends Unassuming l) (fun _ => True) (h r) Obliges) :
      Forthright Unassuming h :=
    forthright_of_ensures fun r l => (hensures r l).imp fun _ _ hobliges => hobliges.1
  have htest : Forthright Unassuming (Api.test : Handler (World σ)) :=
    hforthright fun _ _ => ensures_test enduring_extends fun _ => trivial
  have htoken : Forthright Unassuming (Api.token s) := hforthright fun _ _ =>
    ensures_token enduring_extends (fun _ => trivial) hall fun _ =>
      unassuming_of_message (by decide)
  have hcreate : Forthright Unassuming (Api.create s) := hforthright fun _ _ =>
    ensures_create enduring_extends (fun _ => trivial) hall fun _ =>
      unassuming_of_message (by decide)
  have hbyId : Forthright Unassuming (queryById s) := hforthright fun _ _ =>
    ensures_queryById enduring_extends (fun _ => trivial) hall fun _ _ => trivial
  have hbyEmail : Forthright Unassuming (queryByEmail s) := hforthright fun _ _ =>
    ensures_queryByEmail enduring_extends (fun _ => trivial) hall fun _ _ => trivial
  let authen : Gate (World σ) := .authenticate s.engine World.keys
  let admin : Gate (World σ) := .authorize Auth.admin
  simp only [Gated, bindings, List.forall_mem_cons]
  exact ⟨⟨⟨[], rfl⟩, htest⟩, ⟨⟨[authen, admin], rfl⟩, htest⟩, ⟨⟨[], rfl⟩, htoken⟩,
    ⟨⟨[authen, admin], rfl⟩, hcreate⟩, ⟨⟨[authen], rfl⟩, hbyId⟩,
    ⟨⟨[authen, admin], rfl⟩, hbyEmail⟩, fun _ h => (List.not_mem_nil h).elim⟩

/-- The log tells what the client got. In every application inside the standard layers whose routes
have gates around handlers of which the log can tell, it tells so of every request that meets a
route; and the service is such an application. -/
theorem narrated_serve :
    (∀ {σ : Type} {P : Log.Event → Prop} {bs : List (Binding σ)} {app : App σ},
      App.Built standard bs app → Gated P bs →
        ∀ (site : Site σ) (clock : Instant) (r : Incoming) {target : Handler σ}
          {values : List (String × List Char)},
          app.router.find r.method r.path = .route target values →
            ∃ b ∈ bs, Serves b.method (b.group ++ b.path) r.method r.path values ∧
              Told P b.inner site clock r (readParams values) (site.run clock (app.serve r)).1
                (site.run clock (app.serve r)).2.2) ∧
      ∀ {σ : Type} (s : Settings σ),
        ∃ a, app s = .ok a ∧ App.Built standard (bindings s) a ∧ Gated Unassuming (bindings s) := by
  refine ⟨fun hbuilt hgated site clock r => told_run hbuilt hgated site clock r, fun s => ?_⟩
  exact ⟨application s, app_eq_ok s, built_application s, gated_bindings s⟩

/-- A service over one key and no account. -/
def sampleSettings : Settings Accounts.Store :=
  ⟨.sample (some "accounts"), .memory .digest, "accounts", .ofSeconds 3600⟩

/-- What it starts from. -/
def sampleStart : Site (World Accounts.Store) :=
  ⟨.zero, false, .ofSeed [], ⟨Auth.Engine.sampleKeys, .empty⟩⟩

/-- A request for the check of the pipeline. -/
def sampleCheck : Incoming := ⟨"GET", "/v1/test", [], [], none⟩

theorem find_sampleCheck :
    (application sampleSettings).router.find sampleCheck.method sampleCheck.path =
      .route (compose standard Api.test) [] := by
  have hproper : Resource.test.Proper := trivial
  have hpath : sampleCheck.path.toList = Resource.test.path := rfl
  rw [find_of_path sampleSettings hproper hpath, if_pos (.inl rfl)]
  rfl

theorem narrated_serve_sampleCheck :
    App.Built standard (bindings sampleSettings) (application sampleSettings) ∧
      Gated Unassuming (bindings sampleSettings) ∧
      (application sampleSettings).router.find sampleCheck.method sampleCheck.path =
        .route (compose standard Api.test) [] ∧
      (sampleStart.run (.ofSeconds 0)
        ((application sampleSettings).serve sampleCheck)).2.2.countP
          (·.message == "request completed") = 1 := by
  obtain ⟨a, ha, hbuilt, hgated⟩ := narrated_serve.2 sampleSettings
  obtain rfl := Except.ok.inj ((app_eq_ok sampleSettings).symm.trans ha)
  obtain ⟨b, -, -, htold⟩ := narrated_serve.1 hbuilt hgated sampleStart (.ofSeconds 0) sampleCheck
    find_sampleCheck
  obtain ⟨_, _, _, _, _, hone⟩ := htold
  refine ⟨hbuilt, hgated, find_sampleCheck, hone "request completed" (by decide) ?_⟩
  rintro e hunassuming hmessage
  exact hunassuming (by rw [hmessage]; decide)

/-- Before 1970 the clock cannot be read, and a request that meets a route is not answered and not
logged, though the log could tell of its handler. -/
theorem not_narrated_before_1970 :
    ∃ a, app sampleSettings = .ok a ∧ App.Built standard (bindings sampleSettings) a ∧
      Gated Unassuming (bindings sampleSettings) ∧
      a.router.find sampleCheck.method sampleCheck.path = .route (compose standard Api.test) [] ∧
      (∀ response, (sampleStart.run (.ofSeconds (-1)) (a.serve sampleCheck)).1 ≠ .ok response) ∧
      (sampleStart.run (.ofSeconds (-1)) (a.serve sampleCheck)).2.2.countP
        (·.message == "request started") = 0 := by
  have hclock : Clock.read (.ofSeconds (-1)) = .error (Clock.faultMessage (.ofSeconds (-1))) := by
    decide
  refine ⟨_, app_eq_ok _, built_application _, gated_bindings _, find_sampleCheck, ?_, ?_⟩
  · obtain ⟨hresult, -⟩ := run_of_unreadable sampleStart (.ofSeconds (-1)) find_sampleCheck hclock
    rw [hresult]
    exact fun _ h => by cases h
  · rw [logged_of_unreadable sampleStart (.ofSeconds (-1)) find_sampleCheck hclock]
    rfl

end AccountService.Api
