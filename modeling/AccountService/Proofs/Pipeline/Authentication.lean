import AccountService.Proofs.Auth.Credentials
import AccountService.Proofs.Auth.Engine
import AccountService.Proofs.Pipeline.Exec

/-!
# Who passes authentication

A request passes the authentication of a route exactly if its first `Authorization` header bears
a token that the engine validates at this moment. Whoever does not pass is told so with the
status 401, whatever is wrong, and whoever passes but has not the role that a route wants, with
the status 403.

## Main definitions

* `Auth.Bears` — headers bear a token that is validated to claims
* `Auth.presented` — what headers present to an engine

## Main statements

* `Auth.Engine.status_of_accept` — every refusal of a token is the caller's fault
* `Auth.Engine.status_of_generate`, `Auth.status_of_basicCredentials` — and so is every refusal to
  hand one out
* `Pipeline.exec_authenticate_of_bears`, `Pipeline.exec_authenticate_of_not_bears` — the layer
  that wants a token
* `Pipeline.exec_authorize_of_hasRole`, `Pipeline.exec_authorize_of_not_hasRole` — the layer that
  wants a role
-/

namespace AccountService.Auth

open Http
open Json (Node)

/-! ### Refusals -/

theorem Error.status_toRequest (err : Error) : err.toRequest.status = err.status := by
  cases err <;> rfl

namespace Engine

variable {e : Engine} {keys : KeyStore} {now : Instant} {err : Error}

theorem status_of_checkHeader {header : List Char} (h : e.checkHeader header = .error err) :
    err.status = .unauthorized := by
  rw [checkHeader] at h
  split at h
  · cases h; rfl
  · split at h
    · cases h; rfl
    · split at h
      · next err' hkid =>
        cases h
        rw [declaredKid] at hkid
        split at hkid
        · cases hkid; rfl
        · split at hkid <;> cases hkid
          rfl
      · split at h
        · next err' halgorithm =>
          cases h
          rw [checkAlgorithm] at halgorithm
          split at halgorithm
          · cases halgorithm; rfl
          · split at halgorithm
            · cases halgorithm; rfl
            · split at halgorithm <;> cases halgorithm
              rfl
        · cases h

theorem status_of_lookup {kid : String} (h : keys.lookup kid = .error err) :
    err.status = .unauthorized := by
  rw [KeyStore.lookup] at h
  split at h <;> cases h
  rfl

theorem status_of_openPayload {key : Rsa.PublicKey} {members : List (String × Node)}
    {t : Token.Parts} (h : e.openPayload key members t = .error err) :
    err.status = .unauthorized := by
  rw [openPayload] at h
  split at h
  · cases h; rfl
  · split at h
    · cases h; rfl
    · split at h
      · cases h; rfl
      · split at h
        · cases h; rfl
        · split at h <;> cases h
          rfl

theorem status_of_checkTime {r : Token.Registered} (h : e.checkTime now r = .error err) :
    err.status = .unauthorized := by
  cases r with
  | unreadable => cases h; rfl
  | endless => cases h; rfl
  | endsAt s =>
    rw [checkTime] at h
    split at h <;> cases h
    rfl

theorem status_of_checkIssuer {p : Token.Payload} (h : e.checkIssuer p = .error err) :
    err.status = .unauthorized := by
  rw [checkIssuer] at h
  split at h
  · split at h <;> cases h
    rfl
  · cases h

theorem status_of_timestamp {claim : String} {s : Int} (h : timestamp claim s = .error err) :
    err.status = .unauthorized := by
  rw [timestamp] at h
  split at h <;> cases h
  rfl

theorem status_of_check {c : Claims} (h : c.check = .error err) : err.status = .unauthorized := by
  rw [Claims.check] at h
  split at h
  · cases h; rfl
  · split at h
    · cases h; rfl
    · split at h
      · cases h; rfl
      · split at h <;> cases h
        rfl

theorem status_of_rebuild {p : Token.Payload} (h : rebuild p = .error err) :
    err.status = .unauthorized := by
  rw [rebuild] at h
  split at h
  · next err' htime => cases h; exact status_of_timestamp htime
  · split at h
    · next err' htime => cases h; exact status_of_timestamp htime
    · simp only at h
      split at h
      · next err' hcheck => cases h; exact status_of_check hcheck
      · cases h

/-- Every refusal of a token is the caller's fault. -/
theorem status_of_accept {token : String} (h : e.accept keys now token = .error err) :
    err.status = .unauthorized := by
  rw [accept] at h
  split at h
  · cases h; rfl
  · split at h
    · next err' hheader => cases h; exact status_of_checkHeader hheader
    · split at h
      · next err' hlookup => cases h; exact status_of_lookup hlookup
      · split at h
        · next err' hunder =>
          cases h
          rw [acceptUnder] at hunder
          split at hunder
          · next err' hopen => cases hunder; exact status_of_openPayload hopen
          · split at hunder
            · next err' htime => cases hunder; exact status_of_checkTime htime
            · split at hunder
              · next err' hissuer => cases hunder; exact status_of_checkIssuer hissuer
              · exact status_of_rebuild hunder
        · cases h

/-- A token that is not signed is not the caller's to have, whatever the reason. -/
theorem status_of_generate {salt : Octets} {c : Claims} (h : e.generate keys salt c = .error err) :
    err.status = .unauthorized := by
  rw [generate] at h
  split at h
  · next err' hcheck => cases h; exact status_of_check hcheck
  · split at h
    · cases h; rfl
    · dsimp only at h
      split at h <;> cases h
      rfl

end Engine

theorem Claims.status_of_issue {now : Instant} {subject issuer : String} {roles : List String}
    {ttl : Span} {err : Error} (h : issue now subject issuer roles ttl = .error err) :
    err.status = .unauthorized := by
  rw [issue] at h
  split at h <;> cases h
  rfl

theorem status_of_basicCredentials {headers : List Header} {err : Error}
    (h : basicCredentials headers = .error err) : err.status = .unauthorized := by
  obtain rfl | rfl := eq_of_basicCredentials_eq_error h <;> rfl

theorem status_of_bearerToken {headers : List Header} {err : Error}
    (h : bearerToken headers = .error err) : err.status = .unauthorized := by
  rw [bearerToken, authorization] at h
  split at h
  · cases h; rfl
  · rw [parseBearer] at h
    split at h <;> cases h
    rfl

/-! ### Bearers -/

/-- The first `Authorization` header bears a token that the engine validates, over these keys
and at this instant, to these claims. -/
def Bears (e : Engine) (keys : KeyStore) (now : Instant) (headers : List Header) (c : Claims) :
    Prop :=
  ∃ token, bearerToken headers = .ok token ∧ e.validate keys now token = .ok c

/-- What headers present to an engine: the claims of the token that they bear, with the name of its
key, or why there are none. -/
def presented (e : Engine) (keys : KeyStore) (now : Instant) (headers : List Header) :
    Except Error (String × Claims) :=
  match bearerToken headers with
  | .error err => .error err
  | .ok token => e.accept keys now token

section Presented

variable {e : Engine} {keys : KeyStore} {now : Instant} {headers : List Header} {c : Claims}

theorem bears_iff :
    Bears e keys now headers c ↔ ∃ kid, presented e keys now headers = .ok (kid, c) := by
  rw [Bears, presented]
  cases bearerToken headers with
  | error err => simp
  | ok token => simp [Engine.validate_eq_ok_iff]

theorem exists_presented_eq_error (h : ∀ c, ¬ Bears e keys now headers c) :
    ∃ err, presented e keys now headers = .error err := by
  cases hpresented : presented e keys now headers with
  | error err => exact ⟨err, rfl⟩
  | ok accepted => exact absurd (bears_iff.2 ⟨accepted.1, hpresented⟩) (h accepted.2)

theorem status_of_presented {err : Error} (h : presented e keys now headers = .error err) :
    err.status = .unauthorized := by
  rw [presented] at h
  cases htoken : bearerToken headers with
  | error err' =>
    rw [htoken] at h
    obtain rfl := Except.error.inj h
    exact status_of_bearerToken htoken
  | ok token =>
    rw [htoken] at h
    exact Engine.status_of_accept h

end Presented

end AccountService.Auth

namespace AccountService.Pipeline

open Http

variable {σ : Type} (engine : Auth.Engine) (keys : σ → Auth.KeyStore) (next : Handler σ)
  (r : Request) (x : Exchange σ)

/-- A request with a token that is validated goes on, with its claims known. -/
theorem exec_authenticate_of_bears {c : Auth.Claims}
    (h : Auth.Bears engine (keys x.world) x.clock r.incoming.headers c) :
    ∃ event, exec (authenticate engine keys next r) x =
      exec (next { r with claims := some c }) (x.logging event) := by
  obtain ⟨token, htoken, hvalidate⟩ := h
  obtain ⟨kid, haccept⟩ := Auth.Engine.validate_eq_ok_iff.1 hvalidate
  refine ⟨⟨.debug, "validated token", [("kid", kid), ("subject", c.subject)]⟩, ?_⟩
  simp only [authenticate, htoken, exec_bind, exec_get, haccept, exec_log]

/-- A request that presents no claims is told why. -/
theorem exec_authenticate_of_error {err : Auth.Error}
    (h : Auth.presented engine (keys x.world) x.clock r.incoming.headers = .error err) :
    ∃ y, exec (authenticate engine keys next r) x = (.error (.error (.ofAuth err)), y) ∧
      y.world = x.world := by
  rw [Auth.presented] at h
  -- Either the headers hold no token, or the engine refuses the one that they hold.
  cases htoken : Auth.bearerToken r.incoming.headers with
  | error err' =>
    rw [htoken] at h
    obtain rfl := Except.error.inj h
    refine ⟨x, ?_, rfl⟩
    simp only [authenticate, htoken, exec_fail]
  | ok token =>
    rw [htoken] at h
    refine ⟨x.logging ⟨.debug, "token rejected",
      [("trace_id", r.traceId), ("error", err.message)]⟩, ?_, rfl⟩
    simp only [authenticate, htoken, exec_bind, exec_get, h, exec_log, exec_fail]

/-- A request without a token that is validated ends with the status 401. -/
theorem exec_authenticate_of_not_bears
    (h : ∀ c, ¬ Auth.Bears engine (keys x.world) x.clock r.incoming.headers c) :
    ∃ q y, exec (authenticate engine keys next r) x = (.error (.error (.request q)), y) ∧
      q.status = .unauthorized ∧ y.world = x.world := by
  obtain ⟨err, herr⟩ := Auth.exists_presented_eq_error h
  obtain ⟨y, hfail, hworld⟩ := exec_authenticate_of_error engine keys next r x herr
  exact ⟨err.toRequest, y, hfail,
    (Auth.Error.status_toRequest err).trans (Auth.status_of_presented herr), hworld⟩

variable {r} {c : Auth.Claims} {role : String}

/-- A request whose claims have the role goes on. -/
theorem exec_authorize_of_hasRole (hclaims : r.claims = some c) (hrole : c.hasRole role = true) :
    exec (authorize role next r) x = exec (next r) x := by
  simp only [authorize, hclaims, Auth.ensureRole, Auth.authorized, hrole, if_true]

/-- A request whose claims do not have the role ends with the status 403. -/
theorem exec_authorize_of_not_hasRole (hclaims : r.claims = some c)
    (hrole : c.hasRole role = false) :
    exec (authorize role next r) x = (.error (.error (.ofForbidden ⟨role⟩)), x) := by
  simp only [authorize, hclaims, Auth.ensureRole, Auth.authorized, hrole, Bool.false_eq_true,
    if_false, exec_fail]

end AccountService.Pipeline
