import AccountService.Auth.Claims

/-!
# Access decisions

What the holder of claims may do: an action is open to a role, or to the owner of a resource
and a role.

## Main definitions

* `Auth.authorized` — the claims hold the role
* `Auth.isSelfOrRole` — the claims are the owner's or hold the role
* `Auth.ensureRole`, `Auth.Forbidden` — the refusal of everybody else
-/

namespace AccountService.Auth

/-- The refusal of an action that needs a role. -/
structure Forbidden where
  /-- The role that is needed. -/
  required : String
  deriving DecidableEq, Repr

/-- What the caller sees of a refusal. -/
def Forbidden.toRequest (f : Forbidden) : Http.RequestError :=
  .forbidden ("attempted action is not allowed: requires role " ++ f.required)

/-- Whether the claims hold a role. -/
def authorized (c : Claims) (role : String) : Bool := c.hasRole role

/-- Whether the claims are those of the owner or hold a role. The owner is recognised by the
text of the id. -/
def isSelfOrRole (c : Claims) (owner role : String) : Bool :=
  c.subject == owner || authorized c role

/-- Refuses claims that do not hold a role. -/
def ensureRole (c : Claims) (role : String) : Except Forbidden Unit :=
  if authorized c role then .ok () else .error ⟨role⟩

end AccountService.Auth
