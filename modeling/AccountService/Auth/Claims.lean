import AccountService.Auth.Error
import AccountService.Auth.RoleSet
import AccountService.Text.Blank
import AccountService.Time.Clock

/-!
# Claims

Who somebody is, who says so, from when until when, and which roles they have. Claims are
carried in tokens at a resolution of whole seconds.

## Main definitions

* `Auth.Claims` — the claims themselves
* `Auth.Claims.issue`, `Auth.Claims.issueBy` — claims that hold from now on
* `Auth.Claims.check` — the conditions under which claims may be signed and accepted
* `Auth.Claims.json` — their written form in answers
-/

namespace AccountService.Auth

/-- Who somebody is, who says so, from when until when, and their roles. -/
structure Claims where
  subject : String
  issuer : String
  issuedAt : Instant
  expiresAt : Instant
  roles : RoleSet
  deriving DecidableEq

namespace Claims

/-- Claims issued at the last whole second that hold for `ttl`. They fail when the end cannot
be held in a timestamp. -/
def issue (now : Instant) (subject issuer : String) (roles : List String) (ttl : Span) :
    Except Error Claims :=
  let issuedAt := now.floorSecond
  let expiresAt := issuedAt.add ttl
  if expiresAt.isTimestamp then
    .ok ⟨subject, issuer, issuedAt, expiresAt, .ofList roles⟩
  else .error (.invalidClaim "exp" ("now + " ++ ttl.iso8601))

/-- Claims issued at what a clock reads; the outer failure is the report of its fault. -/
def issueBy (reading : Instant) (subject issuer : String) (roles : List String) (ttl : Span) :
    Except String (Except Error Claims) :=
  (Clock.read reading).map fun now => issue now subject issuer roles ttl

/-- Whether a role is among the claims. -/
def hasRole (c : Claims) (role : String) : Bool := c.roles.contains role

/-- The conditions under which claims may be signed and accepted: somebody is named, both ends
are whole seconds, and the end comes after the start. The first that fails is reported. -/
def check (c : Claims) : Except Error Unit :=
  if Text.isBlankText c.subject then .error (.invalidClaim "sub" c.subject)
  else if c.issuedAt.subsecond ≠ 0 then
    .error (.invalidClaim "iat" (c.issuedAt.rfc3339 "+00:00"))
  else if c.expiresAt.subsecond ≠ 0 then
    .error (.invalidClaim "exp" (c.expiresAt.rfc3339 "+00:00"))
  else if c.expiresAt.nanos ≤ c.issuedAt.nanos then
    .error (.invalidClaim "exp" (String.ofList (Numeral.ofInt c.expiresAt.seconds)))
  else .ok ()

/-- The written form of claims in answers. -/
def json (c : Claims) : Json :=
  .record
    [("subject", .text c.subject), ("issuer", .text c.issuer),
      ("issued_at", .text (c.issuedAt.rfc3339 "Z")),
      ("expires_at", .text (c.expiresAt.rfc3339 "Z")), ("roles", .texts c.roles.toList)]

end Claims

end AccountService.Auth
