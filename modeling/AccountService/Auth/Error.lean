import AccountService.Http.RequestError

/-!
# Errors of authentication

Why a token, a credential or a key is refused, how that is worded, and what of it is shown
to the caller.

## Main definitions

* `Auth.Error` — the causes
* `Auth.Error.message` — their wording
* `Auth.Error.toRequest` — what the caller sees
-/

namespace AccountService.Auth

open Http

/-- Why a token, a credential or a key is refused. -/
inductive Error where
  /-- The token names no key. -/
  | missingKeyId
  /-- The token names its key by something that is no text. -/
  | malformedKeyId
  /-- No key goes by this name. -/
  | keyNotFound (kid : String)
  /-- Tokens are not signed by this algorithm here. -/
  | unsupportedAlgorithm (name : String)
  /-- The token is signed by another algorithm than wanted. -/
  | algorithmMismatch (expected found : String)
  /-- The token cannot be read. -/
  | malformedToken (detail : String)
  | invalidSignature
  | expired
  /-- The token was issued by somebody else. -/
  | invalidIssuer (issuer : String)
  /-- A claim has a value that it may not have. -/
  | invalidClaim (claim value : String)
  /-- A token could not be signed. -/
  | signing (detail : String)
  /-- The material of a key cannot be read. -/
  | keyParse (kid detail : String)
  /-- The keys cannot be loaded. -/
  | keyStore (detail : String)
  | missingAuthorization
  | invalidAuthorization
  deriving DecidableEq, Repr

namespace Error

/-- The wording of a cause. -/
def message : Error → String
  | missingKeyId => "missing key id (kid) in token header"
  | malformedKeyId => "token key id (kid) must be a string"
  | keyNotFound kid => "no key registered for kid '" ++ kid ++ "'"
  | unsupportedAlgorithm name => "unsupported signing algorithm '" ++ name ++ "'"
  | algorithmMismatch expected found =>
    "token declares algorithm '" ++ found ++ "', expected '" ++ expected ++ "'"
  | malformedToken detail => "malformed token: " ++ detail
  | invalidSignature => "token signature is invalid"
  | expired => "token has expired"
  | invalidIssuer issuer => "token issuer '" ++ issuer ++ "' is not accepted"
  | invalidClaim claim value => "invalid claim '" ++ claim ++ "' with value '" ++ value ++ "'"
  | signing detail => "signing token: " ++ detail
  | keyParse kid detail => "failed to parse key material for kid '" ++ kid ++ "': " ++ detail
  | keyStore detail => "failed to load key store: " ++ detail
  | missingAuthorization => "authorization header missing"
  | invalidAuthorization => "authorization header malformed"

/-- Broken keys are the service's fault; everything else is the caller's. -/
def status : Error → Status
  | keyParse _ _ => .internalError
  | keyStore _ => .internalError
  | _ => .unauthorized

/-- What the caller sees. Why a token could not be signed stays hidden: it names keys. -/
def toRequest : Error → RequestError
  | signing _ => .unauthorized "unable to issue token"
  | e => .ofStatus e.status e.message

end Error

end AccountService.Auth
